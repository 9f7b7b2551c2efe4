import Mathlib.Data.List.Perm.Basic
import SpectraGQL.Data.Separated
import SpectraGQL.Interceptors.Manager
import SpectraGQL.Interceptors.Jwt

/-! # Which tokens a provider accepts (`interceptors/auth.rs`, `AuthProvider::verify_jwt`)

What an accepted token is made of, and under which key: the kind of the key says which
algorithm the header may name.  The key map of a JWKS has no order of its own, so what
depends on the order in which it is iterated is said here as well.
-/

namespace SpectraGQL.Interceptors

open SpectraGQL.Http SpectraGQL.Protocol

/-! ## Keys and their algorithms -/

/-- The keys behind a provider, by what they verify with. -/
inductive VerificationKey where
  | secret (bytes : Bytes)
  | rsa (derBytes : Bytes)
  | ed25519 (rawBytes : Bytes)
  deriving DecidableEq, Repr

namespace VerificationKey

/-- The names under which a header may ask for a kind of key. -/
def algorithms : VerificationKey → List String
  | secret _ => ["HS256"]
  | rsa _ => ["RS256"]
  | ed25519 _ => ["EdDSA", "ED25519"]

def verifies (crates : JwtCrates) : VerificationKey → (signedData signature : Bytes) → Bool
  | secret bytes => crates.hmacVerify bytes
  | rsa derBytes => crates.rsaVerify derBytes
  | ed25519 rawBytes => crates.ed25519Verify rawBytes

def IsRsa : VerificationKey → Prop
  | rsa _ => True
  | _ => False

/-- A header that names an algorithm names one of the key; one that names none means RSA. -/
def Dictates (key : VerificationKey) (header : Json) : Prop :=
  match (header.get "alg").bind Json.asStr with
  | some alg => alg ∈ key.algorithms
  | none => key.IsRsa

end VerificationKey

def JwksKey.asVerificationKey : JwksKey → VerificationKey
  | .rsaPkcs1 derBytes => .rsa derBytes
  | .ed25519 rawBytes => .ed25519 rawBytes

/-- A provider may use a key on a token that names `kid`, or no key at all. -/
inductive AuthProvider.Offers : AuthProvider → Option String → VerificationKey → Prop where
  | hmac {secret : Bytes} {kid : Option String} : Offers (.hmac secret) kid (.secret secret)
  | staticKey {expected kid : Option String} {key : JwksKey}
      (agree : ∀ wanted ∈ expected, ∀ named ∈ kid, named = wanted) :
      Offers (.staticKey expected key) kid key.asVerificationKey
  | named {keys : List (String × JwksKey)} {kid : String} {key : JwksKey}
      (listed : keys.lookup kid = some key) : Offers (.jwks keys) (some kid) key.asVerificationKey
  | unnamed {keys : List (String × JwksKey)} {kid : String} {key : JwksKey}
      (listed : (kid, key) ∈ keys) : Offers (.jwks keys) none key.asVerificationKey

/-! ## The parts of a token -/

/-- A token as three texts between dots that decode. -/
structure TokenParts (crates : JwtCrates) (token : String) where
  header : String
  body : String
  signature : String
  split : token = header ++ "." ++ body ++ "." ++ signature
  dotFree : ∀ part ∈ [header, body, signature], '.' ∉ part.toList
  headerJson : Json
  payload : Json
  signatureBytes : Bytes
  headerDecoded : crates.decodeJsonB64url header = .ok headerJson
  payloadDecoded : crates.decodeJsonB64url body = .ok payload
  signatureDecoded : crates.decodeB64url signature = .ok signatureBytes

namespace TokenParts

variable {crates : JwtCrates} {token : String}

/-- What the signature is over. -/
def signedData (parts : TokenParts crates token) : Bytes := asBytes (parts.header ++ "." ++ parts.body)

/-- The key that the header names; only text is a name. -/
def kid (parts : TokenParts crates token) : Option String := (parts.headerJson.get "kid").bind Json.asStr

/-- The same parts as `parseJwt` returns them. -/
def asJwt (parts : TokenParts crates token) : Jwt :=
  ⟨parts.headerJson, parts.payload, parts.signatureBytes, parts.signedData⟩

end TokenParts

/-- Three parts between dots put together again. -/
theorem eq_of_splitOn_three {token header body signature : String}
    (pieces : splitOn '.' token = [header, body, signature]) :
    token = header ++ "." ++ body ++ "." ++ signature ∧
      ∀ part ∈ [header, body, signature], '.' ∉ part.toList := by
  have lists : token.toList.splitOn '.' = [header.toList, body.toList, signature.toList] := by
    have back := congrArg (List.map String.toList) pieces
    simpa [splitOn, Function.comp_def] using back
  constructor
  · apply String.toList_injective
    have joined : ['.'].intercalate (token.toList.splitOn '.') = token.toList :=
      List.intercalate_splitOn '.'
    rw [lists] at joined
    simpa [List.intercalate, String.toList_append] using joined.symm
  · intro part member
    apply Data.not_mem_of_mem_splitOn token.toList
    rw [lists]
    simpa using List.mem_map_of_mem (f := String.toList) member

theorem ok_of_withContext {α : Type} {context : String} {result : Except String α} {value : α}
    (decoded : withContext context result = .ok value) : result = .ok value := by
  cases result with
  | ok other => simpa [withContext] using decoded
  | error error => cases decoded

/-- A token that parses has parts, and these are what is returned. -/
theorem exists_parts_of_parseJwt {crates : JwtCrates} {token : String} {jwt : Jwt}
    (parsed : parseJwt crates token = .ok jwt) :
    ∃ parts : TokenParts crates token, parts.asJwt = jwt := by
  unfold parseJwt at parsed
  split at parsed
  case h_1 header body signature pieces =>
    obtain ⟨split, dotFree⟩ := eq_of_splitOn_three pieces
    obtain ⟨headerJson, readHeader, parsed⟩ := exists_of_bind_eq_ok parsed
    obtain ⟨payload, readPayload, parsed⟩ := exists_of_bind_eq_ok parsed
    obtain ⟨signatureBytes, readSignature, parsed⟩ := exists_of_bind_eq_ok parsed
    cases parsed
    exact ⟨⟨header, body, signature, split, dotFree, headerJson, payload, signatureBytes,
      ok_of_withContext readHeader, ok_of_withContext readPayload, ok_of_withContext readSignature⟩, rfl⟩
  case h_2 => cases parsed

/-! ## What acceptance means -/

/-- A key checks a signature of its own algorithms only. -/
theorem verifyKey_eq_ok {crates : JwtCrates} {key : JwksKey} {alg : String}
    {signedData signature : Bytes}
    (verified : verifyKey crates key alg signedData signature = .ok ()) :
    alg ∈ key.asVerificationKey.algorithms ∧
      key.asVerificationKey.verifies crates signedData signature = true := by
  cases key with
  | rsaPkcs1 derBytes =>
    simp only [verifyKey, ne_eq, ite_not] at verified
    split at verified <;> try split at verified
    all_goals simp_all [JwksKey.asVerificationKey, VerificationKey.algorithms, VerificationKey.verifies]
  | ed25519 rawBytes =>
    simp only [verifyKey] at verified
    split at verified <;> try split at verified
    all_goals simp_all [JwksKey.asVerificationKey, VerificationKey.algorithms, VerificationKey.verifies]
    tauto

/-- A signature passes under a key that the provider offers and whose algorithm is asked for. -/
theorem exists_key_of_checkSignature {crates : JwtCrates} {provider : AuthProvider} {jwt : Jwt}
    (verified : checkSignature crates provider jwt = .ok ()) :
    ∃ key, provider.Offers jwt.kid key ∧ jwt.alg ∈ key.algorithms ∧
      key.verifies crates jwt.signedData jwt.signature = true := by
  cases provider with
  | hmac secret =>
    simp only [checkSignature, ne_eq, ite_not] at verified
    split at verified <;> try split at verified
    case isTrue.isTrue isHs256 valid =>
      exact ⟨.secret secret, .hmac, by simp [VerificationKey.algorithms, isHs256], valid⟩
    all_goals cases verified
  | staticKey expected key =>
    have agree : (∀ wanted ∈ expected, ∀ named ∈ jwt.kid, named = wanted) ∧
        verifyKey crates key jwt.alg jwt.signedData jwt.signature = .ok () := by
      unfold checkSignature at verified
      -- without an expected name, or a name in the token, any name will do
      cases expected with
      | none => exact ⟨by simp, verified⟩
      | some wanted =>
        cases named : jwt.kid with
        | none => simpa [named] using verified
        | some kid =>
          by_cases same : wanted = kid
          · simpa [named, same] using verified
          · simp [named, same] at verified
    exact ⟨_, .staticKey agree.1, verifyKey_eq_ok agree.2⟩
  | jwks keys =>
    unfold checkSignature at verified
    cases named : jwt.kid with
    | some kid =>
      cases found : keys.lookup kid with
      | none => simp [named, found] at verified
      | some key =>
        simp only [named, found] at verified
        exact ⟨_, .named found, verifyKey_eq_ok verified⟩
    | none =>
      cases keys with
      | nil => simp [named] at verified
      | cons first rest =>
        simp only [named, List.head?_cons, Option.map_some] at verified
        -- a token without a name is tried with the first key of the set
        have listed : (first.1, first.2) ∈ first :: rest := List.mem_cons_self
        exact ⟨_, .unnamed listed, verifyKey_eq_ok verified⟩

/-- The algorithm of a header is one that the header names, or the default. -/
theorem dictates_of_mem_algorithms {jwt : Jwt} {key : VerificationKey}
    (asked : jwt.alg ∈ key.algorithms) : key.Dictates jwt.header := by
  unfold VerificationKey.Dictates
  unfold Jwt.alg at asked
  cases named : (jwt.header.get "alg").bind Json.asStr with
  | some alg => simpa [named] using asked
  | none =>
    cases key with
    | rsa derBytes => trivial
    | secret bytes => simp [named, VerificationKey.algorithms] at asked
    | ed25519 rawBytes => simp [named, VerificationKey.algorithms] at asked

theorem verifyJwt_of_parse {crates : JwtCrates} {provider : AuthProvider} {nowSecs : Int}
    {token : String} {jwt : Jwt} (parsed : parseJwt crates token = .ok jwt) :
    provider.verifyJwt crates nowSecs token = do
      checkSignature crates provider jwt
      checkTimes nowSecs jwt.payload
      return jwt.payload := by
  unfold AuthProvider.verifyJwt
  rw [parsed]
  rfl

theorem eq_ok_of_verifyJwt {crates : JwtCrates} {provider : AuthProvider} {nowSecs : Int}
    {token : String} {payload : Json}
    (accepted : provider.verifyJwt crates nowSecs token = .ok payload) :
    ∃ jwt, parseJwt crates token = .ok jwt ∧ jwt.payload = payload ∧
      checkSignature crates provider jwt = .ok () ∧ checkTimes nowSecs payload = .ok () := by
  obtain ⟨jwt, parsed, accepted⟩ := exists_of_bind_eq_ok accepted
  obtain ⟨_, signed, accepted⟩ := exists_of_bind_eq_ok accepted
  obtain ⟨_, timely, accepted⟩ := exists_of_bind_eq_ok accepted
  cases accepted
  exact ⟨jwt, parsed, rfl, signed, timely⟩

/-- An accepted token is three texts between dots whose payload is returned, signed as a
whole under a key that the provider offers for the `kid` of its header and that dictates
the `alg` of its header. -/
theorem verifyJwt_sound {crates : JwtCrates} {provider : AuthProvider} {nowSecs : Int}
    {token : String} {payload : Json}
    (accepted : provider.verifyJwt crates nowSecs token = .ok payload) :
    ∃ (parts : TokenParts crates token) (key : VerificationKey),
      parts.payload = payload ∧ provider.Offers parts.kid key ∧ key.Dictates parts.headerJson ∧
        key.verifies crates parts.signedData parts.signatureBytes = true := by
  obtain ⟨jwt, parsed, isPayload, signed, -⟩ := eq_ok_of_verifyJwt accepted
  obtain ⟨parts, rfl⟩ := exists_parts_of_parseJwt parsed
  obtain ⟨key, offered, asked, verified⟩ := exists_key_of_checkSignature signed
  exact ⟨parts, key, isPayload, offered, dictates_of_mem_algorithms asked, verified⟩

/-- What a provider with a secret needs to accept a token. -/
theorem hmac_accepts {crates : JwtCrates} {secret signatureBytes : Bytes} {nowSecs : Int}
    {token header body signature : String} {payload : Json}
    (pieces : splitOn '.' token = [header, body, signature])
    (readsHeader : crates.decodeJsonB64url header = .ok (.object [("alg", .string "HS256")]))
    (readsPayload : crates.decodeJsonB64url body = .ok payload)
    (readsSignature : crates.decodeB64url signature = .ok signatureBytes)
    (valid : crates.hmacVerify secret (asBytes (header ++ "." ++ body)) signatureBytes = true)
    (timely : checkTimes nowSecs payload = .ok ()) :
    (AuthProvider.hmac secret).verifyJwt crates nowSecs token = .ok payload := by
  have parsed : parseJwt crates token =
      .ok ⟨.object [("alg", .string "HS256")], payload, signatureBytes, asBytes (header ++ "." ++ body)⟩ := by
    unfold parseJwt
    rw [pieces]
    simp only [readsHeader, readsPayload, readsSignature, withContext]
    rfl
  rw [verifyJwt_of_parse parsed]
  simp [checkSignature, Jwt.alg, Json.get, Json.asStr, valid, timely, bind, Except.bind, pure, Except.pure]

/-- Crates that know a few texts, documents and signatures, and refuse all others. -/
def tableCrates (decoded : List (String × Bytes)) (documents : List (String × Json))
    (signed : List (VerificationKey × Bytes × Bytes)) : JwtCrates where
  decodeNoPad text := decoded.lookup text
  decodePadded _ := .error "Invalid symbol"
  fromSlice bytes :=
    match (fromUtf8 bytes).bind fun text => documents.lookup text with
    | some value => .ok value
    | none => .error "expected value at line 1 column 1"
  hmacVerify secret signedData signature := signed.contains (.secret secret, signedData, signature)
  rsaVerify derBytes signedData signature := signed.contains (.rsa derBytes, signedData, signature)
  ed25519Verify rawBytes signedData signature :=
    signed.contains (.ed25519 rawBytes, signedData, signature)

/-- The characters of base64 for URLs. -/
def isSegmentChar (char : Char) : Bool := char.isAlphanum || char == '-' || char == '_'

def IsSegment (text : String) : Prop := text.toList.all isSegmentChar = true

instance (text : String) : Decidable (IsSegment text) := inferInstanceAs (Decidable (_ = true))

/-- A token from its parts. -/
def compact (header body signature : String) : String := header ++ "." ++ body ++ "." ++ signature

theorem splitOn_compact {header body signature : String} (one : IsSegment header)
    (two : IsSegment body) (three : IsSegment signature) :
    splitOn '.' (compact header body signature) = [header, body, signature] := by
  have noDot {part : String} (segment : IsSegment part) : '.' ∉ part.toList := by
    intro dot
    have isDot := List.all_eq_true.mp segment '.' dot
    revert isDot
    decide
  have joined : (compact header body signature).toList =
      ['.'].intercalate [header.toList, body.toList, signature.toList] := by
    simp [compact, List.intercalate, String.toList_append]
  unfold splitOn
  rw [joined, List.splitOn_intercalate '.' (by simp [noDot one, noDot two, noDot three]) (by simp)]
  simp

/-- Alice's token under the secret `secret`. -/
def aliceToken : String :=
  compact "eyJhbGciOiJIUzI1NiJ9" "eyJzdWIiOiJhbGljZSJ9" "rSJzVkJH-KnHZ3uThGnEkzcC_XYwqhh3yjQhE5XM8Vc"

def aliceSignature : Bytes :=
  [173, 34, 115, 86, 66, 71, 248, 169, 199, 103, 123, 147, 132, 105, 196, 147, 55, 2, 253, 118, 48,
    170, 24, 119, 202, 52, 33, 19, 149, 204, 241, 87]

def aliceClaims : Json := .object [("sub", .string "alice")]

def aliceCrates : JwtCrates :=
  tableCrates
    [("eyJhbGciOiJIUzI1NiJ9", asBytes "\x7b\"alg\":\"HS256\"\x7d"),
      ("eyJzdWIiOiJhbGljZSJ9", asBytes "\x7b\"sub\":\"alice\"\x7d"),
      ("rSJzVkJH-KnHZ3uThGnEkzcC_XYwqhh3yjQhE5XM8Vc", aliceSignature)]
    [("\x7b\"alg\":\"HS256\"\x7d", .object [("alg", .string "HS256")]),
      ("\x7b\"sub\":\"alice\"\x7d", aliceClaims)]
    [(.secret (asBytes "secret"), asBytes "eyJhbGciOiJIUzI1NiJ9.eyJzdWIiOiJhbGljZSJ9", aliceSignature)]

theorem headerSegment : IsSegment "eyJhbGciOiJIUzI1NiJ9" := by decide +kernel
theorem aliceSegment : IsSegment "eyJzdWIiOiJhbGljZSJ9" := by decide +kernel
theorem aliceSignatureSegment : IsSegment "rSJzVkJH-KnHZ3uThGnEkzcC_XYwqhh3yjQhE5XM8Vc" := by
  decide +kernel

theorem alice_accepted :
    (AuthProvider.hmac (asBytes "secret")).verifyJwt aliceCrates 1700000000 aliceToken =
      .ok aliceClaims := by
  have pieces := splitOn_compact headerSegment aliceSegment aliceSignatureSegment
  exact hmac_accepts pieces rfl rfl rfl rfl rfl

theorem verifyJwt_sound_alice :
    ∃ (parts : TokenParts aliceCrates aliceToken) (key : VerificationKey),
      parts.payload = aliceClaims ∧ (AuthProvider.hmac (asBytes "secret")).Offers parts.kid key ∧
        key.Dictates parts.headerJson ∧
        key.verifies aliceCrates parts.signedData parts.signatureBytes = true :=
  verifyJwt_sound alice_accepted

/-! ## The order of a key map -/

/-- The keys have one kind and, on a token of that kind, agree about its signature. -/
def KeysAgree (crates : JwtCrates) (jwt : Jwt) (one other : JwksKey) : Prop :=
  one.asVerificationKey.algorithms = other.asVerificationKey.algorithms ∧
    (jwt.alg ∈ one.asVerificationKey.algorithms →
      one.asVerificationKey.verifies crates jwt.signedData jwt.signature =
        other.asVerificationKey.verifies crates jwt.signedData jwt.signature)

def JwksKey.wrongAlgorithm : JwksKey → String
  | .rsaPkcs1 _ => "Expected RS256 algorithm for RSA key, got "
  | .ed25519 _ => "Expected EdDSA algorithm for Ed25519 key, got "

def JwksKey.badSignature : JwksKey → String
  | .rsaPkcs1 _ => "RSA signature verification failed"
  | .ed25519 _ => "Ed25519 signature verification failed"

/-- What becomes of a token under a key, whatever the kind of the key. -/
theorem verifyKey_eq (crates : JwtCrates) (key : JwksKey) (alg : String)
    (signedData signature : Bytes) :
    verifyKey crates key alg signedData signature =
      if alg ∈ key.asVerificationKey.algorithms then
        if key.asVerificationKey.verifies crates signedData signature then .ok ()
        else .error key.badSignature
      else .error (key.wrongAlgorithm ++ alg) := by
  cases key with
  | rsaPkcs1 derBytes =>
    by_cases asked : alg = "RS256"
    · cases valid : crates.rsaVerify derBytes signedData signature <;>
        simp [verifyKey, JwksKey.asVerificationKey, VerificationKey.algorithms,
          VerificationKey.verifies, JwksKey.badSignature, asked, valid]
    · simp [verifyKey, JwksKey.asVerificationKey, VerificationKey.algorithms,
        JwksKey.wrongAlgorithm, asked]
  | ed25519 rawBytes =>
    by_cases asked : alg = "EdDSA" ∨ alg = "ED25519"
    · have accepted : ¬ (alg ≠ "EdDSA" ∧ alg ≠ "ED25519") := by tauto
      cases valid : crates.ed25519Verify rawBytes signedData signature <;>
        simp [verifyKey, JwksKey.asVerificationKey, VerificationKey.algorithms,
          VerificationKey.verifies, JwksKey.badSignature, asked, accepted, valid]
    · have refused : alg ≠ "EdDSA" ∧ alg ≠ "ED25519" := by tauto
      simp [verifyKey, JwksKey.asVerificationKey, VerificationKey.algorithms, JwksKey.wrongAlgorithm,
        refused]

theorem take_wrongAlgorithm (key : JwksKey) (alg : String) :
    (key.wrongAlgorithm ++ alg).toList.take 2 = ['E', 'x'] := by
  cases key <;> simp [JwksKey.wrongAlgorithm]

theorem take_badSignature_ne (key : JwksKey) :
    key.badSignature.toList.take 2 ≠ ['E', 'x'] ∧ key.badSignature.toList.take 2 ≠ ['J', 'W'] := by
  cases key <;> simp [JwksKey.badSignature]

/-- What is wrong with the times of a token does not read like what is wrong with its key. -/
theorem take_of_checkTimes {nowSecs : Int} {payload : Json} {error : String}
    (refused : checkTimes nowSecs payload = .error error) : error.toList.take 2 = ['J', 'W'] := by
  unfold checkTimes at refused
  split at refused
  · cases refused
    rfl
  · split at refused
    · cases refused
      rfl
    · cases refused

theorem wrongAlgorithm_inj {one other : JwksKey} {alg : String}
    (same : one.wrongAlgorithm ++ alg = other.wrongAlgorithm ++ alg) :
    one.asVerificationKey.algorithms = other.asVerificationKey.algorithms := by
  have lists := congrArg String.toList same
  cases one <;> cases other <;>
    simp [JwksKey.wrongAlgorithm, JwksKey.asVerificationKey, VerificationKey.algorithms] at lists ⊢

/-- No algorithm belongs to both kinds of keys. -/
theorem algorithms_eq_of_mem {one other : JwksKey} {alg : String}
    (inOne : alg ∈ one.asVerificationKey.algorithms)
    (inOther : alg ∈ other.asVerificationKey.algorithms) :
    one.asVerificationKey.algorithms = other.asVerificationKey.algorithms := by
  cases one <;> cases other <;>
    simp_all [JwksKey.asVerificationKey, VerificationKey.algorithms]

theorem texts_of_algorithms_eq {one other : JwksKey}
    (kind : one.asVerificationKey.algorithms = other.asVerificationKey.algorithms) :
    one.wrongAlgorithm = other.wrongAlgorithm ∧ one.badSignature = other.badSignature := by
  cases one <;> cases other <;>
    simp_all [JwksKey.asVerificationKey, VerificationKey.algorithms, JwksKey.wrongAlgorithm,
      JwksKey.badSignature]

/-- What becomes of a parsed token under a key. -/
def outcome (crates : JwtCrates) (nowSecs : Int) (jwt : Jwt) (key : JwksKey) : Except String Json := do
  verifyKey crates key jwt.alg jwt.signedData jwt.signature
  checkTimes nowSecs jwt.payload
  return jwt.payload

theorem outcome_of_agree {crates : JwtCrates} {nowSecs : Int} {jwt : Jwt} {one other : JwksKey}
    (agree : KeysAgree crates jwt one other) :
    outcome crates nowSecs jwt one = outcome crates nowSecs jwt other := by
  obtain ⟨kind, verdicts⟩ := agree
  obtain ⟨wrong, bad⟩ := texts_of_algorithms_eq kind
  have same : verifyKey crates one jwt.alg jwt.signedData jwt.signature =
      verifyKey crates other jwt.alg jwt.signedData jwt.signature := by
    rw [verifyKey_eq, verifyKey_eq, ← kind, wrong, bad]
    by_cases asked : jwt.alg ∈ one.asVerificationKey.algorithms
    · rw [verdicts asked]
    · simp [asked]
  unfold outcome
  rw [same]

/-- A key refuses an algorithm of another kind, or a signature that is not its own. -/
theorem refusal_of_verifyKey {crates : JwtCrates} {key : JwksKey} {alg error : String}
    {signedData signature : Bytes}
    (refused : verifyKey crates key alg signedData signature = .error error) :
    (alg ∈ key.asVerificationKey.algorithms ∧
      key.asVerificationKey.verifies crates signedData signature = false ∧ error = key.badSignature) ∨
    (alg ∉ key.asVerificationKey.algorithms ∧ error = key.wrongAlgorithm ++ alg) := by
  rw [verifyKey_eq] at refused
  by_cases asked : alg ∈ key.asVerificationKey.algorithms
  · cases valid : key.asVerificationKey.verifies crates signedData signature with
    | true => simp [asked, valid] at refused
    | false =>
      simp only [asked, valid, if_true, Bool.false_eq_true, if_false, Except.error.injEq] at refused
      exact .inl ⟨asked, rfl, refused.symm⟩
  · simp only [asked, if_false, Except.error.injEq] at refused
    exact .inr ⟨asked, refused.symm⟩

/-- A key that refuses a token and one that does not never have the same outcome. -/
theorem outcome_ne_of_refused {crates : JwtCrates} {nowSecs : Int} {jwt : Jwt} {one other : JwksKey}
    {error : String}
    (verified : verifyKey crates one jwt.alg jwt.signedData jwt.signature = .ok ())
    (refused : verifyKey crates other jwt.alg jwt.signedData jwt.signature = .error error) :
    outcome crates nowSecs jwt one ≠ outcome crates nowSecs jwt other := by
  intro same
  cases timely : checkTimes nowSecs jwt.payload with
  | ok => simp [outcome, verified, refused, timely, bind, Except.bind, pure, Except.pure] at same
  | error late =>
    have equal : late = error := by
      simpa [outcome, verified, refused, timely, bind, Except.bind, pure, Except.pure] using same
    subst equal
    have start := take_of_checkTimes timely
    cases refusal_of_verifyKey refused with
    | inl bad =>
      rw [bad.2.2] at start
      exact (take_badSignature_ne other).2 start
    | inr wrong =>
      rw [wrong.2, take_wrongAlgorithm] at start
      simp at start

/-- Keys that refuse a token for the same reason agree about it. -/
theorem agree_of_refused {crates : JwtCrates} {jwt : Jwt} {one other : JwksKey} {error : String}
    (first : verifyKey crates one jwt.alg jwt.signedData jwt.signature = .error error)
    (second : verifyKey crates other jwt.alg jwt.signedData jwt.signature = .error error) :
    KeysAgree crates jwt one other := by
  cases refusal_of_verifyKey first with
  | inl bad =>
    cases refusal_of_verifyKey second with
    | inl alsoBad => exact ⟨algorithms_eq_of_mem bad.1 alsoBad.1, fun _ => bad.2.1.trans alsoBad.2.1.symm⟩
    | inr wrong =>
      have start := take_wrongAlgorithm other jwt.alg
      rw [← wrong.2, bad.2.2] at start
      exact absurd start (take_badSignature_ne one).1
  | inr wrong =>
    cases refusal_of_verifyKey second with
    | inl bad =>
      have start := take_wrongAlgorithm one jwt.alg
      rw [← wrong.2, bad.2.2] at start
      exact absurd start (take_badSignature_ne other).1
    | inr alsoWrong =>
      exact ⟨wrongAlgorithm_inj (wrong.2.symm.trans alsoWrong.2), fun asked => absurd asked wrong.1⟩

/-- The outcome tells whether the key was asked for and whether it signed the token. -/
theorem agree_of_outcome {crates : JwtCrates} {nowSecs : Int} {jwt : Jwt} {one other : JwksKey}
    (same : outcome crates nowSecs jwt one = outcome crates nowSecs jwt other) :
    KeysAgree crates jwt one other := by
  cases first : verifyKey crates one jwt.alg jwt.signedData jwt.signature with
  | ok =>
    cases second : verifyKey crates other jwt.alg jwt.signedData jwt.signature with
    | ok =>
      obtain ⟨inOne, validOne⟩ := verifyKey_eq_ok first
      obtain ⟨inOther, validOther⟩ := verifyKey_eq_ok second
      exact ⟨algorithms_eq_of_mem inOne inOther, fun _ => validOne.trans validOther.symm⟩
    | error error => exact absurd same (outcome_ne_of_refused first second)
  | error error =>
    cases second : verifyKey crates other jwt.alg jwt.signedData jwt.signature with
    | ok => exact absurd same.symm (outcome_ne_of_refused second first)
    | error reason =>
      have equal : error = reason := by
        simpa [outcome, first, second, bind, Except.bind] using same
      subst equal
      exact agree_of_refused first second

theorem lookup_eq_some_iff_mem {α β : Type} [DecidableEq α] {entries : List (α × β)} {key : α} {value : β}
    (distinct : (entries.map Prod.fst).Nodup) :
    entries.lookup key = some value ↔ (key, value) ∈ entries := by
  induction entries with
  | nil => simp
  | cons entry rest inductionHypothesis =>
    obtain ⟨other, kept⟩ := entry
    simp only [List.map_cons, List.nodup_cons] at distinct
    rw [List.lookup_cons]
    by_cases same : key = other
    · subst same
      have fresh : (key, value) ∉ rest := fun member =>
        distinct.1 (List.mem_map_of_mem (f := Prod.fst) member)
      simp [fresh, eq_comm]
    · have apart : (key == other) = false := by simpa using same
      simp [apart, same, inductionHypothesis distinct.2]

/-- Looking a key up does not depend on the order of the map. -/
theorem lookup_eq_of_perm {α β : Type} [DecidableEq α] {entries others : List (α × β)}
    (distinct : (entries.map Prod.fst).Nodup) (same : others.Perm entries) (key : α) :
    others.lookup key = entries.lookup key := by
  have alsoDistinct : (others.map Prod.fst).Nodup := (same.map Prod.fst).nodup_iff.mpr distinct
  apply Option.ext
  intro value
  rw [lookup_eq_some_iff_mem alsoDistinct, lookup_eq_some_iff_mem distinct, same.mem_iff]

/-- A token that names no key has the outcome of the key that is iterated first. -/
theorem verifyJwt_unnamed {crates : JwtCrates} {nowSecs : Int} {token : String} {jwt : Jwt}
    {first : String × JwksKey} {rest : List (String × JwksKey)}
    (parsed : parseJwt crates token = .ok jwt) (unnamed : jwt.kid = none) :
    (AuthProvider.jwks (first :: rest)).verifyJwt crates nowSecs token =
      outcome crates nowSecs jwt first.2 := by
  rw [verifyJwt_of_parse parsed]
  unfold checkSignature outcome
  simp only [unnamed, List.head?_cons, Option.map_some]

/-- A token that names a key has one outcome in every order of the map. -/
theorem verifyJwt_perm_of_named {crates : JwtCrates} {nowSecs : Int} {token kid : String} {jwt : Jwt}
    {keys others : List (String × JwksKey)} (distinct : (keys.map Prod.fst).Nodup)
    (same : others.Perm keys) (parsed : parseJwt crates token = .ok jwt) (named : jwt.kid = some kid) :
    (AuthProvider.jwks others).verifyJwt crates nowSecs token =
      (AuthProvider.jwks keys).verifyJwt crates nowSecs token := by
  rw [verifyJwt_of_parse parsed, verifyJwt_of_parse parsed]
  unfold checkSignature
  simp only [named, lookup_eq_of_perm distinct same]

/-- The result is the same for every order of the key map exactly when the token does not
parse, names a key, or names none and all keys agree about it. -/
theorem verifyJwt_order_free_iff (crates : JwtCrates) (nowSecs : Int) (token : String)
    {keys : List (String × JwksKey)} (distinct : (keys.map Prod.fst).Nodup) :
    (∀ others, others.Perm keys → (AuthProvider.jwks others).verifyJwt crates nowSecs token =
      (AuthProvider.jwks keys).verifyJwt crates nowSecs token) ↔
    ∀ jwt, parseJwt crates token = .ok jwt → jwt.kid = none →
      ∀ one ∈ keys, ∀ other ∈ keys, KeysAgree crates jwt one.2 other.2 := by
  constructor
  · intro orderFree jwt parsed unnamed
    -- every key of the map comes first in some order
    have asFirst : ∀ entry ∈ keys, (AuthProvider.jwks keys).verifyJwt crates nowSecs token =
        outcome crates nowSecs jwt entry.2 := by
      intro entry member
      rw [← orderFree _ (List.perm_cons_erase member).symm, verifyJwt_unnamed parsed unnamed]
    intro one inOne other inOther
    exact agree_of_outcome ((asFirst one inOne).symm.trans (asFirst other inOther))
  · intro agree others same
    cases parsed : parseJwt crates token with
    | error error => simp [AuthProvider.verifyJwt, parsed, bind, Except.bind]
    | ok jwt =>
      cases named : jwt.kid with
      | some kid => exact verifyJwt_perm_of_named distinct same parsed named
      | none =>
        cases others with
        | nil => rw [same.nil_eq]
        | cons first rest =>
          cases keys with
          | nil => exact absurd same.symm.nil_eq (by simp)
          | cons head tail =>
            rw [verifyJwt_unnamed parsed named, verifyJwt_unnamed parsed named]
            exact outcome_of_agree (agree jwt parsed named first (same.subset List.mem_cons_self)
              head List.mem_cons_self)

/-- Alice's token under an Ed25519 key, without a `kid`. -/
def unnamedToken : String :=
  compact "eyJhbGciOiJFZERTQSJ9" "eyJzdWIiOiJhbGljZSJ9"
    "eFTpuxd5oo38-eZyGVq9scoNkxAqvbc-sDJt27w46VWKPwLPHyUnUvvw3A2jBpmW3-qynlegeDc8tXCZrv_YAw"

def unnamedSignature : Bytes :=
  [120, 84, 233, 187, 23, 121, 162, 141, 252, 249, 230, 114, 25, 90, 189, 177, 202, 13, 147, 16, 42,
    189, 183, 62, 176, 50, 109, 219, 188, 56, 233, 85, 138, 63, 2, 207, 31, 37, 39, 82, 251, 240,
    220, 13, 163, 6, 153, 150, 223, 234, 178, 158, 87, 160, 120, 55, 60, 181, 112, 153, 174, 255, 216, 3]

def edKey : JwksKey :=
  .ed25519 [215, 90, 152, 1, 130, 177, 10, 183, 213, 75, 254, 211, 201, 100, 7, 58, 14, 225, 114, 243,
    218, 166, 35, 37, 175, 2, 26, 104, 247, 7, 81, 26]

def rsaKey : JwksKey := .rsaPkcs1 [48, 6, 2, 1, 85, 2, 1, 3]

def unnamedCrates : JwtCrates :=
  tableCrates
    [("eyJhbGciOiJFZERTQSJ9", asBytes "\x7b\"alg\":\"EdDSA\"\x7d"),
      ("eyJzdWIiOiJhbGljZSJ9", asBytes "\x7b\"sub\":\"alice\"\x7d"),
      ("eFTpuxd5oo38-eZyGVq9scoNkxAqvbc-sDJt27w46VWKPwLPHyUnUvvw3A2jBpmW3-qynlegeDc8tXCZrv_YAw",
        unnamedSignature)]
    [("\x7b\"alg\":\"EdDSA\"\x7d", .object [("alg", .string "EdDSA")]),
      ("\x7b\"sub\":\"alice\"\x7d", aliceClaims)]
    [(edKey.asVerificationKey, asBytes "eyJhbGciOiJFZERTQSJ9.eyJzdWIiOiJhbGljZSJ9", unnamedSignature)]

theorem unnamedToken_parsed : parseJwt unnamedCrates unnamedToken =
    .ok ⟨.object [("alg", .string "EdDSA")], aliceClaims, unnamedSignature,
      asBytes "eyJhbGciOiJFZERTQSJ9.eyJzdWIiOiJhbGljZSJ9"⟩ := by
  have pieces := splitOn_compact (by decide +kernel : IsSegment "eyJhbGciOiJFZERTQSJ9") aliceSegment
    (by decide +kernel : IsSegment
      "eFTpuxd5oo38-eZyGVq9scoNkxAqvbc-sDJt27w46VWKPwLPHyUnUvvw3A2jBpmW3-qynlegeDc8tXCZrv_YAw")
  unfold parseJwt unnamedToken
  rw [pieces]
  rfl

theorem verifyJwt_order_free_iff_mixed :
    (∀ others, others.Perm [("ed", edKey), ("rsa", rsaKey)] →
      (AuthProvider.jwks others).verifyJwt unnamedCrates 1700000000 unnamedToken =
        (AuthProvider.jwks [("ed", edKey), ("rsa", rsaKey)]).verifyJwt unnamedCrates 1700000000
          unnamedToken) ↔
    ∀ jwt, parseJwt unnamedCrates unnamedToken = .ok jwt → jwt.kid = none →
      ∀ one ∈ [("ed", edKey), ("rsa", rsaKey)], ∀ other ∈ [("ed", edKey), ("rsa", rsaKey)],
        KeysAgree unnamedCrates jwt one.2 other.2 :=
  verifyJwt_order_free_iff unnamedCrates 1700000000 unnamedToken (by decide)

/-- One token is accepted or refused as the map of two keys happens to be iterated. -/
theorem unnamed_token_depends_on_order :
    [("rsa", rsaKey), ("ed", edKey)].Perm [("ed", edKey), ("rsa", rsaKey)] ∧
    (AuthProvider.jwks [("ed", edKey), ("rsa", rsaKey)]).verifyJwt unnamedCrates 1700000000
      unnamedToken = .ok aliceClaims ∧
    (AuthProvider.jwks [("rsa", rsaKey), ("ed", edKey)]).verifyJwt unnamedCrates 1700000000
      unnamedToken = .error "Expected RS256 algorithm for RSA key, got EdDSA" := by
  refine ⟨List.Perm.swap _ _ _, ?_, ?_⟩
  · rw [verifyJwt_unnamed unnamedToken_parsed rfl]
    simp [outcome, verifyKey, edKey, JwksKey.asVerificationKey, Jwt.alg, Json.get, Json.asStr,
      unnamedCrates, tableCrates, List.lookup_cons, checkTimes, aliceClaims, bind, Except.bind, pure,
      Except.pure]
  · rw [verifyJwt_unnamed unnamedToken_parsed rfl]
    simp [outcome, verifyKey, rsaKey, Jwt.alg, Json.get, Json.asStr, bind, Except.bind]

end SpectraGQL.Interceptors
