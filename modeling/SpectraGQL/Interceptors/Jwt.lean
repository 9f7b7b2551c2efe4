import SpectraGQL.Protocol.Response

/-! # Verifying tokens (`interceptors/auth.rs`, `AuthProvider`)

A token is three texts between dots: a header, a payload and a signature over both.  The
provider says which keys may have signed it, and the payload may say when it is valid.
Decoding and cryptography are crates outside the repository; `JwtCrates` stands for them.
-/

namespace SpectraGQL.Interceptors

open SpectraGQL.Http SpectraGQL.Protocol

/-- The crates that decode and verify; a failed decoding says why. -/
structure JwtCrates where
  /-- `base64` with the alphabet for URLs, without padding. -/
  decodeNoPad : String → Option Bytes
  /-- The same with padding. -/
  decodePadded : String → Except String Bytes
  /-- `serde_json::from_slice::<Value>`. -/
  fromSlice : Bytes → Except String Json
  hmacVerify : (secret signedData signature : Bytes) → Bool
  rsaVerify : (derBytes signedData signature : Bytes) → Bool
  ed25519Verify : (rawBytes signedData signature : Bytes) → Bool

def JwtCrates.decodeB64url (crates : JwtCrates) (text : String) : Except String Bytes :=
  match crates.decodeNoPad text with
  | some bytes => .ok bytes
  | none =>
    match crates.decodePadded text with
    | .ok bytes => .ok bytes
    | .error error => .error ("Base64url decode error: " ++ error)

def JwtCrates.decodeJsonB64url (crates : JwtCrates) (text : String) : Except String Json := do
  let bytes ← crates.decodeB64url text
  match crates.fromSlice bytes with
  | .ok value => .ok value
  | .error error => .error ("JSON decode error: " ++ error)

/-! ## Keys -/

inductive JwksKey where
  | rsaPkcs1 (derBytes : Bytes)
  | ed25519 (rawBytes : Bytes)
  deriving DecidableEq, Repr

/-- The keys of a JWKS are listed in the order in which the map is iterated. -/
inductive AuthProvider where
  | hmac (secret : Bytes)
  | jwks (keys : List (String × JwksKey))
  | staticKey (kid : Option String) (key : JwksKey)
  deriving DecidableEq, Repr

def verifyKey (crates : JwtCrates) (key : JwksKey) (alg : String) (signedData signature : Bytes) :
    Except String Unit :=
  match key with
  | .rsaPkcs1 derBytes =>
    if alg ≠ "RS256" then .error ("Expected RS256 algorithm for RSA key, got " ++ alg)
    else if crates.rsaVerify derBytes signedData signature then .ok ()
    else .error "RSA signature verification failed"
  | .ed25519 rawBytes =>
    if alg ≠ "EdDSA" ∧ alg ≠ "ED25519" then
      .error ("Expected EdDSA algorithm for Ed25519 key, got " ++ alg)
    else if crates.ed25519Verify rawBytes signedData signature then .ok ()
    else .error "Ed25519 signature verification failed"

/-! ## Tokens -/

/-- What a token says, with the text that its signature is over. -/
structure Jwt where
  header : Json
  payload : Json
  signature : Bytes
  signedData : Bytes

def withContext {α : Type} (context : String) : Except String α → Except String α
  | .ok value => .ok value
  | .error error => .error (context ++ error)

def parseJwt (crates : JwtCrates) (token : String) : Except String Jwt :=
  match splitOn '.' token with
  | [header, payload, signature] => do
    return {
      header := ← withContext "Failed to parse JWT header: " (crates.decodeJsonB64url header)
      payload := ← withContext "Failed to parse JWT payload: " (crates.decodeJsonB64url payload)
      signature := ← withContext "Failed to decode JWT signature: " (crates.decodeB64url signature)
      signedData := asBytes (header ++ "." ++ payload) }
  | _ => .error "JWT must contain exactly three parts separated by dots"

def Jwt.alg (jwt : Jwt) : String := ((jwt.header.get "alg").bind Json.asStr).getD "RS256"

def Jwt.kid (jwt : Jwt) : Option String := (jwt.header.get "kid").bind Json.asStr

/-- How `{:?}` prints text: quoted, with escapes. -/
def debugStr (text : String) : String :=
  "\"" ++ String.join (text.toList.map escape) ++ "\""
where
  escape (char : Char) : String :=
    if char = '"' then "\\\""
    else if char = '\\' then "\\\\"
    else if char = '\n' then "\\n"
    else if char = '\r' then "\\r"
    else if char = '\t' then "\\t"
    else if char.toNat = 0 then "\\0"
    else if char.toNat < 32 ∨ char.toNat = 127 then
      "\\u\x7b" ++ String.ofList (Nat.toDigits 16 char.toNat) ++ "\x7d"
    else char.toString

def debugOption : Option String → String
  | some text => "Some(" ++ debugStr text ++ ")"
  | none => "None"

def checkSignature (crates : JwtCrates) (provider : AuthProvider) (jwt : Jwt) : Except String Unit :=
  match provider with
  | .hmac secret =>
    if jwt.alg ≠ "HS256" then .error ("Algorithm mismatch: expected HS256, got " ++ jwt.alg)
    else if crates.hmacVerify secret jwt.signedData jwt.signature then .ok ()
    else .error "HMAC signature verification failed"
  | .staticKey expected key =>
    match expected, jwt.kid with
    | some wanted, some kid =>
      if wanted ≠ kid then .error ("JWK Key ID mismatch: expected " ++ wanted ++ ", got " ++ kid)
      else verifyKey crates key jwt.alg jwt.signedData jwt.signature
    | _, _ => verifyKey crates key jwt.alg jwt.signedData jwt.signature
  | .jwks keys =>
    -- a token that names no key is checked against whichever key comes first
    match (match jwt.kid with
      | some kid => keys.lookup kid
      | none => keys.head?.map Prod.snd) with
    | some key => verifyKey crates key jwt.alg jwt.signedData jwt.signature
    | none => .error ("No matching key found in JWKS for kid: " ++ debugOption jwt.kid)

/-! ## Times -/

def i64Min : Int := -9223372036854775808
def i64Max : Int := 9223372036854775807

/-- `i64::saturating_add`. -/
def saturatingAdd (left right : Int) : Int := max i64Min (min i64Max (left + right))

/-- `Value::as_i64`: an integer is printed as its digits, any other number is not. -/
def asI64 : Json → Option Int
  | .number text =>
    let value := match text.toList with
      | '-' :: digits => (digitsValue digits).map fun value => -(value : Int)
      | digits => (digitsValue digits).map fun value => (value : Int)
    value.filter fun value => i64Min ≤ value ∧ value ≤ i64Max
  | _ => none
where
  digitsValue (digits : List Char) : Option Nat :=
    if digits ≠ [] ∧ digits.all Char.isDigit then some (Nat.ofDigitChars 10 digits 0) else none

def clockSkewSecs : Int := 60

/-- The validity of a payload at a time in seconds since the epoch. -/
def checkTimes (nowSecs : Int) (payload : Json) : Except String Unit :=
  if ((payload.get "exp").bind asI64).any fun exp => nowSecs > saturatingAdd exp clockSkewSecs then
    .error "JWT token has expired"
  else if ((payload.get "nbf").bind asI64).any fun nbf => saturatingAdd nowSecs clockSkewSecs < nbf then
    .error "JWT token not yet valid (nbf)"
  else .ok ()

def AuthProvider.verifyJwt (crates : JwtCrates) (provider : AuthProvider) (nowSecs : Int)
    (token : String) : Except String Json := do
  let jwt ← parseJwt crates token
  checkSignature crates provider jwt
  checkTimes nowSecs jwt.payload
  return jwt.payload

end SpectraGQL.Interceptors
