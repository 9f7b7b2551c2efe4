import Mathlib.Algebra.Order.Field.Rat
import Mathlib.Data.List.TakeWhile
import Mathlib.Data.Rat.Cast.Order
import Mathlib.Tactic.NormNum
import SpectraGQL.Interceptors.AuthRuns

/-! # Expired tokens (`interceptors/auth.rs`, `resolve_claims_from_token`)

The end of a token is looked at when the token is verified, and only when it is an integer.
A token that has not been verified again since, or whose end is some other number, outlives
its end.
-/

namespace SpectraGQL.Interceptors

open SpectraGQL.Http SpectraGQL.Protocol Data

/-! ## Numbers -/

/-- The value of a number as JSON writes it: digits, a fraction and an exponent. -/
def numberValue (text : String) : Option ℚ :=
  match text.toList with
  | '-' :: unsigned => (unsignedValue unsigned).map fun value => -value
  | unsigned => unsignedValue unsigned
where
  unsignedValue (text : List Char) : Option ℚ := do
    let mantissa := text.takeWhile fun char => char ≠ 'e' ∧ char ≠ 'E'
    let whole ← asI64.digitsValue (mantissa.takeWhile (· ≠ '.'))
    let fraction ← fractionValue (mantissa.dropWhile (· ≠ '.'))
    let exponent ← exponentValue (text.dropWhile fun char => char ≠ 'e' ∧ char ≠ 'E')
    return (whole + fraction) * 10 ^ exponent
  fractionValue : List Char → Option ℚ
    | [] => some 0
    | _ :: digits => (asI64.digitsValue digits).map fun value => value / 10 ^ digits.length
  exponentValue : List Char → Option Int
    | [] => some 0
    | _ :: '-' :: digits => (asI64.digitsValue digits).map fun value => -(value : Int)
    | _ :: '+' :: digits => (asI64.digitsValue digits).map fun value => (value : Int)
    | _ :: digits => (asI64.digitsValue digits).map fun value => (value : Int)

example : numberValue "1700000000.5" = some (3400000001 / 2) := by decide +kernel
example : numberValue "-25e-2" = some (-1 / 4) := by decide +kernel

def asNumber : Json → Option ℚ
  | .number text => numberValue text
  | _ => none

/-- Digits alone are a whole number. -/
theorem unsignedValue_of_digits {digits : List Char} {value : Nat}
    (read : asI64.digitsValue digits = some value) :
    numberValue.unsignedValue digits = some (value : ℚ) := by
  have allDigits : digits.all Char.isDigit = true := by
    unfold asI64.digitsValue at read
    split at read
    case isTrue shape => exact shape.2
    case isFalse => cases read
  -- neither an exponent nor a fraction, so the number is its mantissa
  have noMark : ∀ mark ∈ ['e', 'E', '.'], mark ∉ digits := by
    intro mark isMark member
    have isDigit := List.all_eq_true.mp allDigits mark member
    have marks : ['e', 'E', '.'].all (fun mark => !mark.isDigit) = true := by decide
    have notDigit := List.all_eq_true.mp marks mark isMark
    simp [isDigit] at notDigit
  have mantissa : digits.takeWhile (fun char => char ≠ 'e' ∧ char ≠ 'E') = digits := by
    rw [List.takeWhile_eq_self_iff]
    intro char member
    have one : char ≠ 'e' := fun same => noMark 'e' (by simp) (same ▸ member)
    have other : char ≠ 'E' := fun same => noMark 'E' (by simp) (same ▸ member)
    simp [one, other]
  have exponent : digits.dropWhile (fun char => char ≠ 'e' ∧ char ≠ 'E') = [] := by
    rw [List.dropWhile_eq_nil_iff]
    exact List.takeWhile_eq_self_iff.mp mantissa
  have whole : digits.takeWhile (· ≠ '.') = digits := by
    rw [List.takeWhile_eq_self_iff]
    intro char member
    have apart : char ≠ '.' := fun same => noMark '.' (by simp) (same ▸ member)
    simp [apart]
  have fraction : digits.dropWhile (· ≠ '.') = [] := by
    rw [List.dropWhile_eq_nil_iff]
    exact List.takeWhile_eq_self_iff.mp whole
  unfold numberValue.unsignedValue
  simp only [mantissa, exponent, whole, fraction, read, numberValue.fractionValue,
    numberValue.exponentValue, bind, Option.bind, pure]
  simp

theorem numberValue_of_minus {text : String} {digits : List Char} (isMinus : text.toList = '-' :: digits) :
    numberValue text = (numberValue.unsignedValue digits).map fun value => -value := by
  simp only [numberValue, isMinus]

theorem numberValue_of_plain {text : String}
    (notMinus : ∀ digits, text.toList = '-' :: digits → False) :
    numberValue text = numberValue.unsignedValue text.toList := by
  cases chars : text.toList with
  | nil => simp only [numberValue, chars]
  | cons first rest =>
    by_cases isMinus : first = '-'
    · exact (notMinus rest (by rw [chars, isMinus])).elim
    · simp only [numberValue, chars]
      split
      case h_1 unsigned same => exact absurd (List.cons.inj same).1 isMinus
      case h_2 => rfl

/-- What `as_i64` reads is the number. -/
theorem asNumber_of_asI64 {value : Json} {integer : Int} (read : asI64 value = some integer) :
    asNumber value = some (integer : ℚ) ∧ i64Min ≤ integer ∧ integer ≤ i64Max := by
  cases value with
  | number text =>
    unfold asI64 at read
    obtain ⟨read, bounds⟩ := Option.filter_eq_some_iff.mp read
    refine ⟨?_, by simpa using bounds⟩
    split at read
    case h_1 digits isMinus =>
      obtain ⟨value, lifted, rfl⟩ := Option.map_eq_some_iff.mp read
      obtain ⟨natural, readDigits, isValue⟩ := Option.bind_eq_some_iff.mp lifted
      cases isValue
      simp [asNumber, numberValue_of_minus isMinus, unsignedValue_of_digits readDigits]
    case h_2 digits notMinus =>
      obtain ⟨value, lifted, rfl⟩ := Option.map_eq_some_iff.mp read
      obtain ⟨natural, readDigits, isValue⟩ := Option.bind_eq_some_iff.mp lifted
      cases isValue
      simp [asNumber, numberValue_of_plain notMinus, unsignedValue_of_digits readDigits]
  | _ => cases read

/-- The end that a token claims, as a number of seconds since the epoch. -/
def expOf (crates : JwtCrates) (token : String) : Option ℚ :=
  match parseJwt crates token with
  | .ok jwt => (jwt.payload.get "exp").bind asNumber
  | .error _ => none

namespace RbacRequestInterceptor

variable (crates : JwtCrates) (rbac : RbacRequestInterceptor)

/-- The token that a request presents does not authenticate it more than a minute after the
end that the token claims. -/
def Timely (cache : TokenCache) (meeting : Meeting) : Prop :=
  ∀ token exp, rbac.presented meeting = some token → expOf crates token = some exp →
    ∀ claims, ((rbac.refreshed meeting).resolveClaimsFromToken crates cache meeting.reading token).1 =
      .ok claims → (meeting.reading.epochSecs : ℚ) ≤ exp + 60

/-- The provider has the token for good whatever its end: the signature is right, and a
time before which it is not valid has come. -/
def OtherwiseAccepted (meeting : Meeting) (jwt : Jwt) : Prop :=
  ∃ provider, rbac.provider = some provider ∧
    checkSignature crates (provider.withKeys meeting.keys) jwt = .ok () ∧
    ∀ nbf, (jwt.payload.get "nbf").bind asI64 = some nbf →
      nbf ≤ saturatingAdd meeting.reading.epochSecs clockSkewSecs

/-- If the token of a request is more than a minute over, the cache has no good entry for it,
and either its end is an integer or something else is wrong with it. -/
def ExpiryNoticed (cache : TokenCache) (meeting : Meeting) : Prop :=
  ∀ token jwt exp, rbac.presented meeting = some token → parseJwt crates token = .ok jwt →
    expOf crates token = some exp → exp + 60 < (meeting.reading.epochSecs : ℚ) →
    (∀ cached, ¬ Live cache meeting.reading token cached) ∧
      (((jwt.payload.get "exp").bind asI64).isSome ∨ ¬ rbac.OtherwiseAccepted crates meeting jwt)

variable {crates rbac}

/-- The times of a payload are right when neither its end nor its beginning is in the way. -/
theorem checkTimes_eq_ok_iff {nowSecs : Int} {payload : Json} :
    checkTimes nowSecs payload = .ok () ↔
      (∀ exp, (payload.get "exp").bind asI64 = some exp → nowSecs ≤ saturatingAdd exp clockSkewSecs) ∧
      ∀ nbf, (payload.get "nbf").bind asI64 = some nbf → nbf ≤ saturatingAdd nowSecs clockSkewSecs := by
  unfold checkTimes
  cases claimed : (payload.get "exp").bind asI64 with
  | none =>
    cases begins : (payload.get "nbf").bind asI64 with
    | none => simp
    | some nbf =>
      by_cases late : saturatingAdd nowSecs clockSkewSecs < nbf
      · simp [late]
      · simp [late]
        omega
  | some exp =>
    by_cases isOver : saturatingAdd exp clockSkewSecs < nowSecs
    · simp [isOver]
    · cases begins : (payload.get "nbf").bind asI64 with
      | none => simp [isOver]; omega
      | some nbf =>
        by_cases late : saturatingAdd nowSecs clockSkewSecs < nbf
        · simp [isOver, late]
        · simp [isOver, late]
          omega

/-- An integral end is noticed a minute later. -/
theorem expired_of_integer {payload : Json} {integer nowSecs : Int} {exp : ℚ}
    (claimed : (payload.get "exp").bind asI64 = some integer)
    (isExp : (payload.get "exp").bind asNumber = some exp) (inRange : nowSecs ≤ i64Max)
    (isOver : exp + 60 < nowSecs) : checkTimes nowSecs payload ≠ .ok () := by
  obtain ⟨value, held, isInteger⟩ := Option.bind_eq_some_iff.mp claimed
  obtain ⟨same, low, high⟩ := asNumber_of_asI64 isInteger
  rw [held, Option.bind_some, same] at isExp
  cases isExp
  have later : integer + 60 < nowSecs := by exact_mod_cast isOver
  intro inTime
  have early := (checkTimes_eq_ok_iff.mp inTime).1 integer claimed
  unfold saturatingAdd clockSkewSecs i64Min i64Max at *
  omega

theorem timely_iff (cache : TokenCache) (meeting : Meeting) :
    rbac.Timely crates cache meeting ↔ rbac.ExpiryNoticed crates cache meeting := by
  constructor
  · intro timely token jwt exp brought parsed claimed isOver
    have never : ∀ claims, ((rbac.refreshed meeting).resolveClaimsFromToken crates cache meeting.reading
        token).1 ≠ .ok claims := fun claims resolved =>
      absurd (timely token exp brought claimed claims resolved) (not_le.mpr isOver)
    have stale : ∀ cached, ¬ Live cache meeting.reading token cached := fun cached live =>
      never cached.claims (resolveClaims_eq_ok_iff.mpr (.inl ⟨cached, live, rfl⟩))
    refine ⟨stale, ?_⟩
    by_contra neither
    rw [not_or, not_not] at neither
    obtain ⟨fractional, provider, configured, signed, begun⟩ := neither
    -- nothing stops the verification of such a token
    have inTime : checkTimes meeting.reading.epochSecs jwt.payload = .ok () := by
      rw [checkTimes_eq_ok_iff]
      refine ⟨?_, begun⟩
      intro integer claimedInteger
      simp [claimedInteger] at fractional
    have accepts : rbac.Accepts crates meeting token jwt.payload := by
      refine ⟨provider, configured, ?_⟩
      rw [verifyJwt_of_parse parsed, signed]
      simp [inTime, bind, Except.bind, pure, Except.pure]
    exact never _ (resolveClaims_eq_ok_iff.mpr (.inr ⟨stale, jwt.payload, accepts, rfl⟩))
  · intro noticed token exp brought claimed claims resolved
    by_contra isOver
    rw [not_le] at isOver
    have parses : ∃ jwt, parseJwt crates token = .ok jwt := by
      unfold expOf at claimed
      cases parsed : parseJwt crates token with
      | ok jwt => exact ⟨jwt, rfl⟩
      | error error => simp [parsed] at claimed
    obtain ⟨jwt, parsed⟩ := parses
    obtain ⟨stale, integral⟩ := noticed token jwt exp brought parsed claimed isOver
    cases resolveClaims_eq_ok_iff.mp resolved with
    | inl hit =>
      obtain ⟨cached, live, -⟩ := hit
      exact stale cached live
    | inr miss =>
      obtain ⟨-, payload, ⟨provider, configured, verified⟩, -⟩ := miss
      obtain ⟨jwt', parsed', rfl, signed, inTime⟩ := eq_ok_of_verifyJwt verified
      rw [parsed] at parsed'
      cases parsed'
      cases integral with
      | inl isInteger =>
        obtain ⟨integer, claimedInteger⟩ := Option.isSome_iff_exists.mp isInteger
        have isExp : (jwt.payload.get "exp").bind asNumber = some exp := by simpa [expOf, parsed] using claimed
        exact expired_of_integer claimedInteger isExp meeting.inRange isOver inTime
      | inr refused =>
        exact refused ⟨provider, configured, signed, (checkTimes_eq_ok_iff.mp inTime).2⟩

/-- In every run, whatever the cache holds at its start, no request is authenticated by a
token that is more than a minute over exactly when every request notices such a token. -/
theorem expired_never_authenticates_iff (crates : JwtCrates) (rbac : RbacRequestInterceptor)
    (start : TokenCache) (run : List Meeting) :
    (∀ before meeting after, run = before ++ meeting :: after →
      rbac.Timely crates (rbac.cacheAfter crates start before) meeting) ↔
    ∀ before meeting after, run = before ++ meeting :: after →
      rbac.ExpiryNoticed crates (rbac.cacheAfter crates start before) meeting := by
  constructor
  · intro timely before meeting after split
    exact (timely_iff _ meeting).mp (timely before meeting after split)
  · intro noticed before meeting after split
    exact (timely_iff _ meeting).mpr (noticed before meeting after split)

end RbacRequestInterceptor

/-! ## Tokens that outlive their end -/

/-- A token with half a second in its end: 1700000000.5. -/
def fractionalToken : String :=
  compact "eyJhbGciOiJIUzI1NiJ9" "eyJleHAiOjE3MDAwMDAwMDAuNX0" "yF8mWMnftmMdPZWnU3WX_AFN8YOQzJpUj6IP8IVSx3M"

def fractionalSignature : Bytes :=
  [200, 95, 38, 88, 201, 223, 182, 99, 29, 61, 149, 167, 83, 117, 151, 252, 1, 77, 241, 131, 144, 204,
    154, 84, 143, 162, 15, 240, 133, 82, 199, 115]

def fractionalClaims : Json := .object [("exp", .number "1700000000.5")]

def fractionalCrates : JwtCrates :=
  tableCrates
    [("eyJhbGciOiJIUzI1NiJ9", asBytes "\x7b\"alg\":\"HS256\"\x7d"),
      ("eyJleHAiOjE3MDAwMDAwMDAuNX0", asBytes "\x7b\"exp\":1700000000.5\x7d"),
      ("yF8mWMnftmMdPZWnU3WX_AFN8YOQzJpUj6IP8IVSx3M", fractionalSignature)]
    [("\x7b\"alg\":\"HS256\"\x7d", .object [("alg", .string "HS256")]),
      ("\x7b\"exp\":1700000000.5\x7d", fractionalClaims)]
    [(.secret (asBytes "secret"), asBytes "eyJhbGciOiJIUzI1NiJ9.eyJleHAiOjE3MDAwMDAwMDAuNX0",
      fractionalSignature)]

theorem fractionalSegment : IsSegment "eyJleHAiOjE3MDAwMDAwMDAuNX0" := by decide +kernel
theorem fractionalSignatureSegment : IsSegment "yF8mWMnftmMdPZWnU3WX_AFN8YOQzJpUj6IP8IVSx3M" := by
  decide +kernel

theorem fractionalToken_accepted (nowSecs : Int) :
    (AuthProvider.hmac (asBytes "secret")).verifyJwt fractionalCrates nowSecs fractionalToken =
      .ok fractionalClaims := by
  have pieces := splitOn_compact headerSegment fractionalSegment fractionalSignatureSegment
  exact hmac_accepts pieces rfl rfl rfl rfl rfl

theorem expOf_of_accepted {crates : JwtCrates} {provider : AuthProvider} {nowSecs : Int} {token : String}
    {payload : Json} (accepted : provider.verifyJwt crates nowSecs token = .ok payload) :
    expOf crates token = (payload.get "exp").bind asNumber := by
  obtain ⟨jwt, parsed, rfl, -, -⟩ := eq_ok_of_verifyJwt accepted
  simp [expOf, parsed]

def adminLate : Meeting := bearing adminToken "deleteAccount" 30000000000 1700000090 (by decide)
def fractionalLate : Meeting := bearing fractionalToken "deleteAccount" 0 1700000100 (by decide)

/-- A minute and a half after its end the administrator's token authenticates out of the
cache; and the token with a fraction in its end is never over. -/
theorem token_outlives_end :
    ¬ accountsRbac.Timely accountsCrates (accountsRbac.cacheAfter accountsCrates cacheOfOne [adminFirst])
      adminLate ∧
    ¬ accountsRbac.Timely fractionalCrates cacheOfOne fractionalLate := by
  constructor
  · intro timely
    have claimed : expOf accountsCrates adminToken = some 1700000000 := by
      rw [expOf_of_accepted (adminToken_accepted le_rfl)]
      decide +kernel
    have brought : accountsRbac.presented adminLate = some adminToken :=
      presented_bearing adminToken_plain (compact_ne_empty _ _ _)
    -- the cache remembers the token for its own time to live, whatever the token says
    have live : RbacRequestInterceptor.Live cacheOfAdmin adminLate.reading adminToken
        (accountsRbac.entryFor adminFirst adminClaims) := by
      refine ⟨?_, by decide⟩
      rw [cacheOfAdmin, LruCache.peek_put, if_pos rfl]
    rw [RbacRequestInterceptor.cacheAfter_cons, RbacRequestInterceptor.cacheAfter_nil,
      meet_adminFirst] at timely
    have inTime := timely adminToken 1700000000 brought claimed _
      (RbacRequestInterceptor.resolveClaims_eq_ok_iff.mpr (.inl ⟨_, live, rfl⟩))
    norm_num [adminLate, bearing] at inTime
  · intro timely
    have claimed : expOf fractionalCrates fractionalToken = some (3400000001 / 2) := by
      rw [expOf_of_accepted (fractionalToken_accepted 0)]
      decide +kernel
    have brought : accountsRbac.presented fractionalLate = some fractionalToken :=
      presented_bearing (bounds_of_compact headerSegment fractionalSegment fractionalSignatureSegment)
        (compact_ne_empty _ _ _)
    have stale : ∀ cached,
        ¬ RbacRequestInterceptor.Live cacheOfOne fractionalLate.reading fractionalToken cached := by
      intro cached live
      exact absurd live.1 (by simp [cacheOfOne])
    -- an end that is no integer is not looked at
    have accepts : accountsRbac.Accepts fractionalCrates fractionalLate fractionalToken fractionalClaims :=
      ⟨_, rfl, fractionalToken_accepted _⟩
    have inTime := timely fractionalToken (3400000001 / 2) brought claimed _
      (RbacRequestInterceptor.resolveClaims_eq_ok_iff.mpr (.inr ⟨stale, _, accepts, rfl⟩))
    norm_num [fractionalLate, bearing] at inTime

end SpectraGQL.Interceptors
