import SpectraGQL.Interceptors.Auth
import SpectraGQL.Interceptors.Tokens

/-! # Authorization over runs (`interceptors/auth.rs`, `RbacRequestInterceptor`)

One instance answers request after request out of one cache.  An entry of the cache comes
from an earlier verification of its own token, which is all that later requests know of
that verification: the keys, the times and the policy are those of the day.
-/

namespace SpectraGQL.Interceptors

open SpectraGQL.Http SpectraGQL.Protocol Data

/-! ## Bearer tokens -/

/-- A header `authorization: <scheme> <token>` whose scheme is `Bearer` in any case. -/
def CarriesBearer (headers : HeaderMap) (token : String) : Prop :=
  ∃ value scheme rest, headers.getStr "authorization" = some value ∧
    trim value = scheme ++ " " ++ rest ∧ eqIgnoreAsciiCase scheme "bearer" = true ∧ rest ≠ "" ∧
    token = trim rest

/-- A text that starts with `bearer ` in any case is a scheme, a space and what follows. -/
theorem bearer_splits {text : List Char}
    (named : (text.take 7).map Char.toLower = ['b', 'e', 'a', 'r', 'e', 'r', ' ']) :
    text = text.take 6 ++ ' ' :: text.drop 7 ∧
      (text.take 6).map Char.toLower = ['b', 'e', 'a', 'r', 'e', 'r'] := by
  have long : 7 ≤ text.length := by
    have sizes := congrArg List.length named
    simp at sizes
    omega
  have seven : text.take 7 = text.take 6 ++ [text[6]] := List.take_succ_eq_append_getElem (by omega)
  rw [seven, List.map_append] at named
  have ends : (text.take 6).map Char.toLower ++ [text[6]].map Char.toLower =
      ['b', 'e', 'a', 'r', 'e', 'r'] ++ [' '] := named
  obtain ⟨scheme, space⟩ := List.append_inj' ends rfl
  have isSpace : text[6] = ' ' := (toLower_eq_iff (by decide) _).mp (by simpa using space)
  constructor
  · calc text = text.take 7 ++ text.drop 7 := (List.take_append_drop 7 text).symm
      _ = text.take 6 ++ ' ' :: text.drop 7 := by rw [seven, isSpace, List.append_assoc]; rfl
  · exact scheme

theorem bearerToken_eq_some_iff {headers : HeaderMap} {token : String} :
    bearerToken headers = some token ↔ CarriesBearer headers token := by
  unfold bearerToken CarriesBearer
  constructor
  · intro read
    obtain ⟨value, held, read⟩ := Option.bind_eq_some_iff.mp read
    simp only [Option.ite_none_right_eq_some] at read
    obtain ⟨⟨long, named⟩, isToken⟩ := read
    have lowered : ((trim value).toList.take 7).map Char.toLower =
        ['b', 'e', 'a', 'r', 'e', 'r', ' '] := by
      have lists := congrArg String.toList (beq_iff_eq.mp named)
      simpa [toLowercase] using lists
    obtain ⟨split, scheme⟩ := bearer_splits lowered
    refine ⟨value, String.ofList ((trim value).toList.take 6),
      String.ofList ((trim value).toList.drop 7), held, ?_, ?_, ?_, (Option.some.inj isToken).symm⟩
    · apply String.toList_injective
      simpa [String.toList_append] using split
    · simp [eqIgnoreAsciiCase, toLowercase, scheme]
    · intro empty
      have sizes := congrArg String.length empty
      simp at sizes
      omega
  · intro carries
    obtain ⟨value, scheme, rest, held, split, named, nonempty, isToken⟩ := carries
    have lowered : scheme.toList.map Char.toLower = ['b', 'e', 'a', 'r', 'e', 'r'] := by
      have lists := congrArg String.toList (beq_iff_eq.mp named)
      simpa [toLowercase] using lists
    -- the scheme is six letters, so the first seven characters are the scheme and the blank
    have six : scheme.toList.length = 6 := by simpa using congrArg List.length lowered
    have chars : (trim value).toList = (scheme.toList ++ [' ']) ++ rest.toList := by
      rw [split]
      simp [String.toList_append]
    have front : (trim value).toList.take 7 = scheme.toList ++ [' '] := by
      rw [chars, List.take_left' (by simp [six])]
    have back : (trim value).toList.drop 7 = rest.toList := by
      rw [chars, List.drop_left' (by simp [six])]
    have long : (trim value).toList.length > 7 := by
      have inhabited : 0 < rest.toList.length := by
        rw [List.length_pos_iff]
        simpa using nonempty
      rw [chars]
      simp only [List.length_append, six, List.length_singleton]
      omega
    have isBearer : eqIgnoreAsciiCase (String.ofList (scheme.toList ++ [' '])) "bearer " = true := by
      simp [eqIgnoreAsciiCase, toLowercase, lowered]
    rw [held, isToken]
    simp only [Option.bind_some, front, back, isBearer, long, and_self, if_true, String.ofList_toList]

/-! ## Runs -/

/-- One request as the interceptor meets it, with the keys that the last refresh of a JWKS left. -/
structure Meeting where
  keys : List (String × JwksKey)
  reading : ClockReading
  context : InterceptorContext
  parts : RequestParts
  body : String
  /-- The seconds since the epoch are an `i64`. -/
  inRange : reading.epochSecs ≤ i64Max

def Meeting.opName (meeting : Meeting) : String := meeting.context.operationName.getD ""

/-- The provider after a refresh. -/
def AuthProvider.withKeys (keys : List (String × JwksKey)) : AuthProvider → AuthProvider
  | .jwks _ => .jwks keys
  | .hmac secret => .hmac secret
  | .staticKey kid key => .staticKey kid key

namespace RbacRequestInterceptor

variable (crates : JwtCrates) (rbac : RbacRequestInterceptor)

def refreshed (meeting : Meeting) : RbacRequestInterceptor :=
  { rbac with provider := rbac.provider.map (AuthProvider.withKeys meeting.keys) }

/-- The verdict on a request, and the cache it leaves. -/
def meet (cache : TokenCache) (meeting : Meeting) : InterceptorVerdict × TokenCache :=
  let answer := (rbac.refreshed meeting).interceptRequest crates cache meeting.reading meeting.context
    meeting.parts meeting.body
  (answer.1.1, answer.2)

def cacheAfter (cache : TokenCache) (run : List Meeting) : TokenCache :=
  run.foldl (fun cache meeting => (rbac.meet crates cache meeting).2) cache

@[simp] theorem cacheAfter_nil (cache : TokenCache) : rbac.cacheAfter crates cache [] = cache := rfl

@[simp] theorem cacheAfter_cons (cache : TokenCache) (meeting : Meeting) (run : List Meeting) :
    rbac.cacheAfter crates cache (meeting :: run) =
      rbac.cacheAfter crates (rbac.meet crates cache meeting).2 run := rfl

@[simp] theorem cacheAfter_concat (cache : TokenCache) (run : List Meeting) (meeting : Meeting) :
    rbac.cacheAfter crates cache (run ++ [meeting]) =
      (rbac.meet crates (rbac.cacheAfter crates cache run) meeting).2 := by
  simp [cacheAfter]

/-- The token that a request is resolved by: open operations need none. -/
def presented (meeting : Meeting) : Option String :=
  if rbac.unauthenticatedOps.contains meeting.opName then none else bearerToken meeting.parts.headers

/-- `verify_jwt` accepts a token with the keys and at the time of a request. -/
def Accepts (meeting : Meeting) (token : String) (payload : Json) : Prop :=
  ∃ provider, rbac.provider = some provider ∧
    (provider.withKeys meeting.keys).verifyJwt crates meeting.reading.epochSecs token = .ok payload

/-- The cache has an entry for the token that is still good. -/
def Live (cache : TokenCache) (reading : ClockReading) (token : String) (cached : CachedAuth) : Prop :=
  cache.peek token = some cached ∧ reading.instant < cached.expiresAt

/-- What a request asks of the provider: it presents a token that the cache has no good entry for. -/
def Verifies (cache : TokenCache) (meeting : Meeting) (token : String) (payload : Json) : Prop :=
  rbac.presented meeting = some token ∧ (∀ cached, ¬ Live cache meeting.reading token cached) ∧
    rbac.Accepts crates meeting token payload

/-- The entry that a verification leaves. -/
def entryFor (meeting : Meeting) (payload : Json) : CachedAuth :=
  ⟨extractClaimsFromJson payload rbac.claimsMapping, meeting.reading.instant + rbac.cacheTtl⟩

variable {crates rbac}

/-! ## One lookup -/

theorem resolveClaims_of_live {cache : TokenCache} {reading : ClockReading} {token : String}
    {cached : CachedAuth} (live : Live cache reading token cached) :
    rbac.resolveClaimsFromToken crates cache reading token = (.ok cached.claims, (cache.get token).2) := by
  obtain ⟨found, fresh⟩ := live
  unfold resolveClaimsFromToken
  have hit : cache.get token = (some cached, (cache.get token).2) := by
    rw [← found, ← LruCache.get_fst]
  rw [hit]
  simp [fresh]

theorem resolveClaims_of_stale {cache : TokenCache} {reading : ClockReading} {token : String}
    (stale : ∀ cached, ¬ Live cache reading token cached) :
    rbac.resolveClaimsFromToken crates cache reading token =
      rbac.verifyToken crates (cache.get token).2 reading token := by
  unfold resolveClaimsFromToken
  cases found : cache.peek token with
  | none =>
    have missed : cache.get token = (none, (cache.get token).2) := by rw [← found, ← LruCache.get_fst]
    rw [missed]
  | some cached =>
    have hit : cache.get token = (some cached, (cache.get token).2) := by
      rw [← found, ← LruCache.get_fst]
    have late : ¬ reading.instant < cached.expiresAt := fun fresh => stale cached ⟨found, fresh⟩
    rw [hit]
    simp [late]

theorem verifyToken_of_accepts {cache : TokenCache} {meeting : Meeting} {token : String} {payload : Json}
    (accepted : rbac.Accepts crates meeting token payload) :
    (rbac.refreshed meeting).verifyToken crates cache meeting.reading token =
      (.ok (extractClaimsFromJson payload rbac.claimsMapping),
        (cache.put token (rbac.entryFor meeting payload)).2) := by
  obtain ⟨provider, configured, verified⟩ := accepted
  simp [verifyToken, refreshed, configured, verified, entryFor]

theorem verifyToken_of_refused (cache : TokenCache) {meeting : Meeting} {token : String}
    (refused : ∀ payload, ¬ rbac.Accepts crates meeting token payload) :
    ∃ error, (rbac.refreshed meeting).verifyToken crates cache meeting.reading token =
      (.error error, cache) := by
  cases configured : rbac.provider with
  | none => exact ⟨"No authentication provider configured", by simp [verifyToken, refreshed, configured]⟩
  | some provider =>
    cases verified : (provider.withKeys meeting.keys).verifyJwt crates meeting.reading.epochSecs token with
    | error error => exact ⟨error, by simp [verifyToken, refreshed, configured, verified]⟩
    | ok payload => exact absurd ⟨provider, configured, verified⟩ (refused payload)

/-- One payload belongs to a token, whenever and under whichever keys it is accepted. -/
theorem payload_unique {first second : Meeting} {token : String} {one other : Json}
    (early : rbac.Accepts crates first token one) (late : rbac.Accepts crates second token other) :
    one = other := by
  obtain ⟨_, _, acceptedOne⟩ := early
  obtain ⟨_, _, acceptedOther⟩ := late
  obtain ⟨jwt, parsed, rfl, -, -⟩ := eq_ok_of_verifyJwt acceptedOne
  obtain ⟨jwt', parsed', rfl, -, -⟩ := eq_ok_of_verifyJwt acceptedOther
  rw [parsed] at parsed'
  cases parsed'
  rfl

/-- The claims that a token resolves to: those of a good entry, or else of the payload. -/
theorem resolveClaims_eq_ok_iff {cache : TokenCache} {meeting : Meeting} {token : String}
    {claims : AuthClaims} :
    ((rbac.refreshed meeting).resolveClaimsFromToken crates cache meeting.reading token).1 = .ok claims ↔
      (∃ cached, Live cache meeting.reading token cached ∧ claims = cached.claims) ∨
      ((∀ cached, ¬ Live cache meeting.reading token cached) ∧ ∃ payload,
        rbac.Accepts crates meeting token payload ∧
        claims = extractClaimsFromJson payload rbac.claimsMapping) := by
  by_cases present : ∃ cached, Live cache meeting.reading token cached
  · obtain ⟨cached, live⟩ := present
    rw [resolveClaims_of_live live]
    constructor
    · intro same
      cases same
      exact .inl ⟨cached, live, rfl⟩
    · intro either
      cases either with
      | inl hit =>
        obtain ⟨other, alsoLive, rfl⟩ := hit
        have same : cached = other := Option.some.inj (live.1.symm.trans alsoLive.1)
        rw [same]
      | inr miss => exact absurd live (miss.1 cached)
  · have stale : ∀ cached, ¬ Live cache meeting.reading token cached := fun cached live =>
      present ⟨cached, live⟩
    rw [resolveClaims_of_stale stale]
    -- without a good entry the token itself decides
    by_cases accepted : ∃ payload, rbac.Accepts crates meeting token payload
    · obtain ⟨payload, accepts⟩ := accepted
      rw [verifyToken_of_accepts accepts]
      constructor
      · intro same
        cases same
        exact .inr ⟨stale, payload, accepts, rfl⟩
      · intro either
        cases either with
        | inl hit =>
          obtain ⟨cached, live, -⟩ := hit
          exact absurd live (stale cached)
        | inr miss =>
          obtain ⟨-, other, alsoAccepts, rfl⟩ := miss
          rw [payload_unique accepts alsoAccepts]
    · have refused : ∀ payload, ¬ rbac.Accepts crates meeting token payload := fun payload accepts =>
        accepted ⟨payload, accepts⟩
      obtain ⟨error, failed⟩ := verifyToken_of_refused (cache.get token).2 refused
      rw [failed]
      constructor
      · intro same
        cases same
      · intro either
        cases either with
        | inl hit =>
          obtain ⟨cached, live, -⟩ := hit
          exact absurd live (stale cached)
        | inr miss =>
          obtain ⟨-, payload, accepts, -⟩ := miss
          exact absurd accepts (refused payload)

/-! ## What a request leaves in the cache -/

theorem interceptRequest_of_open {rbac : RbacRequestInterceptor} {cache : TokenCache}
    {reading : ClockReading} {context : InterceptorContext} {parts : RequestParts} {body : String}
    (isOpen : context.operationName.getD "" ∈ rbac.unauthenticatedOps) :
    rbac.interceptRequest crates cache reading context parts body = ((.pass, context, parts), cache) := by
  have listed : rbac.unauthenticatedOps.contains (context.operationName.getD "") = true := by
    simpa using isOpen
  unfold interceptRequest
  exact if_pos listed

theorem interceptRequest_of_closed (crates : JwtCrates) {rbac : RbacRequestInterceptor}
    {context : InterceptorContext} (cache : TokenCache) (reading : ClockReading) (parts : RequestParts)
    (body : String)
    (closed : context.operationName.getD "" ∉ rbac.unauthenticatedOps) :
    (rbac.interceptRequest crates cache reading context parts body).1.1 =
        rbac.verdictFor context.operationType (context.operationName.getD "")
          (rbac.resolveIdentity crates cache reading parts.headers).1 ∧
      (rbac.interceptRequest crates cache reading context parts body).2 =
        (rbac.resolveIdentity crates cache reading parts.headers).2 := by
  have unlisted : ¬ rbac.unauthenticatedOps.contains (context.operationName.getD "") = true := by
    simpa using closed
  unfold interceptRequest
  simp only [if_neg unlisted, and_self]

theorem resolveIdentity_of_token {rbac : RbacRequestInterceptor} {cache : TokenCache}
    {reading : ClockReading} {headers : HeaderMap} {token : String}
    (brought : bearerToken headers = some token) :
    (rbac.resolveIdentity crates cache reading headers).1.claims =
        (rbac.resolveClaimsFromToken crates cache reading token).1.toOption ∧
      (rbac.resolveIdentity crates cache reading headers).2 =
        (rbac.resolveClaimsFromToken crates cache reading token).2 := by
  unfold resolveIdentity
  simp only [brought]
  obtain ⟨result, left⟩ := rbac.resolveClaimsFromToken crates cache reading token
  cases result <;> exact ⟨rfl, rfl⟩

theorem resolveIdentity_of_anonymous {rbac : RbacRequestInterceptor} {cache : TokenCache}
    {reading : ClockReading} {headers : HeaderMap} (absent : bearerToken headers = none) :
    rbac.resolveIdentity crates cache reading headers = ({}, cache) := by
  simp [resolveIdentity, absent]

theorem presented_of_open {meeting : Meeting} (isOpen : meeting.opName ∈ rbac.unauthenticatedOps) :
    rbac.presented meeting = none := by
  have listed : rbac.unauthenticatedOps.contains meeting.opName = true := by simpa using isOpen
  exact if_pos listed

theorem presented_of_closed {meeting : Meeting} (closed : meeting.opName ∉ rbac.unauthenticatedOps) :
    rbac.presented meeting = bearerToken meeting.parts.headers := by
  have unlisted : ¬ rbac.unauthenticatedOps.contains meeting.opName = true := by simpa using closed
  exact if_neg unlisted

theorem meet_of_open {cache : TokenCache} {meeting : Meeting}
    (isOpen : meeting.opName ∈ rbac.unauthenticatedOps) : rbac.meet crates cache meeting = (.pass, cache) := by
  have listed : meeting.context.operationName.getD "" ∈ (rbac.refreshed meeting).unauthenticatedOps := isOpen
  simp only [meet, interceptRequest_of_open listed]

theorem meet_of_closed {cache : TokenCache} {meeting : Meeting}
    (closed : meeting.opName ∉ rbac.unauthenticatedOps) :
    rbac.meet crates cache meeting =
      (rbac.verdictFor meeting.context.operationType meeting.opName
        ((rbac.refreshed meeting).resolveIdentity crates cache meeting.reading meeting.parts.headers).1,
      ((rbac.refreshed meeting).resolveIdentity crates cache meeting.reading meeting.parts.headers).2) := by
  have unlisted : meeting.context.operationName.getD "" ∉ (rbac.refreshed meeting).unauthenticatedOps :=
    closed
  obtain ⟨verdict, left⟩ := interceptRequest_of_closed crates cache meeting.reading meeting.parts
    meeting.body unlisted
  simp only [meet, verdict, left]
  rfl

/-- A request that presents no token leaves the cache alone. -/
theorem meet_of_unpresented {cache : TokenCache} {meeting : Meeting}
    (absent : rbac.presented meeting = none) : (rbac.meet crates cache meeting).2 = cache := by
  by_cases isOpen : meeting.opName ∈ rbac.unauthenticatedOps
  · rw [meet_of_open isOpen]
  · rw [presented_of_closed isOpen] at absent
    rw [meet_of_closed isOpen, resolveIdentity_of_anonymous absent]

theorem meet_of_presented {cache : TokenCache} {meeting : Meeting} {token : String}
    (brought : rbac.presented meeting = some token) :
    (rbac.meet crates cache meeting).2 =
      ((rbac.refreshed meeting).resolveClaimsFromToken crates cache meeting.reading token).2 := by
  by_cases isOpen : meeting.opName ∈ rbac.unauthenticatedOps
  · rw [presented_of_open isOpen] at brought
    cases brought
  · rw [presented_of_closed isOpen] at brought
    rw [meet_of_closed isOpen, (resolveIdentity_of_token brought).2]

/-- A request that verifies its token leaves an entry for it. -/
theorem meet_of_verifies {cache : TokenCache} {meeting : Meeting} {token : String} {payload : Json}
    (verifies : rbac.Verifies crates cache meeting token payload) :
    (rbac.meet crates cache meeting).2 =
      ((cache.get token).2.put token (rbac.entryFor meeting payload)).2 := by
  obtain ⟨brought, stale, accepts⟩ := verifies
  rw [meet_of_presented brought, resolveClaims_of_stale stale, verifyToken_of_accepts accepts]

/-- Any other request leaves every entry as it was. -/
theorem peek_meet_of_not_verifies {cache : TokenCache} {meeting : Meeting}
    (unverified : ∀ token payload, ¬ rbac.Verifies crates cache meeting token payload) (other : String) :
    (rbac.meet crates cache meeting).2.peek other = cache.peek other := by
  cases brought : rbac.presented meeting with
  | none => rw [meet_of_unpresented brought]
  | some token =>
    rw [meet_of_presented brought]
    by_cases present : ∃ cached, Live cache meeting.reading token cached
    · obtain ⟨cached, live⟩ := present
      rw [resolveClaims_of_live live, LruCache.peek_get]
    · have stale : ∀ cached, ¬ Live cache meeting.reading token cached := fun cached live =>
        present ⟨cached, live⟩
      have refused : ∀ payload, ¬ rbac.Accepts crates meeting token payload := fun payload accepts =>
        unverified token payload ⟨brought, stale, accepts⟩
      obtain ⟨error, failed⟩ := verifyToken_of_refused (cache.get token).2 refused
      rw [resolveClaims_of_stale stale, failed, LruCache.peek_get]

/-! ## Where entries come from -/

theorem peek_put_eq_some {cache : TokenCache} {token other : String} {entry cached : CachedAuth}
    (found : (cache.put token entry).2.peek other = some cached) :
    (other = token ∧ cached = entry) ∨ cache.peek other = some cached := by
  rw [LruCache.peek_put] at found
  split at found
  case isTrue same => exact .inl ⟨same, (Option.some.inj found).symm⟩
  case isFalse =>
    split at found
    · unfold LruCache.makeRoom at found
      split at found
      · exact .inr found
      · rw [LruCache.peek_dropOldest] at found
        split at found
        · cases found
        · exact .inr found
    · exact .inr found

variable (crates rbac)

/-- A request of the run verified the token, and the cache has kept it since. -/
structure Remembered (start : TokenCache) (past before after : List Meeting) (meeting : Meeting)
    (token : String) (payload : Json) : Prop where
  split : past = before ++ meeting :: after
  verified : rbac.Verifies crates (rbac.cacheAfter crates start before) meeting token payload
  kept : ∀ middle, middle <+: after →
    ((rbac.cacheAfter crates start (before ++ meeting :: middle)).peek token).isSome

variable {crates rbac}

theorem cacheAfter_cons_concat (start : TokenCache) (before after : List Meeting)
    (meeting last : Meeting) :
    rbac.cacheAfter crates start (before ++ meeting :: (after ++ [last])) =
      (rbac.meet crates (rbac.cacheAfter crates start (before ++ meeting :: after)) last).2 := by
  rw [← List.cons_append, ← List.append_assoc, cacheAfter_concat]

/-- Every entry of a cache that started cold is what a remembered verification left. -/
theorem remembered_of_peek {start : TokenCache} (cold : ∀ token, start.peek token = none)
    {past : List Meeting} {token : String} {cached : CachedAuth}
    (found : (rbac.cacheAfter crates start past).peek token = some cached) :
    ∃ before meeting after payload,
      rbac.Remembered crates start past before after meeting token payload ∧
        cached = rbac.entryFor meeting payload := by
  induction past using List.reverseRecOn with
  | nil => simp [cold] at found
  | append_singleton past last inductionHypothesis =>
    have here := found
    rw [cacheAfter_concat] at found
    -- an entry that was there before was remembered before, and is still kept
    have carried (old : (rbac.cacheAfter crates start past).peek token = some cached) :
        ∃ before meeting after payload,
          rbac.Remembered crates start (past ++ [last]) before after meeting token payload ∧
            cached = rbac.entryFor meeting payload := by
      obtain ⟨before, meeting, after, payload, remembered, isEntry⟩ := inductionHypothesis old
      refine ⟨before, meeting, after ++ [last], payload, ⟨?_, remembered.verified, ?_⟩, isEntry⟩
      · rw [remembered.split, List.append_assoc, List.cons_append]
      · intro middle initial
        rw [List.prefix_concat_iff] at initial
        cases initial with
        | inl whole =>
          have runs : before ++ meeting :: (after ++ [last]) = past ++ [last] := by
            rw [remembered.split, List.append_assoc, List.cons_append]
          rw [whole, runs, here]
          rfl
        | inr shorter => exact remembered.kept middle shorter
    by_cases verifies : ∃ other payload,
        rbac.Verifies crates (rbac.cacheAfter crates start past) last other payload
    · obtain ⟨other, payload, verified⟩ := verifies
      rw [meet_of_verifies verified] at found
      cases peek_put_eq_some found with
      | inr old =>
        rw [LruCache.peek_get] at old
        exact carried old
      | inl new =>
        obtain ⟨rfl, rfl⟩ := new
        refine ⟨past, last, [], payload, ⟨rfl, verified, ?_⟩, rfl⟩
        intro middle initial
        rw [List.prefix_nil.mp initial, here]
        rfl
    · rw [peek_meet_of_not_verifies fun other payload verified =>
        verifies ⟨other, payload, verified⟩] at found
      exact carried found

/-- What a verification left is replaced by later ones only, and these end no earlier. -/
theorem peek_of_remembered {start : TokenCache} {past before after : List Meeting} {meeting : Meeting}
    {token : String} {payload : Json}
    (remembered : rbac.Remembered crates start past before after meeting token payload)
    (chronological : ∀ later ∈ after, meeting.reading.instant ≤ later.reading.instant) :
    ∃ cached, (rbac.cacheAfter crates start past).peek token = some cached ∧
      cached.claims = extractClaimsFromJson payload rbac.claimsMapping ∧
      meeting.reading.instant + rbac.cacheTtl ≤ cached.expiresAt := by
  obtain ⟨rfl, verified, kept⟩ := remembered
  induction after using List.reverseRecOn with
  | nil =>
    rw [cacheAfter_concat, meet_of_verifies verified]
    exact ⟨rbac.entryFor meeting payload, by simp [LruCache.peek_put], rfl, le_rfl⟩
  | append_singleton after last inductionHypothesis =>
    have earlier := inductionHypothesis
      (fun later member => chronological later (List.mem_append_left _ member))
      (fun middle initial => kept middle (initial.trans (List.prefix_append _ _)))
    obtain ⟨cached, found, isClaims, lasting⟩ := earlier
    obtain ⟨now, foundNow⟩ := Option.isSome_iff_exists.mp (kept _ List.prefix_rfl)
    refine ⟨now, foundNow, ?_⟩
    rw [cacheAfter_cons_concat] at foundNow
    -- only a verification of the same token writes over the entry, with the same claims
    by_cases verifies : ∃ other replaced,
        rbac.Verifies crates (rbac.cacheAfter crates start (before ++ meeting :: after)) last other replaced
    · obtain ⟨other, replaced, verifiedNow⟩ := verifies
      rw [meet_of_verifies verifiedNow] at foundNow
      cases peek_put_eq_some foundNow with
      | inl new =>
        obtain ⟨rfl, rfl⟩ := new
        have same : payload = replaced := payload_unique verified.2.2 verifiedNow.2.2
        have later := chronological last (by simp)
        exact ⟨by rw [same]; rfl, Nat.add_le_add_right later _⟩
      | inr old =>
        rw [LruCache.peek_get, found] at old
        cases old
        exact ⟨isClaims, lasting⟩
    · rw [peek_meet_of_not_verifies fun other replaced verifiedNow =>
        verifies ⟨other, replaced, verifiedNow⟩, found] at foundNow
      cases foundNow
      exact ⟨isClaims, lasting⟩

/-! ## `DenyUnlisted` over runs -/

variable (crates rbac)

/-- An earlier request of the run verified the token less than the time to live ago, and the
cache has kept it since. -/
def AcceptedEarlier (start : TokenCache) (past : List Meeting) (now : Meeting) (token : String)
    (payload : Json) : Prop :=
  ∃ before meeting after, rbac.Remembered crates start past before after meeting token payload ∧
    now.reading.instant < meeting.reading.instant + rbac.cacheTtl

/-- The roles that a payload claims. -/
def rolesOf (payload : Json) : List String := (extractClaimsFromJson payload rbac.claimsMapping).roles

variable {crates rbac}

/-- What was accepted less than the time to live ago has a good entry. -/
theorem AcceptedEarlier.live {start : TokenCache} {past : List Meeting} {now : Meeting} {token : String}
    {payload : Json} (earlier : rbac.AcceptedEarlier crates start past now token payload)
    (chronological : past.Pairwise fun earlier later => earlier.reading.instant ≤ later.reading.instant) :
    ∃ cached, Live (rbac.cacheAfter crates start past) now.reading token cached := by
  obtain ⟨before, meeting, after, remembered, recent⟩ := earlier
  have laterAfter : ∀ later ∈ after, meeting.reading.instant ≤ later.reading.instant := by
    rw [remembered.split] at chronological
    exact (List.pairwise_cons.mp (List.pairwise_append.mp chronological).2.1).1
  obtain ⟨cached, found, -, lasting⟩ := peek_of_remembered remembered laterAfter
  exact ⟨cached, found, lt_of_lt_of_le recent lasting⟩

/-- The claims that a request comes with are those of a payload that is accepted now or was
accepted earlier. -/
theorem claims_eq_some_iff {start : TokenCache} (cold : ∀ token, start.peek token = none)
    {past : List Meeting} {now : Meeting}
    (chronological : (past ++ [now]).Pairwise fun earlier later =>
      earlier.reading.instant ≤ later.reading.instant) {claims : AuthClaims} :
    ((rbac.refreshed now).resolveIdentity crates (rbac.cacheAfter crates start past) now.reading
        now.parts.headers).1.claims = some claims ↔
      ∃ token payload, CarriesBearer now.parts.headers token ∧
        (rbac.Accepts crates now token payload ∨
          rbac.AcceptedEarlier crates start past now token payload) ∧
        claims = extractClaimsFromJson payload rbac.claimsMapping := by
  cases brought : bearerToken now.parts.headers with
  | none =>
    rw [resolveIdentity_of_anonymous brought]
    constructor
    · intro absent
      cases absent
    · intro present
      obtain ⟨token, -, carries, -⟩ := present
      rw [bearerToken_eq_some_iff.mpr carries] at brought
      cases brought
  | some token =>
    rw [(resolveIdentity_of_token brought).1]
    have asResult : ∀ result : Except String AuthClaims, result.toOption = some claims ↔ result = .ok claims := by
      intro result
      cases result <;> simp [Except.toOption]
    rw [asResult, resolveClaims_eq_ok_iff]
    constructor
    · intro resolved
      cases resolved with
      | inl hit =>
        -- what is found in the cache was put there by an earlier request
        obtain ⟨cached, live, rfl⟩ := hit
        obtain ⟨before, meeting, after, payload, remembered, rfl⟩ := remembered_of_peek cold live.1
        exact ⟨token, payload, bearerToken_eq_some_iff.mp brought,
          .inr ⟨before, meeting, after, remembered, live.2⟩, rfl⟩
      | inr miss =>
        obtain ⟨-, payload, accepts, rfl⟩ := miss
        exact ⟨token, payload, bearerToken_eq_some_iff.mp brought, .inl accepts, rfl⟩
    · intro accepted
      obtain ⟨other, payload, carries, accepted, rfl⟩ := accepted
      have same : other = token := by
        rw [bearerToken_eq_some_iff.mpr carries] at brought
        exact Option.some.inj brought
      subst same
      by_cases present : ∃ cached, Live (rbac.cacheAfter crates start past) now.reading other cached
      · obtain ⟨cached, live⟩ := present
        refine .inl ⟨cached, live, ?_⟩
        obtain ⟨before, meeting, after, origin, remembered, rfl⟩ := remembered_of_peek cold live.1
        -- a token has one payload, whenever it is parsed
        have unique : payload = origin := by
          cases accepted with
          | inl accepts => exact payload_unique accepts remembered.verified.2.2
          | inr earlier =>
            obtain ⟨_, _, _, earlier, -⟩ := earlier
            exact payload_unique earlier.verified.2.2 remembered.verified.2.2
        rw [unique]
        rfl
      · have stale : ∀ cached, ¬ Live (rbac.cacheAfter crates start past) now.reading other cached :=
          fun cached live => present ⟨cached, live⟩
        cases accepted with
        | inl accepts => exact .inr ⟨stale, payload, accepts, rfl⟩
        | inr earlier =>
          obtain ⟨cached, live⟩ := earlier.live (List.pairwise_append.mp chronological).1
          exact absurd live (stale cached)

theorem hasRole_iff {claims : Option AuthClaims} {required : List String} :
    hasRole claims required = true ↔
      ∃ known, claims = some known ∧ ("*" ∈ known.roles ∨ ∃ role ∈ required, role ∈ known.roles) := by
  cases claims with
  | none => simp [hasRole]
  | some known =>
    simp only [hasRole, Option.any_some, List.any_eq_true, Bool.or_eq_true, beq_iff_eq,
      List.contains_eq_mem, decide_eq_true_eq, Option.some.injEq, exists_eq_left']
    constructor
    · intro held
      obtain ⟨role, member, fits⟩ := held
      cases fits with
      | inl isStar => exact .inl (isStar ▸ member)
      | inr granted => exact .inr ⟨role, granted, member⟩
    · intro held
      cases held with
      | inl star => exact ⟨"*", star, .inl rfl⟩
      | inr granted =>
        obtain ⟨role, isGranted, member⟩ := granted
        exact ⟨role, member, .inr isGranted⟩

/-- Under `DenyUnlisted` an operation without a granted role is rejected. -/
theorem verdictFor_denyUnlisted {operationType : Option GraphQLOperationType} {opName : String}
    {identity : Identity} (strict : rbac.policyFor operationType = .denyUnlisted) :
    (rbac.verdictFor operationType opName identity = .pass ↔
      ∃ required, rbac.rolePermissions.lookup opName = some required ∧
        hasRole identity.claims required = true) ∧
    (rbac.verdictFor operationType opName identity ≠ .pass →
      (rbac.verdictFor operationType opName identity).isReject = true) := by
  have rejects := withoutPermission_denyUnlisted opName identity
  have notPass : withoutPermission .denyUnlisted opName identity ≠ .pass := by
    intro passes
    rw [passes] at rejects
    cases rejects
  unfold verdictFor hasPermission
  rw [strict]
  cases rbac.rolePermissions.lookup opName with
  | none => simp [notPass, rejects]
  | some required =>
    cases permitted : hasRole identity.claims required with
    | true => simp [permitted]
    | false => simp [permitted, notPass, rejects]

/-- Under `DenyUnlisted`, in every run from a cold cache, a request passes exactly when its
operation is open, or has grants and the request carries a token that is accepted now or was
accepted less than the time to live ago and is still in the cache, with a granted role in its
claims; every other request is rejected. -/
theorem passes_iff_entitled (crates : JwtCrates) (rbac : RbacRequestInterceptor) {cap : Nat}
    (capPos : 0 < cap) (past : List Meeting) (now : Meeting)
    (strict : rbac.policyFor now.context.operationType = .denyUnlisted)
    (chronological : (past ++ [now]).Pairwise fun earlier later =>
      earlier.reading.instant ≤ later.reading.instant) :
    ((rbac.meet crates (rbac.cacheAfter crates (LruCache.empty cap capPos) past) now).1 = .pass ↔
      now.opName ∈ rbac.unauthenticatedOps ∨
      ∃ required token payload, rbac.rolePermissions.lookup now.opName = some required ∧
        CarriesBearer now.parts.headers token ∧
        (rbac.Accepts crates now token payload ∨
          rbac.AcceptedEarlier crates (LruCache.empty cap capPos) past now token payload) ∧
        ("*" ∈ rbac.rolesOf payload ∨ ∃ role ∈ required, role ∈ rbac.rolesOf payload)) ∧
    ((rbac.meet crates (rbac.cacheAfter crates (LruCache.empty cap capPos) past) now).1 ≠ .pass →
      (rbac.meet crates (rbac.cacheAfter crates (LruCache.empty cap capPos) past) now).1.isReject =
        true) := by
  by_cases isOpen : now.opName ∈ rbac.unauthenticatedOps
  · simp [meet_of_open isOpen, isOpen]
  · have cold : ∀ token, (LruCache.empty cap capPos : TokenCache).peek token = none := fun token =>
      LruCache.peek_empty cap capPos token
    -- whatever is in the cache, a meeting of the past has left it there
    rw [meet_of_closed isOpen]
    refine ⟨?_, (verdictFor_denyUnlisted strict).2⟩
    rw [(verdictFor_denyUnlisted strict).1]
    constructor
    · intro permitted
      obtain ⟨required, granted, held⟩ := permitted
      obtain ⟨claims, resolved, roles⟩ := hasRole_iff.mp held
      obtain ⟨token, payload, carries, accepted, rfl⟩ := (claims_eq_some_iff cold chronological).mp resolved
      exact .inr ⟨required, token, payload, granted, carries, accepted, roles⟩
    · intro entitled
      cases entitled with
      | inl listed => exact absurd listed isOpen
      | inr entitled =>
        obtain ⟨required, token, payload, granted, carries, accepted, roles⟩ := entitled
        have resolved := (claims_eq_some_iff cold chronological).mpr ⟨token, payload, carries, accepted, rfl⟩
        exact ⟨required, granted, hasRole_iff.mpr ⟨_, resolved, roles⟩⟩

end RbacRequestInterceptor

/-! ## A token that leaves the cache -/

/-- The value `bearer <token>` of a header. -/
def bearerValue (token : String) : HeaderValue :=
  ("bearer " ++ token).toList.map fun char => UInt8.ofNat char.toNat

/-- A request with `Authorization: bearer <token>`. -/
def bearing (token operation : String) (instant : Nat) (epochSecs : Int)
    (inRange : epochSecs ≤ i64Max) : Meeting where
  keys := []
  reading := ⟨instant, epochSecs⟩
  context := { requestId := "", hlc := ⟨0, 0⟩, operationName := some operation }
  parts := ⟨.post, ⟨"", "/graphql", none⟩, [("authorization", bearerValue token)]⟩
  body := ""
  inRange := inRange

theorem bounds_of_isSegmentChar {char : Char} (segment : isSegmentChar char = true) :
    45 ≤ char.toNat ∧ char.toNat ≤ 122 := by
  have alphanum : char.isAlphanum = (decide ('A'.val ≤ char.val ∧ char.val ≤ 'Z'.val) ||
      (decide ('a'.val ≤ char.val) && decide (char.val ≤ 'z'.val)) ||
        (decide ('0'.val ≤ char.val) && decide (char.val ≤ '9'.val))) := rfl
  simp only [isSegmentChar, alphanum, Bool.or_eq_true, Bool.and_eq_true, decide_eq_true_eq,
    UInt32.le_iff_toNat_le, beq_iff_eq] at segment
  rcases segment with (((upper | lower) | digit) | rfl) | rfl
  · simp at upper
    omega
  · simp at lower
    omega
  · simp at digit
    omega
  · decide
  · decide

/-- The characters of a token are visible and not white space. -/
theorem bounds_of_compact {header body signature : String} (one : IsSegment header)
    (two : IsSegment body) (three : IsSegment signature) :
    ∀ char ∈ (compact header body signature).toList, 45 ≤ char.toNat ∧ char.toNat ≤ 122 := by
  have within {part : String} (segment : IsSegment part) :
      ∀ char ∈ part.toList, 45 ≤ char.toNat ∧ char.toNat ≤ 122 := fun char member =>
    bounds_of_isSegmentChar (List.all_eq_true.mp segment char member)
  intro char member
  simp only [compact, String.toList_append, List.mem_append] at member
  rcases member with (((inHeader | dot) | inBody) | dot) | inSignature
  · exact within one char inHeader
  · have isDot : char = '.' := by simpa using dot
    subst isDot
    decide
  · exact within two char inBody
  · have isDot : char = '.' := by simpa using dot
    subst isDot
    decide
  · exact within three char inSignature

theorem visible_of_bounds {char : Char} (low : 32 ≤ char.toNat) (high : char.toNat ≤ 122) :
    isVisibleAscii (UInt8.ofNat char.toNat) = true ∧ Char.ofUInt8 (UInt8.ofNat char.toNat) = char := by
  constructor
  · have above : 32 ≤ UInt8.ofNat char.toNat := by
      rw [UInt8.le_iff_toNat_le]
      simp
      omega
    have below : UInt8.ofNat char.toNat < 127 := by
      rw [UInt8.lt_iff_toNat_lt]
      simp
      omega
    simp [isVisibleAscii, above, below]
  · apply Char.ext
    apply UInt32.toNat.inj
    show (UInt8.ofNat char.toNat).toUInt32.toNat = char.val.toNat
    simp
    omega

theorem toStr_bearerValue {token : String}
    (plain : ∀ char ∈ token.toList, 45 ≤ char.toNat ∧ char.toNat ≤ 122) :
    HeaderValue.toStr (bearerValue token) = some ("bearer " ++ token) := by
  have shown : ∀ char ∈ ("bearer " ++ token).toList, 32 ≤ char.toNat ∧ char.toNat ≤ 122 := by
    intro char member
    rw [String.toList_append, List.mem_append] at member
    cases member with
    | inl inScheme =>
      have scheme : "bearer ".toList.all (fun char => 32 ≤ char.toNat && char.toNat ≤ 122) = true := by
        decide
      simpa using List.all_eq_true.mp scheme char inScheme
    | inr inToken =>
      have bounds := plain char inToken
      omega
  have visible : (bearerValue token).all isVisibleAscii = true := by
    unfold bearerValue
    rw [List.all_map, List.all_eq_true]
    exact fun char member => (visible_of_bounds (shown char member).1 (shown char member).2).1
  have back : (bearerValue token).map (fun byte => Char.ofUInt8 byte) = ("bearer " ++ token).toList := by
    unfold bearerValue
    rw [List.map_map]
    refine (List.map_congr_left fun char member => ?_).trans (List.map_id _)
    exact (visible_of_bounds (shown char member).1 (shown char member).2).2
  unfold HeaderValue.toStr
  rw [if_pos visible, back, String.ofList_toList]

theorem not_whitespace_of_bounds {char : Char} (low : 45 ≤ char.toNat) (high : char.toNat ≤ 122) :
    isWhitespace char = false := by
  simp only [isWhitespace, Bool.or_eq_false_iff, Bool.and_eq_false_iff, decide_eq_false_iff_not,
    beq_eq_false_iff_ne, ne_eq]
  omega

theorem trimStart_of_solid {text : List Char} (solid : ∀ char ∈ text.head?, isWhitespace char = false) :
    trimStart text = text := by
  cases text with
  | nil => rfl
  | cons first rest => simp [trimStart, solid first rfl]

theorem trim_of_solid {text : String} (front : ∀ char ∈ text.toList.head?, isWhitespace char = false)
    (back : ∀ char ∈ text.toList.getLast?, isWhitespace char = false) : trim text = text := by
  unfold trim
  rw [trimStart_of_solid front, trimStart_of_solid (by rwa [List.head?_reverse]), List.reverse_reverse,
    String.ofList_toList]

theorem carriesBearer_bearing {token operation : String} {instant : Nat} {epochSecs : Int}
    {inRange : epochSecs ≤ i64Max} (plain : ∀ char ∈ token.toList, 45 ≤ char.toNat ∧ char.toNat ≤ 122)
    (nonempty : token ≠ "") :
    CarriesBearer (bearing token operation instant epochSecs inRange).parts.headers token := by
  have solid : ∀ char ∈ token.toList, isWhitespace char = false := fun char member =>
    not_whitespace_of_bounds (plain char member).1 (plain char member).2
  have ends : ("bearer " ++ token).toList.getLast? = token.toList.getLast? := by
    have inhabited : token.toList ≠ [] := by simpa using nonempty
    rw [String.toList_append, List.getLast?_append_of_ne_nil _ inhabited]
  refine ⟨"bearer " ++ token, "bearer", token, ?_, ?_, by decide, nonempty, ?_⟩
  · exact toStr_bearerValue plain
  · rw [trim_of_solid]
    · have scheme : "bearer" ++ " " = "bearer " := by decide
      rw [scheme]
    · intro char first
      rw [String.toList_append] at first
      cases first
      decide
    · intro char last
      rw [ends] at last
      exact solid char (List.mem_of_getLast? last)
  · symm
    apply trim_of_solid
    · exact fun char first => solid char (List.mem_of_head? first)
    · exact fun char last => solid char (List.mem_of_getLast? last)

/-- Accounts are deleted by administrators. -/
def accountsRbac : RbacRequestInterceptor :=
  { RbacRequestInterceptor.new with
    provider := some (.hmac (asBytes "secret"))
    queriesDefault := .denyUnlisted
    rolePermissions := [("deleteAccount", ["admin"])] }

/-- An administrator's token, valid until 1700000000. -/
def adminToken : String :=
  compact "eyJhbGciOiJIUzI1NiJ9" "eyJleHAiOjE3MDAwMDAwMDAsInJvbGVzIjpbImFkbWluIl19"
    "A5ICYabY5a3Rx5DQ_aonBlKfFhSjXg4SDnkEjU4cK74"

def adminSignature : Bytes :=
  [3, 146, 2, 97, 166, 216, 229, 173, 209, 199, 144, 208, 253, 170, 39, 6, 82, 159, 22, 20, 163, 94,
    14, 18, 14, 121, 4, 141, 78, 28, 43, 190]

def adminClaims : Json :=
  .object [("exp", .number "1700000000"), ("roles", .array [.string "admin"])]

/-- The crates on the tokens of Alice and of the administrator. -/
def accountsCrates : JwtCrates :=
  tableCrates
    [("eyJhbGciOiJIUzI1NiJ9", asBytes "\x7b\"alg\":\"HS256\"\x7d"),
      ("eyJzdWIiOiJhbGljZSJ9", asBytes "\x7b\"sub\":\"alice\"\x7d"),
      ("rSJzVkJH-KnHZ3uThGnEkzcC_XYwqhh3yjQhE5XM8Vc", aliceSignature),
      ("eyJleHAiOjE3MDAwMDAwMDAsInJvbGVzIjpbImFkbWluIl19",
        asBytes "\x7b\"exp\":1700000000,\"roles\":[\"admin\"]\x7d"),
      ("A5ICYabY5a3Rx5DQ_aonBlKfFhSjXg4SDnkEjU4cK74", adminSignature)]
    [("\x7b\"alg\":\"HS256\"\x7d", .object [("alg", .string "HS256")]),
      ("\x7b\"sub\":\"alice\"\x7d", aliceClaims),
      ("\x7b\"exp\":1700000000,\"roles\":[\"admin\"]\x7d", adminClaims)]
    [(.secret (asBytes "secret"), asBytes "eyJhbGciOiJIUzI1NiJ9.eyJzdWIiOiJhbGljZSJ9", aliceSignature),
      (.secret (asBytes "secret"),
        asBytes "eyJhbGciOiJIUzI1NiJ9.eyJleHAiOjE3MDAwMDAwMDAsInJvbGVzIjpbImFkbWluIl19", adminSignature)]

theorem adminSegment : IsSegment "eyJleHAiOjE3MDAwMDAwMDAsInJvbGVzIjpbImFkbWluIl19" := by decide +kernel
theorem adminSignatureSegment : IsSegment "A5ICYabY5a3Rx5DQ_aonBlKfFhSjXg4SDnkEjU4cK74" := by
  decide +kernel

/-- The administrator's token is accepted until a minute after its end. -/
theorem adminToken_accepted {nowSecs : Int} (timely : nowSecs ≤ 1700000060) :
    (AuthProvider.hmac (asBytes "secret")).verifyJwt accountsCrates nowSecs adminToken =
      .ok adminClaims := by
  have pieces := splitOn_compact headerSegment adminSegment adminSignatureSegment
  have expires : (adminClaims.get "exp").bind asI64 = some 1700000000 := by decide
  have immediate : (adminClaims.get "nbf").bind asI64 = none := by decide
  have grace : ¬ saturatingAdd 1700000000 clockSkewSecs < nowSecs := by
    unfold saturatingAdd clockSkewSecs i64Min i64Max
    omega
  apply hmac_accepts pieces rfl rfl rfl rfl
  simp [checkTimes, expires, immediate, grace]

theorem aliceToken_accepted (nowSecs : Int) :
    (AuthProvider.hmac (asBytes "secret")).verifyJwt accountsCrates nowSecs aliceToken =
      .ok aliceClaims := by
  have pieces := splitOn_compact headerSegment aliceSegment aliceSignatureSegment
  exact hmac_accepts pieces rfl rfl rfl rfl rfl

/-! The administrator asks, then Alice, then the administrator again a second later. -/

def adminFirst : Meeting := bearing adminToken "deleteAccount" 0 1700000060 (by decide)
def aliceNext : Meeting := bearing aliceToken "deleteAccount" 0 1700000060 (by decide)
def adminAgain : Meeting := bearing adminToken "deleteAccount" 1000000000 1700000061 (by decide)

def cacheOfOne : TokenCache := LruCache.empty 1 Nat.one_pos

theorem presented_bearing {token : String} {instant : Nat} {epochSecs : Int}
    {inRange : epochSecs ≤ i64Max} (plain : ∀ char ∈ token.toList, 45 ≤ char.toNat ∧ char.toNat ≤ 122)
    (nonempty : token ≠ "") :
    accountsRbac.presented (bearing token "deleteAccount" instant epochSecs inRange) = some token := by
  have closed : "deleteAccount" ∉ accountsRbac.unauthenticatedOps := by decide
  rw [RbacRequestInterceptor.presented_of_closed closed]
  exact bearerToken_eq_some_iff.mpr (carriesBearer_bearing plain nonempty)

theorem adminToken_plain : ∀ char ∈ adminToken.toList, 45 ≤ char.toNat ∧ char.toNat ≤ 122 :=
  bounds_of_compact headerSegment adminSegment adminSignatureSegment

theorem aliceToken_plain : ∀ char ∈ aliceToken.toList, 45 ≤ char.toNat ∧ char.toNat ≤ 122 :=
  bounds_of_compact headerSegment aliceSegment aliceSignatureSegment

theorem compact_ne_empty (header body signature : String) : compact header body signature ≠ "" := by
  intro empty
  have sizes := congrArg String.length empty
  simp [compact] at sizes

theorem tokens_differ : adminToken ≠ aliceToken := by
  intro same
  have admin : _ = Except.ok adminClaims := adminToken_accepted (by decide : (0 : Int) ≤ 1700000060)
  rw [same, aliceToken_accepted] at admin
  simp [aliceClaims, adminClaims] at admin

theorem admin_verified_first :
    accountsRbac.Verifies accountsCrates cacheOfOne adminFirst adminToken adminClaims := by
  refine ⟨presented_bearing adminToken_plain (compact_ne_empty _ _ _), ?_,
    ⟨_, rfl, adminToken_accepted le_rfl⟩⟩
  intro cached live
  exact absurd live.1 (by simp [cacheOfOne])

/-- The cache after the administrator's first request. -/
def cacheOfAdmin : TokenCache :=
  (cacheOfOne.put adminToken (accountsRbac.entryFor adminFirst adminClaims)).2

theorem meet_adminFirst : (accountsRbac.meet accountsCrates cacheOfOne adminFirst).2 = cacheOfAdmin := by
  have absent : cacheOfOne.peek adminToken = none := LruCache.peek_empty 1 Nat.one_pos adminToken
  rw [RbacRequestInterceptor.meet_of_verifies admin_verified_first, LruCache.get_snd_of_absent absent,
    cacheOfAdmin]

theorem alice_absent : cacheOfAdmin.peek aliceToken = none := by
  rw [cacheOfAdmin, LruCache.peek_put_of_room]
  · simp [Ne.symm tokens_differ, cacheOfOne]
  · intro _
    decide

theorem alice_verified_next :
    accountsRbac.Verifies accountsCrates cacheOfAdmin aliceNext aliceToken aliceClaims := by
  refine ⟨presented_bearing aliceToken_plain (compact_ne_empty _ _ _), ?_,
    ⟨_, rfl, aliceToken_accepted _⟩⟩
  intro cached live
  have found := live.1
  rw [alice_absent] at found
  cases found

theorem peek_of_single {cache : TokenCache} {token other : String} (single : cache.cap = 1)
    (present : (cache.peek token).isSome) (different : other ≠ token) : cache.peek other = none := by
  rw [LruCache.peek_eq_none_iff]
  intro alsoKept
  have kept := LruCache.peek_isSome_iff.mp present
  have bounded := cache.size_le_cap
  rw [single, LruCache.size_eq_keys] at bounded
  obtain ⟨only, keys⟩ := List.length_eq_one_iff.mp (le_antisymm bounded (List.length_pos_of_mem kept))
  rw [keys, List.mem_singleton] at kept alsoKept
  exact different (alsoKept.trans kept.symm)

/-- Alice's entry takes the only place in the cache. -/
theorem admin_evicted : (accountsRbac.meet accountsCrates cacheOfAdmin aliceNext).2.peek adminToken = none := by
  rw [RbacRequestInterceptor.meet_of_verifies alice_verified_next]
  refine peek_of_single ?_ ?_ tokens_differ
  · rw [LruCache.cap_put, LruCache.cap_get, cacheOfAdmin, LruCache.cap_put]
    rfl
  · rw [LruCache.peek_put, if_pos rfl]
    rfl

/-- The administrator's token is over by the second request. -/
theorem admin_refused_again (payload : Json) :
    ¬ accountsRbac.Accepts accountsCrates adminAgain adminToken payload := by
  intro accepts
  have same : adminClaims = payload :=
    RbacRequestInterceptor.payload_unique admin_verified_first.2.2 accepts
  obtain ⟨provider, configured, accepted⟩ := accepts
  obtain ⟨jwt, -, -, -, timely⟩ := eq_ok_of_verifyJwt accepted
  have expires : (adminClaims.get "exp").bind asI64 = some 1700000000 := by decide
  have isOver : saturatingAdd 1700000000 clockSkewSecs < adminAgain.reading.epochSecs := by decide
  rw [← same] at timely
  simp [checkTimes, expires, isOver] at timely

theorem passes_iff_entitled_admin :
    ((accountsRbac.meet accountsCrates (accountsRbac.cacheAfter accountsCrates
        (LruCache.empty 1 Nat.one_pos) [adminFirst]) adminAgain).1 = .pass ↔
      adminAgain.opName ∈ accountsRbac.unauthenticatedOps ∨
      ∃ required token payload,
        accountsRbac.rolePermissions.lookup adminAgain.opName = some required ∧
        CarriesBearer adminAgain.parts.headers token ∧
        (accountsRbac.Accepts accountsCrates adminAgain token payload ∨
          accountsRbac.AcceptedEarlier accountsCrates (LruCache.empty 1 Nat.one_pos) [adminFirst]
            adminAgain token payload) ∧
        ("*" ∈ accountsRbac.rolesOf payload ∨
          ∃ role ∈ required, role ∈ accountsRbac.rolesOf payload)) ∧
    ((accountsRbac.meet accountsCrates (accountsRbac.cacheAfter accountsCrates
        (LruCache.empty 1 Nat.one_pos) [adminFirst]) adminAgain).1 ≠ .pass →
      (accountsRbac.meet accountsCrates (accountsRbac.cacheAfter accountsCrates
        (LruCache.empty 1 Nat.one_pos) [adminFirst]) adminAgain).1.isReject = true) :=
  RbacRequestInterceptor.passes_iff_entitled accountsCrates accountsRbac Nat.one_pos [adminFirst]
    adminAgain rfl (by simp [adminFirst, adminAgain, bearing])

/-- The administrator's token was accepted a second ago.  Alice's request takes its place in
a cache of one entry, and by then the token has expired: the request is rejected. -/
theorem evicted_token_rejected :
    accountsRbac.Verifies accountsCrates
      (accountsRbac.cacheAfter accountsCrates (LruCache.empty 1 Nat.one_pos) []) adminFirst
      adminToken adminClaims ∧
    adminAgain.reading.instant < adminFirst.reading.instant + accountsRbac.cacheTtl ∧
    accountsRbac.policyFor adminAgain.context.operationType = .denyUnlisted ∧
    accountsRbac.rolePermissions.lookup adminAgain.opName = some ["admin"] ∧
    "admin" ∈ accountsRbac.rolesOf adminClaims ∧
    CarriesBearer adminAgain.parts.headers adminToken ∧
    (accountsRbac.meet accountsCrates (accountsRbac.cacheAfter accountsCrates
      (LruCache.empty 1 Nat.one_pos) [adminFirst, aliceNext]) adminAgain).1.isReject = true := by
  refine ⟨admin_verified_first, by decide, rfl, by decide, by decide,
    carriesBearer_bearing adminToken_plain (compact_ne_empty _ _ _), ?_⟩
  have closed : adminAgain.opName ∉ accountsRbac.unauthenticatedOps := by decide
  -- the cache has one entry, and it is no longer the administrator's
  have stale : ∀ cached, ¬ RbacRequestInterceptor.Live
      (accountsRbac.meet accountsCrates cacheOfAdmin aliceNext).2 adminAgain.reading adminToken
      cached := by
    intro cached live
    have found := live.1
    rw [admin_evicted] at found
    cases found
  obtain ⟨error, failed⟩ := RbacRequestInterceptor.verifyToken_of_refused
    ((accountsRbac.meet accountsCrates cacheOfAdmin aliceNext).2.get adminToken).2 admin_refused_again
  have brought : bearerToken adminAgain.parts.headers = some adminToken :=
    bearerToken_eq_some_iff.mpr (carriesBearer_bearing adminToken_plain (compact_ne_empty _ _ _))
  have unknown : ((accountsRbac.refreshed adminAgain).resolveIdentity accountsCrates
      (accountsRbac.meet accountsCrates cacheOfAdmin aliceNext).2 adminAgain.reading
      adminAgain.parts.headers).1.claims = none := by
    rw [(RbacRequestInterceptor.resolveIdentity_of_token brought).1,
      RbacRequestInterceptor.resolveClaims_of_stale stale, failed]
    rfl
  have strict : accountsRbac.policyFor adminAgain.context.operationType = .denyUnlisted := rfl
  have start : (LruCache.empty 1 Nat.one_pos : TokenCache) = cacheOfOne := rfl
  rw [start, RbacRequestInterceptor.cacheAfter_cons, RbacRequestInterceptor.cacheAfter_cons,
    RbacRequestInterceptor.cacheAfter_nil, meet_adminFirst, RbacRequestInterceptor.meet_of_closed closed]
  dsimp only
  apply (RbacRequestInterceptor.verdictFor_denyUnlisted strict).2
  intro passes
  obtain ⟨required, -, held⟩ := (RbacRequestInterceptor.verdictFor_denyUnlisted strict).1.mp passes
  rw [unknown] at held
  cases held

end SpectraGQL.Interceptors
