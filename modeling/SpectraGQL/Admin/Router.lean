import SpectraGQL.Gateway.Filters
import Mathlib.Data.List.DropRight

/-! # The routes of the admin console (`admin/router.rs`, `gateway/filters/admin.rs`)

The router puts its routes under a prefix that it has cleaned: without slashes at its end, and
`/admin` for none at all.  The filter that decides which requests the console gets compares with
the prefix as it is configured.  They agree exactly where there was nothing to clean
(`filter_agrees_iff`).
-/

namespace SpectraGQL.Admin

open SpectraGQL.Http SpectraGQL.Gateway

inductive AdminRoute where
  | dashboard | favicon | status | routes | schema | schemaRefresh | subscriptions | idempotency
  | eventsink | traffic | trafficClear | telemetryReport | workers | workerLogs | configGet
  | configValidate | configUpdate | configReload | dnsStatus | dnsRescan | authVerify
  deriving DecidableEq, Repr

/-- `matchit::Router`; an insertion that it refuses is dropped, and leaves it as it may be. -/
structure Matchit (ρ : Type) where
  new : ρ
  insert : String → AdminRoute → ρ → ρ
  /-- `at`, with the parameters that the path gives. -/
  lookup : ρ → String → Option (AdminRoute × List (String × String))

/-! ## Prefixes -/

/-- `trim_end_matches('/')`. -/
def trimEndSlashes (text : String) : String :=
  String.ofList (text.toList.rdropWhile (· = '/'))

def endsWithSlash (text : String) : Bool := text.toList.getLast? = some '/'

/-- `str::replacen`, once. -/
def replaceFirst (part replacement : List Char) : List Char → List Char
  | [] => if part = [] then replacement else []
  | char :: rest =>
    if part.isPrefixOf (char :: rest) then replacement ++ (char :: rest).drop part.length
    else char :: replaceFirst part replacement rest

def cleanPrefix (pathPrefix : String) : String :=
  if pathPrefix = "" ∨ pathPrefix = "/" then "/admin" else trimEndSlashes pathPrefix

/-! ## The router -/

def getRoutes : List (String × AdminRoute) :=
  [("/admin/api/v1/status", .status), ("/admin/api/status", .status),
    ("/admin/api/v1/routes", .routes), ("/admin/api/routes", .routes),
    ("/admin/api/v1/schema", .schema), ("/admin/api/schema", .schema),
    ("/admin/api/v1/subscriptions", .subscriptions), ("/admin/api/subscriptions", .subscriptions),
    ("/admin/api/v1/idempotency", .idempotency), ("/admin/api/idempotency", .idempotency),
    ("/admin/api/v1/eventsink", .eventsink), ("/admin/api/eventsink", .eventsink),
    ("/admin/api/v1/traffic", .traffic), ("/admin/api/traffic", .traffic),
    ("/admin/api/v1/workers", .workers), ("/admin/api/workers", .workers),
    ("/admin/api/v1/workers/\x7bid\x7d/logs", .workerLogs),
    ("/admin/api/workers/\x7bid\x7d/logs", .workerLogs),
    ("/admin/api/v1/config", .configGet), ("/admin/api/config", .configGet),
    ("/admin/api/v1/dns", .dnsStatus), ("/admin/api/dns", .dnsStatus),
    ("/admin/api/v1/auth/verify", .authVerify), ("/admin/api/auth/verify", .authVerify)]

def postRoutes : List (String × AdminRoute) :=
  [("/admin/api/v1/schema/refresh", .schemaRefresh), ("/admin/api/schema/refresh", .schemaRefresh),
    ("/admin/api/v1/traffic/clear", .trafficClear), ("/admin/api/traffic/clear", .trafficClear),
    ("/admin/api/v1/telemetry/report", .telemetryReport),
    ("/admin/api/telemetry/report", .telemetryReport),
    ("/admin/api/v1/config/validate", .configValidate),
    ("/admin/api/config/validate", .configValidate),
    ("/admin/api/v1/config/reload", .configReload), ("/admin/api/config/reload", .configReload),
    ("/admin/api/v1/config", .configUpdate), ("/admin/api/config", .configUpdate),
    ("/admin/api/v1/dns/rescan", .dnsRescan), ("/admin/api/dns/rescan", .dnsRescan),
    ("/admin/api/v1/auth/verify", .authVerify), ("/admin/api/auth/verify", .authVerify)]

def putRoutes : List (String × AdminRoute) :=
  [("/admin/api/v1/config", .configUpdate), ("/admin/api/config", .configUpdate)]

/-- The files of the console under a prefix. -/
def pageRoutes (pathPrefix : String) : List (String × AdminRoute) :=
  [(pathPrefix, .dashboard), (pathPrefix ++ "/", .dashboard),
    (pathPrefix ++ "/index.html", .dashboard)]

def faviconRoutes (pathPrefix : String) : List (String × AdminRoute) :=
  [(pathPrefix ++ "/favicon.svg", .favicon), (pathPrefix ++ "/favicon.ico", .favicon)]

/-- Routes as they are written, and each of them under the prefix as well. -/
def underPrefix (pathPrefix : String) (routes : List (String × AdminRoute)) :
    List (String × AdminRoute) :=
  routes.flatMap fun route =>
    if pathPrefix ≠ "/admin" then
      [route, (String.ofList
        (replaceFirst "/admin".toList pathPrefix.toList route.1.toList), route.2)]
    else [route]

structure AdminRouter (ρ : Type) where
  getRouter : ρ
  postRouter : ρ
  putRouter : ρ
  pathPrefix : String

namespace AdminRouter

variable {ρ : Type} (matchit : Matchit ρ)

def insertAll (routes : List (String × AdminRoute)) : ρ :=
  routes.foldl (fun router route => matchit.insert route.1 route.2 router) matchit.new

def new (pathPrefix : String) : AdminRouter ρ :=
  let clean := cleanPrefix pathPrefix
  let pages :=
    pageRoutes clean ++ (if clean ≠ "/admin" then pageRoutes "/admin" else []) ++
      faviconRoutes clean ++ (if clean ≠ "/admin" then faviconRoutes "/admin" else [])
  { getRouter := insertAll matchit (pages ++ underPrefix clean getRoutes)
    postRouter := insertAll matchit (underPrefix clean postRoutes)
    putRouter := insertAll matchit (underPrefix clean putRoutes)
    pathPrefix := clean }

def matchRoute (router : AdminRouter ρ) (method : Method) (path : String) :
    Option (AdminRoute × List (String × String)) :=
  let table :=
    match method with
    | .get => some router.getRouter
    | .post => some router.postRouter
    | .put => some router.putRouter
    | _ => none
  table.bind fun table =>
    match matchit.lookup table path with
    | some matched => some matched
    | none =>
      if 1 < path.utf8ByteSize ∧ endsWithSlash path = true
      then matchit.lookup table (trimEndSlashes path)
      else none

end AdminRouter

/-! ## The filter and the router -/

/-- The prefix itself, or something after it and a slash. -/
def UnderPrefix (pathPrefix path : String) : Prop :=
  path = pathPrefix ∨ ∃ rest, path = pathPrefix ++ "/" ++ rest

/-- The filter claims what is under the prefix of the router: everything that the router can
    match there, and no other path. -/
structure FilterAgrees (pathPrefix : String) : Prop where
  claims : ∀ path, AdminFilter.isAdminRequest (some pathPrefix) path = true ↔
    UnderPrefix (cleanPrefix pathPrefix) path
  matched : ∀ {ρ : Type} (matchit : Matchit ρ) (method : Method) (path : String) found,
    (AdminRouter.new matchit pathPrefix).matchRoute matchit method path = some found →
    UnderPrefix (AdminRouter.new matchit pathPrefix).pathPrefix path →
    AdminFilter.isAdminRequest (some pathPrefix) path = true
  spared : ∀ path, ¬ UnderPrefix (cleanPrefix pathPrefix) path →
    AdminFilter.isAdminRequest (some pathPrefix) path = false

theorem isAdminRequest_iff (pathPrefix path : String) :
    AdminFilter.isAdminRequest (some pathPrefix) path = true ↔ UnderPrefix pathPrefix path := by
  unfold AdminFilter.isAdminRequest UnderPrefix startsWith
  rw [Bool.or_eq_true, beq_iff_eq, List.isPrefixOf_iff_prefix]
  refine or_congr_right ⟨?_, ?_⟩
  · rintro ⟨rest, isPath⟩
    refine ⟨String.ofList rest, ?_⟩
    rw [← String.toList_inj, ← isPath]
    simp
  · rintro ⟨rest, rfl⟩
    exact ⟨rest.toList, by simp⟩

/-- What ends with no slash is clean. -/
theorem cleanPrefix_eq_self {pathPrefix : String} (nonempty : pathPrefix ≠ "")
    (noSlash : endsWithSlash pathPrefix = false) : cleanPrefix pathPrefix = pathPrefix := by
  have notRoot : pathPrefix ≠ "/" := by
    rintro rfl
    exact absurd noSlash (by decide)
  have kept : pathPrefix.toList.rdropWhile (· = '/') = pathPrefix.toList := by
    rw [List.rdropWhile_eq_self_iff]
    intro notNil isSlash
    simp only [endsWithSlash, List.getLast?_eq_getLast_of_ne_nil notNil, decide_eq_false_iff_not,
      Option.some.injEq] at noSlash
    exact noSlash (of_decide_eq_true isSlash)
  rw [cleanPrefix, if_neg (by simp [nonempty, notRoot]), trimEndSlashes, kept, String.ofList_toList]

/-- A text that ends with a slash is longer than what is left of it. -/
theorem trimEndSlashes_shorter {text : String} (slash : endsWithSlash text = true) :
    (trimEndSlashes text).toList.length < text.toList.length := by
  obtain ⟨front, isText⟩ := List.getLast?_eq_some_iff.mp (of_decide_eq_true slash)
  have trimmed : text.toList.rdropWhile (· = '/') = front.rdropWhile (· = '/') := by
    rw [isText]
    exact List.rdropWhile_concat_pos _ _ _ (by decide)
  have shorter := (List.rdropWhile_prefix (· = '/') front).length_le
  rw [trimEndSlashes, String.toList_ofList, trimmed, isText, List.length_append, List.length_singleton]
  omega

/-- What is under a prefix is not shorter. -/
theorem UnderPrefix.length_le {pathPrefix path : String} (under : UnderPrefix pathPrefix path) :
    pathPrefix.toList.length ≤ path.toList.length := by
  rcases under with rfl | ⟨rest, rfl⟩
  · exact Nat.le_refl _
  · simp only [String.toList_append, List.length_append]
    omega

/-- The filter and the router agree exactly on the prefixes that the router takes as they are. -/
theorem filter_agrees_iff (pathPrefix : String) :
    FilterAgrees pathPrefix ↔ pathPrefix ≠ "" ∧ endsWithSlash pathPrefix = false := by
  constructor
  · intro agrees
    constructor
    · rintro rfl
      -- an empty prefix claims every path
      have claimed : UnderPrefix "" "/graphql" := .inr ⟨"graphql", by decide⟩
      have under := (agrees.claims "/graphql").mp ((isAdminRequest_iff _ _).mpr claimed)
      rw [show cleanPrefix "" = "/admin" by decide] at under
      rcases under with same | ⟨rest, same⟩
      · exact absurd same (by decide)
      · have chars := congrArg String.toList same
        simp at chars
    · by_contra slash
      rw [Bool.not_eq_false] at slash
      -- the filter leaves the prefix of the router alone
      have under := (isAdminRequest_iff _ _).mp
        ((agrees.claims (cleanPrefix pathPrefix)).mpr (.inl rfl))
      by_cases isRoot : pathPrefix = "" ∨ pathPrefix = "/"
      · rcases isRoot with rfl | rfl
        · exact absurd slash (by decide)
        · rw [show cleanPrefix "/" = "/admin" by decide] at under
          rcases under with same | ⟨rest, same⟩
          · exact absurd same (by decide)
          · have chars := congrArg String.toList same
            simp at chars
      · have long := under.length_le
        have short := trimEndSlashes_shorter slash
        rw [cleanPrefix, if_neg isRoot] at long
        omega
  · rintro ⟨nonempty, noSlash⟩
    have clean := cleanPrefix_eq_self nonempty noSlash
    have claims (path : String) : AdminFilter.isAdminRequest (some pathPrefix) path = true ↔
        UnderPrefix (cleanPrefix pathPrefix) path := by
      rw [clean]
      exact isAdminRequest_iff pathPrefix path
    refine ⟨claims, fun matchit method path found _ under => (claims path).mpr under, ?_⟩
    intro path notUnder
    rw [← Bool.not_eq_true, claims path]
    exact notUnder

/-- Behind `/admin/` the filter does not find the console that the router has at `/admin`. -/
theorem filter_misses_admin : ¬ FilterAgrees "/admin/" := by
  intro agrees
  have claimed := (agrees.claims "/admin").mpr (.inl (by decide))
  exact absurd claimed (by decide)

end SpectraGQL.Admin
