import SpectraGQL.Admin.Aliases
import SpectraGQL.Interceptors.MapOrder

/-! # The maps of a configuration, in any order

A configuration holds its upstreams, its routes and its interceptors in hash maps, and whenever its
text is parsed these are iterated in another order.  Most of what is built from them is a map again.
The order counts where two entries are entered under one name: `OrderFree` says that they agree
there.
-/

namespace SpectraGQL.Admin

open SpectraGQL.Http SpectraGQL.Gateway SpectraGQL.Interceptors

/-! ## Two listings of one configuration -/

/-- The same configuration, with its maps listed in another order. -/
structure Reordered (config listed : SpectraConfig) : Prop where
  upstreams : config.boot.upstreams.Perm listed.boot.upstreams
  routes : config.routes.Perm listed.routes
  interceptors : config.interceptors.Perm listed.interceptors
  rest : listed = { config with
    boot := { config.boot with upstreams := listed.boot.upstreams }
    routes := listed.routes, interceptors := listed.interceptors }

/-- Maps have each key once; and whichever entry comes last, the same host goes by a name and the
    same interceptors guard an operation. -/
structure OrderFree (config : SpectraConfig) : Prop where
  upstreamKeys : (config.boot.upstreams.map Prod.fst).Nodup
  interceptorKeys : (config.interceptors.map Prod.fst).Nodup
  hosts : ∀ wanted, ∀ entry ∈ config.boot.upstreams, ∀ other ∈ config.boot.upstreams,
    entry.1 = wanted ∨ entry.2.IsNamed wanted → other.1 = wanted ∨ other.2.IsNamed wanted →
      entry.2.addr = other.2.addr
  guards : ∀ route ∈ config.routes, ∀ other ∈ config.routes,
    route.2.1.operation = other.2.1.operation → route.2.2 = other.2.2

/-! ## Hosts -/

/-- The host that goes by a name. -/
def hostOf (settings : BootSettings) (wanted : String) : Option String :=
  (lastEntered wanted settings.upstreams).elim
    (if wanted = "default" ∨ settings.gqlUpstream.IsNamed wanted then some settings.gqlUpstream.addr else none)
    fun config => some config.addr

section Hosts

variable {resolve : Resolver} {settings : BootSettings} {addrs : List (String × SocketAddr)}
  {targets : List (String × String)}

theorem mem_of_lastEntered {wanted : String} {upstreams : List (String × SpectraUpstreamConfig)}
    {config : SpectraUpstreamConfig} (isLast : lastEntered wanted upstreams = some config) :
    ∃ key, (key, config) ∈ upstreams ∧ (key = wanted ∨ config.IsNamed wanted) := by
  obtain ⟨⟨key, other⟩, last, rfl⟩ := Option.map_eq_some_iff.mp isLast
  have member := List.mem_filter.mp (List.mem_of_getLast? last)
  exact ⟨key, member.1, by simpa using member.2⟩

theorem lastEntered_eq_none_iff {wanted : String} {upstreams : List (String × SpectraUpstreamConfig)} :
    lastEntered wanted upstreams = none ↔
      ∀ entry ∈ upstreams, ¬ (entry.1 = wanted ∨ entry.2.IsNamed wanted) := by
  simp [lastEntered]

/-- Both maps say what goes by a name, and every host has an address. -/
theorem lookup_resolveAll (resolved : resolveAllUpstreamsWithTargets resolve settings = .ok (addrs, targets))
    (wanted : String) :
    targets.lookup wanted = hostOf settings wanted ∧
      addrs.lookup wanted = (hostOf settings wanted).bind (resolution resolve) ∧
      ((hostOf settings wanted).bind (resolution resolve)).isSome = (hostOf settings wanted).isSome := by
  have isOk : (resolveAllUpstreamsWithTargets resolve settings).isOk = true := by rw [resolved]; rfl
  have resolves := (resolveAllUpstreamsWithTargets_isOk_iff resolve settings).mp isOk
  have hasAddress : ∀ host, hostOf settings wanted = some host → (resolution resolve host).isSome = true := by
    intro host isHost
    have named : ∃ upstream ∈ settings.gqlUpstream :: settings.upstreams.map Prod.snd, upstream.addr = host := by
      unfold hostOf at isHost
      cases isLast : lastEntered wanted settings.upstreams with
      | some config =>
        obtain ⟨key, member, -⟩ := mem_of_lastEntered isLast
        rw [isLast] at isHost
        exact ⟨config, List.mem_cons_of_mem _ (List.mem_map_of_mem member), Option.some.inj isHost⟩
      | none =>
        rw [isLast, Option.elim_none, Option.ite_none_right_eq_some] at isHost
        exact ⟨settings.gqlUpstream, List.mem_cons_self, Option.some.inj isHost.2⟩
    obtain ⟨upstream, member, rfl⟩ := named
    obtain ⟨first, rest, found⟩ := resolves upstream member
    simp [resolution, found]
  rw [resolveAllUpstreamsWithTargets] at resolved
  cases found : firstAddress resolve ("Could not resolve default upstream: " ++ settings.gqlUpstream.addr)
      settings.gqlUpstream.addr with
  | error error =>
    rw [found] at resolved
    cases resolved
  | ok addr =>
    rw [found] at resolved
    obtain ⟨isAddr, isTarget⟩ := @lookup_resolveNamed resolve wanted _ _ _ resolved
    have isDefault := firstAddress_eq_ok found
    rw [lookup_nameUpstream] at isAddr isTarget
    refine ⟨?_, ?_, ?_⟩
    · rw [isTarget, hostOf]
      rfl
    · rw [isAddr, hostOf]
      cases lastEntered wanted settings.upstreams with
      | some config => rfl
      | none => split <;> simp_all
    · cases isHost : hostOf settings wanted with
      | none => rfl
      | some host => simpa using hasAddress host isHost

/-- What is entered under a name does not depend on the order. -/
theorem hostOf_reordered {config listed : SpectraConfig} (orderFree : OrderFree config)
    (reordered : Reordered config listed) (wanted : String) :
    hostOf listed.boot wanted = hostOf config.boot wanted := by
  have sameDefault : listed.boot.gqlUpstream = config.boot.gqlUpstream := by rw [reordered.rest]
  have sameEntries : ∀ entry, entry ∈ listed.boot.upstreams ↔ entry ∈ config.boot.upstreams :=
    fun entry => reordered.upstreams.mem_iff.symm
  unfold hostOf
  rw [sameDefault]
  cases first : lastEntered wanted config.boot.upstreams with
  | none =>
    have alsoNone : lastEntered wanted listed.boot.upstreams = none := by
      rw [lastEntered_eq_none_iff] at first ⊢
      simpa only [sameEntries] using first
    rw [alsoNone]
  | some entered =>
    cases second : lastEntered wanted listed.boot.upstreams with
    | none =>
      rw [lastEntered_eq_none_iff] at second
      simp only [sameEntries] at second
      rw [lastEntered_eq_none_iff.mpr second] at first
      cases first
    | some other =>
      -- two entries that go by one name have one host
      obtain ⟨key, member, named⟩ := mem_of_lastEntered first
      obtain ⟨otherKey, otherMember, otherNamed⟩ := mem_of_lastEntered second
      have same := orderFree.hosts wanted _ member _ ((sameEntries _).mp otherMember) named otherNamed
      exact congrArg some same.symm

theorem nodup_enter {α : Type} (names : List (String × α)) (name : String) (value : α)
    (distinct : (names.map Prod.fst).Nodup) :
    (((name, value) :: names.filter fun entry => entry.1 ≠ name).map Prod.fst).Nodup := by
  rw [List.map_cons, List.nodup_cons]
  constructor
  · simp
  · exact distinct.sublist (List.filter_sublist.map _)

theorem nodup_nameUpstream {α : Type} (names : List (String × α)) (key : String) (config : SpectraUpstreamConfig)
    (value : α) (distinct : (names.map Prod.fst).Nodup) :
    ((nameUpstream names key config value).map Prod.fst).Nodup := by
  unfold nameUpstream
  split
  · exact nodup_enter _ _ _ distinct
  · exact nodup_enter _ _ _ (nodup_enter _ _ _ distinct)

theorem nodup_resolveNamed {upstreams : List (String × SpectraUpstreamConfig)}
    {before after : List (String × SocketAddr) × List (String × String)}
    (resolved : resolveNamed resolve upstreams before = .ok after) (distinct : (before.2.map Prod.fst).Nodup) :
    (after.2.map Prod.fst).Nodup := by
  induction upstreams generalizing before with
  | nil =>
    cases resolved
    exact distinct
  | cons entry rest inductionHypothesis =>
    obtain ⟨addr, -, later⟩ := exists_of_bind_eq_ok resolved
    exact inductionHypothesis later (nodup_nameUpstream _ _ _ _ distinct)

/-- A name has one target. -/
theorem nodup_resolveAll (resolved : resolveAllUpstreamsWithTargets resolve settings = .ok (addrs, targets)) :
    (targets.map Prod.fst).Nodup := by
  obtain ⟨addr, -, later⟩ := exists_of_bind_eq_ok resolved
  exact nodup_resolveNamed later (nodup_nameUpstream _ _ _ _ List.nodup_nil)

end Hosts

/-! ## What is built from two listings -/

/-- Both are built to managers that guard alike. -/
theorem guardsAlike_reordered {Program Evaluator Module : Type} (engines : Engines Program Evaluator Module)
    {config first second : SpectraConfig} {manager other : InterceptorManager} (orderFree : OrderFree config)
    (reordered : Reordered config first) (alsoReordered : Reordered config second)
    (built : fromSpectraConfig engines first.interceptorSettings = .ok manager)
    (alsoBuilt : fromSpectraConfig engines second.interceptorSettings = .ok other) : GuardsAlike other manager := by
  refine guardsAlike_of_perm engines ?_ ?_ ?_ ?_ ?_ built alsoBuilt
  · exact (reordered.interceptors.map Prod.fst).nodup_iff.mp orderFree.interceptorKeys
  · exact reordered.interceptors.symm.trans alsoReordered.interceptors
  · exact (reordered.routes.symm.trans alsoReordered.routes).map _
  · rw [reordered.rest, alsoReordered.rest]
    rfl
  · intro route member otherRoute otherMember same
    obtain ⟨entry, isEntry, rfl⟩ := List.mem_map.mp member
    obtain ⟨otherEntry, isOtherEntry, rfl⟩ := List.mem_map.mp otherMember
    exact orderFree.guards entry (reordered.routes.mem_iff.mpr isEntry) otherEntry
      (reordered.routes.mem_iff.mpr isOtherEntry) same

end SpectraGQL.Admin
