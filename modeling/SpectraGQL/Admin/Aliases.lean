import SpectraGQL.Admin.Rescan
import SpectraGQL.Admin.Validation
import SpectraGQL.Gateway.Filters

/-! # Upstreams under their own names (`resolve_all_upstreams_with_targets` of `core/config.rs`)

An upstream is entered under its key, and under its `name` as well.  Both go into the same maps,
entry by entry, and what is entered last counts.  So a key is redirected by an entry that has it as
its name and comes later, and which one comes later is up to the iteration order of the map.  Only
`default` is guarded against names.
-/

namespace SpectraGQL.Admin

open SpectraGQL.Http SpectraGQL.Gateway SpectraGQL.Interceptors

/-! ## Who is entered under a name -/

/-- The name that an upstream is entered under besides its key. -/
def SpectraUpstreamConfig.IsNamed (config : SpectraUpstreamConfig) (wanted : String) : Prop :=
  config.name = wanted ∧ wanted ≠ "" ∧ wanted ≠ "default"

instance (config : SpectraUpstreamConfig) (wanted : String) : Decidable (config.IsNamed wanted) :=
  inferInstanceAs (Decidable (_ ∧ _))

/-- The last of the upstreams that are entered under a name. -/
def lastEntered (wanted : String) (upstreams : List (String × SpectraUpstreamConfig)) :
    Option SpectraUpstreamConfig :=
  ((upstreams.filter fun entry => entry.1 = wanted ∨ entry.2.IsNamed wanted).getLast?).map Prod.snd

/-- The last of the upstreams that have it as their name. -/
def lastNamed (wanted : String) (upstreams : List (String × SpectraUpstreamConfig)) :
    Option SpectraUpstreamConfig :=
  ((upstreams.filter fun entry => entry.2.IsNamed wanted).getLast?).map Prod.snd

/-- The first address that a host resolves to. -/
def resolution (resolve : Resolver) (host : String) : Option SocketAddr :=
  match resolve host with
  | .ok (addr :: _) => some addr
  | .ok [] | .error _ => none

section Lookup

variable {α : Type} {resolve : Resolver} {wanted key : String} {config : SpectraUpstreamConfig}

theorem lookup_enter (names : List (String × α)) (name : String) (value : α) :
    ((name, value) :: names.filter fun entry => entry.1 ≠ name).lookup wanted =
      if wanted = name then some value else names.lookup wanted := by
  by_cases same : wanted = name
  · simp [same]
  · have apart : (wanted == name) = false := by simpa using same
    rw [if_neg same, List.lookup_cons, apart]
    exact lookup_filter_of_ne names same

theorem lookup_nameUpstream (names : List (String × α)) (value : α) :
    (nameUpstream names key config value).lookup wanted =
      if wanted = key ∨ config.IsNamed wanted then some value else names.lookup wanted := by
  unfold nameUpstream
  by_cases unnamed : config.name = "" ∨ config.name = "default"
  · have notNamed : ¬ config.IsNamed wanted := by
      intro named
      obtain ⟨rfl, notEmpty, notDefault⟩ := named
      exact unnamed.elim notEmpty notDefault
    simp only [if_pos unnamed, lookup_enter, notNamed, or_false]
  · have isNamed : config.IsNamed wanted ↔ wanted = config.name := by
      constructor
      · exact fun named => named.1.symm
      · rintro rfl
        exact ⟨rfl, not_or.mp unnamed⟩
    simp only [if_neg unnamed, lookup_enter, isNamed]
    -- the name is entered after the key, both with the same value
    by_cases isKey : wanted = key <;> by_cases isName : wanted = config.name <;> simp [isKey, isName]

theorem firstAddress_eq_ok {unresolved host : String} {addr : SocketAddr}
    (found : firstAddress resolve unresolved host = .ok addr) : resolution resolve host = some addr := by
  unfold firstAddress at found
  unfold resolution
  cases resolved : resolve host with
  | error error => simp [resolved, bind, Except.bind] at found
  | ok addrs =>
    cases addrs with
    | nil => simp [resolved, bind, Except.bind] at found
    | cons first rest => simpa [resolved, bind, Except.bind, pure, Except.pure] using found

theorem lastEntered_cons (rest : List (String × SpectraUpstreamConfig)) :
    lastEntered wanted ((key, config) :: rest) =
      (lastEntered wanted rest <|>
        if wanted = key ∨ config.IsNamed wanted then some config else none) := by
  unfold lastEntered
  by_cases entered : key = wanted ∨ config.IsNamed wanted
  · have same : wanted = key ∨ config.IsNamed wanted := entered.imp_left Eq.symm
    rw [List.filter_cons_of_pos (by simpa using entered), List.getLast?_cons, if_pos same]
    cases (rest.filter fun entry => entry.1 = wanted ∨ entry.2.IsNamed wanted).getLast? <;> rfl
  · have other : ¬ (wanted = key ∨ config.IsNamed wanted) := fun same => entered (same.imp_left Eq.symm)
    rw [List.filter_cons_of_neg (by simpa using entered), if_neg other]
    simp

/-- Both maps have what was entered last. -/
theorem lookup_resolveNamed {upstreams : List (String × SpectraUpstreamConfig)}
    {before after : List (String × SocketAddr) × List (String × String)}
    (resolved : resolveNamed resolve upstreams before = .ok after) :
    after.1.lookup wanted = (lastEntered wanted upstreams).elim (before.1.lookup wanted)
        (fun config => resolution resolve config.addr) ∧
      after.2.lookup wanted = (lastEntered wanted upstreams).elim (before.2.lookup wanted)
        (fun config => some config.addr) := by
  induction upstreams generalizing before with
  | nil =>
    cases resolved
    exact ⟨rfl, rfl⟩
  | cons entry rest inductionHypothesis =>
    obtain ⟨key, config⟩ := entry
    rw [resolveNamed] at resolved
    cases found : firstAddress resolve ("Could not resolve upstream " ++ key ++ ": " ++ config.addr)
        config.addr with
    | error error =>
      rw [found] at resolved
      cases resolved
    | ok addr =>
      rw [found] at resolved
      obtain ⟨addrs, targets⟩ := inductionHypothesis resolved
      rw [addrs, targets, lookup_nameUpstream, lookup_nameUpstream, lastEntered_cons,
        ← firstAddress_eq_ok found]
      cases lastEntered wanted rest with
      | some last => exact ⟨rfl, rfl⟩
      | none => split <;> exact ⟨rfl, rfl⟩

end Lookup

/-! ## Keys and names -/

/-- Every key leads to its own upstream, and `default` to the default one unless it is a key. -/
structure LeadHome (resolve : Resolver) (settings : BootSettings) (addrs : List (String × SocketAddr))
    (targets : List (String × String)) : Prop where
  keys : ∀ key config, (key, config) ∈ settings.upstreams →
    addrs.lookup key = resolution resolve config.addr ∧ targets.lookup key = some config.addr
  default : "default" ∉ settings.upstreams.map Prod.fst →
    addrs.lookup "default" = resolution resolve settings.gqlUpstream.addr ∧
      targets.lookup "default" = some settings.gqlUpstream.addr

/-- What comes after a key and has it as its name does not lead elsewhere. -/
def KeysKept (upstreams : List (String × SpectraUpstreamConfig)) : Prop :=
  ∀ earlier key config later, upstreams = earlier ++ (key, config) :: later →
    ∀ last, lastNamed key later = some last → last.addr = config.addr

/-- A route that is overridden with a key goes to the upstream of that key. -/
theorem LeadHome.resolveModeAUpstream {resolve : Resolver} {settings : BootSettings}
    {addrs : List (String × SocketAddr)} {targets : List (String × String)}
    (home : LeadHome resolve settings addrs targets) {key : String} {config : SpectraUpstreamConfig}
    (member : (key, config) ∈ settings.upstreams) {route : SpectraRouteConfig}
    (overridden : route.upstream = some key) :
    StrategyRouter.resolveModeAUpstream route addrs = resolution resolve config.addr := by
  rw [StrategyRouter.resolveModeAUpstream, overridden]
  exact (home.keys key config member).1

section Keys

variable {resolve : Resolver} {settings : BootSettings} {addrs : List (String × SocketAddr)}
  {targets : List (String × String)}

/-- A key is entered once, so only names are entered after it. -/
theorem lastEntered_key {earlier later : List (String × SpectraUpstreamConfig)} {key : String}
    {config : SpectraUpstreamConfig}
    (once : ((earlier ++ (key, config) :: later).map Prod.fst).Nodup) :
    lastEntered key (earlier ++ (key, config) :: later) = (lastNamed key later <|> some config) := by
  rw [List.map_append, List.map_cons] at once
  -- the keys after this one are others
  have fresh := (List.nodup_cons.mp (List.Nodup.of_append_right once)).1
  have names : (later.filter fun entry => entry.1 = key ∨ entry.2.IsNamed key) =
      later.filter fun entry => entry.2.IsNamed key := by
    refine List.filter_congr fun entry member => ?_
    have other : entry.1 ≠ key := fun same => fresh (List.mem_map.mpr ⟨entry, member, same⟩)
    simp [other]
  rw [lastEntered, lastNamed, List.filter_append, List.filter_cons_of_pos (by simp), names,
    List.getLast?_append, List.getLast?_cons]
  cases (later.filter fun entry => entry.2.IsNamed key).getLast? <;> rfl

/-- No name is entered for `default`. -/
theorem lastEntered_default {upstreams : List (String × SpectraUpstreamConfig)}
    (noKey : "default" ∉ upstreams.map Prod.fst) : lastEntered "default" upstreams = none := by
  have nothing : (upstreams.filter fun entry => entry.1 = "default" ∨ entry.2.IsNamed "default") = [] := by
    rw [List.filter_eq_nil_iff]
    intro entry member
    have other : entry.1 ≠ "default" := fun same => noKey (List.mem_map.mpr ⟨entry, member, same⟩)
    simp [other, SpectraUpstreamConfig.IsNamed]
  rw [lastEntered, nothing]
  rfl

/-- The keys lead to their own upstreams exactly if, in the order in which the map is iterated, no
    key is followed by an upstream of another address that has it as its name. -/
theorem lead_home_iff (once : (settings.upstreams.map Prod.fst).Nodup)
    (resolved : resolveAllUpstreamsWithTargets resolve settings = .ok (addrs, targets)) :
    LeadHome resolve settings addrs targets ↔ KeysKept settings.upstreams := by
  rw [resolveAllUpstreamsWithTargets] at resolved
  cases found : firstAddress resolve ("Could not resolve default upstream: " ++ settings.gqlUpstream.addr)
      settings.gqlUpstream.addr with
  | error error =>
    rw [found] at resolved
    cases resolved
  | ok addr =>
    rw [found] at resolved
    have entered := fun wanted => @lookup_resolveNamed resolve wanted _ _ _ resolved
    constructor
    · intro home earlier key config later split last isLast
      -- the target map has what was entered last for the key, and its own address by `home`
      have target := (entered key).2
      rw [split, lastEntered_key (split ▸ once), isLast] at target
      have own := (home.keys key config (by simp [split])).2
      exact Option.some.inj (target.symm.trans own)
    · intro kept
      constructor
      · intro key config member
        obtain ⟨earlier, later, split⟩ := List.append_of_mem member
        have isEntered := entered key
        rw [split, lastEntered_key (split ▸ once)] at isEntered
        cases isLast : lastNamed key later with
        | none =>
          rw [isLast] at isEntered
          exact isEntered
        | some last =>
          -- redirected, but to the same address
          rw [isLast] at isEntered
          rw [← kept earlier key config later split last isLast]
          exact isEntered
      · intro noKey
        have isEntered := entered "default"
        simp only [lastEntered_default noKey, Option.elim_none, lookup_nameUpstream, true_or, if_true,
          ← firstAddress_eq_ok found] at isEntered
        exact isEntered

/-- No upstream has the key of one with another address as its name. -/
def NamesApart (upstreams : List (String × SpectraUpstreamConfig)) : Prop :=
  ∀ entry ∈ upstreams, ∀ other ∈ upstreams, other.2.IsNamed entry.1 → other.2.addr = entry.2.addr

instance (upstreams : List (String × SpectraUpstreamConfig)) : Decidable (NamesApart upstreams) :=
  inferInstanceAs (Decidable (∀ _ ∈ _, _))

theorem NamesApart.keysKept {upstreams order : List (String × SpectraUpstreamConfig)}
    (apart : NamesApart upstreams) (isOrder : order.Perm upstreams) : KeysKept order := by
  intro earlier key config later split last isLast
  obtain ⟨other, isFiltered, rfl⟩ := Option.map_eq_some_iff.mp isLast
  obtain ⟨member, isNamed⟩ := List.mem_filter.mp (List.mem_of_getLast? isFiltered)
  have isEntry : (key, config) ∈ upstreams := isOrder.subset (by simp [split])
  have isOther : other ∈ upstreams := isOrder.subset (by simp [split, member])
  exact apart _ isEntry _ isOther (by simpa using isNamed)

/-- What has a key as its name can come last. -/
theorem namesApart_of_keysKept {upstreams : List (String × SpectraUpstreamConfig)}
    (kept : ∀ order : List (String × SpectraUpstreamConfig), order.Perm upstreams → KeysKept order) :
    NamesApart upstreams := by
  intro entry isEntry other isOther isNamed
  obtain ⟨before, after, rfl⟩ := List.append_of_mem isEntry
  have others : other = entry ∨ other ∈ before ++ after := by
    simpa [or_left_comm] using isOther
  obtain rfl | isOther := others
  · rfl
  obtain ⟨front, back, split⟩ := List.append_of_mem isOther
  -- the order with the key first and the one that is named so last
  have isOrder : (entry :: (front ++ back ++ [other])).Perm (before ++ entry :: after) :=
    calc (entry :: (front ++ back ++ [other])).Perm (entry :: (front ++ other :: back)) := by
          rw [List.append_assoc]
          exact ((List.perm_append_singleton other back).append_left front).cons entry
      _ = entry :: (before ++ after) := by rw [split]
      (entry :: (before ++ after)).Perm (before ++ entry :: after) := List.perm_middle.symm
  have isLast : lastNamed entry.1 (front ++ back ++ [other]) = some other.2 := by
    rw [lastNamed, List.filter_append, List.filter_cons_of_pos (by simpa using isNamed), List.filter_nil,
      List.getLast?_concat]
    rfl
  exact kept _ isOrder [] entry.1 entry.2 _ rfl other.2 isLast

/-- Every iteration order leads every key to its own upstream exactly if no upstream has the key of
    one with another address as its name, or some address is not resolved at all. -/
theorem lead_home_in_every_order_iff (once : (settings.upstreams.map Prod.fst).Nodup) :
    (∀ order : List (String × SpectraUpstreamConfig), order.Perm settings.upstreams → ∀ addrs targets,
      resolveAllUpstreamsWithTargets resolve { settings with upstreams := order } = .ok (addrs, targets) →
      LeadHome resolve { settings with upstreams := order } addrs targets) ↔
    (Resolves resolve settings → NamesApart settings.upstreams) := by
  have sameKeys : ∀ order : List (String × SpectraUpstreamConfig), order.Perm settings.upstreams →
      (order.map Prod.fst).Nodup := fun order isOrder => (isOrder.map Prod.fst).nodup_iff.mpr once
  have sameResolved : ∀ order : List (String × SpectraUpstreamConfig), order.Perm settings.upstreams →
      ((resolveAllUpstreamsWithTargets resolve { settings with upstreams := order }).isOk = true ↔
        Resolves resolve settings) := by
    intro order isOrder
    have sameMembers : ∀ upstream,
        upstream ∈ order.map Prod.snd ↔ upstream ∈ settings.upstreams.map Prod.snd :=
      fun upstream => (isOrder.map Prod.snd).mem_iff
    rw [resolveAllUpstreamsWithTargets_isOk_iff]
    simp only [Resolves, List.mem_cons, sameMembers]
  constructor
  · intro home resolves
    apply namesApart_of_keysKept
    intro order isOrder
    obtain ⟨⟨addrs, targets⟩, resolved⟩ := isOk_iff.mp ((sameResolved order isOrder).mpr resolves)
    exact (lead_home_iff (sameKeys order isOrder) resolved).mp (home order isOrder addrs targets resolved)
  · intro apart order isOrder addrs targets resolved
    have resolves := (sameResolved order isOrder).mp (isOk_iff.mpr ⟨_, resolved⟩)
    exact (lead_home_iff (sameKeys order isOrder) resolved).mpr ((apart resolves).keysKept isOrder)

end Keys

/-! ## Two upstreams -/

def withUpstreams (upstreams : List (String × SpectraUpstreamConfig)) : BootSettings :=
  { hostSettings apiHost with upstreams := upstreams }

/-- The upstream of the inventory goes by the name of `stock` as well. -/
def stockSettings : BootSettings :=
  withUpstreams [("inventory", ⟨"stock", "127.0.0.1:5001"⟩), ("crm", ⟨"", "127.0.0.1:5002"⟩)]

theorem lead_home_in_every_order_iff_stock :
    LeadHome resolveLiteral stockSettings
      [("crm", "127.0.0.1:5002"), ("stock", "127.0.0.1:5001"), ("inventory", "127.0.0.1:5001"),
        ("default", apiHost)]
      [("crm", "127.0.0.1:5002"), ("stock", "127.0.0.1:5001"), ("inventory", "127.0.0.1:5001"),
        ("default", apiHost)] :=
  (@lead_home_in_every_order_iff resolveLiteral stockSettings (by decide)).mpr (fun _ => by decide)
    _ (.refl _) _ _ rfl

/-- Another upstream has the key of the inventory as its name. -/
def borrowedSettings : BootSettings :=
  withUpstreams [("inventory", ⟨"", "127.0.0.1:5001"⟩), ("crm", ⟨"inventory", "127.0.0.1:5002"⟩)]

/-- The inventory leads to the other upstream. -/
theorem borrowed_name_redirects : ∃ addrs targets,
    resolveAllUpstreamsWithTargets resolveLiteral borrowedSettings = .ok (addrs, targets) ∧
      ¬ LeadHome resolveLiteral borrowedSettings addrs targets := by
  refine ⟨_, _, rfl, ?_⟩
  intro home
  have redirected := (home.keys "inventory" ⟨"", "127.0.0.1:5001"⟩ (.head _)).2
  exact absurd redirected (by decide)

end SpectraGQL.Admin
