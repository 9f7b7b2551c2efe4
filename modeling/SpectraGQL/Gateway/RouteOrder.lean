import Mathlib.Data.List.Perm.Basic
import SpectraGQL.Gateway.Filters

/-! # Routes in any order (`gateway/filters/strategy.rs`, `match_route`)

The table of the routes is a map without an order of its own: a run of the gateway goes through it in
some order and takes the first route that matches.
-/

namespace SpectraGQL.Gateway

open SpectraGQL.Http SpectraGQL.Protocol

/-- The first element of a kind is the same in all orders exactly when there is one at most. -/
theorem find?_perm_iff {α : Type} {accepts : α → Bool} {elements : List α} :
    (∀ order : List α, order.Perm elements → order.find? accepts = elements.find? accepts) ↔
      ∀ first ∈ elements, ∀ second ∈ elements, accepts first = true → accepts second = true → first = second := by
  constructor
  · intro same
    -- an element that is put first is the one that is found
    have isFound : ∀ element ∈ elements, accepts element = true → elements.find? accepts = some element := by
      intro element member accepted
      obtain ⟨before, after, rfl⟩ := List.append_of_mem member
      rw [← same (element :: (before ++ after)) List.perm_middle.symm]
      simp [accepted]
    intro first member second memberToo accepted acceptedToo
    exact Option.some.inj ((isFound first member accepted).symm.trans (isFound second memberToo acceptedToo))
  · intro unique order permutation
    cases found : elements.find? accepts with
    | none =>
      rw [List.find?_eq_none] at found ⊢
      exact fun element member => found element (permutation.mem_iff.mp member)
    | some element =>
      have member := List.mem_of_find?_eq_some found
      have accepted := List.find?_some found
      cases foundToo : order.find? accepts with
      | none => exact absurd accepted (List.find?_eq_none.mp foundToo element (permutation.mem_iff.mpr member))
      | some other =>
        have memberToo := permutation.mem_iff.mp (List.mem_of_find?_eq_some foundToo)
        rw [unique other memberToo element member (List.find?_some foundToo) accepted]

namespace StrategyRouter

/-- The route is for the operation of the request, or for one of its root fields. -/
def Matches (info : RequestInfo) (route : SpectraRouteConfig) : Prop :=
  ∃ gql, info.gql = some gql ∧ gql.matchesOperation route.operation = true

/-- The route of a request does not depend on the order of the table exactly when no two different
    routes match the request. -/
theorem matchRoute_ordered_iff (routes : List SpectraRouteConfig) (info : RequestInfo) :
    (∀ order : List SpectraRouteConfig, order.Perm routes → matchRoute order info = matchRoute routes info) ↔
      ∀ first ∈ routes, ∀ second ∈ routes, Matches info first → Matches info second → first = second := by
  cases isGql : info.gql with
  | none => simp [matchRoute, Matches, isGql]
  | some gql =>
    simp only [matchRoute, Matches, isGql, Option.bind_some, Option.some.injEq, exists_eq_left']
    exact find?_perm_iff

/-- A payment is answered with a receipt. -/
def payRoute : SpectraRouteConfig := ⟨"pay", .asyncCommandReceipt, true, none, "ACCEPTED", none⟩

/-- Refunds are disabled. -/
def refundRoute : SpectraRouteConfig := ⟨"refund", .syncUpstreamExecution, false, none, "ACCEPTED", none⟩

/-- `mutation { pay refund }`. -/
def payAndRefund : RequestInfo where
  requestId := "0190163d-8694-739b-aea5-966c26f8ad91"
  hlc := ⟨1000, 0⟩
  http := ⟨.post, ⟨"", "/graphql", none⟩, []⟩
  gql := some ⟨.mutation, none, ["pay", "refund"], none, .null, none⟩

/-- A request that is on a disabled route as well is answered or refused, as the table happens to be. -/
theorem route_depends_on_order :
    [refundRoute, payRoute].Perm [payRoute, refundRoute] ∧
    matchRoute [payRoute, refundRoute] payAndRefund = some payRoute ∧
    matchRoute [refundRoute, payRoute] payAndRefund = some refundRoute ∧ payRoute ≠ refundRoute := by
  refine ⟨List.Perm.swap .., ?_, ?_, by decide⟩
  · decide +kernel
  · decide +kernel

end StrategyRouter

end SpectraGQL.Gateway
