import SpectraGQL.Data.JsonGrammar
import SpectraGQL.Gateway.KeyProtocol
import SpectraGQL.Gateway.Topics

/-! # What a fingerprint tells of a mutation

The client, the operation and the body of a mutation are hashed with colons between them, and the
client may say anything, colons and bodies included.  `fingerprint_inj` says that two mutations
have one fingerprint only if their clients and their bodies are the same.
-/

namespace SpectraGQL.Gateway

open Interaction SpectraGQL.Core SpectraGQL.Http SpectraGQL.Protocol SpectraGQL.Interceptors
open SpectraGQL.Telemetry SpectraGQL.Idempotency Data.JsonGrammar

/-- What the JSON crate promises: it reads an object from the text of one only. -/
def ReadsJson (crates : Crates) : Prop :=
  ∀ text members, crates.fromStr text = some (.object members) → ObjectText text.toList

/-- A mutation that comes to `handle_fingerprint` with the body that it was decoded from. -/
structure FingerprintedMutation (proxy : CompositeServiceProxy) extends DecodedRequest proxy where
  dynamic : DynamicGatewayState
  isMutation : info.gql.any GraphQLRequestInfo.isMutation = true
  isAccepted : (pipelineVerdict dynamic (stampRequest exchange) info body).isReject = false
  unchanged : (accepted (stampRequest exchange) body
    (pipelineVerdict dynamic (stampRequest exchange) info body)).2 = body
  isObject : ∃ members query, proxy.crates.fromStr body = some (.object members) ∧
    members.lookup "query" = some (.string query)

namespace FingerprintedMutation

variable {proxy : CompositeServiceProxy} (mutation : FingerprintedMutation proxy)

/-- The request and its body after the pipeline. -/
def afterPipeline : Exchange × String :=
  accepted (stampRequest mutation.exchange) mutation.body
    (pipelineVerdict mutation.dynamic (stampRequest mutation.exchange) mutation.info mutation.body)

def clientId : String :=
  (mutation.afterPipeline.1.session.reqHeader.headers.getStr "x-forwarded-for").getD "client"

/-- The key that is claimed at the engine. -/
def key : String :=
  IdempotencyFilter.computeFingerprint proxy.crates mutation.clientId mutation.info.operationName
    mutation.afterPipeline.2

/-- It is the one that the request is known by if it brings no key of its own. -/
theorem key_eq : resolvedKey proxy mutation.dynamic mutation.exchange =
    (explicitKey mutation.exchange.session <|> some mutation.key) := by
  rw [resolvedKey_of_accepted mutation.decodes mutation.isAccepted, if_pos mutation.isMutation]
  rfl

end FingerprintedMutation

/-- The name of an operation, or what stands for it, has no colon. -/
theorem plain_operationName {proxy : CompositeServiceProxy} (lexical : Lexical proxy.crates)
    (request : DecodedRequest proxy) : ':' ∉ (request.info.operationName.getD "anonymous").toList := by
  cases named : request.info.operationName with
  | none => decide
  | some name =>
    intro colon
    exact absurd (request.operationName_continues lexical named ':' colon) (by decide)

theorem colon_mem {front back ending : List Char} (split : back ++ [':'] = front ++ ending)
    (nonempty : ending ≠ []) : ':' ∈ ending := by
  have lasts := congrArg List.getLast? split
  rw [List.getLast?_concat, List.getLast?_append_of_ne_nil _ nonempty] at lasts
  exact List.mem_of_getLast? lasts.symm

/-- A body does not begin within the body of another request: what is left out of that would be
    blank, and ends with a colon. -/
theorem eq_nil_of_longer {front back ending body : List Char} (isObject : ObjectText body)
    (longer : ObjectText (ending ++ body)) (split : back ++ [':'] = front ++ ending) : ending = [] := by
  by_contra nonempty
  have isBlank := blank_of_suffix longer isObject ':' (colon_mem split nonempty)
  cases isBlank

theorem body_inj {front back body otherBody : List Char} (isObject : ObjectText body)
    (otherIsObject : ObjectText otherBody) (same : front ++ ':' :: body = back ++ ':' :: otherBody) :
    front = back ∧ body = otherBody := by
  have parts : (front ++ [':']) ++ body = (back ++ [':']) ++ otherBody := by simpa using same
  cases List.append_eq_append_iff.mp parts with
  | inl longer =>
    obtain ⟨ending, isBack, isBody⟩ := longer
    have noMore := eq_nil_of_longer otherIsObject (isBody ▸ isObject) isBack
    rw [noMore] at isBack isBody
    rw [List.append_nil] at isBack
    exact ⟨(List.append_cancel_right isBack).symm, isBody⟩
  | inr longer =>
    obtain ⟨ending, isFront, isBody⟩ := longer
    have noMore := eq_nil_of_longer isObject (isBody ▸ otherIsObject) isFront
    rw [noMore] at isFront isBody
    rw [List.append_nil] at isFront
    exact ⟨List.append_cancel_right isFront, isBody.symm⟩

/-- What is hashed splits in one way only: first at its body, and then at the last colon. -/
theorem fingerprint_text_inj {client otherClient operation otherOperation body otherBody : String}
    (plain : ':' ∉ operation.toList) (otherPlain : ':' ∉ otherOperation.toList)
    (isObject : ObjectText body.toList) (otherIsObject : ObjectText otherBody.toList)
    (same : client ++ ":" ++ operation ++ ":" ++ body =
      otherClient ++ ":" ++ otherOperation ++ ":" ++ otherBody) :
    client = otherClient ∧ body = otherBody := by
  have letters : (client.toList ++ ':' :: operation.toList) ++ ':' :: body.toList =
      (otherClient.toList ++ ':' :: otherOperation.toList) ++ ':' :: otherBody.toList := by
    simpa using String.toList_inj.mpr same
  obtain ⟨fronts, bodies⟩ := body_inj isObject otherIsObject letters
  obtain ⟨clients, -⟩ := lastSeparator_inj plain otherPlain fronts
  exact ⟨String.toList_inj.mp clients, String.toList_inj.mp bodies⟩

/-- Two mutations have one fingerprint only if they are of one client and have one body. -/
theorem fingerprint_inj {proxy : CompositeServiceProxy} (lexical : Lexical proxy.crates)
    (readsJson : ReadsJson proxy.crates) (collisionFree : Function.Injective proxy.crates.sha256)
    (first second : FingerprintedMutation proxy) (same : first.key = second.key) :
    first.clientId = second.clientId ∧ first.body = second.body := by
  obtain ⟨members, query, isValue, -⟩ := first.isObject
  obtain ⟨otherMembers, otherQuery, otherIsValue, -⟩ := second.isObject
  have texts := asBytes_inj.mp (collisionFree (String.append_right_inj _ |>.mp same))
  rw [show first.afterPipeline.2 = first.body from first.unchanged,
    show second.afterPipeline.2 = second.body from second.unchanged] at texts
  exact fingerprint_text_inj (plain_operationName lexical first.toDecodedRequest)
    (plain_operationName lexical second.toDecodedRequest) (readsJson _ _ isValue) (readsJson _ _ otherIsValue) texts

/-! ### One mutation twice -/

/-- The shop with a hash that keeps every byte. -/
def printingProxy : CompositeServiceProxy :=
  { shopProxy with crates := { shopCrates with
      sha256 := fun bytes => String.ofList (bytes.map fun byte => Char.ofNat byte.toNat) } }

theorem toNat_ofNat_byte (byte : UInt8) : (Char.ofNat byte.toNat).toNat = byte.toNat := by
  have valid : byte.toNat.isValidChar := .inl (Nat.lt_trans byte.toNat_lt (by decide))
  unfold Char.ofNat
  rw [dif_pos valid]
  rfl

theorem printing_injective : Function.Injective printingProxy.crates.sha256 := by
  intro left right same
  refine List.map_injective_iff.mpr ?_ (String.ofList_inj.mp same)
  intro byte other codes
  have numbers : (Char.ofNat byte.toNat).toNat = (Char.ofNat other.toNat).toNat := congrArg Char.toNat codes
  rw [toNat_ofNat_byte, toNat_ofNat_byte] at numbers
  exact UInt8.toNat_inj.mp numbers

/-- A body with a query and nothing else. -/
theorem objectText_query {query : List Char} (ends : endsString (query ++ ['"']) = true) :
    ObjectText ("\x7b\"query\":\"".toList ++ (query ++ "\"\x7d".toList)) := by
  have blank : Data.JsonGrammar.Blank [] := by simp [Data.JsonGrammar.Blank]
  have isName : endsString "query\"".toList = true := by decide
  refine ⟨[], _, [], blank, .inr (.member blank isName blank blank (.string ends) blank), blank, ?_⟩
  simp

theorem printing_readsJson : ReadsJson printingProxy.crates := by
  intro text members isObject
  simp only [printingProxy, shopCrates, smallCrates] at isObject
  split at isObject
  · rename_i isAsk
    rw [isAsk]
    exact @objectText_query "query \x7b pay \x7d".toList (by decide)
  · split at isObject
    · rename_i isPay
      rw [isPay]
      exact @objectText_query "mutation \x7b pay \x7d".toList (by decide)
    · cases isObject

/-- The mutation of a client, under a number of its own. -/
def payAgain (requestId : RequestId) (decodes : (decoded printingProxy (admitted printingProxy (shopOf none)
    { smallArrival .post [("x-forwarded-for", .ofString "203.0.113.7")] payBody with
      requestId := requestId })).isSome = true) : DecodedRequest printingProxy :=
  .ofArrival (shopOf none) { smallArrival .post [("x-forwarded-for", .ofString "203.0.113.7")] payBody with
    requestId := requestId } decodes

def paidFirst : FingerprintedMutation printingProxy where
  toDecodedRequest := payAgain "0190163d-8694-739b-aea5-966c26f8ad91" (by decide +kernel)
  dynamic := shopOf none
  isMutation := by decide +kernel
  isAccepted := by decide +kernel
  unchanged := by decide +kernel
  isObject := ⟨_, _, rfl, rfl⟩

def paidAgain : FingerprintedMutation printingProxy where
  toDecodedRequest := payAgain "0190163d-8694-739b-aea5-966c26f8ad92" (by decide +kernel)
  dynamic := shopOf none
  isMutation := by decide +kernel
  isAccepted := by decide +kernel
  unchanged := by decide +kernel
  isObject := ⟨_, _, rfl, rfl⟩

theorem fingerprint_inj_paid : paidFirst.clientId = paidAgain.clientId ∧ paidFirst.body = paidAgain.body :=
  @fingerprint_inj printingProxy ⟨shop_lexical.names, shop_lexical.types⟩ printing_readsJson printing_injective
    paidFirst paidAgain (by decide +kernel)

end SpectraGQL.Gateway
