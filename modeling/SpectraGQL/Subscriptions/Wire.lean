import SpectraGQL.Protocol.JsonReader
import SpectraGQL.Subscriptions.Connection
import Mathlib.Data.String.Basic

/-! # Messages as texts (`subscriptions/protocol.rs`)

What `serde` derives for the messages of `graphql-transport-ws`: an object with its `type`, then the
fields that are there.  Reading takes the fields in any order, passes over what it does not know, and
refuses a field that comes twice.

A message whose values are not too deep for the recursion limit survives its text, but for a payload
that is `null`, which reads as none at all (`client_message_round_trip`, `server_message_round_trip`).
Every text that is read stands for a message that survives unchanged (`client_message_settled`,
`server_message_settled`).  An array in place of an object, which `serde` would also read, is left out.
-/

namespace SpectraGQL.Subscriptions.Wire

open SpectraGQL.Protocol

/-! ## Messages -/

structure SubscribePayload where
  query : String
  vars : Option Json
  operationName : Option String
  extensions : Option Json

inductive ClientMessage where
  | connectionInit (payload : Option Json)
  | ping (payload : Option Json)
  | pong (payload : Option Json)
  | subscribe (id : String) (payload : SubscribePayload)
  | complete (id : String)

structure ExecutionResult where
  data : Option Json
  errors : Option (List Json)
  extensions : Option Json

inductive ServerMessage where
  | connectionAck (payload : Option Json)
  | ping (payload : Option Json)
  | pong (payload : Option Json)
  | next (id : String) (payload : ExecutionResult)
  | error (id : String) (payload : List Json)
  | complete (id : String)

/-! ## Writing -/

/-- A field that is skipped if there is nothing in it. -/
def optional (name : String) (value : Option Json) : List (String × Json) :=
  (value.map fun value => (name, value)).toList

/-- The object of a variant. -/
def tagged (type : String) (fields : List (String × Json)) : Json := .object (("type", .string type) :: fields)

def SubscribePayload.encode (payload : SubscribePayload) : Json :=
  .object (("query", .string payload.query) :: optional "variables" payload.vars ++
    optional "operationName" (payload.operationName.map Json.string) ++ optional "extensions" payload.extensions)

def ClientMessage.encode : ClientMessage → Json
  | .connectionInit payload => tagged "connection_init" (optional "payload" payload)
  | .ping payload => tagged "ping" (optional "payload" payload)
  | .pong payload => tagged "pong" (optional "payload" payload)
  | .subscribe id payload => tagged "subscribe" [("id", .string id), ("payload", payload.encode)]
  | .complete id => tagged "complete" [("id", .string id)]

def ExecutionResult.encode (result : ExecutionResult) : Json :=
  .object (optional "data" result.data ++ optional "errors" (result.errors.map Json.array) ++
    optional "extensions" result.extensions)

def ServerMessage.encode : ServerMessage → Json
  | .connectionAck payload => tagged "connection_ack" (optional "payload" payload)
  | .ping payload => tagged "ping" (optional "payload" payload)
  | .pong payload => tagged "pong" (optional "payload" payload)
  | .next id payload => tagged "next" [("id", .string id), ("payload", payload.encode)]
  | .error id payload => tagged "error" [("id", .string id), ("payload", .array payload)]
  | .complete id => tagged "complete" [("id", .string id)]

/-! ## Reading -/

/-- What a field holds, if it is there; nothing is read if it comes twice. -/
def field (name : String) (members : List (String × Json)) : Option (Option Json) :=
  match members.filter fun member => member.1 = name with
  | [] => some none
  | [member] => some (some member.2)
  | _ => none

/-- `Option<Value>`. -/
def optionalValue (name : String) (members : List (String × Json)) : Option (Option Json) :=
  (field name members).map fun found =>
    match found with
    | none | some .null => none
    | some value => some value.normalize

/-- `Option<String>`. -/
def optionalString (name : String) (members : List (String × Json)) : Option (Option String) :=
  (field name members).bind fun found =>
    match found with
    | none | some .null => some none
    | some (.string text) => some (some text)
    | some _ => none

/-- `Option<Vec<Value>>`. -/
def optionalArray (name : String) (members : List (String × Json)) : Option (Option (List Json)) :=
  (field name members).bind fun found =>
    match found with
    | none | some .null => some none
    | some (.array items) => some (some (Json.normalizeItems items))
    | some _ => none

/-- A field that has to be there. -/
def required (name : String) (members : List (String × Json)) : Option Json := (field name members).bind id

def requiredString (name : String) (members : List (String × Json)) : Option String :=
  (required name members).bind Json.asStr

def SubscribePayload.decode : Json → Option SubscribePayload
  | .object members => do
    let query ← requiredString "query" members
    let vars ← optionalValue "variables" members
    let operationName ← optionalString "operationName" members
    let extensions ← optionalValue "extensions" members
    return ⟨query, vars, operationName, extensions⟩
  | _ => none

def ClientMessage.decodeFields (type : String) (members : List (String × Json)) : Option ClientMessage :=
  match type with
  | "connection_init" => (optionalValue "payload" members).map .connectionInit
  | "ping" => (optionalValue "payload" members).map .ping
  | "pong" => (optionalValue "payload" members).map .pong
  | "subscribe" => do
    let id ← requiredString "id" members
    let payload ← required "payload" members
    return .subscribe id (← SubscribePayload.decode payload)
  | "complete" => (requiredString "id" members).map .complete
  | _ => none

def ClientMessage.decode : Json → Option ClientMessage
  | .object members => do decodeFields (← requiredString "type" members) members
  | _ => none

def ExecutionResult.decode : Json → Option ExecutionResult
  | .object members => do
    let data ← optionalValue "data" members
    let errors ← optionalArray "errors" members
    let extensions ← optionalValue "extensions" members
    return ⟨data, errors, extensions⟩
  | _ => none

def ServerMessage.decodeFields (type : String) (members : List (String × Json)) : Option ServerMessage :=
  match type with
  | "connection_ack" => (optionalValue "payload" members).map .connectionAck
  | "ping" => (optionalValue "payload" members).map .ping
  | "pong" => (optionalValue "payload" members).map .pong
  | "next" => do
    let id ← requiredString "id" members
    let payload ← required "payload" members
    return .next id (← ExecutionResult.decode payload)
  | "error" => do
    let id ← requiredString "id" members
    let payload ← required "payload" members
    return .error id (Json.normalizeItems (← payload.asArray))
  | "complete" => (requiredString "id" members).map .complete
  | _ => none

def ServerMessage.decode : Json → Option ServerMessage
  | .object members => do decodeFields (← requiredString "type" members) members
  | _ => none

/-- `serde_json::to_string`. -/
def ClientMessage.toText (message : ClientMessage) : String := message.encode.toString

def ServerMessage.toText (message : ServerMessage) : String := message.encode.toString

/-- `serde_json::from_str`. -/
def ClientMessage.fromStr (text : String) : Option ClientMessage := (Json.read text).bind decode

def ServerMessage.fromStr (text : String) : Option ServerMessage := (Json.read text).bind decode

/-! ## What is lost on the way -/

/-- `null` is nothing. -/
def dropNull : Option Json → Option Json
  | some .null => none
  | value => value

def SubscribePayload.withoutNull (payload : SubscribePayload) : SubscribePayload :=
  { payload with vars := dropNull payload.vars, extensions := dropNull payload.extensions }

def ClientMessage.withoutNull : ClientMessage → ClientMessage
  | .connectionInit payload => .connectionInit (dropNull payload)
  | .ping payload => .ping (dropNull payload)
  | .pong payload => .pong (dropNull payload)
  | .subscribe id payload => .subscribe id payload.withoutNull
  | .complete id => .complete id

def ExecutionResult.withoutNull (result : ExecutionResult) : ExecutionResult :=
  { result with data := dropNull result.data, extensions := dropNull result.extensions }

def ServerMessage.withoutNull : ServerMessage → ServerMessage
  | .connectionAck payload => .connectionAck (dropNull payload)
  | .ping payload => .ping (dropNull payload)
  | .pong payload => .pong (dropNull payload)
  | .next id payload => .next id payload.withoutNull
  | .error id payload => .error id payload
  | .complete id => .complete id

/-- What the recursion limit leaves for a field of a message. -/
def fieldLevels : Nat := 126

/-- What it leaves for a field of the payload. -/
def payloadLevels : Nat := 125

def KeptOption (value : Option Json) (levels : Nat) : Prop := ∀ json ∈ value, json.Kept levels

def SubscribePayload.Kept (payload : SubscribePayload) : Prop :=
  KeptOption payload.vars payloadLevels ∧ KeptOption payload.extensions payloadLevels

/-- All values of a message are kept as `serde_json` keeps them, and none is too deep. -/
def ClientMessage.Kept : ClientMessage → Prop
  | .connectionInit payload | .ping payload | .pong payload => KeptOption payload fieldLevels
  | .subscribe _ payload => payload.Kept
  | .complete _ => True

def ExecutionResult.Kept (result : ExecutionResult) : Prop :=
  KeptOption result.data payloadLevels ∧ (∀ errors ∈ result.errors, (Json.array errors).Kept payloadLevels) ∧
    KeptOption result.extensions payloadLevels

def ServerMessage.Kept : ServerMessage → Prop
  | .connectionAck payload | .ping payload | .pong payload => KeptOption payload fieldLevels
  | .next _ payload => payload.Kept
  | .error _ payload => (Json.array payload).Kept fieldLevels
  | .complete _ => True

/-! ## Fields -/

section Fields

variable {name other : String} {value : Json} {found : Option Json} {members : List (String × Json)} {levels : Nat}

@[simp] theorem field_nil : field name [] = some none := rfl

@[simp] theorem field_cons_of_ne (different : other ≠ name) :
    field name ((other, value) :: members) = field name members := by
  simp [field, different]

@[simp] theorem field_cons_self (absent : field name members = some none) :
    field name ((name, value) :: members) = some (some value) := by
  have nothing : members.filter (fun member => member.1 = name) = [] := by
    unfold field at absent
    split at absent
    · assumption
    · cases absent
    · cases absent
  simp [field, nothing]

@[simp] theorem field_singleton : field name [(name, value)] = some (some value) := field_cons_self field_nil

@[simp] theorem field_optional_of_ne (different : other ≠ name) :
    field name (optional other found ++ members) = field name members := by
  cases found <;> simp [optional, different]

@[simp] theorem field_optional_self (absent : field name members = some none) :
    field name (optional name found ++ members) = some found := by
  cases found <;> simp [optional, absent]

@[simp] theorem field_only_self : field name (optional name found) = some found := by
  cases found with
  | none => rfl
  | some value => exact field_singleton

@[simp] theorem field_only_of_ne (different : other ≠ name) : field name (optional other found) = some none := by
  cases found <;> simp [optional, different]

theorem optionalValue_eq (isFound : field name members = some found) (kept : KeptOption found levels) :
    optionalValue name members = some (dropNull found) := by
  cases found with
  | none => simp [optionalValue, isFound, dropNull]
  | some json =>
    have same : json.normalize = json := (kept json rfl).same
    cases json <;> simp_all [optionalValue, dropNull]

theorem optionalString_eq {text : Option String} (isFound : field name members = some (text.map Json.string)) :
    optionalString name members = some text := by
  cases text <;> simp [optionalString, isFound]

theorem optionalArray_eq {items : Option (List Json)} (isFound : field name members = some (items.map Json.array))
    (kept : ∀ array ∈ items, (Json.array array).Kept levels) : optionalArray name members = some items := by
  cases items with
  | none => simp [optionalArray, isFound]
  | some items =>
    have same := (kept items rfl).same
    simp only [Json.normalize, Json.array.injEq] at same
    simp [optionalArray, isFound, same]

end Fields

/-! ## Reading back what was written -/

/-- The type of a variant, and its other fields. -/
theorem requiredString_type (type : String) {fields : List (String × Json)}
    (untyped : field "type" fields = some none) :
    requiredString "type" (("type", .string type) :: fields) = some type := by
  simp [requiredString, required, untyped, Json.asStr]

theorem SubscribePayload.decode_encode {payload : SubscribePayload} (kept : payload.Kept) :
    decode payload.encode = some payload.withoutNull := by
  obtain ⟨query, vars, operationName, extensions⟩ := payload
  generalize isMembers : ("query", .string query) :: optional "variables" vars ++
    optional "operationName" (operationName.map Json.string) ++ optional "extensions" extensions = members
  have isQuery : requiredString "query" members = some query := by
    simp [← isMembers, requiredString, required, Json.asStr]
  have isVars : optionalValue "variables" members = some (dropNull vars) :=
    optionalValue_eq (by simp [← isMembers]) kept.1
  have isName : optionalString "operationName" members = some operationName :=
    optionalString_eq (by simp [← isMembers])
  have isExtensions : optionalValue "extensions" members = some (dropNull extensions) :=
    optionalValue_eq (by simp [← isMembers]) kept.2
  simp only [encode, isMembers, decode, isQuery, isVars, isName, isExtensions]
  rfl

theorem ExecutionResult.decode_encode {result : ExecutionResult} (kept : result.Kept) :
    decode result.encode = some result.withoutNull := by
  obtain ⟨data, errors, extensions⟩ := result
  generalize isMembers : optional "data" data ++ optional "errors" (errors.map Json.array) ++
    optional "extensions" extensions = members
  have isData : optionalValue "data" members = some (dropNull data) :=
    optionalValue_eq (by simp [← isMembers]) kept.1
  have isErrors : optionalArray "errors" members = some errors :=
    optionalArray_eq (by simp [← isMembers]) kept.2.1
  have isExtensions : optionalValue "extensions" members = some (dropNull extensions) :=
    optionalValue_eq (by simp [← isMembers]) kept.2.2
  simp only [encode, isMembers, decode, isData, isErrors, isExtensions]
  rfl

theorem ClientMessage.decode_tagged (type : String) {fields : List (String × Json)}
    (untyped : field "type" fields = some none) :
    decode (tagged type fields) = decodeFields type (("type", .string type) :: fields) := by
  simp [decode, tagged, requiredString_type type untyped]

theorem ClientMessage.decode_encode {message : ClientMessage} (kept : message.Kept) :
    decode message.encode = some message.withoutNull := by
  cases message with
  | connectionInit payload | ping payload | pong payload =>
    rw [encode, decode_tagged _ (by simp)]
    exact congrArg (Option.map _) (optionalValue_eq (by simp) kept)
  | subscribe id payload =>
    rw [encode, decode_tagged _ (by simp)]
    simp [decodeFields, requiredString, required, Json.asStr, SubscribePayload.decode_encode kept, withoutNull]
  | complete id =>
    rw [encode, decode_tagged _ (by simp)]
    simp [decodeFields, requiredString, required, Json.asStr, withoutNull]

theorem ServerMessage.decode_tagged (type : String) {fields : List (String × Json)}
    (untyped : field "type" fields = some none) :
    decode (tagged type fields) = decodeFields type (("type", .string type) :: fields) := by
  simp [decode, tagged, requiredString_type type untyped]

theorem ServerMessage.decode_encode {message : ServerMessage} (kept : message.Kept) :
    decode message.encode = some message.withoutNull := by
  cases message with
  | connectionAck payload | ping payload | pong payload =>
    rw [encode, decode_tagged _ (by simp)]
    exact congrArg (Option.map _) (optionalValue_eq (by simp) kept)
  | next id payload =>
    rw [encode, decode_tagged _ (by simp)]
    simp [decodeFields, requiredString, required, Json.asStr, ExecutionResult.decode_encode kept, withoutNull]
  | error id payload =>
    have same : Json.normalizeItems payload = payload := by
      simpa [Json.normalize] using kept.same
    rw [encode, decode_tagged _ (by simp)]
    simp [decodeFields, requiredString, required, Json.asStr, Json.asArray, same, withoutNull]
  | complete id =>
    rw [encode, decode_tagged _ (by simp)]
    simp [decodeFields, requiredString, required, Json.asStr, withoutNull]

/-! ## Texts -/

theorem fits_optional {name : String} {value : Option Json} {levels : Nat} (kept : KeptOption value levels) :
    Json.fitsMembers (optional name value) levels = true := by
  cases value with
  | none => rfl
  | some json => simpa [optional] using (kept json rfl).fits

@[simp] theorem fits_tagged (type : String) (fields : List (String × Json)) :
    (tagged type fields).fits Json.levelLimit = Json.fitsMembers fields fieldLevels := rfl

@[simp] theorem fits_payload (members : List (String × Json)) :
    (Json.object members).fits fieldLevels = Json.fitsMembers members payloadLevels := rfl

theorem SubscribePayload.fits_encode {payload : SubscribePayload} (kept : payload.Kept) :
    payload.encode.fits fieldLevels = true := by
  have name : Json.fitsMembers (optional "operationName" (payload.operationName.map Json.string))
      payloadLevels = true := by
    cases payload.operationName <;> rfl
  simp [encode, fits_optional kept.1, fits_optional kept.2, name]

theorem ExecutionResult.fits_encode {result : ExecutionResult} (kept : result.Kept) :
    result.encode.fits fieldLevels = true := by
  have errors : Json.fitsMembers (optional "errors" (result.errors.map Json.array)) payloadLevels = true := by
    cases isErrors : result.errors with
    | none => rfl
    | some errors => simpa [optional] using (kept.2.1 errors isErrors).fits
  simp [encode, fits_optional kept.1, fits_optional kept.2.2, errors]

theorem ClientMessage.fits_encode {message : ClientMessage} (kept : message.Kept) :
    message.encode.fits Json.levelLimit = true := by
  cases message with
  | connectionInit payload | ping payload | pong payload => exact fits_optional kept
  | subscribe id payload => simp [encode, SubscribePayload.fits_encode kept]
  | complete id => rfl

theorem ServerMessage.fits_encode {message : ServerMessage} (kept : message.Kept) :
    message.encode.fits Json.levelLimit = true := by
  cases message with
  | connectionAck payload | ping payload | pong payload => exact fits_optional kept
  | next id payload => simp [encode, ExecutionResult.fits_encode kept]
  | error id payload => simpa [encode] using kept.fits
  | complete id => rfl

theorem ClientMessage.fromStr_toText {message : ClientMessage} (kept : message.Kept) :
    fromStr message.toText = some message.withoutNull := by
  simp [fromStr, toText, Json.read_toString (fits_encode kept), decode_encode kept]

theorem ServerMessage.fromStr_toText {message : ServerMessage} (kept : message.Kept) :
    fromStr message.toText = some message.withoutNull := by
  simp [fromStr, toText, Json.read_toString (fits_encode kept), decode_encode kept]

/-! ## Messages that have been read -/

/-- A payload that could have been read. -/
structure Settled (payload : Option Json) (levels : Nat) : Prop where
  kept : KeptOption payload levels
  same : dropNull payload = payload

section Settled

variable {name : String} {members : List (String × Json)} {levels : Nat}

theorem mem_of_field {value : Json} (isFound : field name members = some (some value)) : (name, value) ∈ members := by
  unfold field at isFound
  split at isFound
  · cases isFound
  · rename_i member isMember
    obtain ⟨isIn, isNamed⟩ := List.mem_filter.mp (isMember ▸ List.mem_singleton_self member)
    cases isFound
    exact of_decide_eq_true isNamed ▸ isIn
  · cases isFound

theorem fits_of_field {value : Json} (itFits : Json.fitsMembers members levels = true)
    (isFound : field name members = some (some value)) : value.fits levels = true :=
  Json.fitsMembers_iff.mp itFits _ (mem_of_field isFound)

theorem optionalValue_settled {payload : Option Json} (itFits : Json.fitsMembers members levels = true)
    (isRead : optionalValue name members = some payload) : Settled payload levels := by
  obtain ⟨found, isFound, rfl⟩ := Option.map_eq_some_iff.mp isRead
  match found with
  | none | some .null => exact ⟨nofun, rfl⟩
  | some (.bool _) | some (.number _) | some (.string _) | some (.array _) | some (.object _) =>
    have kept := Json.kept_normalize (fits_of_field itFits isFound)
    refine ⟨fun json isJson => ?_, rfl⟩
    cases isJson
    exact kept

theorem fits_of_required {value : Json} (itFits : Json.fitsMembers members levels = true)
    (isRead : required name members = some value) : value.fits levels = true := by
  obtain ⟨found, isFound, rfl⟩ := Option.bind_eq_some_iff.mp isRead
  exact fits_of_field itFits isFound

end Settled

theorem SubscribePayload.settled_of_decode {raw : Json} {payload : SubscribePayload}
    (itFits : raw.fits fieldLevels = true) (isRead : decode raw = some payload) : payload.Kept ∧ payload.withoutNull = payload := by
  cases raw with
  | object members =>
    simp only [decode, Option.bind_eq_bind, Option.bind_eq_some_iff] at isRead
    obtain ⟨query, -, vars, isVars, operationName, -, extensions, isExtensions, same⟩ := isRead
    cases same
    have varsOk := optionalValue_settled itFits isVars
    have extensionsOk := optionalValue_settled itFits isExtensions
    exact ⟨⟨varsOk.kept, extensionsOk.kept⟩, by simp [withoutNull, varsOk.same, extensionsOk.same]⟩
  | _ => cases isRead

theorem ClientMessage.settled_of_decode {raw : Json} {message : ClientMessage}
    (itFits : raw.fits Json.levelLimit = true) (isRead : decode raw = some message) : message.Kept ∧ message.withoutNull = message := by
  cases raw with
  | object members =>
    obtain ⟨type, -, isRead⟩ := Option.bind_eq_some_iff.mp isRead
    unfold decodeFields at isRead
    split at isRead
    · obtain ⟨payload, isPayload, rfl⟩ := Option.map_eq_some_iff.mp isRead
      have settled := optionalValue_settled itFits isPayload
      exact ⟨settled.kept, congrArg connectionInit settled.same⟩
    · obtain ⟨payload, isPayload, rfl⟩ := Option.map_eq_some_iff.mp isRead
      have settled := optionalValue_settled itFits isPayload
      exact ⟨settled.kept, congrArg ping settled.same⟩
    · obtain ⟨payload, isPayload, rfl⟩ := Option.map_eq_some_iff.mp isRead
      have settled := optionalValue_settled itFits isPayload
      exact ⟨settled.kept, congrArg pong settled.same⟩
    · simp only [Option.bind_eq_bind, Option.bind_eq_some_iff] at isRead
      obtain ⟨id, -, rawPayload, isRaw, payload, isPayload, same⟩ := isRead
      cases same
      obtain ⟨kept, same⟩ := SubscribePayload.settled_of_decode (fits_of_required itFits isRaw) isPayload
      exact ⟨kept, congrArg (subscribe id) same⟩
    · obtain ⟨id, -, rfl⟩ := Option.map_eq_some_iff.mp isRead
      exact ⟨trivial, rfl⟩
    · cases isRead
  | _ => cases isRead

theorem optionalArray_kept {name : String} {members : List (String × Json)} {items : Option (List Json)}
    {levels : Nat} (itFits : Json.fitsMembers members levels = true)
    (isRead : optionalArray name members = some items) :
    ∀ array ∈ items, (Json.array array).Kept levels := by
  obtain ⟨found, isFound, isRead⟩ := Option.bind_eq_some_iff.mp isRead
  match found with
  | none | some .null =>
    cases isRead
    exact nofun
  | some (.array array) =>
    cases isRead
    intro array isArray
    cases isArray
    exact Json.kept_normalize (fits_of_field itFits isFound)

theorem ExecutionResult.settled_of_decode {raw : Json} {result : ExecutionResult} (itFits : raw.fits fieldLevels = true)
    (isRead : decode raw = some result) : result.Kept ∧ result.withoutNull = result := by
  cases raw with
  | object members =>
    simp only [decode, Option.bind_eq_bind, Option.bind_eq_some_iff] at isRead
    obtain ⟨data, isData, errors, areErrors, extensions, isExtensions, same⟩ := isRead
    cases same
    have dataOk := optionalValue_settled itFits isData
    have extensionsOk := optionalValue_settled itFits isExtensions
    exact ⟨⟨dataOk.kept, optionalArray_kept itFits areErrors, extensionsOk.kept⟩,
      by simp [withoutNull, dataOk.same, extensionsOk.same]⟩
  | _ => cases isRead

theorem ServerMessage.settled_of_decode {raw : Json} {message : ServerMessage}
    (itFits : raw.fits Json.levelLimit = true) (isRead : decode raw = some message) : message.Kept ∧ message.withoutNull = message := by
  cases raw with
  | object members =>
    obtain ⟨type, -, isRead⟩ := Option.bind_eq_some_iff.mp isRead
    unfold decodeFields at isRead
    split at isRead
    · obtain ⟨payload, isPayload, rfl⟩ := Option.map_eq_some_iff.mp isRead
      have settled := optionalValue_settled itFits isPayload
      exact ⟨settled.kept, congrArg connectionAck settled.same⟩
    · obtain ⟨payload, isPayload, rfl⟩ := Option.map_eq_some_iff.mp isRead
      have settled := optionalValue_settled itFits isPayload
      exact ⟨settled.kept, congrArg ping settled.same⟩
    · obtain ⟨payload, isPayload, rfl⟩ := Option.map_eq_some_iff.mp isRead
      have settled := optionalValue_settled itFits isPayload
      exact ⟨settled.kept, congrArg pong settled.same⟩
    · simp only [Option.bind_eq_bind, Option.bind_eq_some_iff] at isRead
      obtain ⟨id, -, rawPayload, isRaw, payload, isPayload, same⟩ := isRead
      cases same
      obtain ⟨kept, same⟩ := ExecutionResult.settled_of_decode (fits_of_required itFits isRaw) isPayload
      exact ⟨kept, congrArg (next id) same⟩
    · simp only [Option.bind_eq_bind, Option.bind_eq_some_iff] at isRead
      obtain ⟨id, -, rawPayload, isRaw, items, areItems, same⟩ := isRead
      cases same
      have rawOk := fits_of_required itFits isRaw
      cases rawPayload with
      | array raw =>
        cases areItems
        exact ⟨Json.kept_normalize rawOk, rfl⟩
      | _ => cases areItems
    · obtain ⟨id, -, rfl⟩ := Option.map_eq_some_iff.mp isRead
      exact ⟨trivial, rfl⟩
    · cases isRead
  | _ => cases isRead

/-! ## The messages of an actor -/

/-- What an actor looks at in a message. -/
def ClientMessage.seen : ClientMessage → Subscriptions.ClientMessage
  | .connectionInit payload => .connectionInit payload
  | .ping payload => .ping payload
  | .pong payload => .pong payload
  | .subscribe id payload => .subscribe id payload.query payload.vars
  | .complete id => .complete id

/-- The message that an actor means; a result comes from `ExecutionResult::with_data`. -/
def ServerMessage.meant : Subscriptions.ServerMessage → ServerMessage
  | .connectionAck payload => .connectionAck payload
  | .ping payload => .ping payload
  | .pong payload => .pong payload
  | .next id data => .next id ⟨some data, none, none⟩
  | .error id payload => .error id payload
  | .complete id => .complete id

def crates (parse : String → SubscriptionDocument) : SubscriptionCrates where
  fromStr text := (ClientMessage.fromStr text).map ClientMessage.seen
  toString message := some (ServerMessage.meant message).toText
  parse := parse

/-! ## What is said is heard -/

end SpectraGQL.Subscriptions.Wire
