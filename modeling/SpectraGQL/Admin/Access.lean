import SpectraGQL.Data.IpAddr
import SpectraGQL.Http
import Mathlib.Data.List.TakeWhile

/-! # Who gets to the admin console (`admin/mod.rs`)

The gate of `AdminEngine::handle_request`: the address of the client, from the proxy headers or
from the socket, is looked for in the allowlist.
-/

namespace SpectraGQL.Admin

open Data SpectraGQL.Http

/-! ## Allowlists -/

/-- `u32::from_str`: digits after at most one plus sign. -/
def parseU32 (text : String) : Option Nat :=
  let digits :=
    match text.toList with
    | '+' :: rest => rest
    | chars => chars
  if digits = [] ∨ digits.all (isDigit 10) = false ∨ 4294967296 ≤ digitsValue 10 digits then none
  else some (digitsValue 10 digits)

/-- `str::split_once`. -/
def splitOnce (separator : Char) (text : String) : Option (String × String) :=
  if text.toList.contains separator then
    some (String.ofList (text.toList.takeWhile (· ≠ separator)),
      String.ofList ((text.toList.dropWhile (· ≠ separator)).drop 1))
  else none

/-- Two addresses have the same first bits. -/
def matchesPrefix {width : Nat} (client net : BitVec width) (prefixLen : Nat) : Bool :=
  if prefixLen > width then false
  else if prefixLen = 0 then true
  else
    let mask := ~~~(((1 : BitVec width) <<< (width - prefixLen)) - 1)
    client &&& mask == net &&& mask

/-- One entry of the allowlist, an address or a range; anything else admits nobody. -/
def entryAdmits (clientIp : IpAddr) (entry : String) : Bool :=
  match splitOnce '/' (trim entry) with
  | some (netStr, prefixStr) =>
    match parseU32 prefixStr with
    | none => false
    | some prefixLen =>
      match clientIp, IpAddr.fromStr netStr with
      | .v4 client, some (.v4 net) => matchesPrefix client net prefixLen
      | .v6 client, some (.v6 net) => matchesPrefix client net prefixLen
      | .v4 _, some (.v6 _) => false
      | .v6 _, some (.v4 _) => false
      | .v4 _, none => false
      | .v6 _, none => false
  | none => IpAddr.fromStr (trim entry) = some clientIp

def isIpAllowed (clientIp : IpAddr) (allowlist : List String) : Bool :=
  allowlist.any fun entry => trim entry ≠ "" && entryAdmits clientIp entry

/-- `default_allowed_ips` of `core/config.rs`. -/
def defaultAllowedIps : List String :=
  ["127.0.0.1", "::1", "10.0.0.0/8", "172.16.0.0/12", "192.168.0.0/16"]

example : ["10.1.2.3", "172.31.255.255", "172.32.0.0", "::1", "::2"].map
    (fun text => (IpAddr.fromStr text).map fun ip => isIpAllowed ip defaultAllowedIps) =
    [some true, some true, some false, some true, some false] := by decide +kernel

/-! ## Clients -/

/-- What the gate looks at: the headers, and the address of the socket if it is an inet one. -/
structure AdminSession where
  headers : HeaderMap
  socketIp : Option IpAddr

/-- An address in a header, before the first comma. -/
def headerIp (headers : HeaderMap) (name : String) (text : String → String) : Option IpAddr :=
  (headers.getStr name).bind fun value => IpAddr.fromStr (trim (text value))

/-- `split(',').next()`. -/
def firstPart (text : String) : String := String.ofList (text.toList.takeWhile (· ≠ ','))

def extractClientIp (session : AdminSession) : IpAddr :=
  match headerIp session.headers "x-forwarded-for" firstPart with
  | some ip => ip
  | none =>
    match headerIp session.headers "x-real-ip" id with
    | some ip => ip
    | none => session.socketIp.getD (.v4 0x7f000001)

inductive AdminAnswer where
  | forbidden (clientIp : IpAddr)
  /-- The router decides on the rest. -/
  | routed
  deriving DecidableEq, Repr

def handleRequest (allowedIps : List String) (session : AdminSession) : AdminAnswer :=
  if isIpAllowed (extractClientIp session) allowedIps then .routed
  else .forbidden (extractClientIp session)

def AdminAnswer.isForbidden : AdminAnswer → Bool
  | forbidden _ => true
  | routed => false

/-! ## Claimed addresses -/

/-- A header that gives an address for the client's. -/
def forwardedFor (ip : IpAddr) : HeaderMap :=
  [("x-forwarded-for", ip.write.map fun char => UInt8.ofNat char.toNat)]

/-- The characters of addresses are visible, and neither space nor comma. -/
theorem plain_of_mem {char : Char} (member : char ∈ addrChars) :
    (isVisibleAscii (UInt8.ofNat char.toNat) = true ∧ Char.ofUInt8 (UInt8.ofNat char.toNat) = char) ∧
      isWhitespace char = false ∧ char ≠ ',' := by
  have checked : addrChars.all (fun char =>
      (isVisibleAscii (UInt8.ofNat char.toNat) && Char.ofUInt8 (UInt8.ofNat char.toNat) == char) &&
        (!isWhitespace char && char != ',')) = true := by decide
  have plain := List.all_eq_true.mp checked char member
  simpa only [Bool.and_eq_true, Bool.not_eq_true', bne_iff_ne, beq_iff_eq] using plain

theorem toStr_of_addrChars {text : List Char} (plain : ∀ char ∈ text, char ∈ addrChars) :
    HeaderValue.toStr (text.map fun char => UInt8.ofNat char.toNat) = some (String.ofList text) := by
  have bytes : ∀ char ∈ addrChars, isVisibleAscii (UInt8.ofNat char.toNat) = true ∧
      Char.ofUInt8 (UInt8.ofNat char.toNat) = char := fun char member => (plain_of_mem member).1
  have visible : (text.map fun char => UInt8.ofNat char.toNat).all isVisibleAscii = true := by
    rw [List.all_map, List.all_eq_true]
    exact fun char member => (bytes char (plain char member)).1
  have back : (text.map fun char => UInt8.ofNat char.toNat).map (fun byte => Char.ofUInt8 byte) = text := by
    rw [List.map_map]
    refine (List.map_congr_left fun char member => ?_).trans (List.map_id _)
    exact (bytes char (plain char member)).2
  unfold HeaderValue.toStr
  rw [if_pos visible, back]

theorem trim_of_addrChars {text : List Char} (plain : ∀ char ∈ text, char ∈ addrChars) :
    trim (String.ofList text) = String.ofList text := by
  have solid : ∀ char ∈ addrChars, isWhitespace char = false := fun char member =>
    (plain_of_mem member).2.1
  have kept : ∀ {text : List Char}, (∀ char ∈ text, char ∈ addrChars) → trimStart text = text := by
    intro text plain
    cases text with
    | nil => rfl
    | cons char rest =>
      have notBlank := solid char (plain char List.mem_cons_self)
      simp [trimStart, notBlank]
  unfold trim
  rw [String.toList_ofList, kept plain, kept fun char member => plain char (List.mem_reverse.mp member),
    List.reverse_reverse]

theorem firstPart_of_addrChars {text : List Char} (plain : ∀ char ∈ text, char ∈ addrChars) :
    firstPart (String.ofList text) = String.ofList text := by
  have noComma : ∀ char ∈ addrChars, char ≠ ',' := fun char member => (plain_of_mem member).2.2
  have whole : text.takeWhile (· ≠ ',') = text := by
    rw [List.takeWhile_eq_self_iff]
    intro char member
    simpa using noComma char (plain char member)
  unfold firstPart
  rw [String.toList_ofList, whole]

/-- Whatever its socket, a client is taken for the one that it claims to be. -/
theorem extractClientIp_forwardedFor (ip : IpAddr) (socketIp : Option IpAddr) :
    extractClientIp ⟨forwardedFor ip, socketIp⟩ = ip := by
  have plain : ∀ char ∈ ip.write, char ∈ addrChars := fun _ => mem_addrChars_of_mem_write
  have claimed : headerIp (forwardedFor ip) "x-forwarded-for" firstPart = some ip := by
    have value : HeaderMap.getStr (forwardedFor ip) "x-forwarded-for" = some (String.ofList ip.write) :=
      toStr_of_addrChars plain
    unfold headerIp
    rw [value, Option.bind_some, firstPart_of_addrChars plain, trim_of_addrChars plain]
    unfold IpAddr.fromStr
    rw [String.toList_ofList]
    exact ip.readAddr_write
  unfold extractClientIp
  rw [claimed]

/-- The headers that bring the credentials of an admin. -/
def credentialHeaders : List String :=
  ["authorization", "x-spectra-admin-token", "x-spectra-deploy-token", "x-spectra-deploy-key"]

def SameCredentials (left right : HeaderMap) : Prop :=
  ∀ name ∈ credentialHeaders, left.valuesOf name = right.valuesOf name

/-- The headers of a client make no difference, and a socket that the list does not know is
    shut out. -/
structure DecidedBySocket (allowedIps : List String) (socketIp : Option IpAddr) : Prop where
  sameDecision : ∀ left right, SameCredentials left right →
    (handleRequest allowedIps ⟨left, socketIp⟩).isForbidden =
      (handleRequest allowedIps ⟨right, socketIp⟩).isForbidden
  strangersForbidden : ∀ ip, socketIp = some ip → isIpAllowed ip allowedIps = false →
    ∀ headers, (handleRequest allowedIps ⟨headers, socketIp⟩).isForbidden = true

theorem isForbidden_handleRequest (allowedIps : List String) (session : AdminSession) :
    (handleRequest allowedIps session).isForbidden = !isIpAllowed (extractClientIp session) allowedIps := by
  unfold handleRequest
  cases isIpAllowed (extractClientIp session) allowedIps <;> rfl

theorem sameCredentials_forwardedFor (left right : IpAddr) :
    SameCredentials (forwardedFor left) (forwardedFor right) := by
  have none : ∀ ip, ∀ name ∈ credentialHeaders, HeaderMap.valuesOf (forwardedFor ip) name = [] := by
    intro ip name member
    have other : "x-forwarded-for" ≠ name := by
      intro same
      rw [← same] at member
      exact absurd member (by decide)
    simp [HeaderMap.valuesOf, forwardedFor, other]
  intro name member
  rw [none left name member, none right name member]

/-- The socket decides on the access exactly where the allowlist admits everyone or nobody. -/
theorem decided_by_socket_iff (allowedIps : List String) (socketIp : Option IpAddr) :
    DecidedBySocket allowedIps socketIp ↔
      (∀ ip, isIpAllowed ip allowedIps = true) ∨ (∀ ip, isIpAllowed ip allowedIps = false) := by
  constructor
  · intro decided
    have same : ∀ left right, isIpAllowed left allowedIps = isIpAllowed right allowedIps := by
      intro left right
      have answers := decided.sameDecision _ _ (sameCredentials_forwardedFor left right)
      simpa only [isForbidden_handleRequest, extractClientIp_forwardedFor, Bool.not_inj_iff] using answers
    cases loopback : isIpAllowed (.v4 0x7f000001) allowedIps with
    | true => exact .inl fun ip => (same ip _).trans loopback
    | false => exact .inr fun ip => (same ip _).trans loopback
  · intro blind
    constructor
    · intro left right _
      simp only [isForbidden_handleRequest]
      cases blind with
      | inl everyone => rw [everyone, everyone]
      | inr nobody => rw [nobody, nobody]
    · intro ip _ unknown headers
      rw [isForbidden_handleRequest]
      cases blind with
      | inl everyone => exact absurd (everyone ip) (by simp [unknown])
      | inr nobody => rw [nobody, Bool.not_false]

/-- A stranger comes in by calling itself the loopback address. -/
theorem stranger_admitted :
    let stranger : IpAddr := .v4 0xcb007109
    isIpAllowed stranger defaultAllowedIps = false ∧
      handleRequest defaultAllowedIps ⟨[], some stranger⟩ = .forbidden stranger ∧
      handleRequest defaultAllowedIps
        ⟨[("x-forwarded-for", HeaderValue.ofString "127.0.0.1")], some stranger⟩ = .routed := by
  decide +kernel

end SpectraGQL.Admin
