import SpectraGQL.Gateway.Brokers
import SpectraGQL.Protocol.Selection
import SpectraGQL.Protocol.Syntax

/-! # The namespaces of the topics

The topic of a decoded request is a space, made of the prefix of its app and of the kind of the
request, and a label that has no dot.  `topics_disjoint_iff` says which requests share a topic, and
which are told in the namespace that their app has for its mutations.
-/

namespace SpectraGQL.Gateway

open Interaction SpectraGQL.Core SpectraGQL.Http SpectraGQL.Protocol SpectraGQL.Interceptors
open SpectraGQL.Telemetry SpectraGQL.Idempotency

/-! ## Spaces and labels -/

theorem topic_inj {space otherSpace label otherLabel : String} (plain : '.' ∉ label.toList)
    (otherPlain : '.' ∉ otherLabel.toList) :
    space ++ "." ++ label = otherSpace ++ "." ++ otherLabel ↔ space = otherSpace ∧ label = otherLabel := by
  constructor
  · intro same
    have letters := String.toList_inj.mpr same
    simp only [String.toList_append, List.append_assoc] at letters
    have parts := lastSeparator_inj plain otherPlain letters
    exact ⟨String.toList_inj.mp parts.1, String.toList_inj.mp parts.2⟩
  · rintro ⟨rfl, rfl⟩
    rfl

/-- The prefix of an app without the kind that it begins with. -/
def withoutMutation (topicPrefix : String) : String :=
  String.ofList (trimStartMatches "mutation.".toList topicPrefix.toList topicPrefix.toList.length)

/-- What stands before the label in the topic of a request of that kind. -/
def topicSpace (appPrefix : Option String) (kind : String) : String :=
  match appPrefix with
  | none => kind
  | some topicPrefix =>
    if (kind = "query" ∨ kind = "subscription") ∧ startsWith topicPrefix "mutation." then
      kind ++ "." ++ withoutMutation topicPrefix
    else topicPrefix

theorem appTopic_eq (appPrefix : Option String) {kind : String} (label : String)
    (plain : '.' ∉ kind.toList) :
    appTopic appPrefix (kind ++ "." ++ label) = topicSpace appPrefix kind ++ "." ++ label := by
  have noDot : ∀ char ∈ kind.toList, (decide (char ≠ '.')) = true := by
    intro char member
    simpa using fun isDot : char = '.' => plain (isDot ▸ member)
  have before : (kind ++ "." ++ label).toList.takeWhile (· ≠ '.') = kind.toList := by
    simp only [String.toList_append, List.append_assoc, List.takeWhile_append_of_pos noDot]
    simp
  have after : ((kind ++ "." ++ label).toList.dropWhile (· ≠ '.')).drop 1 = label.toList := by
    simp only [String.toList_append, List.append_assoc, List.dropWhile_append_of_pos noDot]
    simp
  cases appPrefix with
  | none => rfl
  | some topicPrefix =>
    unfold appTopic topicSpace
    dsimp only
    rw [before, after, if_pos (by simp), String.ofList_toList, String.ofList_toList]
    split
    · simp [withoutMutation, String.append_assoc]
    · rfl

/-! ## What a request is about -/

/-- The name of an operation, as a topic tells it. -/
def topicName (gql : GraphQLRequestInfo) : String :=
  toLowercase ((gql.operationName <|> gql.rootFields.head?).getD "anonymous")

/-- The URI of a request, as a topic tells it. -/
def normalizedUri (uri : Uri) : String :=
  toLowercase (String.ofList (uri.toString.toList.map fun char => if char = '.' then '_' else char))

/-- What a request asks for. -/
inductive Subject where
  | operation (kind : GraphQLOperationType) (name : String)
  | resource (method : Method) (path : String)
  deriving DecidableEq, Repr

def subjectOf (info : RequestInfo) : Subject :=
  match info.gql with
  | some gql => .operation gql.operationType (topicName gql)
  | none => .resource info.http.method info.http.uri.path

theorem plain_normalizedUri (uri : Uri) : '.' ∉ (normalizedUri uri).toList := by
  refine plain_toLowercase (by decide) ?_
  simp only [String.toList_ofList, List.mem_map, not_exists, not_and]
  intro char _
  split
  · decide
  · assumption

/-- What comes before the label in a topic that no app has changed. -/
def kindText (info : RequestInfo) : String :=
  match info.gql with
  | some gql => toLowercase gql.operationType.toString
  | none => String.ofList (info.http.method.toString.toList.map Char.toUpper)

def topicLabel (info : RequestInfo) : String :=
  match info.gql with
  | some gql => topicName gql
  | none => normalizedUri info.http.uri

theorem plain_kind (kind : GraphQLOperationType) : '.' ∉ (toLowercase kind.toString).toList := by
  cases kind <;> decide

theorem resolveDispatchTopic_eq (info : RequestInfo) :
    TopicResolver.resolveDispatchTopic info = kindText info ++ "." ++ topicLabel info := by
  unfold TopicResolver.resolveDispatchTopic kindText topicLabel
  cases info.gql with
  | some gql =>
    rw [← String.toList_inj]
    simp [toLowercase, topicName]
  | none => rfl

/-! ## Decoded requests -/

/-- What the GraphQL crate promises of a document without errors: its names are names of the
    language, and an operation is of one of the three types. -/
structure Lexical (crates : Crates) : Prop where
  names : ∀ query, (crates.parse query).errors = [] →
    ∀ definition ∈ operationsOf (crates.parse query).definitions, ∀ name,
      definition.name = some name ∨ name ∈ definition.rootFields →
      ∀ char ∈ name.toList, isNameContinue char = true
  types : ∀ query, (crates.parse query).errors = [] →
    ∀ definition ∈ operationsOf (crates.parse query).definitions, definition.typeOf ≠ .unknown

/-- A request that the request filter decodes. -/
structure DecodedRequest (proxy : CompositeServiceProxy) where
  exchange : Exchange
  body : String
  info : RequestInfo
  unseen : Unseen exchange
  decodes : decoded proxy exchange = some (body, info)

namespace DecodedRequest

variable {proxy : CompositeServiceProxy} (dynamic : DynamicGatewayState) (request : DecodedRequest proxy)

/-- The request of a client, once the early filter has let it in. -/
def ofArrival (dynamic : DynamicGatewayState) (arrival : Arrival)
    (decodes : (decoded proxy (admitted proxy dynamic arrival)).isSome = true) : DecodedRequest proxy where
  exchange := admitted proxy dynamic arrival
  body := ((decoded proxy (admitted proxy dynamic arrival)).get decodes).1
  info := ((decoded proxy (admitted proxy dynamic arrival)).get decodes).2
  unseen := unseen_admitted proxy dynamic arrival
  decodes := by simp

def appId : String := request.exchange.ctx.appId

/-- The prefix of the request's app. -/
def appPrefix : Option String := Gateway.appPrefix dynamic request.appId

def subject : Subject := subjectOf request.info

/-- The topic that the request filter leaves in the context. -/
def topic : String :=
  (noteRequest dynamic request.exchange request.info request.body).ctx.requestTopic

variable {request} in
theorem subject_of_gql {gql : GraphQLRequestInfo} (isGql : request.info.gql = some gql) :
    request.subject = .operation gql.operationType (topicName gql) := by
  rw [subject, subjectOf, isGql]

variable {request} in
theorem subject_of_resource (noOperation : request.info.gql = none) :
    request.subject = .resource request.info.http.method request.info.http.uri.path := by
  rw [subject, subjectOf, noOperation]

variable {request} in
theorem kindText_of_posted (noOperation : request.info.gql = none)
    (isPost : request.info.http.method = .post) : kindText request.info = "POST" := by
  rw [kindText, noOperation, isPost]
  rfl

/-- A posted resource, or an operation of a valid document. -/
theorem source :
    (request.info.gql = none ∧ request.info.http.method = .post) ∨
      ∃ gql query, request.info.gql = some gql ∧ (proxy.crates.parse query).errors = [] ∧
        ∃ definition ∈ operationsOf (proxy.crates.parse query).definitions,
          gql.operationType = definition.typeOf ∧ gql.operationName = definition.name ∧
          gql.rootFields = definition.rootFields := by
  obtain ⟨buffer, read, decodes⟩ := decoded_eq_some request.decodes
  have post : request.exchange.session.reqHeader.method = .post :=
    @method_of_decodeBody proxy (stampRequest request.exchange) request.unseen.buffer buffer read _ decodes
  obtain ⟨-, -, service, -, success⟩ := decodeBody_eq_some decodes
  generalize service.requestProtocol = decoder at success
  cases decoder with
  | http =>
    have isInfo := Except.ok.inj success
    exact .inl ⟨by rw [← isInfo]; rfl, by rw [← isInfo]; exact post⟩
  | graphql ops =>
    obtain ⟨value, operation, gql, -, parsed, isInfo, isType, isName, isFields, -, -⟩ :=
      ProtocolDecoder.decodeRequest_graphql success
    obtain ⟨valid, definition, member, rfl⟩ := mem_of_parse_eq_ok parsed
    exact .inr ⟨gql, _, by rw [isInfo], valid, definition, member, isType, isName, isFields⟩

/-- An operation of one of the three types with a name of the language, or a posted resource. -/
theorem forms (lexical : Lexical proxy.crates) :
    (∃ gql, request.info.gql = some gql ∧ gql.operationType ≠ .unknown ∧ '.' ∉ (topicName gql).toList) ∨
      request.info.gql = none ∧ request.info.http.method = .post := by
  refine request.source.symm.imp_left ?_
  rintro ⟨gql, query, isGql, valid, definition, member, isType, isName, isFields⟩
  refine ⟨gql, isGql, isType ▸ lexical.types query valid definition member, ?_⟩
  have names := lexical.names query valid definition member
  unfold topicName
  rw [isName, isFields]
  apply plain_toLowercase (by decide)
  cases named : (definition.name <|> definition.rootFields.head?) with
  | none => decide
  | some name =>
    intro isDot
    have isName : definition.name = some name ∨ name ∈ definition.rootFields := by
      cases explicit : definition.name with
      | none => exact .inr (List.mem_of_head? (by simpa [explicit] using named))
      | some other => exact .inl (by simpa [explicit] using named)
    exact absurd (names name isName '.' isDot) (by decide)

/-- The name of an operation is a name of the language. -/
theorem operationName_continues (lexical : Lexical proxy.crates) {name : String}
    (named : request.info.operationName = some name) : ∀ char ∈ name.toList, isNameContinue char = true := by
  obtain ⟨gql, isGql, hasName⟩ := Option.bind_eq_some_iff.mp named
  cases request.source with
  | inl resource => cases resource.1.symm.trans isGql
  | inr operation =>
    obtain ⟨other, query, isOther, valid, definition, member, -, isName, -⟩ := operation
    cases isOther.symm.trans isGql
    exact lexical.names query valid definition member name (.inl (isName.symm.trans hasName))

theorem topic_eq (lexical : Lexical proxy.crates) :
    request.topic dynamic =
      topicSpace (request.appPrefix dynamic) (kindText request.info) ++ "." ++ topicLabel request.info := by
  have plain : '.' ∉ (kindText request.info).toList := by
    unfold kindText
    cases request.forms lexical with
    | inl operation =>
      obtain ⟨gql, isGql, -, -⟩ := operation
      rw [isGql]
      exact plain_kind gql.operationType
    | inr resource =>
      rw [resource.1, resource.2]
      decide
  rw [← appTopic_eq _ _ plain, ← resolveDispatchTopic_eq]
  rfl

end DecodedRequest

/-! ## The namespace of the mutations of an app -/

/-- The types whose operations have a space of their own beside the mutations. -/
def IsRead (kind : GraphQLOperationType) : Prop := kind = .query ∨ kind = .subscription

/-- The space of the mutations of an app. -/
def commandSpace (appPrefix : Option String) : String := appPrefix.getD "mutation"

/-- The space of the queries, or of the subscriptions, of an app. -/
def readSpace (kind : GraphQLOperationType) (appPrefix : Option String) : String :=
  match appPrefix with
  | none => toLowercase kind.toString
  | some topicPrefix => toLowercase kind.toString ++ "." ++ withoutMutation topicPrefix

namespace DecodedRequest

variable {proxy : CompositeServiceProxy} (dynamic : DynamicGatewayState) (request : DecodedRequest proxy)

/-- The topic is one of the mutations of the request's own app. -/
def InCommandNamespace : Prop :=
  startsWith (request.topic dynamic) (commandSpace (request.appPrefix dynamic) ++ ".") = true

/-- A mutation; a query or a subscription of an app whose prefix begins with `mutation.`, or of
    none; or a posted resource of no app. -/
def StaysOut : Prop :=
  match request.subject with
  | .operation .mutation _ => True
  | .operation _ _ => ∀ topicPrefix, request.appPrefix dynamic = some topicPrefix →
      startsWith topicPrefix "mutation." = true
  | .resource _ _ => request.appPrefix dynamic = none

/-- The space of a request that stays out of the namespace of the mutations. -/
def space : String :=
  match request.subject with
  | .operation .mutation _ => commandSpace (request.appPrefix dynamic)
  | .operation kind _ => readSpace kind (request.appPrefix dynamic)
  | .resource _ _ => "POST"

/-- The space and the label of a request that stays out of the namespace of the mutations. -/
inductive Placed : String → String → Prop where
  | command {name : String} (isSubject : request.subject = .operation .mutation name) :
      Placed (commandSpace (request.appPrefix dynamic)) name
  | read {kind : GraphQLOperationType} {name : String} (isRead : IsRead kind)
      (isSubject : request.subject = .operation kind name)
      (named : ∀ topicPrefix, request.appPrefix dynamic = some topicPrefix →
        startsWith topicPrefix "mutation." = true) :
      Placed (readSpace kind (request.appPrefix dynamic)) name
  | posted (noOperation : request.info.gql = none) (isPost : request.info.http.method = .post)
      (noPrefix : request.appPrefix dynamic = none) :
      Placed "POST" (normalizedUri request.info.http.uri)

variable {dynamic request}

theorem topicSpace_mutation (appPrefix : Option String) : topicSpace appPrefix "mutation" = commandSpace appPrefix := by
  cases appPrefix <;> simp [topicSpace, commandSpace]

theorem topicSpace_read {kind : GraphQLOperationType} (isRead : IsRead kind) {appPrefix : Option String}
    (named : ∀ topicPrefix, appPrefix = some topicPrefix → startsWith topicPrefix "mutation." = true) :
    topicSpace appPrefix (toLowercase kind.toString) = readSpace kind appPrefix := by
  cases appPrefix with
  | none => rfl
  | some topicPrefix =>
    have isKind : toLowercase kind.toString = "query" ∨ toLowercase kind.toString = "subscription" := by
      cases isRead with
      | inl isQuery => exact .inl (isQuery ▸ by decide)
      | inr isSubscription => exact .inr (isSubscription ▸ by decide)
    exact if_pos ⟨isKind, named topicPrefix rfl⟩

/-- A query or a subscription without a name of its own is among the mutations. -/
theorem topicSpace_unnamed {topicPrefix : String} (kind : String)
    (unnamed : startsWith topicPrefix "mutation." = false) : topicSpace (some topicPrefix) kind = topicPrefix := by
  simp [topicSpace, unnamed]

theorem placed_of_staysOut (lexical : Lexical proxy.crates) (staysOut : request.StaysOut dynamic) :
    request.Placed dynamic (request.space dynamic) (topicLabel request.info) ∧
      topicSpace (request.appPrefix dynamic) (kindText request.info) = request.space dynamic ∧
      '.' ∉ (topicLabel request.info).toList := by
  unfold StaysOut at staysOut
  unfold space
  cases request.forms lexical with
  | inl operation =>
    obtain ⟨gql, isGql, known, plain⟩ := operation
    have isLabel : topicLabel request.info = topicName gql := by rw [topicLabel, isGql]
    have isKind : kindText request.info = toLowercase gql.operationType.toString := by rw [kindText, isGql]
    have isSubject := subject_of_gql isGql
    rw [isSubject] at staysOut ⊢
    rw [isLabel, isKind]
    -- commands have a space of their own, whatever the prefix; reads have that of the prefix
    cases isType : gql.operationType with
    | mutation =>
      rw [isType] at isSubject
      exact ⟨.command isSubject, topicSpace_mutation _, plain⟩
    | query =>
      rw [isType] at isSubject staysOut
      exact ⟨.read (.inl rfl) isSubject staysOut, topicSpace_read (.inl rfl) staysOut, plain⟩
    | subscription =>
      rw [isType] at isSubject staysOut
      exact ⟨.read (.inr rfl) isSubject staysOut, topicSpace_read (.inr rfl) staysOut, plain⟩
    | unknown => exact absurd isType known
  | inr resource =>
    obtain ⟨noOperation, isPost⟩ := resource
    have isLabel : topicLabel request.info = normalizedUri request.info.http.uri := by
      rw [topicLabel, noOperation]
    rw [subject_of_resource noOperation] at staysOut ⊢
    have noPrefix : request.appPrefix dynamic = none := staysOut
    rw [isLabel, kindText_of_posted noOperation isPost, noPrefix]
    exact ⟨.posted noOperation isPost noPrefix, rfl, plain_normalizedUri _⟩

theorem topic_of_staysOut (lexical : Lexical proxy.crates) (staysOut : request.StaysOut dynamic) :
    request.topic dynamic = request.space dynamic ++ "." ++ topicLabel request.info := by
  rw [request.topic_eq dynamic lexical, (placed_of_staysOut lexical staysOut).2.1]

theorem topics_eq_iff {other : DecodedRequest proxy} (lexical : Lexical proxy.crates)
    (staysOut : request.StaysOut dynamic) (otherOut : other.StaysOut dynamic) :
    request.topic dynamic = other.topic dynamic ↔
      request.space dynamic = other.space dynamic ∧ topicLabel request.info = topicLabel other.info := by
  rw [topic_of_staysOut lexical staysOut, topic_of_staysOut lexical otherOut]
  exact topic_inj (placed_of_staysOut lexical staysOut).2.2 (placed_of_staysOut lexical otherOut).2.2

/-- A request that does not stay out is told as a mutation of its app would be. -/
theorem space_of_not_staysOut (lexical : Lexical proxy.crates) (comesIn : ¬ request.StaysOut dynamic) :
    (∀ name, request.subject ≠ .operation .mutation name) ∧
      topicSpace (request.appPrefix dynamic) (kindText request.info) =
        commandSpace (request.appPrefix dynamic) := by
  unfold StaysOut at comesIn
  cases request.forms lexical with
  | inl operation =>
    obtain ⟨gql, isGql, known, -⟩ := operation
    rw [subject_of_gql isGql] at comesIn ⊢
    have notMutation : gql.operationType ≠ .mutation := by
      intro isMutation
      simp [isMutation] at comesIn
    have unnamed : ∃ topicPrefix, request.appPrefix dynamic = some topicPrefix ∧
        startsWith topicPrefix "mutation." = false := by
      cases isType : gql.operationType <;> simp_all
    obtain ⟨topicPrefix, isPrefix, unnamed⟩ := unnamed
    refine ⟨fun name isMutation => notMutation (Subject.operation.inj isMutation).1, ?_⟩
    rw [isPrefix, topicSpace_unnamed _ unnamed]
    rfl
  | inr resource =>
    obtain ⟨noOperation, isPost⟩ := resource
    rw [subject_of_resource noOperation] at comesIn ⊢
    refine ⟨by simp, ?_⟩
    rw [kindText_of_posted noOperation isPost]
    cases isPrefix : request.appPrefix dynamic with
    | none => exact absurd isPrefix comesIn
    | some topicPrefix => simp [topicSpace, commandSpace]

/-- A topic in a namespace begins as the namespace does. -/
theorem head_of_startsWith {text start : String} {char : Char} (starts : startsWith text start = true)
    (isHead : start.toList.head? = some char) : text.toList.head? = some char := by
  obtain ⟨rest, isText⟩ := List.isPrefixOf_iff_prefix.mp starts
  rw [← isText, List.head?_append, isHead]
  rfl

theorem head_commandSpace {appPrefix : Option String}
    (named : ∀ topicPrefix, appPrefix = some topicPrefix → startsWith topicPrefix "mutation." = true) :
    (commandSpace appPrefix).toList.head? = some 'm' := by
  cases appPrefix with
  | none => rfl
  | some topicPrefix => exact head_of_startsWith (named topicPrefix rfl) rfl

theorem head_readSpace {kind : GraphQLOperationType} (isRead : IsRead kind) (appPrefix : Option String) :
    (readSpace kind appPrefix).toList.head? = some (if kind = .query then 'q' else 's') := by
  cases isRead with
  | inl isQuery =>
    subst isQuery
    cases appPrefix <;> simp [readSpace] <;> rfl
  | inr isSubscription =>
    subst isSubscription
    cases appPrefix <;> simp [readSpace] <;> rfl

theorem readSpace_ne_post {kind : GraphQLOperationType} (isRead : IsRead kind) (appPrefix : Option String) :
    readSpace kind appPrefix ≠ "POST" := by
  intro isPost
  have heads := head_readSpace isRead appPrefix
  rw [isPost] at heads
  split at heads <;> simp at heads

/-- Unless its app has a prefix of another kind, what is told among the mutations begins as they do. -/
theorem head_of_inCommandNamespace (inside : request.InCommandNamespace dynamic)
    (named : ∀ topicPrefix, request.appPrefix dynamic = some topicPrefix →
      startsWith topicPrefix "mutation." = true) : (request.topic dynamic).toList.head? = some 'm' := by
  apply head_of_startsWith inside
  rw [String.toList_append, List.head?_append, head_commandSpace named]
  rfl

/-- A query, a subscription or a resource is told among the mutations of its app exactly when it
    does not stay out. -/
theorem staysOut_iff (lexical : Lexical proxy.crates) :
    request.StaysOut dynamic ↔
      ((∀ name, request.subject ≠ .operation .mutation name) → ¬ request.InCommandNamespace dynamic) := by
  constructor
  · intro staysOut notMutation inside
    obtain ⟨placed, isSpace, -⟩ := placed_of_staysOut lexical staysOut
    have begins := head_of_inCommandNamespace inside
    rw [topic_of_staysOut lexical staysOut, String.append_assoc, String.toList_append, List.head?_append] at begins
    generalize request.space dynamic = space at placed begins
    generalize topicLabel request.info = label at placed begins
    cases placed with
    | command isSubject => exact notMutation _ isSubject
    | read isRead isSubject named =>
      have isM := begins named
      rw [head_readSpace isRead] at isM
      split at isM <;> simp at isM
    | posted noOperation isPost noPrefix =>
      have isM := begins (by simp [noPrefix])
      simp at isM
  · intro outside
    by_contra comesIn
    obtain ⟨notMutation, isSpace⟩ := space_of_not_staysOut lexical comesIn
    apply outside notMutation
    rw [InCommandNamespace, request.topic_eq dynamic lexical, isSpace]
    simp [startsWith, List.isPrefixOf_iff_prefix]

end DecodedRequest

/-! ## Requests that share a topic -/

/-- Two requests on one topic are of one app and about one thing, and no query, subscription or
    resource is told among the mutations of its app. -/
structure TopicsDisjoint {proxy : CompositeServiceProxy} (dynamic : DynamicGatewayState)
    (first second : DecodedRequest proxy) : Prop where
  apart : first.topic dynamic = second.topic dynamic →
    first.appId = second.appId ∧ first.subject = second.subject
  firstOutside : (∀ name, first.subject ≠ .operation .mutation name) → ¬ first.InCommandNamespace dynamic
  secondOutside : (∀ name, second.subject ≠ .operation .mutation name) → ¬ second.InCommandNamespace dynamic

/-- The ways in which two requests that stay out of foreign namespaces come to share a topic. -/
inductive Confuses {proxy : CompositeServiceProxy} (dynamic : DynamicGatewayState)
    (first second : DecodedRequest proxy) : Prop where
  /-- Mutations of one name, of two apps with one prefix. -/
  | commands {name : String} (isFirst : first.subject = .operation .mutation name)
      (isSecond : second.subject = .operation .mutation name) (apps : first.appId ≠ second.appId)
      (samePrefix : commandSpace (first.appPrefix dynamic) = commandSpace (second.appPrefix dynamic))
  /-- Queries, or subscriptions, of one name, of two apps whose prefixes differ only in how often
      they say `mutation.` at their start. -/
  | readers {kind : GraphQLOperationType} {name firstPrefix secondPrefix : String} (isRead : IsRead kind)
      (isFirst : first.subject = .operation kind name) (isSecond : second.subject = .operation kind name)
      (apps : first.appId ≠ second.appId) (firstNamed : first.appPrefix dynamic = some firstPrefix)
      (secondNamed : second.appPrefix dynamic = some secondPrefix)
      (samePrefix : withoutMutation firstPrefix = withoutMutation secondPrefix)
  /-- A query or a subscription, and a mutation of that name whose app has the space of the former
      for its prefix. -/
  | impostor {kind : GraphQLOperationType} {name : String} (isRead : IsRead kind)
      (isFirst : first.subject = .operation kind name) (isSecond : second.subject = .operation .mutation name)
      (samePrefix : commandSpace (second.appPrefix dynamic) = readSpace kind (first.appPrefix dynamic))
  /-- Resources with two paths that are one once they are normalized. -/
  | twins (noFirst : first.info.gql = none) (noSecond : second.info.gql = none)
      (paths : first.info.http.uri.path ≠ second.info.http.uri.path)
      (sameUri : normalizedUri first.info.http.uri = normalizedUri second.info.http.uri)
  /-- A resource, and a mutation of an app whose prefix is `POST`. -/
  | posted (noFirst : first.info.gql = none)
      (isSecond : second.subject = .operation .mutation (normalizedUri first.info.http.uri))
      (samePrefix : commandSpace (second.appPrefix dynamic) = "POST")

section

variable {proxy : CompositeServiceProxy} {dynamic : DynamicGatewayState} {first second : DecodedRequest proxy}

/-- Only a request that names no app has no prefix. -/
theorem appId_of_appPrefix {request : DecodedRequest proxy} (noPrefix : request.appPrefix dynamic = none) :
    request.appId = "" := by
  unfold DecodedRequest.appPrefix Gateway.appPrefix at noPrefix
  by_contra named
  simp [named] at noPrefix

theorem readSpace_inj {firstKind secondKind : GraphQLOperationType} (isFirst : IsRead firstKind)
    (isSecond : IsRead secondKind) {firstPrefix secondPrefix : Option String}
    (same : readSpace firstKind firstPrefix = readSpace secondKind secondPrefix) :
    firstKind = secondKind ∧ firstPrefix.map withoutMutation = secondPrefix.map withoutMutation := by
  have heads := congrArg (fun text => text.toList.head?) same
  rw [DecodedRequest.head_readSpace isFirst, DecodedRequest.head_readSpace isSecond] at heads
  have sameKind : firstKind = secondKind := by
    cases isFirst <;> cases isSecond <;> simp_all
  refine ⟨sameKind, ?_⟩
  subst sameKind
  unfold readSpace at same
  generalize toLowercase firstKind.toString = text at same
  -- a space with a prefix is longer than one without, by a dot at least
  have letters := String.toList_inj.mpr same
  have lengths := congrArg List.length letters
  cases firstPrefix with
  | none =>
    cases secondPrefix with
    | none => rfl
    | some secondPrefix =>
      simp only [String.toList_append, List.length_append] at lengths
      simp at lengths
      omega
  | some firstPrefix =>
    cases secondPrefix with
    | none =>
      simp only [String.toList_append, List.length_append] at lengths
      simp at lengths
      omega
    | some secondPrefix =>
      simp only [String.toList_append, List.append_assoc, List.append_cancel_left_eq] at letters
      exact congrArg some (String.toList_inj.mp letters)

theorem label_of_subject {request : DecodedRequest proxy} {kind : GraphQLOperationType} {name : String}
    (isSubject : request.subject = .operation kind name) : topicLabel request.info = name := by
  unfold DecodedRequest.subject subjectOf at isSubject
  unfold topicLabel
  cases isGql : request.info.gql with
  | none => simp [isGql] at isSubject
  | some gql =>
    rw [isGql] at isSubject
    exact (Subject.operation.inj isSubject).2

theorem gql_of_operation {request : DecodedRequest proxy} {kind : GraphQLOperationType} {name : String}
    (isSubject : request.subject = .operation kind name) : request.info.gql ≠ none := by
  intro noOperation
  simp [DecodedRequest.subject, subjectOf, noOperation] at isSubject

theorem space_of_read {request : DecodedRequest proxy} {kind : GraphQLOperationType} {name : String}
    (isRead : IsRead kind) (isSubject : request.subject = .operation kind name) :
    request.space dynamic = readSpace kind (request.appPrefix dynamic) := by
  rw [DecodedRequest.space, isSubject]
  cases isRead with
  | inl isQuery => rw [isQuery]
  | inr isSubscription => rw [isSubscription]

/-- Requests at one place are one, or confused. -/
theorem confuses_of_placed {firstSpace secondSpace firstLabel secondLabel : String}
    (isFirst : first.Placed dynamic firstSpace firstLabel)
    (isSecond : second.Placed dynamic secondSpace secondLabel)
    (sameSpace : firstSpace = secondSpace) (sameLabel : firstLabel = secondLabel) :
    (first.appId = second.appId ∧ first.subject = second.subject) ∨
      Confuses dynamic first second ∨ Confuses dynamic second first := by
  cases isFirst with
  | command firstSubject =>
    subst sameLabel
    cases isSecond with
    | command secondSubject =>
      by_cases apps : first.appId = second.appId
      · exact .inl ⟨apps, firstSubject.trans secondSubject.symm⟩
      · exact .inr (.inl (.commands firstSubject secondSubject apps sameSpace))
    | read isRead secondSubject named => exact .inr (.inr (.impostor isRead secondSubject firstSubject sameSpace))
    | posted noOperation isPost noPrefix => exact .inr (.inr (.posted noOperation firstSubject sameSpace))
  | read isRead firstSubject named =>
    subst sameLabel
    cases isSecond with
    | command secondSubject => exact .inr (.inl (.impostor isRead firstSubject secondSubject sameSpace.symm))
    | read alsoRead secondSubject alsoNamed =>
      obtain ⟨rfl, samePrefix⟩ := readSpace_inj isRead alsoRead sameSpace
      by_cases apps : first.appId = second.appId
      · exact .inl ⟨apps, firstSubject.trans secondSubject.symm⟩
      · cases firstNamed : first.appPrefix dynamic with
        | none =>
          -- without prefixes both are of the one app that has none
          have secondNamed : second.appPrefix dynamic = none := by simpa [firstNamed] using samePrefix.symm
          exact absurd ((appId_of_appPrefix firstNamed).trans (appId_of_appPrefix secondNamed).symm) apps
        | some firstPrefix =>
          rw [firstNamed] at samePrefix
          obtain ⟨secondPrefix, secondNamed, same⟩ := Option.map_eq_some_iff.mp samePrefix.symm
          exact .inr (.inl (.readers isRead firstSubject secondSubject apps firstNamed secondNamed same.symm))
    | posted noOperation isPost noPrefix => exact absurd sameSpace (DecodedRequest.readSpace_ne_post isRead _)
  | posted noOperation isPost noPrefix =>
    cases isSecond with
    | command secondSubject =>
      subst sameLabel
      exact .inr (.inl (.posted noOperation secondSubject sameSpace.symm))
    | read isRead secondSubject named => exact absurd sameSpace.symm (DecodedRequest.readSpace_ne_post isRead _)
    | posted alsoNoOperation alsoPost alsoNoPrefix =>
      by_cases paths : first.info.http.uri.path = second.info.http.uri.path
      · refine .inl ⟨(appId_of_appPrefix noPrefix).trans (appId_of_appPrefix alsoNoPrefix).symm, ?_⟩
        rw [DecodedRequest.subject_of_resource noOperation, DecodedRequest.subject_of_resource alsoNoOperation,
          isPost, alsoPost, paths]
      · exact .inr (.inl (.twins noOperation alsoNoOperation paths sameLabel))

/-- Confused requests that stay out share a topic without being one. -/
theorem shares_of_confuses (lexical : Lexical proxy.crates) (firstOut : first.StaysOut dynamic)
    (secondOut : second.StaysOut dynamic) (confuses : Confuses dynamic first second) :
    first.topic dynamic = second.topic dynamic ∧ ¬ (first.appId = second.appId ∧ first.subject = second.subject) := by
  rw [DecodedRequest.topics_eq_iff lexical firstOut secondOut]
  cases confuses with
  | commands isFirst isSecond apps samePrefix =>
    rw [label_of_subject isFirst, label_of_subject isSecond, DecodedRequest.space, DecodedRequest.space, isFirst,
      isSecond]
    exact ⟨⟨samePrefix, rfl⟩, fun same => apps same.1⟩
  | readers isRead isFirst isSecond apps firstNamed secondNamed samePrefix =>
    rw [label_of_subject isFirst, label_of_subject isSecond, space_of_read isRead isFirst,
      space_of_read isRead isSecond, firstNamed, secondNamed, readSpace, readSpace, samePrefix]
    exact ⟨⟨rfl, rfl⟩, fun same => apps same.1⟩
  | impostor isRead isFirst isSecond samePrefix =>
    rw [label_of_subject isFirst, label_of_subject isSecond, space_of_read isRead isFirst, DecodedRequest.space,
      isFirst, isSecond]
    refine ⟨⟨samePrefix.symm, rfl⟩, fun same => ?_⟩
    cases (Subject.operation.inj same.2).1
    -- a mutation is no read
    cases isRead with
    | inl isQuery => cases isQuery
    | inr isSubscription => cases isSubscription
  | twins noFirst noSecond paths sameUri =>
    rw [topicLabel, topicLabel, DecodedRequest.space, DecodedRequest.space, noFirst, noSecond,
      DecodedRequest.subject_of_resource noFirst, DecodedRequest.subject_of_resource noSecond]
    exact ⟨⟨rfl, sameUri⟩, fun same => paths (Subject.resource.inj same.2).2⟩
  | posted noFirst isSecond samePrefix =>
    rw [label_of_subject isSecond, topicLabel, DecodedRequest.space, DecodedRequest.space, noFirst,
      DecodedRequest.subject_of_resource noFirst, isSecond]
    exact ⟨⟨samePrefix.symm, rfl⟩, fun same => by cases same.2⟩

end

/-- Two decoded requests keep their topics apart exactly when both stay out of the namespace of the
    mutations, unless they are mutations, and are not confused. -/
theorem topics_disjoint_iff {proxy : CompositeServiceProxy} (lexical : Lexical proxy.crates)
    (dynamic : DynamicGatewayState) (first second : DecodedRequest proxy) :
    TopicsDisjoint dynamic first second ↔
      first.StaysOut dynamic ∧ second.StaysOut dynamic ∧
        ¬ Confuses dynamic first second ∧ ¬ Confuses dynamic second first := by
  constructor
  · intro disjoint
    have firstOut := (DecodedRequest.staysOut_iff lexical).mpr disjoint.firstOutside
    have secondOut := (DecodedRequest.staysOut_iff lexical).mpr disjoint.secondOutside
    refine ⟨firstOut, secondOut, fun confuses => ?_, fun confuses => ?_⟩
    · obtain ⟨shares, different⟩ := shares_of_confuses lexical firstOut secondOut confuses
      exact different (disjoint.apart shares)
    · obtain ⟨shares, different⟩ := shares_of_confuses lexical secondOut firstOut confuses
      obtain ⟨apps, subjects⟩ := disjoint.apart shares.symm
      exact different ⟨apps.symm, subjects.symm⟩
  · rintro ⟨firstOut, secondOut, clear, alsoClear⟩
    refine ⟨fun shares => ?_, (DecodedRequest.staysOut_iff lexical).mp firstOut,
      (DecodedRequest.staysOut_iff lexical).mp secondOut⟩
    obtain ⟨sameSpace, sameLabel⟩ := (DecodedRequest.topics_eq_iff lexical firstOut secondOut).mp shares
    cases confuses_of_placed (DecodedRequest.placed_of_staysOut lexical firstOut).1
        (DecodedRequest.placed_of_staysOut lexical secondOut).1 sameSpace sameLabel with
    | inl same => exact same
    | inr confused =>
      cases confused with
      | inl confuses => exact absurd confuses clear
      | inr confuses => exact absurd confuses alsoClear

/-! ### A shop -/

def askBody : String := "\x7b\"query\":\"query \x7b pay \x7d\"\x7d"

/-- The crates on a query and a mutation of one name. -/
def shopCrates : Crates where
  fromStr text :=
    if text = askBody then some (.object [("query", .string "query \x7b pay \x7d")])
    else smallCrates.fromStr text
  parse query :=
    if query = "query \x7b pay \x7d" then
      ⟨[], [.operationDefinition ⟨some ⟨true, false, false⟩, none, some [.field (some "pay")]⟩]⟩
    else smallCrates.parse query
  sha256 _ := ""
  statusText _ := ""

def shopProxy : CompositeServiceProxy := { smallProxy with crates := shopCrates }

theorem shop_lexical : Lexical shopProxy.crates where
  names query valid definition member name named char isChar := by
    simp only [shopProxy, shopCrates, smallCrates] at valid member
    split at member
    · cases List.mem_singleton.mp member
      simp [OperationDefinition.rootFields] at named
      simp [named] at isChar
      rcases isChar with rfl | rfl | rfl <;> decide
    · split at member
      · cases List.mem_singleton.mp member
        simp [OperationDefinition.rootFields] at named
        simp [named] at isChar
        rcases isChar with rfl | rfl | rfl <;> decide
      · cases member
  types query valid definition member := by
    simp only [shopProxy, shopCrates, smallCrates] at valid member
    split at member
    · cases List.mem_singleton.mp member
      decide
    · split at member
      · cases List.mem_singleton.mp member
        decide
      · cases member

/-- The shop under its own prefix. -/
def shopOf (subjectPrefix : Option String) : DynamicGatewayState :=
  { smallDynamic [] [] with apps := [⟨"default", [], [], "127.0.0.1:4000", subjectPrefix⟩] }

def shopRequest (subjectPrefix : Option String) (body : String)
    (decodes : (decoded shopProxy (admitted shopProxy (shopOf subjectPrefix)
      (smallArrival .post [] body))).isSome = true) : DecodedRequest shopProxy :=
  .ofArrival (shopOf subjectPrefix) (smallArrival .post [] body) decodes

/-- The query and the mutation of an app under its own name. -/
def ask : DecodedRequest shopProxy := shopRequest none askBody (by decide +kernel)

def pay : DecodedRequest shopProxy := shopRequest none payBody (by decide +kernel)

theorem subject_ask : ask.subject = .operation .query "pay" := by decide +kernel

theorem subject_pay : pay.subject = .operation .mutation "pay" := by decide +kernel

theorem appPrefix_ask : ask.appPrefix (shopOf none) = some "mutation.default" := by decide +kernel

theorem topics_disjoint_iff_shop : TopicsDisjoint (shopOf none) ask pay := by
  have notRead : ¬ IsRead .mutation := fun either => either.elim nofun nofun
  have asked : ask.info.gql ≠ none := gql_of_operation subject_ask
  have paid : pay.info.gql ≠ none := gql_of_operation subject_pay
  refine (topics_disjoint_iff shop_lexical (shopOf none) ask pay).mpr ⟨?_, ?_, ?_, ?_⟩
  · rw [DecodedRequest.StaysOut, subject_ask, appPrefix_ask]
    intro topicPrefix isPrefix
    cases isPrefix
    decide
  · rw [DecodedRequest.StaysOut, subject_pay]
    trivial
  · intro confuses
    cases confuses with
    | commands isFirst => cases subject_ask.symm.trans isFirst
    | readers isRead isFirst isSecond =>
      cases subject_pay.symm.trans isSecond
      exact notRead isRead
    | impostor isRead isFirst isSecond samePrefix =>
      cases subject_ask.symm.trans isFirst
      rw [show pay.appPrefix (shopOf none) = ask.appPrefix (shopOf none) from rfl, appPrefix_ask] at samePrefix
      exact absurd samePrefix (by decide)
    | twins noFirst => exact asked noFirst
    | posted noFirst => exact asked noFirst
  · intro confuses
    cases confuses with
    | commands isFirst isSecond => cases subject_ask.symm.trans isSecond
    | readers isRead isFirst =>
      cases subject_pay.symm.trans isFirst
      exact notRead isRead
    | impostor isRead isFirst =>
      cases subject_pay.symm.trans isFirst
      exact notRead isRead
    | twins noFirst => exact paid noFirst
    | posted noFirst => exact paid noFirst

/-- The query and the mutation of an app whose prefix is `orders` are on one topic. -/
theorem query_on_topic_of_mutation :
    ((shopOf (some "orders")).apps.map SpectraAppConfig.effectiveSubjectPrefix).Nodup ∧
      (shopRequest (some "orders") askBody (by decide +kernel)).topic (shopOf (some "orders")) = "orders.pay" ∧
      (shopRequest (some "orders") payBody (by decide +kernel)).topic (shopOf (some "orders")) = "orders.pay" ∧
      ¬ TopicsDisjoint (shopOf (some "orders")) (shopRequest (some "orders") askBody (by decide +kernel))
        (shopRequest (some "orders") payBody (by decide +kernel)) := by
  refine ⟨by decide +kernel, by decide +kernel, by decide +kernel, fun disjoint => ?_⟩
  have same := (disjoint.apart (by decide +kernel)).2
  exact absurd same (by decide +kernel)

end SpectraGQL.Gateway
