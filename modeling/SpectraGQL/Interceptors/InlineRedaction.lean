import SpectraGQL.Interceptors.SanitizedDocument

/-! # Literals under sensitive names (`interceptors/sanitizer.rs`, `sanitize_gql_query_str`)

Values under sensitive names are masked where they are variables (`is_sensitive_key`); whether the
text of a document is treated alike is told by the tree of the document.  Where no match runs over the
end of a lexeme, the two agree exactly if the strings that the first expression takes for literals are
those under sensitive names (`sanitizeGqlQueryStr_masks_iff`).  Numbers are never taken for one
(`number_not_masked`).
-/

namespace SpectraGQL.Interceptors

open Data SpectraGQL.Http SpectraGQL.Protocol

/-! ## Masked documents -/

/-- An argument or a field of an input object. -/
def isArgument : Rule → Bool
  | .argument _ | .objectField _ => true
  | _ => false

def isVariable : DerivationTree → Bool
  | .node .variable _ _ => true
  | _ => false

/-- A sensitive name and a literal for it. -/
def isSensitiveLiteral (sanitizer : Sanitizer) (rule : Rule) : DerivationTree → Bool
  | .leaf name (.leaf _ (.node (.value _) literal .nil)) =>
    isArgument rule && sanitizer.isSensitiveKey (String.ofList name.text) && !isVariable literal
  | _ => false

/-- A string of what a value under a sensitive name is masked with. -/
def IsMaskedString (token : Word) : Prop := ∃ text, IsPlaceholder (.string text) ∧ token = quoted text.toList

/-- Any other token stays, but for the bearer tokens in strings. -/
def Kept (token other : Word) : Prop :=
  SameShape token other ∧
    (token.kind.isString = true → NoMatch findBearer [] token.text → other = token)

/-- In the tree of a document the literals under sensitive names are placeholders, and the rest stays. -/
inductive MaskedTree (sanitizer : Sanitizer) : DerivationTree → DerivationTree → Prop
  | nil : MaskedTree sanitizer .nil .nil
  | leaf {token other : Word} {beside besideOther : DerivationTree} : Kept token other →
    MaskedTree sanitizer beside besideOther → MaskedTree sanitizer (.leaf token beside) (.leaf other besideOther)
  | node {rule : Rule} {below belowOther beside besideOther : DerivationTree} :
    isSensitiveLiteral sanitizer rule below = false → MaskedTree sanitizer below belowOther →
    MaskedTree sanitizer beside besideOther → MaskedTree sanitizer (.node rule below beside) (.node rule belowOther besideOther)
  | literal {rule value : Rule} {name sign newName newSign masked : Word}
    {literal beside besideOther : DerivationTree} :
    isSensitiveLiteral sanitizer rule (.leaf name (.leaf sign (.node value literal .nil))) = true →
    Kept name newName → Kept sign newSign → IsMaskedString masked → MaskedTree sanitizer beside besideOther →
    MaskedTree sanitizer (.node rule (.leaf name (.leaf sign (.node value literal .nil))) beside)
      (.node rule (.leaf newName (.leaf newSign (.node value (.leaf masked .nil) .nil))) besideOther)

/-- The tokens of an argument; those of its value are marked. -/
def argumentTokens : DerivationTree → List (Word × Bool)
  | .leaf name (.leaf sign value) => (name, false) :: (sign, false) :: value.yield.map fun token => (token, true)
  | tree => tree.yield.map fun token => (token, false)

/-- The tokens of a document, and of each whether it belongs to a literal under a sensitive name. -/
def sensitiveTokens (sanitizer : Sanitizer) : DerivationTree → List (Word × Bool)
  | .nil => []
  | .leaf token beside => (token, false) :: sensitiveTokens sanitizer beside
  | .node rule below beside =>
    (if isSensitiveLiteral sanitizer rule below then argumentTokens below else sensitiveTokens sanitizer below) ++
      sensitiveTokens sanitizer beside

/-- What a token may become. -/
def MaskedToken (token : Word × Bool) (other : Word) : Prop :=
  if token.2 then IsMaskedString other else Kept token.1 other

section Trees

variable {sanitizer : Sanitizer} {rule : Rule} {below tree other : DerivationTree} {after others : List Word}
  {symbols : List (GrammarSymbol Terminal Rule)}

theorem exists_of_isSensitiveLiteral (sensitive : isSensitiveLiteral sanitizer rule below = true) :
    ∃ name sign isConst literal, below = .leaf name (.leaf sign (.node (.value isConst) literal .nil)) ∧
      isArgument rule = true ∧ isVariable literal = false := by
  unfold isSensitiveLiteral at sensitive
  split at sensitive
  · rename_i name sign isConst literal
    simp only [Bool.and_eq_true, Bool.not_eq_true'] at sensitive
    exact ⟨name, sign, isConst, literal, rfl, sensitive.1.1, sensitive.2⟩
  · cases sensitive

theorem map_argumentTokens (tree : DerivationTree) : (argumentTokens tree).map Prod.fst = tree.yield := by
  unfold argumentTokens
  split
  · simp [Forest.yield, Function.comp_def]
  · simp [Function.comp_def]

theorem map_sensitiveTokens (sanitizer : Sanitizer) (tree : DerivationTree) :
    (sensitiveTokens sanitizer tree).map Prod.fst = tree.yield := by
  induction tree with
  | nil => rfl
  | leaf token beside inductionHypothesis => rw [sensitiveTokens, List.map_cons, inductionHypothesis, Forest.yield]
  | node rule below beside belowHypothesis besideHypothesis =>
    rw [sensitiveTokens, List.map_append, besideHypothesis, Forest.yield]
    split
    · rw [map_argumentTokens]
    · rw [belowHypothesis]

theorem exists_leaf {terminal : Terminal} (fits : graphql.Fits [.terminal terminal] tree after) :
    ∃ token, tree = .leaf token .nil := by
  cases fits with
  | terminal _ rest =>
    cases rest
    exact ⟨_, rfl⟩

/-- What begins with a punctuator. -/
theorem exists_punctuator {text : String}
    (fits : graphql.Fits (.terminal (.punctuator text) :: symbols) tree after) :
    ∃ token ∈ tree.yield, token.kind = .punctuator := by
  cases fits with
  | @terminal _ token _ beside _ accepted _ =>
    have isPunctuator : (token.kind == .punctuator && token.text == text.toList) = true := accepted
    rw [Bool.and_eq_true, beq_iff_eq] at isPunctuator
    exact ⟨token, List.mem_cons_self, isPunctuator.1⟩

theorem exists_bracket (fits : graphql.Fits [.one rule] tree after)
    (brackets : ∀ production ∈ productions rule, ∃ text symbols, production = .terminal (.punctuator text) :: symbols) :
    ∃ token ∈ tree.yield, token.kind = .punctuator := by
  cases fits with
  | one member fitsBelow _ =>
    obtain ⟨text, symbols, rfl⟩ := brackets _ member
    obtain ⟨token, inYield, isPunctuator⟩ := exists_punctuator fitsBelow
    exact ⟨token, List.mem_append_left _ inYield, isPunctuator⟩

/-- A literal is one token, or a list or an object between its brackets. -/
theorem literal_cases {isConst : Bool} {production : List (GrammarSymbol Terminal Rule)} {literal : DerivationTree}
    (member : production ∈ productions (.value isConst)) (fits : graphql.Fits production literal after)
    (notVariable : isVariable literal = false) :
    (∃ token, literal = .leaf token .nil) ∨ ∃ token ∈ literal.yield, token.kind = .punctuator := by
  rw [productions, List.mem_append] at member
  cases member with
  | inl isVariable =>
    cases isConst with
    | true => cases isVariable
    | false =>
      obtain rfl := List.mem_singleton.mp isVariable
      cases fits
      cases notVariable
  | inr isLiteral =>
    have isOne : (∃ terminal, production = [.terminal terminal]) ∨ production = [.one (.listValue isConst)] ∨
        production = [.one (.objectValue isConst)] := by
      simp only [List.mem_cons, List.not_mem_nil, or_false] at isLiteral
      rcases isLiteral with rfl | rfl | rfl | rfl | rfl | rfl | rfl | rfl | rfl <;> simp
    obtain ⟨terminal, rfl⟩ | rfl | rfl := isOne
    · exact .inl (exists_leaf fits)
    · exact .inr (exists_bracket fits (by simp [productions]))
    · exact .inr (exists_bracket fits (by simp [productions, braces]))

/-- The value of an argument is derived as one. -/
theorem exists_value {name sign : Word} {value : Rule} {literal : DerivationTree} {production}
    (member : production ∈ productions rule) (argument : isArgument rule = true)
    (fits : graphql.Fits production (.leaf name (.leaf sign (.node value literal .nil))) after) :
    ∃ isConst production after, production ∈ productions (.value isConst) ∧ graphql.Fits production literal after := by
  have isNamed : ∃ isConst, production = named (.value isConst) := by
    cases rule with
    | argument isConst | objectField isConst => exact ⟨isConst, List.mem_singleton.mp member⟩
    | _ => cases argument
  obtain ⟨isConst, rfl⟩ := isNamed
  cases fits with
  | terminal _ afterName =>
    cases afterName with
    | terminal _ afterColon =>
      cases afterColon with
      | one member fitsLiteral _ => exact ⟨isConst, _, _, member, fitsLiteral⟩

theorem kind_of_isMaskedString {token : Word} (masked : IsMaskedString token) : token.kind = .string := by
  obtain ⟨text, -, rfl⟩ := masked
  rfl

theorem exists_related {α β : Type} {related : α → β → Prop} {tokens : List α} {others : List β} {token : α}
    (areRelated : List.Forall₂ related tokens others) (member : token ∈ tokens) :
    ∃ other ∈ others, related token other := by
  induction areRelated with
  | nil => cases member
  | cons isRelated _ inductionHypothesis =>
    cases member with
    | head => exact ⟨_, List.mem_cons_self, isRelated⟩
    | tail _ later =>
      obtain ⟨other, inOthers, isRelated⟩ := inductionHypothesis later
      exact ⟨other, List.mem_cons_of_mem _ inOthers, isRelated⟩

/-- Where every token may become another, the tree becomes a masked one. -/
theorem exists_maskedTree (fits : graphql.Fits symbols tree after)
    (masked : List.Forall₂ (fun token other => MaskedToken token other ∧ other.kind = token.1.kind)
      (sensitiveTokens sanitizer tree) others) :
    ∃ other, tree.Alike SameShape other ∧ other.yield = others ∧ MaskedTree sanitizer tree other := by
  induction fits generalizing others with
  | nil =>
    cases masked
    exact ⟨.nil, .nil, rfl, .nil⟩
  | terminal _ _ inductionHypothesis =>
    cases masked with
    | cons maskedToken masked =>
      obtain ⟨other, alike, rfl, maskedBeside⟩ := inductionHypothesis masked
      exact ⟨.leaf _ other, .leaf maskedToken.1.1 alike, rfl, .leaf maskedToken.1 maskedBeside⟩
  | notBefore _ _ inductionHypothesis => exact inductionHypothesis masked
  | skip _ inductionHypothesis => exact inductionHypothesis masked
  | take _ inductionHypothesis => exact inductionHypothesis masked
  | last _ inductionHypothesis => exact inductionHypothesis masked
  | more _ inductionHypothesis => exact inductionHypothesis masked
  | @one rule production symbols below beside after member fitsBelow _ belowHypothesis besideHypothesis =>
    obtain ⟨start, rest, rfl, ofBelow, ofBeside⟩ := Forest.exists_of_forall₂_append masked
    obtain ⟨besideOther, besideAlike, rfl, maskedBeside⟩ := besideHypothesis ofBeside
    cases sensitive : isSensitiveLiteral sanitizer rule below with
    | false =>
      rw [sensitive] at ofBelow
      obtain ⟨belowOther, belowAlike, rfl, maskedBelow⟩ := belowHypothesis ofBelow
      exact ⟨.node rule belowOther besideOther, .node belowAlike besideAlike, rfl,
        .node sensitive maskedBelow maskedBeside⟩
    | true =>
      obtain ⟨name, sign, isConst, literal, rfl, argument, notVariable⟩ := exists_of_isSensitiveLiteral sensitive
      obtain ⟨_, _, _, memberValue, fitsLiteral⟩ := exists_value member argument fitsBelow
      rw [sensitive, if_pos rfl, argumentTokens] at ofBelow
      cases ofBelow with
      | @cons _ newName _ _ maskedName ofBelow =>
      cases ofBelow with
      | @cons _ newSign _ _ maskedSign ofLiteral =>
      rw [List.forall₂_map_left_iff, Forest.yield, Forest.yield, List.append_nil] at ofLiteral
      rcases literal_cases memberValue fitsLiteral notVariable with ⟨token, rfl⟩ | ⟨token, inYield, isPunctuator⟩
      · cases ofLiteral with
        | @cons _ value _ _ maskedValue ofNone =>
        cases ofNone
        obtain ⟨isMasked, sameKind⟩ := maskedValue
        have valueShape : SameShape token value :=
          .inr ⟨sameKind.symm, by rw [← sameKind, kind_of_isMaskedString isMasked]; rfl⟩
        refine ⟨.node rule (.leaf newName (.leaf newSign (.node (.value isConst) (.leaf value .nil) .nil))) besideOther,
          .node ?_ besideAlike, rfl, .literal sensitive maskedName.1 maskedSign.1 isMasked maskedBeside⟩
        exact .leaf maskedName.1.1 (.leaf maskedSign.1.1 (.node (.leaf valueShape .nil) .nil))
      · -- a placeholder is a string
        obtain ⟨value, -, isMasked, sameKind⟩ := exists_related ofLiteral inYield
        rw [isPunctuator, kind_of_isMaskedString isMasked] at sameKind
        cases sameKind

/-- In a masked tree every token became what it may become, unless there are fewer of them. -/
theorem forall₂_maskedTokens (fits : graphql.Fits symbols tree after) (masked : MaskedTree sanitizer tree other) :
    other.yield.length ≤ tree.yield.length ∧ (other.yield.length = tree.yield.length →
      List.Forall₂ MaskedToken (sensitiveTokens sanitizer tree) other.yield) := by
  induction fits generalizing other with
  | nil =>
    cases masked
    exact ⟨Nat.le_refl _, fun _ => .nil⟩
  | terminal _ _ inductionHypothesis =>
    cases masked with
    | leaf kept maskedBeside =>
      obtain ⟨bound, tokens⟩ := inductionHypothesis maskedBeside
      exact ⟨Nat.succ_le_succ bound, fun same => .cons kept (tokens (Nat.succ.inj same))⟩
  | notBefore _ _ inductionHypothesis => exact inductionHypothesis masked
  | skip _ inductionHypothesis => exact inductionHypothesis masked
  | take _ inductionHypothesis => exact inductionHypothesis masked
  | last _ inductionHypothesis => exact inductionHypothesis masked
  | more _ inductionHypothesis => exact inductionHypothesis masked
  | one member fitsBelow _ belowHypothesis besideHypothesis =>
    cases masked with
    | node notSensitive maskedBelow maskedBeside =>
      obtain ⟨belowBound, belowTokens⟩ := belowHypothesis maskedBelow
      obtain ⟨besideBound, besideTokens⟩ := besideHypothesis maskedBeside
      simp only [Forest.yield, List.length_append]
      refine ⟨by omega, fun same => ?_⟩
      rw [sensitiveTokens, notSensitive]
      exact List.rel_append (belowTokens (by omega)) (besideTokens (by omega))
    | @literal _ _ name sign newName newSign value literal _ _ sensitive keptName keptSign isMasked maskedBeside =>
      obtain ⟨besideBound, besideTokens⟩ := besideHypothesis maskedBeside
      obtain ⟨_, _, _, _, same, argument, notVariable⟩ := exists_of_isSensitiveLiteral sensitive
      cases same
      obtain ⟨_, _, _, memberValue, fitsLiteral⟩ := exists_value member argument fitsBelow
      have positive : 0 < literal.yield.length := by
        rcases literal_cases memberValue fitsLiteral notVariable with ⟨token, rfl⟩ | ⟨token, inYield, -⟩
        · exact Nat.succ_pos _
        · exact List.length_pos_of_mem inYield
      simp only [Forest.yield, List.length_append, List.length_cons, List.length_nil, List.append_nil]
      refine ⟨by omega, fun same => ?_⟩
      -- no fewer tokens: the literal has one, and the placeholder stands for it
      obtain ⟨value, isValue⟩ : ∃ value, literal.yield = [value] := List.length_eq_one_iff.mp (by omega)
      rw [sensitiveTokens, sensitive, if_pos rfl, argumentTokens, Forest.yield, isValue]
      exact .cons keptName (.cons keptSign (.cons isMasked (besideTokens (by omega))))

end Trees

/-! ## Where the two agree -/

/-- A string that is masked already, or a bearer token between quotation marks. -/
def IsMaskable (token : Word) : Prop :=
  IsMaskedString token ∨ ∃ bearer new, findBearer bearer = some (new, []) ∧ token = quoted bearer

/-- A token of a literal under a sensitive name is taken for a literal, and no other token is, unless that
    makes no difference. -/
def Agrees (token : Word) (sensitive literal : Bool) : Prop :=
  if sensitive then token.kind = .string ∧ (literal = true ∨ IsMaskable token)
  else NoMatch findBearer [] token.text →
    (literal = true → token = quoted redactedPlaceholder.toList) ∧
      (token.kind = .blockString → LiteralsRedacted token.text)

section Tokens

variable {text new : List Char} {token : Word}

theorem eq_of_no_b (replaced : Replaced findBearer text new) (noB : 'B' ∉ new) : text = new := by
  induction replaced with
  | nil => rfl
  | keep _ _ inductionHypothesis => rw [inductionHypothesis fun member => noB (List.mem_cons_of_mem _ member)]
  | replace _ found _ _ _ =>
    obtain ⟨_, _, _, -, -, -, -, rfl⟩ := findBearer_eq_some found
    exact absurd (by rw [redactedBearer_eq]; simp) noB

theorem isMaskedString_iff :
    IsMaskedString token ↔ token = quoted redactedPlaceholder.toList ∨ token = quoted redactedBearer.toList := by
  simp [IsMaskedString, IsPlaceholder]

/-- What is put in for a token by itself was one by itself. -/
theorem exists_of_replaced_redactedBearer {body : List Char} (isNew : new = body ++ ['"']) (isBody : body = redactedBearer.toList)
    (replaced : Replaced findBearer text new) :
    text = new ∨ ∃ bearer start, findBearer bearer = some (start, []) ∧ text = bearer ++ ['"'] := by
  have noB : 'B' ∉ ['e', 'a', 'r', 'e', 'r', ' ', '[', 'R', 'E', 'D', 'A', 'C', 'T', 'E', 'D', ']', '"'] := by decide
  cases replaced with
  | nil => exact .inl rfl
  | keep _ later =>
    rw [isBody, redactedBearer_eq] at isNew
    obtain ⟨-, rfl⟩ := List.cons.inj isNew
    exact .inl (congrArg _ (eq_of_no_b later noB))
  | @replace taken start text new _ found _ later =>
    obtain ⟨_, _, _, -, -, -, -, rfl⟩ := findBearer_eq_some found
    rw [isBody] at isNew
    obtain rfl := List.append_cancel_left isNew
    obtain rfl := eq_of_no_b later (by decide)
    have alone := @findBearer_append taken _ _ [] found (by simp)
    rw [List.append_nil] at alone
    exact .inr ⟨taken, _, alone, rfl⟩

/-- Only a bearer token becomes the placeholder of one. -/
theorem isMaskable_of_replaced (replaced : Replaced findBearer text new) (masked : IsMaskedString ⟨.string, new⟩) :
    IsMaskable ⟨.string, text⟩ := by
  rcases isMaskedString_iff.mp masked with isNew | isNew
  · obtain ⟨-, rfl⟩ := Lexeme.mk.inj isNew
    rw [eq_of_no_b replaced (by decide)]
    exact .inl masked
  · obtain ⟨-, rfl⟩ := Lexeme.mk.inj isNew
    generalize isWhole : '"' :: (redactedBearer.toList ++ ['"']) = whole at replaced
    cases replaced with
    | nil => cases isWhole
    | keep _ later =>
      obtain ⟨rfl, isNew⟩ := List.cons.inj isWhole
      rcases exists_of_replaced_redactedBearer isNew.symm rfl later with rfl | ⟨bearer, start, found, rfl⟩
      · rw [← isNew]
        exact .inl masked
      · exact .inr ⟨bearer, start, found, rfl⟩
    | replace _ found _ _ =>
      obtain ⟨_, _, _, -, -, -, -, rfl⟩ := findBearer_eq_some found
      rw [redactedBearer_eq] at isWhole
      cases isWhole

/-- A masked string and a bearer token by itself become masked strings. -/
theorem isMaskedString_of_isMaskable (maskable : IsMaskable token) : IsMaskedString (withoutBearers token) := by
  rcases maskable with masked | ⟨bearer, new, found, rfl⟩
  · have same : withoutBearers token = token := by
      rcases isMaskedString_iff.mp masked with rfl | rfl <;> decide
    rwa [same]
  · obtain ⟨_, _, _, -, -, -, -, rfl⟩ := findBearer_eq_some found
    obtain ⟨taken, notNil, isTaken⟩ := consumes_findBearer found
    rw [List.append_nil] at isTaken
    subst isTaken
    have stops : ∀ char ∈ ['"'].head?, isTokenChar char = false := by
      intro char isQuote
      obtain rfl : '"' = char := Option.some.inj isQuote
      decide
    have inside : findBearer (bearer ++ ['"']) = some (redactedBearer.toList, ['"']) :=
      @findBearer_append bearer _ [] ['"'] (by rwa [List.append_nil]) stops
    have ofText : replaceAll findBearer ('"' :: (bearer ++ ['"'])) = '"' :: (redactedBearer.toList ++ ['"']) := by
      rw [replaceAll_cons_of_none (findBearer_of_not_b (by decide) _), replaceAll_of_some notNil inside]
      rfl
    exact isMaskedString_iff.mpr (.inr (congrArg (Lexeme.mk LexemeKind.string) ofText))

/-- No bearer token comes to be where literals are replaced. -/
theorem noBearers_of_replaced (replaced : Replaced findLiteral text new) (noBearer : NoMatch findBearer [] text) :
    ∀ after, after <:+ new → ¬ BearerAt after := by
  induction replaced with
  | nil =>
    intro after suffix bearer
    obtain ⟨char, member, -⟩ := bearer.exists_blank
    rw [List.suffix_nil.mp suffix] at member
    cases member
  | @keep char text new none later inductionHypothesis =>
    intro after suffix bearer
    cases List.suffix_cons_iff.mp suffix with
    | inl whole =>
      subst whole
      have before : BearerAt (char :: text) := bearer.of_replaced (.keep none later)
      have noneAt := noBearer [] (char :: text) rfl (List.cons_ne_nil _ _)
      rw [List.append_nil, findBearer_eq_none_iff] at noneAt
      exact noneAt before
    | inr inRest => exact inductionHypothesis (noBearer.of_suffix (List.suffix_cons _ _)) after inRest bearer
  | @replace taken start text new _ found _ _ inductionHypothesis =>
    intro after suffix bearer
    obtain ⟨key, _, _, _, isKey, -, -, -, -, rfl⟩ := findLiteral_eq_some found
    cases suffix_append_cases suffix with
    | inl inRest => exact inductionHypothesis (noBearer.of_suffix (List.suffix_append _ _)) after inRest bearer
    | inr inStart =>
      obtain ⟨part, isPart, notNil, rfl⟩ := inStart
      obtain ⟨first, others, rfl⟩ := List.exists_cons_of_ne_nil notNil
      -- neither a key nor the placeholder has the first letter of a bearer token
      have notB : first ≠ 'b' ∧ first ≠ 'B' := by
        cases List.mem_append.mp (isPart.subset List.mem_cons_self) with
        | inl inKey => exact not_b_of_isKeyChar ((isKeyChar_of_literalKey isKey).2 first inKey)
        | inr inPlaceholder => exact not_b_of_redactedLiteral first inPlaceholder
      exact findBearer_eq_none_iff.mp (findBearer_of_not_b notB _) bearer

/-- Where there is no bearer token, a block string stays exactly if its literals are placeholders. -/
theorem released_blockString_iff (noBearer : NoMatch findBearer [] text) :
    released (⟨.blockString, text⟩, false) = ⟨.blockString, text⟩ ↔ LiteralsRedacted text := by
  have replaced : Replaced findLiteral text (replaceAll findLiteral text) := rewrites_replaceAll consumes_findLiteral text
  have isReleased : released (⟨.blockString, text⟩, false) =
      ⟨.blockString, replaceAll findBearer (replaceAll findLiteral text)⟩ := rfl
  rw [isReleased, replaceBearers_eq_self (noBearers_of_replaced replaced noBearer)]
  constructor
  · intro same
    have sameText := (Lexeme.mk.inj same).2
    have redacted := literalsRedacted_of_replaced replaced
    rwa [sameText] at redacted
  · exact fun redacted => congrArg _ (replaceLiterals_eq_self redacted)

theorem withoutBearers_of_noMatch (noBearer : NoMatch findBearer [] token.text) : withoutBearers token = token := by
  have same := noBearer.replaceAll
  rw [List.append_nil, replaceAll_nil, List.append_nil] at same
  unfold withoutBearers
  rw [same]
  split <;> rfl

theorem released_literal (token : Word) : released (token, true) = quoted redactedPlaceholder.toList := by
  have placeholder : withoutLiterals (token, true) = quoted redactedPlaceholder.toList := rfl
  rw [released, placeholder]
  exact withoutBearers_of_noMatch (by decide)

theorem kind_released {literal : Bool} (isString : literal = true → token.kind = .string) :
    (released (token, literal)).kind = token.kind := by
  rcases @sameShape_released (token, literal) isString with same | strings
  · rw [← same]
  · exact strings.1.symm

/-- A token of a literal under a sensitive name. -/
theorem isMaskedString_released_iff {literal : Bool} (isString : literal = true → token.kind = .string) :
    IsMaskedString (released (token, literal)) ↔ token.kind = .string ∧ (literal = true ∨ IsMaskable token) := by
  cases literal with
  | true =>
    rw [released_literal]
    exact ⟨fun _ => ⟨isString rfl, .inl rfl⟩, fun _ => isMaskedString_iff.mpr (.inl rfl)⟩
  | false =>
    constructor
    · intro masked
      have sameKind := kind_released isString
      rw [kind_of_isMaskedString masked] at sameKind
      obtain ⟨kind, text⟩ := token
      obtain rfl : .string = kind := sameKind
      have replaced : Replaced findBearer text (replaceAll findBearer text) :=
        rewrites_replaceAll consumes_findBearer text
      exact ⟨rfl, .inr (isMaskable_of_replaced replaced masked)⟩
    · rintro ⟨isPlain, literal | maskable⟩
      · cases literal
      · have notBlock : token.kind ≠ .blockString := by
          rw [isPlain]
          nofun
        have untouched : withoutLiterals (token, false) = token := if_neg notBlock
        rw [released, untouched]
        exact isMaskedString_of_isMaskable maskable

/-- Another token. -/
theorem kept_released_iff {literal : Bool} (isString : literal = true → token.kind = .string) :
    Kept token (released (token, literal)) ↔ (NoMatch findBearer [] token.text →
      (literal = true → token = quoted redactedPlaceholder.toList) ∧
        (token.kind = .blockString → LiteralsRedacted token.text)) := by
  have sameShape : SameShape token (released (token, literal)) := @sameShape_released (token, literal) isString
  cases literal with
  | true =>
    have plain := isString rfl
    have notBlock : token.kind ≠ .blockString := by
      rw [plain]
      nofun
    rw [released_literal] at sameShape ⊢
    constructor
    · rintro ⟨-, same⟩ noBearer
      exact ⟨fun _ => (same (by rw [plain]; rfl) noBearer).symm, fun isBlock => absurd isBlock notBlock⟩
    · exact fun agrees => ⟨sameShape, fun _ noBearer => ((agrees noBearer).1 rfl).symm⟩
  | false =>
    by_cases isBlock : token.kind = .blockString
    · obtain ⟨kind, text⟩ := token
      obtain rfl : kind = .blockString := isBlock
      constructor
      · rintro ⟨-, same⟩ noBearer
        exact ⟨nofun, fun _ => (released_blockString_iff noBearer).mp (same rfl noBearer)⟩
      · exact fun agrees => ⟨sameShape, fun _ noBearer => (released_blockString_iff noBearer).mpr ((agrees noBearer).2 rfl)⟩
    -- only bearer tokens are looked for in any other token
    · have untouched : withoutLiterals (token, false) = token := if_neg isBlock
      constructor
      · exact fun _ _ => ⟨nofun, fun block => absurd block isBlock⟩
      · intro _
        rw [released, untouched] at sameShape ⊢
        exact ⟨sameShape, fun _ noBearer => withoutBearers_of_noMatch noBearer⟩

/-- What is released in place of a token is what it may become exactly where the two agree. -/
theorem maskedToken_released_iff {sensitive literal : Bool} (isString : literal = true → token.kind = .string) :
    MaskedToken (token, sensitive) (released (token, literal)) ↔ Agrees token sensitive literal := by
  cases sensitive with
  | true => exact isMaskedString_released_iff isString
  | false => exact kept_released_iff isString

end Tokens

/-- The literals under sensitive names are what the first expression takes for literals, where it matters. -/
def SameLiterals (sanitizer : Sanitizer) (document : String) (tree : DerivationTree) : Prop :=
  ∀ words, lexer.Reads document.toList words →
    List.Forall₂ (fun token other => Agrees token.1 token.2 other.2) (sensitiveTokens sanitizer tree)
      (literalTokens .elsewhere words)

/-- Where no match runs over the end of a lexeme, the text of a document is masked as its values are exactly
    if the names and the strings after them are told apart in the same way. -/
theorem sanitizeGqlQueryStr_masks_iff (sanitizer : Sanitizer) (document : String) (tree : DerivationTree)
    (confined : ConfinedMatches document) (parses : Parses document tree) :
    (∃ other, Parses (sanitizeGqlQueryStr queryPatterns document) other ∧ MaskedTree sanitizer tree other) ↔
      SameLiterals sanitizer document tree := by
  obtain ⟨words, reads, isYield, fits⟩ := parses
  obtain ⟨others, readsOthers, tokens⟩ := exists_sanitizedLexemes (confined words reads) reads
  have isString : ∀ token ∈ literalTokens .elsewhere words, token.2 = true → token.1.kind = .string := by
    rintro ⟨token, literal⟩ member rfl
    exact kind_of_literalTokens member
  -- both lists have the tokens of the document
  have marked : List.Forall₂ (fun token other => token = other.1 ∧ (other.2 = true → other.1.kind = .string))
      ((literalTokens .elsewhere words).map Prod.fst) (literalTokens .elsewhere words) := by
    rw [List.forall₂_map_left_iff, List.forall₂_same]
    exact fun token member => ⟨rfl, isString token member⟩
  have isTokens : tree.yield = tokensOf words := isYield
  rw [map_literalTokens, ← isTokens, ← map_sensitiveTokens sanitizer tree, List.forall₂_map_left_iff] at marked
  have becomes : List.Forall₂ (fun token other => (MaskedToken token (released other) ↔ Agrees token.1 token.2 other.2) ∧
      (released other).kind = token.1.kind) (sensitiveTokens sanitizer tree) (literalTokens .elsewhere words) := by
    refine marked.imp ?_
    rintro ⟨token, sensitive⟩ ⟨_, literal⟩ ⟨rfl, plain⟩
    exact ⟨maskedToken_released_iff plain, kind_released plain⟩
  constructor
  · rintro ⟨other, ⟨otherWords, otherReads, otherYield, -⟩, masked⟩ _ readsAgain
    obtain rfl := reads.unique readsAgain
    obtain rfl := readsOthers.unique otherReads
    have isReleased : other.yield = (literalTokens .elsewhere words).map released := otherYield.trans tokens
    have sameLength : other.yield.length = tree.yield.length := by
      rw [isReleased, isTokens, ← map_literalTokens .elsewhere words, List.length_map, List.length_map]
    have maskedTokens := (forall₂_maskedTokens fits masked).2 sameLength
    rw [isReleased, List.forall₂_map_right_iff] at maskedTokens
    exact List.Forall₂.mp (fun _ _ isEither isMasked => isEither.1.mp isMasked) becomes maskedTokens
  · intro same
    have maskedTokens : List.Forall₂ (fun token other => MaskedToken token other ∧ other.kind = token.1.kind)
        (sensitiveTokens sanitizer tree) ((literalTokens .elsewhere words).map released) := by
      rw [List.forall₂_map_right_iff]
      exact List.Forall₂.mp (fun _ _ isEither agrees => ⟨isEither.1.mpr agrees, isEither.2⟩) becomes (same words reads)
    obtain ⟨other, alike, isOther, masked⟩ := exists_maskedTree fits maskedTokens
    have otherFits := fits.of_alike alike .nil accepts_of_sameShape
    exact ⟨other, ⟨others, readsOthers, isOther.trans tokens.symm, otherFits⟩, masked⟩

/-- The literal of one argument is masked. -/
theorem sanitizeGqlQueryStr_masks_argument : ∃ other,
    Parses (sanitizeGqlQueryStr queryPatterns "\x7b a(password: \"x\") \x7d") other ∧
      MaskedTree Sanitizer.defaultSanitizer (argumentTree (quoted ['x'])) other := by
  refine (sanitizeGqlQueryStr_masks_iff Sanitizer.defaultSanitizer _ _ confinedMatches_argument
    (parses_argument (isValue_of_isString rfl) read_argument)).mpr ?_
  intro words reads
  obtain rfl := reads.unique (Tokenizer.read_eq_some_iff.mp read_argument)
  have sameTokens : sensitiveTokens Sanitizer.defaultSanitizer (argumentTree (quoted ['x'])) =
      literalTokens .elsewhere (argumentWords (quoted ['x'])) := by
    decide +kernel
  rw [sameTokens, List.forall₂_same]
  rintro ⟨token, literal⟩ member
  have noBlocks : ((literalTokens .elsewhere (argumentWords (quoted ['x']))).all
      fun token => token.1.kind != .blockString) = true := by
    decide +kernel
  have notBlock : token.kind ≠ .blockString := by simpa using List.all_eq_true.mp noBlocks _ member
  cases literal with
  | true => exact ⟨kind_of_literalTokens member, .inl rfl⟩
  | false => exact fun _ => ⟨nofun, fun isBlock => absurd isBlock notBlock⟩

/-- A number under a sensitive name stays. -/
theorem number_not_masked : ∃ tree, Parses "\x7b a(password: 1234) \x7d" tree ∧
    ¬ ∃ other, Parses (sanitizeGqlQueryStr queryPatterns "\x7b a(password: 1234) \x7d") other ∧
      MaskedTree Sanitizer.defaultSanitizer tree other := by
  have isValue : IsValue ⟨.int, "1234".toList⟩ := ⟨rfl, .int, by simp [productions], rfl⟩
  have isRead : lexer.read "\x7b a(password: 1234) \x7d".toList = some (argumentWords ⟨.int, "1234".toList⟩) := by
    decide +kernel
  refine ⟨_, parses_argument isValue isRead, ?_⟩
  rintro ⟨other, ⟨words, reads, isYield, -⟩, masked⟩
  have unchanged : sanitizeGqlQueryStr queryPatterns "\x7b a(password: 1234) \x7d" = "\x7b a(password: 1234) \x7d" := by
    decide +kernel
  rw [unchanged] at reads
  obtain rfl := reads.unique (Tokenizer.read_eq_some_iff.mp isRead)
  have sameYield : other.yield = (argumentTree ⟨.int, "1234".toList⟩).yield :=
    isYield.trans (yield_argumentTree rfl).symm
  have tokens := (forall₂_maskedTokens (fits_argumentTree isValue) masked).2 (congrArg List.length sameYield)
  have marked : ((⟨.int, "1234".toList⟩ : Word), true) ∈
      sensitiveTokens Sanitizer.defaultSanitizer (argumentTree ⟨.int, "1234".toList⟩) := by
    decide +kernel
  obtain ⟨value, inOther, isMasked⟩ := exists_related tokens marked
  have noString : ((argumentTree ⟨.int, "1234".toList⟩).yield.all fun token => token.kind != .string) = true := by
    decide +kernel
  rw [sameYield] at inOther
  have notString := List.all_eq_true.mp noString value inOther
  rw [kind_of_isMaskedString isMasked] at notString
  cases notString

end SpectraGQL.Interceptors
