import Mathlib.Data.List.Forall2

/-! # Grammars and what they derive

A grammar gives each rule the sequences of symbols that it may stand for.  Derivation trees
are kept side by side as a forest: a forest goes on after a leaf, and after a node it has the
trees below the node and the trees beside it.
-/

namespace Data

inductive GrammarSymbol (τ ρ : Type) where
  /-- A token of some class. -/
  | terminal (terminal : τ)
  /-- No token, before one that is not of the class. -/
  | notBefore (terminal : τ)
  | one (rule : ρ)
  | optional (rule : ρ)
  /-- One or more. -/
  | several (rule : ρ)
deriving DecidableEq

/-- Tokens of `α` in classes of `τ`, and rules of `ρ`. -/
structure Grammar (τ α ρ : Type) where
  accepts : τ → α → Bool
  productions : ρ → List (List (GrammarSymbol τ ρ))

inductive Forest (α ρ : Type) where
  | nil
  | leaf (token : α) (beside : Forest α ρ)
  | node (rule : ρ) (below beside : Forest α ρ)

namespace Forest

variable {α ρ : Type} {related : α → α → Prop} {forest other : Forest α ρ} {others : List α}

/-- The tokens of the leaves, from left to right. -/
def yield : Forest α ρ → List α
  | nil => []
  | leaf token beside => token :: beside.yield
  | node _ below beside => below.yield ++ beside.yield

theorem exists_of_forall₂_append {β : Type} {between : β → α → Prop} {first second : List β}
    (areRelated : List.Forall₂ between (first ++ second) others) :
    ∃ start rest, others = start ++ rest ∧ List.Forall₂ between first start ∧ List.Forall₂ between second rest := by
  induction first generalizing others with
  | nil => exact ⟨[], others, rfl, .nil, areRelated⟩
  | cons token first inductionHypothesis =>
    cases areRelated with
    | cons isRelated areRelated =>
      obtain ⟨start, rest, rfl, ofFirst, ofSecond⟩ := inductionHypothesis areRelated
      exact ⟨_ :: start, rest, rfl, .cons isRelated ofFirst, ofSecond⟩

/-- Two forests of the same structure, with related tokens. -/
inductive Alike (related : α → α → Prop) : Forest α ρ → Forest α ρ → Prop
  | nil : Alike related .nil .nil
  | leaf {token other : α} {beside besideOther : Forest α ρ} : related token other →
    Alike related beside besideOther → Alike related (.leaf token beside) (.leaf other besideOther)
  | node {rule : ρ} {below belowOther beside besideOther : Forest α ρ} : Alike related below belowOther →
    Alike related beside besideOther →
    Alike related (.node rule below beside) (.node rule belowOther besideOther)

theorem Alike.yield (alike : forest.Alike related other) : List.Forall₂ related forest.yield other.yield := by
  induction alike with
  | nil => exact .nil
  | leaf isRelated _ inductionHypothesis => exact .cons isRelated inductionHypothesis
  | node _ _ belowHypothesis besideHypothesis => exact List.rel_append belowHypothesis besideHypothesis

/-- Related tokens in place of the leaves give a forest of the same structure. -/
theorem exists_alike (areRelated : List.Forall₂ related forest.yield others) :
    ∃ other, forest.Alike related other ∧ other.yield = others := by
  induction forest generalizing others with
  | nil =>
    cases areRelated
    exact ⟨.nil, .nil, rfl⟩
  | leaf token beside inductionHypothesis =>
    cases areRelated with
    | cons isRelated areRelated =>
      obtain ⟨besideOther, alike, rfl⟩ := inductionHypothesis areRelated
      exact ⟨.leaf _ besideOther, .leaf isRelated alike, rfl⟩
  | node rule below beside belowHypothesis besideHypothesis =>
    -- the leaves below the node come first
    obtain ⟨start, rest, rfl, ofBelow, ofBeside⟩ := exists_of_forall₂_append areRelated
    obtain ⟨belowOther, belowAlike, rfl⟩ := belowHypothesis ofBelow
    obtain ⟨besideOther, besideAlike, rfl⟩ := besideHypothesis ofBeside
    exact ⟨.node rule belowOther besideOther, .node belowAlike besideAlike, rfl⟩

end Forest

namespace Grammar

variable {τ α ρ : Type} {grammar : Grammar τ α ρ} {related : α → α → Prop} {symbols : List (GrammarSymbol τ ρ)}
  {forest other : Forest α ρ} {after afterOther : List α}

/-- The forest is derived from the symbols, where the tokens `after` come after it. -/
inductive Fits (grammar : Grammar τ α ρ) : List (GrammarSymbol τ ρ) → Forest α ρ → List α → Prop
  | nil {after : List α} : Fits grammar [] .nil after
  | terminal {terminal : τ} {token : α} {symbols : List (GrammarSymbol τ ρ)} {beside : Forest α ρ} {after : List α} :
    grammar.accepts terminal token = true → Fits grammar symbols beside after →
    Fits grammar (.terminal terminal :: symbols) (.leaf token beside) after
  | notBefore {terminal : τ} {symbols : List (GrammarSymbol τ ρ)} {forest : Forest α ρ} {after : List α} :
    (∀ token ∈ (forest.yield ++ after).head?, grammar.accepts terminal token = false) →
    Fits grammar symbols forest after → Fits grammar (.notBefore terminal :: symbols) forest after
  | one {rule : ρ} {production symbols : List (GrammarSymbol τ ρ)} {below beside : Forest α ρ} {after : List α} :
    production ∈ grammar.productions rule → Fits grammar production below (beside.yield ++ after) →
    Fits grammar symbols beside after → Fits grammar (.one rule :: symbols) (.node rule below beside) after
  | skip {rule : ρ} {symbols : List (GrammarSymbol τ ρ)} {forest : Forest α ρ} {after : List α} :
    Fits grammar symbols forest after → Fits grammar (.optional rule :: symbols) forest after
  | take {rule : ρ} {symbols : List (GrammarSymbol τ ρ)} {forest : Forest α ρ} {after : List α} :
    Fits grammar (.one rule :: symbols) forest after → Fits grammar (.optional rule :: symbols) forest after
  | last {rule : ρ} {symbols : List (GrammarSymbol τ ρ)} {forest : Forest α ρ} {after : List α} :
    Fits grammar (.one rule :: symbols) forest after → Fits grammar (.several rule :: symbols) forest after
  | more {rule : ρ} {symbols : List (GrammarSymbol τ ρ)} {forest : Forest α ρ} {after : List α} :
    Fits grammar (.one rule :: .several rule :: symbols) forest after →
    Fits grammar (.several rule :: symbols) forest after

theorem exists_head_related {tokens others : List α} {token : α} (areRelated : List.Forall₂ related tokens others)
    (isFirst : token ∈ others.head?) : ∃ first ∈ tokens.head?, related first token := by
  cases areRelated with
  | nil => cases isFirst
  | cons isRelated _ =>
    cases isFirst
    exact ⟨_, rfl, isRelated⟩

/-- A forest with other tokens of the same classes is derived from the same symbols. -/
theorem Fits.of_alike (fits : grammar.Fits symbols forest after) (alike : forest.Alike related other)
    (afterAlike : List.Forall₂ related after afterOther)
    (accepts : ∀ terminal token other, related token other →
      grammar.accepts terminal other = grammar.accepts terminal token) :
    grammar.Fits symbols other afterOther := by
  induction fits generalizing other afterOther with
  | nil =>
    cases alike
    exact .nil
  | terminal isAccepted _ inductionHypothesis =>
    cases alike with
    | leaf isRelated beside =>
      exact .terminal ((accepts _ _ _ isRelated).trans isAccepted) (inductionHypothesis beside afterAlike)
  | notBefore isNot _ inductionHypothesis =>
    refine .notBefore ?_ (inductionHypothesis alike afterAlike)
    intro token isNext
    obtain ⟨first, isFirst, isRelated⟩ := exists_head_related (List.rel_append alike.yield afterAlike) isNext
    exact (accepts _ _ _ isRelated).trans (isNot first isFirst)
  | one member _ _ belowHypothesis besideHypothesis =>
    cases alike with
    | node below beside =>
      exact .one member (belowHypothesis below (List.rel_append beside.yield afterAlike))
        (besideHypothesis beside afterAlike)
  | skip _ inductionHypothesis => exact .skip (inductionHypothesis alike afterAlike)
  | take _ inductionHypothesis => exact .take (inductionHypothesis alike afterAlike)
  | last _ inductionHypothesis => exact .last (inductionHypothesis alike afterAlike)
  | more _ inductionHypothesis => exact .more (inductionHypothesis alike afterAlike)

end Grammar

end Data
