import Mathlib.Data.List.Basic

/-! # Reading a text as lexemes

The lexemes of a language are told by one automaton: the state in which a lexeme ends says
what kind it is and which characters must not follow it.  A text is read in at most one way.
-/

namespace Data

structure Lexeme (α κ : Type) where
  kind : κ
  text : List α
deriving DecidableEq, Repr

/-- An automaton over the characters of a text. -/
structure Tokenizer (α σ κ : Type) where
  start : σ
  step : σ → α → Option σ
  /-- The lexeme that may end in a state. -/
  kind : σ → Option κ
  /-- The character must not follow a lexeme that ends in the state. -/
  forbids : σ → α → Bool
  start_not_kind : kind start = none
  /-- A lexeme does not end where it can go on. -/
  forbids_step : ∀ {state char lexeme next}, kind state = some lexeme → step state char = some next →
    forbids state char = true

/-- The text of the lexemes. -/
def textOf {α κ : Type} (lexemes : List (Lexeme α κ)) : List α := lexemes.flatMap Lexeme.text

section

variable {α κ : Type} {lexeme : Lexeme α κ} {lexemes others : List (Lexeme α κ)}

@[simp] theorem textOf_nil : textOf ([] : List (Lexeme α κ)) = [] := rfl

@[simp] theorem textOf_cons : textOf (lexeme :: lexemes) = lexeme.text ++ textOf lexemes := rfl

@[simp] theorem textOf_append : textOf (lexemes ++ others) = textOf lexemes ++ textOf others :=
  List.flatMap_append

end

namespace Tokenizer

variable {α σ κ : Type} {tokenizer : Tokenizer α σ κ} {state final : σ} {char : α}
  {text taken rest left : List α} {lexeme : Lexeme α κ} {lexemes : List (Lexeme α κ)}

/-- The state after some characters. -/
def run (tokenizer : Tokenizer α σ κ) : σ → List α → Option σ
  | state, [] => some state
  | state, char :: text => (tokenizer.step state char).bind fun next => tokenizer.run next text

@[simp] theorem run_nil : tokenizer.run state [] = some state := rfl

@[simp] theorem run_cons :
    tokenizer.run state (char :: text) = (tokenizer.step state char).bind fun next => tokenizer.run next text := rfl

theorem run_append :
    tokenizer.run state (text ++ rest) = (tokenizer.run state text).bind fun next => tokenizer.run next rest := by
  induction text generalizing state with
  | nil => rfl
  | cons char text inductionHypothesis =>
    simp only [List.cons_append, run_cons, inductionHypothesis, Option.bind_assoc]

/-- The next character, if there is one, may follow a lexeme that ends in the state. -/
def MayFollow (tokenizer : Tokenizer α σ κ) (state : σ) (rest : List α) : Prop :=
  ∀ char ∈ rest.head?, tokenizer.forbids state char = false

instance : Decidable (tokenizer.MayFollow state rest) :=
  inferInstanceAs (Decidable (∀ char ∈ rest.head?, _))

/-- The lexeme is one of the language, and `rest` may follow it. -/
def Accepts (tokenizer : Tokenizer α σ κ) (lexeme : Lexeme α κ) (rest : List α) : Prop :=
  ∃ state, tokenizer.run tokenizer.start lexeme.text = some state ∧ tokenizer.kind state = some lexeme.kind ∧
    tokenizer.MayFollow state rest

/-- The lexemes are of the language, each followed by what may follow it. -/
def Fit (tokenizer : Tokenizer α σ κ) : List (Lexeme α κ) → Prop
  | [] => True
  | lexeme :: lexemes => tokenizer.Accepts lexeme (textOf lexemes) ∧ tokenizer.Fit lexemes

/-- The text is made of these lexemes. -/
def Reads (tokenizer : Tokenizer α σ κ) (text : List α) (lexemes : List (Lexeme α κ)) : Prop :=
  textOf lexemes = text ∧ tokenizer.Fit lexemes

theorem Accepts.text_ne_nil (accepts : tokenizer.Accepts lexeme rest) : lexeme.text ≠ [] := by
  intro isNil
  obtain ⟨state, runs, isKind, -⟩ := accepts
  rw [isNil, run_nil, Option.some.injEq] at runs
  rw [← runs, tokenizer.start_not_kind] at isKind
  cases isKind

theorem Fit.of_append {others : List (Lexeme α κ)} (fit : tokenizer.Fit (lexemes ++ others)) :
    tokenizer.Fit others := by
  induction lexemes with
  | nil => exact fit
  | cons lexeme lexemes inductionHypothesis => exact inductionHypothesis fit.2

/-! ## The reader -/

/-- As many characters as the automaton takes, the state after them and what is left. -/
def munch (tokenizer : Tokenizer α σ κ) : σ → List α → List α × σ × List α
  | state, [] => ([], state, [])
  | state, char :: text =>
    match tokenizer.step state char with
    | some next =>
      let (taken, final, left) := tokenizer.munch next text
      (char :: taken, final, left)
    | none => ([], state, char :: text)

theorem munch_append (runs : tokenizer.run state taken = some final)
    (stops : ∀ char ∈ rest.head?, tokenizer.step final char = none) :
    tokenizer.munch state (taken ++ rest) = (taken, final, rest) := by
  induction taken generalizing state with
  | nil =>
    rw [run_nil, Option.some.injEq] at runs
    subst runs
    cases rest with
    | nil => rfl
    | cons char rest => simp only [List.nil_append, munch, stops char rfl]
  | cons char taken inductionHypothesis =>
    rw [run_cons, Option.bind_eq_some_iff] at runs
    obtain ⟨next, stepped, runs⟩ := runs
    simp only [List.cons_append, munch, stepped, inductionHypothesis runs]

theorem munch_sound (munched : tokenizer.munch state text = (taken, final, left)) :
    text = taken ++ left ∧ tokenizer.run state taken = some final := by
  induction text generalizing state taken with
  | nil =>
    cases munched
    exact ⟨rfl, rfl⟩
  | cons char text inductionHypothesis =>
    rw [munch] at munched
    split at munched
    · rename_i next stepped
      cases isNext : tokenizer.munch next text with
      | mk more rest =>
        obtain ⟨last, rest⟩ := rest
        rw [isNext] at munched
        cases munched
        obtain ⟨rfl, runs⟩ := inductionHypothesis isNext
        exact ⟨rfl, by rw [run_cons, stepped]; exact runs⟩
    · cases munched
      exact ⟨rfl, rfl⟩

/-- The loop over the lexemes of a text, at most `fuel` of them. -/
def readFrom (tokenizer : Tokenizer α σ κ) : Nat → List α → Option (List (Lexeme α κ))
  | _, [] => some []
  | 0, _ :: _ => none
  | fuel + 1, char :: text =>
    let (taken, final, left) := tokenizer.munch tokenizer.start (char :: text)
    (tokenizer.kind final).bind fun kind =>
      if tokenizer.MayFollow final left then (tokenizer.readFrom fuel left).map (⟨kind, taken⟩ :: ·) else none

def read (tokenizer : Tokenizer α σ κ) (text : List α) : Option (List (Lexeme α κ)) :=
  tokenizer.readFrom text.length text

theorem readFrom_of_fit {fuel : Nat} (fit : tokenizer.Fit lexemes) (enough : (textOf lexemes).length ≤ fuel) :
    tokenizer.readFrom fuel (textOf lexemes) = some lexemes := by
  induction lexemes generalizing fuel with
  | nil => cases fuel <;> rfl
  | cons lexeme lexemes inductionHypothesis =>
    obtain ⟨accepts, fit⟩ := fit
    have notNil := accepts.text_ne_nil
    obtain ⟨state, runs, isKind, follows⟩ := accepts
    -- a lexeme goes on as long as it can, so the reader stops where the lexeme does
    have munched := munch_append runs fun char isNext => by
      cases stepped : tokenizer.step state char with
      | none => rfl
      | some next =>
        have isForbidden := tokenizer.forbids_step isKind stepped
        rw [follows char isNext] at isForbidden
        cases isForbidden
    obtain ⟨first, text, isText⟩ := List.exists_cons_of_ne_nil notNil
    simp only [textOf_cons, isText, List.cons_append, List.length_cons, List.length_append] at munched enough ⊢
    cases fuel with
    | zero => omega
    | succ fuel =>
      have restIsRead : tokenizer.readFrom fuel (textOf lexemes) = some lexemes :=
        inductionHypothesis fit (by omega)
      rw [readFrom, munched]
      simp only [isKind, Option.bind_some, if_pos follows, restIsRead, Option.map_some, ← isText]

theorem readFrom_sound {fuel : Nat} (isRead : tokenizer.readFrom fuel text = some lexemes) :
    tokenizer.Reads text lexemes := by
  induction fuel generalizing text lexemes with
  | zero =>
    cases text with
    | nil =>
      cases isRead
      exact ⟨rfl, trivial⟩
    | cons char text => cases isRead
  | succ fuel inductionHypothesis =>
    cases text with
    | nil =>
      cases isRead
      exact ⟨rfl, trivial⟩
    | cons char text =>
      rw [readFrom] at isRead
      -- one longest lexeme, then the rest with less fuel
      cases munched : tokenizer.munch tokenizer.start (char :: text) with
      | mk taken rest =>
        obtain ⟨final, left⟩ := rest
        simp only [munched, Option.bind_eq_some_iff] at isRead
        obtain ⟨kind, isKind, isRead⟩ := isRead
        split at isRead
        · rename_i follows
          obtain ⟨others, restIsRead, rfl⟩ := Option.map_eq_some_iff.mp isRead
          obtain ⟨isText, fit⟩ := inductionHypothesis restIsRead
          obtain ⟨whole, runs⟩ := munch_sound munched
          subst isText
          exact ⟨whole.symm, ⟨final, runs, isKind, follows⟩, fit⟩
        · cases isRead

theorem read_eq_some_iff : tokenizer.read text = some lexemes ↔ tokenizer.Reads text lexemes := by
  constructor
  · exact readFrom_sound
  · rintro ⟨rfl, fit⟩
    exact readFrom_of_fit fit (Nat.le_refl _)

/-- A text is read in one way. -/
theorem Reads.unique {others : List (Lexeme α κ)} (reads : tokenizer.Reads text lexemes)
    (readsToo : tokenizer.Reads text others) : lexemes = others :=
  Option.some.inj ((read_eq_some_iff.mpr reads).symm.trans (read_eq_some_iff.mpr readsToo))

end Tokenizer

end Data
