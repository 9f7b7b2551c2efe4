import Mathlib.Data.List.Forall2
import Mathlib.Data.List.Infix

/-! # Regular expressions

Expressions over any alphabet, in which only classes of characters are repeated.  A match
starts at the start of a text; of several matches the first alternative wins and a
repetition takes as much as it can.  Replacing goes through a text from its start and
never looks at a character twice.
-/

namespace Data

inductive Regex (α : Type) where
  /-- One character of a class. -/
  | one (accepts : α → Bool)
  /-- Any number of characters of a class. -/
  | many (accepts : α → Bool)
  | seq (first second : Regex α)
  | alt (first second : Regex α)

namespace Regex

variable {α : Type} {expression group tail : Regex α} {text taken left key : List α}

/-- Characters of these classes, one after the other. -/
def word (classes : List (α → Bool)) : Regex α :=
  classes.foldr (fun accepts rest => seq (one accepts) rest) (many fun _ => false)

def oneOf (alternatives : List (Regex α)) : Regex α := alternatives.foldr alt (one fun _ => false)

/-- At least one character of a class. -/
def some (accepts : α → Bool) : Regex α := seq (one accepts) (many accepts)

/-! ## What an expression matches -/

def Matches : Regex α → List α → Prop
  | one accepts, text => ∃ char, accepts char = true ∧ text = [char]
  | many accepts, text => ∀ char ∈ text, accepts char = true
  | seq first second, text => ∃ start rest, text = start ++ rest ∧ first.Matches start ∧ second.Matches rest
  | alt first second, text => first.Matches text ∨ second.Matches text

/-- A text goes through the classes, one by one. -/
theorem matches_word {classes : List (α → Bool)} :
    (word classes).Matches text ↔ List.Forall₂ (fun accepts char => accepts char = true) classes text := by
  induction classes generalizing text with
  | nil =>
    have isWord : (word ([] : List (α → Bool))).Matches text ↔ text = [] := by
      simp [word, Matches, List.eq_nil_iff_forall_not_mem]
    rw [isWord, List.forall₂_nil_left_iff]
  | cons accepts classes inductionHypothesis =>
    rw [List.forall₂_cons_left_iff]
    constructor
    · rintro ⟨_, rest, rfl, ⟨char, accepted, rfl⟩, matched⟩
      exact ⟨char, rest, accepted, inductionHypothesis.mp matched, rfl⟩
    · rintro ⟨char, rest, accepted, matched, rfl⟩
      exact ⟨[char], rest, rfl, ⟨char, accepted, rfl⟩, inductionHypothesis.mpr matched⟩

theorem matches_oneOf {alternatives : List (Regex α)} :
    (oneOf alternatives).Matches text ↔ ∃ alternative ∈ alternatives, alternative.Matches text := by
  induction alternatives with
  | nil => simp [oneOf, Matches]
  | cons alternative alternatives inductionHypothesis =>
    have split : (oneOf (alternative :: alternatives)).Matches text ↔
        alternative.Matches text ∨ (oneOf alternatives).Matches text := Iff.rfl
    rw [split, inductionHypothesis, List.exists_mem_cons_iff]

theorem matches_some {accepts : α → Bool} :
    (Regex.some accepts).Matches text ↔ text ≠ [] ∧ ∀ char ∈ text, accepts char = true := by
  constructor
  · rintro ⟨_, rest, rfl, ⟨char, accepted, rfl⟩, all⟩
    exact ⟨List.cons_ne_nil _ _, List.forall_mem_cons.mpr ⟨accepted, all⟩⟩
  · rintro ⟨notNil, all⟩
    cases text with
    | nil => exact absurd rfl notNil
    | cons char rest =>
      obtain ⟨accepted, all⟩ := List.forall_mem_cons.mp all
      exact ⟨[char], rest, rfl, ⟨char, accepted, rfl⟩, all⟩

/-! ## Matching at the start of a text -/

/-- What a repetition may leave, the least first. -/
def manyEnds (accepts : α → Bool) : List α → List (List α)
  | [] => [[]]
  | char :: rest => if accepts char then manyEnds accepts rest ++ [char :: rest] else [char :: rest]

/-- What a match may leave of the text, the preferred match first. -/
def ends : Regex α → List α → List (List α)
  | one _, [] => []
  | one accepts, char :: rest => if accepts char then [rest] else []
  | many accepts, text => manyEnds accepts text
  | seq first second, text => (first.ends text).flatMap second.ends
  | alt first second, text => first.ends text ++ second.ends text

theorem mem_manyEnds {accepts : α → Bool} :
    left ∈ manyEnds accepts text ↔ ∃ taken, (∀ char ∈ taken, accepts char = true) ∧ text = taken ++ left := by
  induction text with
  | nil =>
    simp only [manyEnds, List.mem_singleton, List.nil_eq, List.append_eq_nil_iff]
    exact ⟨fun isNil => ⟨[], by simp, rfl, isNil⟩, fun ⟨_, _, _, isNil⟩ => isNil⟩
  | cons char rest inductionHypothesis =>
    -- either nothing is taken, or the first character and some of what follows it
    have split : (∃ taken, (∀ char ∈ taken, accepts char = true) ∧ char :: rest = taken ++ left) ↔
        left = char :: rest ∨ accepts char = true ∧ left ∈ manyEnds accepts rest := by
      rw [inductionHypothesis]
      constructor
      · rintro ⟨taken, all, isText⟩
        cases taken with
        | nil => exact .inl isText.symm
        | cons first taken =>
          obtain ⟨rfl, isRest⟩ := List.cons.inj isText
          obtain ⟨accepted, all⟩ := List.forall_mem_cons.mp all
          exact .inr ⟨accepted, taken, all, isRest⟩
      · rintro (isText | ⟨accepted, taken, all, isRest⟩)
        · exact ⟨[], by simp, isText.symm⟩
        · exact ⟨char :: taken, List.forall_mem_cons.mpr ⟨accepted, all⟩, congrArg _ isRest⟩
    rw [split, manyEnds]
    split
    · rename_i accepted
      simp [accepted, or_comm]
    · rename_i accepted
      simp [accepted]

theorem mem_ends : left ∈ expression.ends text ↔ ∃ taken, expression.Matches taken ∧ text = taken ++ left := by
  induction expression generalizing text left with
  | one accepts =>
    cases text with
    | nil => simp [ends, Matches]
    | cons char rest =>
      by_cases accepted : accepts char = true
      · simp only [ends, accepted, if_true, List.mem_singleton]
        constructor
        · rintro rfl
          exact ⟨[char], ⟨char, accepted, rfl⟩, rfl⟩
        · rintro ⟨_, ⟨_, _, rfl⟩, isText⟩
          exact (List.cons.inj isText).2.symm
      · simp only [ends, accepted, Bool.false_eq_true, if_false, List.not_mem_nil, false_iff]
        rintro ⟨_, ⟨_, isAccepted, rfl⟩, isText⟩
        exact accepted ((List.cons.inj isText).1 ▸ isAccepted)
  | many accepts => exact mem_manyEnds
  | seq first second firstHypothesis secondHypothesis =>
    simp only [ends, List.mem_flatMap, firstHypothesis, secondHypothesis]
    constructor
    · rintro ⟨middle, ⟨start, matched, rfl⟩, rest, followed, rfl⟩
      exact ⟨start ++ rest, ⟨start, rest, rfl, matched, followed⟩, (List.append_assoc _ _ _).symm⟩
    · rintro ⟨_, ⟨start, rest, rfl, matched, followed⟩, rfl⟩
      exact ⟨rest ++ left, ⟨start, matched, List.append_assoc _ _ _⟩, rest, followed, rfl⟩
  | alt first second firstHypothesis secondHypothesis =>
    simp only [ends, List.mem_append, firstHypothesis, secondHypothesis, Matches, or_and_right, exists_or]

/-- The preferred match of a group and what follows it: what the group takes of the text, and
    what is left after the match. -/
def captures (group tail : Regex α) (text : List α) : Option (List α × List α) :=
  ((group.ends text).flatMap fun middle =>
    (tail.ends middle).map fun left => (text.take (text.length - middle.length), left)).head?

theorem mem_captures :
    (key, left) ∈ ((group.ends text).flatMap fun middle =>
      (tail.ends middle).map fun left => (text.take (text.length - middle.length), left)) ↔
    ∃ taken, group.Matches key ∧ tail.Matches taken ∧ text = key ++ taken ++ left := by
  simp only [List.mem_flatMap, List.mem_map, Prod.mk.injEq, mem_ends]
  constructor
  · rintro ⟨_, ⟨start, matched, rfl⟩, _, ⟨taken, followed, rfl⟩, isKey, rfl⟩
    obtain rfl : start = key := by simpa [List.length_append] using isKey
    exact ⟨taken, matched, followed, (List.append_assoc _ _ _).symm⟩
  · rintro ⟨taken, matched, followed, rfl⟩
    refine ⟨taken ++ left, ⟨key, matched, List.append_assoc _ _ _⟩, left, ⟨taken, followed, rfl⟩, ?_, rfl⟩
    simp

theorem captures_sound (found : captures group tail text = .some (key, left)) :
    ∃ taken, group.Matches key ∧ tail.Matches taken ∧ text = key ++ taken ++ left :=
  mem_captures.mp (List.mem_of_mem_head? found)

theorem captures_eq_none : captures group tail text = none ↔
    ∀ key taken left, group.Matches key → tail.Matches taken → text ≠ key ++ taken ++ left := by
  simp only [captures, List.head?_eq_none_iff, List.eq_nil_iff_forall_not_mem, Prod.forall, mem_captures,
    not_exists, not_and]
  exact ⟨fun none key taken left => none key left taken, fun none key left taken => none key taken left⟩

/-- Some match is found where there is one. -/
theorem captures_isSome (matched : group.Matches key) (followed : tail.Matches taken) :
    ∃ found, captures group tail (key ++ taken ++ left) = .some found := by
  rw [← Option.ne_none_iff_exists']
  intro none
  exact captures_eq_none.mp none key taken left matched followed rfl

/-! ## Repetitions at the end -/

/-- The preferred of several matches does not leave a character of the class next. -/
def Exhausts (accepts : α → Bool) (lefts : List (List α)) : Prop :=
  ∀ left ∈ lefts.head?, ∀ char ∈ left.head?, accepts char = false

theorem exhausts_manyEnds (accepts : α → Bool) (text : List α) :
    Exhausts accepts (manyEnds accepts text) ∧ manyEnds accepts text ≠ [] := by
  induction text with
  | nil => simp [Exhausts, manyEnds]
  | cons char rest inductionHypothesis =>
    cases accepted : accepts char with
    | false => simp [Exhausts, manyEnds, accepted]
    | true =>
      obtain ⟨exhausts, notNil⟩ := inductionHypothesis
      obtain ⟨first, others, isEnds⟩ := List.exists_cons_of_ne_nil notNil
      rw [isEnds] at exhausts
      rw [manyEnds, if_pos accepted, isEnds]
      exact ⟨exhausts, by simp⟩

theorem Exhausts.flatMap {accepts : α → Bool} {lefts : List (List α)} {next : List α → List (List α)}
    (exhausts : ∀ left, Exhausts accepts (next left)) : Exhausts accepts (lefts.flatMap next) := by
  induction lefts with
  | nil => simp [Exhausts]
  | cons left lefts inductionHypothesis =>
    cases isNext : next left with
    | nil =>
      rw [List.flatMap_cons, isNext, List.nil_append]
      exact inductionHypothesis
    | cons first others =>
      have own := exhausts left
      rw [isNext] at own
      rw [List.flatMap_cons, isNext]
      exact own

/-- A match takes as much as the repetition at its end can. -/
theorem exhausts_seq_some (accepts : α → Bool) (first : Regex α) (text : List α) :
    Exhausts accepts ((seq first (Regex.some accepts)).ends text) := by
  apply Exhausts.flatMap
  intro middle
  apply Exhausts.flatMap
  exact fun left => (exhausts_manyEnds accepts left).1

theorem captures_exhausts {accepts : α → Bool} (exhausts : ∀ text, Exhausts accepts (tail.ends text))
    (found : captures group tail text = .some (key, left)) : ∀ char ∈ left.head?, accepts char = false := by
  rw [captures] at found
  generalize group.ends text = middles at found
  induction middles with
  | nil => cases found
  | cons middle middles inductionHypothesis =>
    cases isTail : tail.ends middle with
    | nil =>
      rw [List.flatMap_cons, isTail] at found
      exact inductionHypothesis found
    | cons first others =>
      have own := exhausts middle
      rw [isTail] at own
      rw [List.flatMap_cons, isTail] at found
      cases found
      exact own left rfl

end Regex

/-! ## Replacing all matches -/

section Replacing

variable {α : Type} {find : List α → Option (List α × List α)} {text new left rest taken : List α} {char : α}

/-- The loop over a text.  `find` says what replaces a match at the start of a text and what is
    left after it; `skip` characters belong to the match before. -/
def replaceFrom (find : List α → Option (List α × List α)) : Nat → List α → List α
  | _, [] => []
  | skip + 1, _ :: rest => replaceFrom find skip rest
  | 0, char :: rest =>
    match find (char :: rest) with
    | some (new, left) => new ++ replaceFrom find (rest.length - left.length) rest
    | none => char :: replaceFrom find 0 rest

/-- Every match, from the start of the text on, is replaced. -/
def replaceAll (find : List α → Option (List α × List α)) (text : List α) : List α := replaceFrom find 0 text

@[simp] theorem replaceAll_nil : replaceAll find [] = [] := rfl

theorem replaceFrom_append : replaceFrom find taken.length (taken ++ text) = replaceAll find text := by
  induction taken with
  | nil => cases text <;> rfl
  | cons char taken inductionHypothesis => exact inductionHypothesis

theorem replaceAll_cons_of_none (none : find (char :: text) = none) :
    replaceAll find (char :: text) = char :: replaceAll find text := by
  simp only [replaceAll, replaceFrom, none]

theorem replaceAll_of_some (notNil : taken ≠ []) (found : find (taken ++ left) = some (new, left)) :
    replaceAll find (taken ++ left) = new ++ replaceAll find left := by
  cases taken with
  | nil => exact absurd rfl notNil
  | cons char taken =>
    rw [List.cons_append] at found
    simp only [replaceAll, List.cons_append, replaceFrom, found]
    have isLength : (taken ++ left).length - left.length = taken.length := by simp
    rw [isLength, replaceFrom_append, replaceAll]

/-- Before `rest`, every match that starts in the text ends in it, and where it ends is
    allowed; the replacing makes the new text of it. -/
inductive Rewrites (find : List α → Option (List α × List α)) (allowed : List α → List α → Prop)
    (rest : List α) : List α → List α → Prop
  | nil : Rewrites find allowed rest [] []
  | keep {char : α} {text new : List α} : find (char :: (text ++ rest)) = none →
    Rewrites find allowed rest text new → Rewrites find allowed rest (char :: text) (char :: new)
  | replace {taken start text new : List α} : taken ≠ [] →
    find (taken ++ (text ++ rest)) = some (start, text ++ rest) → allowed taken (text ++ rest) →
    Rewrites find allowed rest text new → Rewrites find allowed rest (taken ++ text) (start ++ new)

theorem Rewrites.replaceAll {allowed : List α → List α → Prop} (rewrites : Rewrites find allowed rest text new) :
    replaceAll find (text ++ rest) = new ++ replaceAll find rest := by
  induction rewrites with
  | nil => rfl
  | keep none _ inductionHypothesis =>
    rw [List.cons_append, replaceAll_cons_of_none none, inductionHypothesis, List.cons_append]
  | replace notNil found _ _ inductionHypothesis =>
    rw [List.append_assoc, replaceAll_of_some notNil found, inductionHypothesis, List.append_assoc]

theorem Rewrites.eq_nil {allowed : List α → List α → Prop} (rewrites : Rewrites find allowed rest [] new) :
    new = [] := by
  generalize isText : ([] : List α) = text at rewrites
  cases rewrites with
  | nil => rfl
  | keep _ _ => cases isText
  | replace notNil _ _ _ => exact absurd (List.append_eq_nil_iff.mp isText.symm).1 notNil

/-- A character with which no match starts is kept. -/
theorem Rewrites.exists_cons {allowed : List α → List α → Prop} (never : ∀ left, find (char :: left) = none)
    (rewrites : Rewrites find allowed rest (char :: text) new) :
    ∃ later, new = char :: later ∧ Rewrites find allowed rest text later := by
  generalize isText : char :: text = whole at rewrites
  cases rewrites with
  | nil => cases isText
  | keep _ later =>
    obtain ⟨rfl, rfl⟩ := List.cons.inj isText
    exact ⟨_, rfl, later⟩
  | replace _ found _ _ =>
    rw [← List.append_assoc, ← isText, List.cons_append, never] at found
    cases found

/-- A match is some of the text, and what is left of it. -/
def Consumes (find : List α → Option (List α × List α)) : Prop :=
  ∀ {text new left : List α}, find text = some (new, left) → ∃ taken, taken ≠ [] ∧ text = taken ++ left

/-- The whole text is rewritten. -/
theorem rewrites_replaceAll (consumes : Consumes find) (text : List α) :
    Rewrites find (fun _ _ => True) [] text (replaceAll find text) := by
  induction length : text.length using Nat.strongRecOn generalizing text with
  | ind size inductionHypothesis =>
    cases text with
    | nil => exact .nil
    | cons char text =>
      cases found : find (char :: text) with
      | none =>
        rw [replaceAll_cons_of_none found]
        exact .keep (by rw [List.append_nil, found])
          (inductionHypothesis _ (by simp [← length]) text rfl)
      | some result =>
        obtain ⟨new, left⟩ := result
        obtain ⟨taken, notNil, isText⟩ := consumes found
        rw [isText] at found length ⊢
        have positive : 0 < taken.length := List.length_pos_of_ne_nil notNil
        rw [replaceAll_of_some notNil found]
        refine .replace notNil (by simpa using found) trivial (inductionHypothesis _ ?_ left rfl)
        simp only [List.length_append] at length
        omega

/-- A property of the characters of a text is one of the new text's if no match brings in others. -/
theorem Rewrites.forall_mem {allowed : List α → List α → Prop} {property : α → Prop}
    (rewrites : Rewrites find allowed rest text new)
    (makes : ∀ taken start left, find (taken ++ left) = some (start, left) → (∀ char ∈ taken, property char) →
      ∀ char ∈ start, property char)
    (all : ∀ char ∈ text, property char) : ∀ char ∈ new, property char := by
  induction rewrites with
  | nil => exact all
  | keep _ _ inductionHypothesis =>
    obtain ⟨first, others⟩ := List.forall_mem_cons.mp all
    exact List.forall_mem_cons.mpr ⟨first, inductionHypothesis others⟩
  | replace _ found _ _ inductionHypothesis =>
    obtain ⟨inTaken, inText⟩ := List.forall_mem_append.mp all
    exact List.forall_mem_append.mpr ⟨makes _ _ _ found inTaken, inductionHypothesis inText⟩

theorem Rewrites.append {allowed : List α → List α → Prop} {more newMore : List α}
    (rewrites : Rewrites find allowed (more ++ rest) text new)
    (further : Rewrites find allowed rest more newMore) :
    Rewrites find allowed rest (text ++ more) (new ++ newMore) := by
  induction rewrites with
  | nil => exact further
  | keep none _ inductionHypothesis =>
    rw [List.cons_append, List.cons_append]
    rw [← List.append_assoc] at none
    exact .keep none inductionHypothesis
  | replace notNil found isAllowed _ inductionHypothesis =>
    rw [List.append_assoc, List.append_assoc]
    rw [← List.append_assoc] at isAllowed
    exact .replace notNil (by simpa using found) isAllowed inductionHypothesis

/-- A text is rewritten in the same way before another rest if its matches do not depend on the rest. -/
theorem Rewrites.of_rest {allowed : List α → List α → Prop} {other : List α}
    (rewrites : Rewrites find allowed rest text new)
    (nowhere : ∀ part, part <:+ text → part ≠ [] → find (part ++ rest) = none → find (part ++ other) = none)
    (finds : ∀ taken start left, taken ++ left <:+ text → find (taken ++ (left ++ rest)) = some (start, left ++ rest) →
      find (taken ++ (left ++ other)) = some (start, left ++ other)) :
    Rewrites find (fun _ _ => True) other text new := by
  induction rewrites with
  | nil => exact .nil
  | keep none _ inductionHypothesis =>
    refine .keep (nowhere _ (List.suffix_refl _) (List.cons_ne_nil _ _) none) (inductionHypothesis ?_ ?_)
    · exact fun part suffix => nowhere part (suffix.trans (List.suffix_cons _ _))
    · exact fun taken start left suffix => finds taken start left (suffix.trans (List.suffix_cons _ _))
  | replace notNil found _ _ inductionHypothesis =>
    refine .replace notNil (finds _ _ _ (List.suffix_refl _) found) trivial (inductionHypothesis ?_ ?_)
    · exact fun part suffix => nowhere part (suffix.trans (List.suffix_append _ _))
    · exact fun taken start left suffix => finds taken start left (suffix.trans (List.suffix_append _ _))

/-- A text stays the same when every match in it is replaced by itself. -/
theorem replaceAll_eq_self (consumes : Consumes find)
    (same : ∀ after, after <:+ text → ∀ new left, find after = some (new, left) → after = new ++ left) :
    replaceAll find text = text := by
  have rewrites := rewrites_replaceAll consumes text
  generalize replaceAll find text = result at rewrites
  induction rewrites with
  | nil => rfl
  | keep _ _ inductionHypothesis =>
    rw [inductionHypothesis fun after suffix => same after (suffix.trans (List.suffix_cons _ _))]
  | replace notNil found _ _ inductionHypothesis =>
    rw [List.append_nil] at found
    have isSame := same _ (List.suffix_refl _) _ _ found
    rw [inductionHypothesis fun after suffix => same after (suffix.trans (List.suffix_append _ _)), isSame]

/-- A suffix of a text that is put together lies in the second part, or begins in the first. -/
theorem suffix_append_cases {first second after : List α} (suffix : after <:+ first ++ second) :
    after <:+ second ∨ ∃ part, part <:+ first ∧ part ≠ [] ∧ after = part ++ second := by
  induction first with
  | nil => exact .inl suffix
  | cons char first inductionHypothesis =>
    cases List.suffix_cons_iff.mp suffix with
    | inl whole => exact .inr ⟨char :: first, List.suffix_refl _, by simp, whole⟩
    | inr inRest =>
      cases inductionHypothesis inRest with
      | inl inSecond => exact .inl inSecond
      | inr inFirst =>
        obtain ⟨part, isPart, notNil, same⟩ := inFirst
        exact .inr ⟨part, isPart.trans (List.suffix_cons _ _), notNil, same⟩

theorem exists_drop_of_suffix {part whole : List α} (isPart : part <:+ whole) (notNil : part ≠ []) :
    ∃ count < whole.length, part = whole.drop count := by
  have isDrop := List.suffix_iff_eq_drop.mp isPart
  have positive : 0 < part.length := List.length_pos_of_ne_nil notNil
  have bound := isPart.length_le
  exact ⟨whole.length - part.length, by omega, isDrop⟩

/-- Where a run of characters of a class ends is told by the text. -/
theorem run_unique {accepts : α → Bool} {first second firstRest secondRest : List α}
    (inFirst : ∀ char ∈ first, accepts char = true) (inSecond : ∀ char ∈ second, accepts char = true)
    (firstEnds : ∀ char ∈ firstRest.head?, accepts char = false)
    (secondEnds : ∀ char ∈ secondRest.head?, accepts char = false)
    (same : first ++ firstRest = second ++ secondRest) : first = second ∧ firstRest = secondRest := by
  induction first generalizing second with
  | nil =>
    cases second with
    | nil => exact ⟨rfl, same⟩
    | cons char second =>
      rw [List.nil_append] at same
      have refused := firstEnds char (by simp [same])
      exact absurd (inSecond char List.mem_cons_self) (by simp [refused])
  | cons char first inductionHypothesis =>
    cases second with
    | nil =>
      rw [List.nil_append] at same
      have refused := secondEnds char (by simp [← same])
      exact absurd (inFirst char List.mem_cons_self) (by simp [refused])
    | cons other second =>
      obtain ⟨rfl, sameRest⟩ := List.cons.inj same
      obtain ⟨rfl, isRest⟩ := inductionHypothesis (fun char member => inFirst char (.tail _ member))
        (fun char member => inSecond char (.tail _ member)) sameRest
      exact ⟨rfl, isRest⟩

/-- No match starts in the text before `rest`. -/
def NoMatch (find : List α → Option (List α × List α)) (rest text : List α) : Prop :=
  ∀ before after, text = before ++ after → after ≠ [] → find (after ++ rest) = none

instance [DecidableEq α] : Decidable (NoMatch find rest text) :=
  decidable_of_iff (∀ after ∈ text.tails, after ≠ [] → find (after ++ rest) = none) (by
    constructor
    · intro all before after isText
      exact all after ((List.mem_tails after text).mpr ⟨before, isText.symm⟩)
    · intro noMatch after isTail
      obtain ⟨before, isText⟩ := (List.mem_tails after text).mp isTail
      exact noMatch before after isText.symm)

theorem NoMatch.of_suffix {part : List α} (noMatch : NoMatch find rest text) (suffix : part <:+ text) :
    NoMatch find rest part := by
  obtain ⟨taken, rfl⟩ := suffix
  intro before after isText
  exact noMatch (taken ++ before) after (by rw [isText, List.append_assoc])

theorem NoMatch.rewrites {allowed : List α → List α → Prop} (noMatch : NoMatch find rest text) :
    Rewrites find allowed rest text text := by
  induction text with
  | nil => exact .nil
  | cons char text inductionHypothesis =>
    exact .keep (noMatch [] (char :: text) rfl (List.cons_ne_nil _ _))
      (inductionHypothesis (noMatch.of_suffix (List.suffix_cons _ _)))

theorem NoMatch.replaceAll (noMatch : NoMatch find rest text) :
    replaceAll find (text ++ rest) = text ++ replaceAll find rest := by
  have rewrites : Rewrites find (fun _ _ => True) rest text text := noMatch.rewrites
  exact rewrites.replaceAll

end Replacing

end Data
