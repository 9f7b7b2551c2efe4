import Mathlib.Data.List.Basic

/-! # The grammar of JSON texts

`Text` has every text that the grammar of JSON allows, and `Scan` is what a reader from left to right
knows of the place it is at: whether it is in a string, and how many brackets are open.
`blank_of_suffix` says that no text of an object ends with the text of another.
-/

namespace Data.JsonGrammar

/-! ## Texts -/

def isBlank (char : Char) : Bool := char == ' ' || char == '\n' || char == '\t' || char == '\r'

def Blank (text : List Char) : Prop := ∀ char ∈ text, isBlank char = true

/-- The characters of literals and numbers. -/
def isScalarChar (char : Char) : Bool := char.isAlphanum || char == '-' || char == '+' || char == '.'

/-- What may follow a backslash; the four digits after `u` are read as other characters. -/
def escapes : List Char := ['"', '\\', '/', 'b', 'f', 'n', 'r', 't', 'u']

/-- What follows the opening quote of a string. -/
def endsString : List Char → Bool
  | [] => false
  | '\\' :: escaped :: rest => escapes.contains escaped && endsString rest
  | '"' :: rest => rest.isEmpty
  | char :: rest => char != '\\' && endsString rest

/-- A value, or what stands between the brackets of an array or an object. -/
inductive Part where
  | value
  | items
  | members

/-- The texts of the grammar; of literals and numbers there are more here than in JSON. -/
inductive Text : Part → List Char → Prop where
  | scalar {word : List Char} (chars : ∀ char ∈ word, isScalarChar char = true) : Text .value word
  | string {content : List Char} (ends : endsString content = true) : Text .value ('"' :: content)
  | emptyArray {blank : List Char} (isBlank : Blank blank) : Text .value ('[' :: (blank ++ [']']))
  | array {items : List Char} (inner : Text .items items) : Text .value ('[' :: (items ++ [']']))
  | emptyObject {blank : List Char} (isBlank : Blank blank) : Text .value ('\x7b' :: (blank ++ ['}']))
  | object {members : List Char} (inner : Text .members members) : Text .value ('\x7b' :: (members ++ ['}']))
  | item {before value after : List Char} (blankBefore : Blank before) (isValue : Text .value value)
      (blankAfter : Blank after) : Text .items (before ++ (value ++ after))
  | items {first rest : List Char} (isFirst : Text .items first) (isRest : Text .items rest) :
      Text .items (first ++ ',' :: rest)
  | member {before name between spaced value after : List Char} (blankBefore : Blank before)
      (isName : endsString name = true) (blankBetween : Blank between) (blankSpaced : Blank spaced)
      (isValue : Text .value value) (blankAfter : Blank after) :
      Text .members (before ++ ('"' :: name ++ (between ++ ':' :: (spaced ++ (value ++ after)))))
  | members {first rest : List Char} (isFirst : Text .members first) (isRest : Text .members rest) :
      Text .members (first ++ ',' :: rest)

/-- The text of an object, with blanks around it. -/
def ObjectText (text : List Char) : Prop :=
  ∃ before body after, Blank before ∧ (Blank body ∨ Text .members body) ∧ Blank after ∧
    text = before ++ '\x7b' :: (body ++ '}' :: after)

/-! ## Scanning -/

inductive Mode where
  | outside
  | inside
  /-- In a string, after a backslash. -/
  | escaped
  deriving DecidableEq

structure Scan where
  mode : Mode
  /-- How many brackets are open. -/
  depth : Nat
  deriving DecidableEq

/-- One character; there is no backslash outside strings, and no bracket closes that is not open. -/
def step (state : Scan) (char : Char) : Option Scan :=
  match state.mode with
  | .outside =>
    if char = '"' then some ⟨.inside, state.depth⟩
    else if char = '\\' then none
    else if char = '\x7b' ∨ char = '[' then some ⟨.outside, state.depth + 1⟩
    else if char = '}' ∨ char = ']' then
      if state.depth = 0 then none else some ⟨.outside, state.depth - 1⟩
    else some state
  | .inside =>
    if char = '"' then some ⟨.outside, state.depth⟩
    else if char = '\\' then some ⟨.escaped, state.depth⟩
    else some state
  | .escaped => if escapes.contains char then some ⟨.inside, state.depth⟩ else none

def scan (state : Scan) : List Char → Option Scan
  | [] => some state
  | char :: rest => (step state char).bind fun next => scan next rest

theorem scan_append (state : Scan) (front back : List Char) :
    scan state (front ++ back) = (scan state front).bind fun next => scan next back := by
  induction front generalizing state with
  | nil => rfl
  | cons char rest inductionHypothesis =>
    rw [List.cons_append, scan, scan, Option.bind_assoc]
    simp only [inductionHypothesis]

/-- Brackets that are open before the text stay open. -/
theorem step_shift {mode : Mode} {depth : Nat} {char : Char} {next : Scan}
    (stepped : step ⟨mode, depth⟩ char = some next) (more : Nat) :
    step ⟨mode, depth + more⟩ char = some ⟨next.mode, next.depth + more⟩ := by
  obtain ⟨nextMode, nextDepth⟩ := next
  cases mode with
  | inside | escaped =>
    simp only [step] at stepped ⊢
    split_ifs at stepped ⊢ <;> simp_all
  | outside =>
    simp only [step] at stepped ⊢
    split_ifs at stepped ⊢ with _ _ _ _ none noMore <;> simp only [Option.some.injEq, Scan.mk.injEq] at stepped ⊢
    · exact ⟨stepped.1, by omega⟩
    · exact ⟨stepped.1, by omega⟩
    · omega
    · exact ⟨stepped.1, by omega⟩
    · exact ⟨stepped.1, by omega⟩

theorem scan_shift {text : List Char} {state final : Scan} (scanned : scan state text = some final) (more : Nat) :
    scan ⟨state.mode, state.depth + more⟩ text = some ⟨final.mode, final.depth + more⟩ := by
  induction text generalizing state with
  | nil =>
    cases scanned
    rfl
  | cons char rest inductionHypothesis =>
    obtain ⟨next, stepped, later⟩ := Option.bind_eq_some_iff.mp scanned
    rw [scan, step_shift stepped more]
    exact inductionHypothesis later

/-- A text that ends outside strings, with as many brackets open as at its start. -/
def Balanced (text : List Char) : Prop := scan ⟨.outside, 0⟩ text = some ⟨.outside, 0⟩

theorem Balanced.scan {text : List Char} (balanced : Balanced text) (depth : Nat) :
    scan ⟨.outside, depth⟩ text = some ⟨.outside, depth⟩ := by
  simpa using scan_shift balanced depth

theorem Balanced.append {front back : List Char} (isFront : Balanced front) (isBack : Balanced back) :
    Balanced (front ++ back) := by
  unfold Balanced
  rw [scan_append, isFront]
  exact isBack

theorem Balanced.cons {char : Char} {rest : List Char} (balanced : Balanced rest)
    (quiet : step ⟨.outside, 0⟩ char = some ⟨.outside, 0⟩) : Balanced (char :: rest) := by
  unfold Balanced
  rw [JsonGrammar.scan, quiet]
  exact balanced

theorem Balanced.bracket {body : List Char} (balanced : Balanced body) {opens closes : Char}
    (isOpening : step ⟨.outside, 0⟩ opens = some ⟨.outside, 1⟩)
    (isClosing : step ⟨.outside, 1⟩ closes = some ⟨.outside, 0⟩) : Balanced (opens :: (body ++ [closes])) := by
  unfold Balanced
  rw [JsonGrammar.scan, isOpening, Option.bind_some, scan_append, balanced.scan, Option.bind_some, JsonGrammar.scan,
    isClosing]
  rfl

/-- Neither quotes nor backslashes nor brackets. -/
theorem balanced_of_quiet {text : List Char}
    (quiet : ∀ char ∈ text, step ⟨.outside, 0⟩ char = some ⟨.outside, 0⟩) : Balanced text := by
  induction text with
  | nil => rfl
  | cons char rest inductionHypothesis =>
    exact (inductionHypothesis fun other member => quiet other (List.mem_cons_of_mem _ member)).cons
      (quiet char List.mem_cons_self)

theorem balanced_blank {text : List Char} (blank : Blank text) : Balanced text := by
  refine balanced_of_quiet fun char member => ?_
  have isBlank := blank char member
  simp only [JsonGrammar.isBlank, Bool.or_eq_true, beq_iff_eq] at isBlank
  rcases isBlank with ((rfl | rfl) | rfl) | rfl <;> decide

theorem balanced_scalar {word : List Char} (chars : ∀ char ∈ word, isScalarChar char = true) :
    Balanced word := by
  refine balanced_of_quiet fun char member => ?_
  have other : ∀ mark, isScalarChar mark = false → char ≠ mark := by
    intro mark notScalar same
    rw [← same, chars char member] at notScalar
    cases notScalar
  simp [step, other '"' rfl, other '\\' rfl, other '\x7b' rfl, other '[' rfl, other '}' rfl, other ']' rfl]

theorem scan_string {content : List Char} (ends : endsString content = true) (depth : Nat) :
    scan ⟨.inside, depth⟩ content = some ⟨.outside, depth⟩ := by
  fun_induction endsString content with
  | case1 => cases ends
  | case2 escaped rest inductionHypothesis =>
    rw [Bool.and_eq_true] at ends
    have allowed : escaped ∈ escapes := by simpa using ends.1
    simp [scan, step, allowed, inductionHypothesis ends.2]
  | case3 rest =>
    cases List.isEmpty_iff.mp ends
    rfl
  | case4 char rest _ notQuote inductionHypothesis =>
    rw [Bool.and_eq_true, bne_iff_ne] at ends
    have plain : char ≠ '"' := notQuote
    simp [scan, step, plain, ends.1, inductionHypothesis ends.2]

theorem balanced_string {content : List Char} (ends : endsString content = true) : Balanced ('"' :: content) :=
  scan_string ends 0

/-- Every part of a text is balanced. -/
theorem balanced_text {part : Part} {text : List Char} (isText : Text part text) : Balanced text := by
  induction isText with
  | scalar chars => exact balanced_scalar chars
  | string ends => exact balanced_string ends
  | emptyArray blank => exact (balanced_blank blank).bracket rfl rfl
  | array inner inductionHypothesis => exact inductionHypothesis.bracket rfl rfl
  | emptyObject blank => exact (balanced_blank blank).bracket rfl rfl
  | object inner inductionHypothesis => exact inductionHypothesis.bracket rfl rfl
  | item blankBefore isValue blankAfter value =>
    exact (balanced_blank blankBefore).append (value.append (balanced_blank blankAfter))
  | items isFirst isRest first rest => exact first.append (rest.cons rfl)
  | member blankBefore isName blankBetween blankSpaced isValue blankAfter value =>
    have pair := (balanced_blank blankSpaced).append (value.append (balanced_blank blankAfter))
    have colon : Balanced (':' :: _) := pair.cons rfl
    exact (balanced_blank blankBefore).append
      ((balanced_string isName).append ((balanced_blank blankBetween).append colon))
  | members isFirst isRest first rest => exact first.append (rest.cons rfl)

/-! ## Texts of objects -/

theorem ObjectText.balanced {text : List Char} (isObject : ObjectText text) : Balanced text := by
  obtain ⟨before, body, after, blankBefore, isBody, blankAfter, rfl⟩ := isObject
  have inner : Balanced body := isBody.elim balanced_blank balanced_text
  have braced : Balanced ('\x7b' :: (body ++ ['}'])) := inner.bracket rfl rfl
  have whole := (balanced_blank blankBefore).append (braced.append (balanced_blank blankAfter))
  simpa using whole

theorem ObjectText.brace_mem {text : List Char} (isObject : ObjectText text) : '\x7b' ∈ text := by
  obtain ⟨before, body, after, -, -, -, rfl⟩ := isObject
  simp

/-- The text of an object does not go on with an escape. -/
theorem ObjectText.scan_escaped {text : List Char} (isObject : ObjectText text) (depth : Nat) :
    scan ⟨.escaped, depth⟩ text = none := by
  obtain ⟨before, body, after, blankBefore, -, -, rfl⟩ := isObject
  cases before with
  | nil => simp [scan, step, escapes]
  | cons char before =>
    have isBlank := blankBefore char List.mem_cons_self
    simp only [JsonGrammar.isBlank, Bool.or_eq_true, beq_iff_eq] at isBlank
    rcases isBlank with ((rfl | rfl) | rfl) | rfl <;> simp [scan, step, escapes]

/-- Two readers of a text, one of whom is in a string and the other is not, never agree: a quote
    turns both over, and a backslash stops the one outside. -/
theorem modes_opposed {text : List Char} {depth otherDepth : Nat} {final otherFinal : Scan}
    (scanned : scan ⟨.outside, depth⟩ text = some final)
    (otherScanned : scan ⟨.inside, otherDepth⟩ text = some otherFinal) :
    (final.mode = .outside ∧ otherFinal.mode = .inside) ∨ (final.mode = .inside ∧ otherFinal.mode = .outside) := by
  induction text generalizing depth otherDepth final otherFinal with
  | nil =>
    cases scanned
    cases otherScanned
    exact .inl ⟨rfl, rfl⟩
  | cons char rest inductionHypothesis =>
    obtain ⟨next, stepped, later⟩ := Option.bind_eq_some_iff.mp scanned
    obtain ⟨otherNext, otherStepped, otherLater⟩ := Option.bind_eq_some_iff.mp otherScanned
    by_cases quote : char = '"'
    · subst quote
      cases stepped
      cases otherStepped
      -- they change places
      exact (inductionHypothesis otherLater later).symm.imp And.symm And.symm
    · by_cases backslash : char = '\\'
      · subst backslash
        cases stepped
      · have inside : otherNext = ⟨.inside, otherDepth⟩ := by simpa [step, quote, backslash] using otherStepped.symm
        have outside : next.mode = .outside := by
          simp only [step, quote, backslash, if_false] at stepped
          split_ifs at stepped <;> cases stepped <;> rfl
        subst inside
        obtain ⟨mode, nextDepth⟩ := next
        cases outside
        exact inductionHypothesis later otherLater

/-- No text of an object ends with the text of another. -/
theorem blank_of_suffix {front back : List Char} (whole : ObjectText (front ++ back)) (part : ObjectText back) :
    Blank front := by
  obtain ⟨before, body, after, blankBefore, isBody, blankAfter, split⟩ := whole
  have inner : Balanced body := isBody.elim balanced_blank balanced_text
  cases List.append_eq_append_iff.mp split with
  | inl short =>
    obtain ⟨between, rfl, -⟩ := short
    exact fun char member => blankBefore char (List.mem_append_left _ member)
  | inr long =>
    obtain ⟨start, rfl, rest⟩ := long
    cases start with
    | nil => simpa using blankBefore
    | cons char start =>
      rw [List.cons_append, List.cons.injEq] at rest
      exfalso
      cases List.append_eq_append_iff.mp rest.2 with
      | inl closed =>
        -- what follows the object is blank
        obtain ⟨between, -, isAfter⟩ := closed
        have braced : '\x7b' ∈ '}' :: after := by
          rw [isAfter]
          exact List.mem_append_right _ part.brace_mem
        have isBlank := blankAfter '\x7b' ((List.mem_cons.mp braced).resolve_left (by decide))
        cases isBlank
      | inr opened =>
        -- the part begins where the object is open
        obtain ⟨rest, isBody, isBack⟩ := opened
        have isInner : scan ⟨.outside, 0⟩ (start ++ rest) = some ⟨.outside, 0⟩ := isBody ▸ inner
        rw [scan_append] at isInner
        obtain ⟨state, -, isRest⟩ := Option.bind_eq_some_iff.mp isInner
        have closes : scan ⟨state.mode, state.depth + 1⟩ back = some ⟨.outside, 0⟩ := by
          rw [isBack, scan_append, scan_shift isRest 1]
          exact balanced_blank blankAfter
        obtain ⟨mode, depth⟩ := state
        cases mode with
        | outside => cases closes.symm.trans (part.balanced.scan (depth + 1))
        | inside =>
          cases modes_opposed part.balanced closes with
          | inl opposed => cases opposed.2
          | inr opposed => cases opposed.1
        | escaped => cases closes.symm.trans (part.scan_escaped (depth + 1))

end Data.JsonGrammar
