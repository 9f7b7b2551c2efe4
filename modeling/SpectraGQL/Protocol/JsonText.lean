import SpectraGQL.Protocol.Json

/-! # The text of a JSON value

A text is that of one value at most (`toString_inj`), as long as the numbers in it look like
numbers.
-/

namespace SpectraGQL.Protocol.Json

open SpectraGQL.Idempotency

/-! ## Values that are printed without ambiguity -/

def isNumberChar (char : Char) : Bool :=
  char.isDigit || char == '-' || char == '+' || char == '.' || char == 'e' || char == 'E'

structure IsNumber (text : String) : Prop where
  nonempty : text.toList ≠ []
  chars : ∀ char ∈ text.toList, isNumberChar char = true

mutual

def Printable : Json → Prop
  | .null => True
  | .bool _ => True
  | .number text => IsNumber text
  | .string _ => True
  | .array items => PrintableItems items
  | .object members => PrintableMembers members

def PrintableItems : List Json → Prop
  | [] => True
  | item :: items => Printable item ∧ PrintableItems items

def PrintableMembers : List (String × Json) → Prop
  | [] => True
  | (_, value) :: members => Printable value ∧ PrintableMembers members

end

theorem isNumber_toDigits (number : Nat) : IsNumber (String.ofList (Nat.toDigits 10 number)) where
  nonempty := by
    rw [String.toList_ofList]
    exact Nat.toDigits_ne_nil
  chars := by
    intro char member
    rw [String.toList_ofList] at member
    have isDigit : char.isDigit = true := Nat.isDigit_of_mem_toDigits (by decide) (by decide) member
    simp [isNumberChar, isDigit]

/-! ## What a text begins with -/

/-- What is left of a text after a value does not go on with a number. -/
def Stops (rest : List Char) : Prop := ∀ char ∈ rest.head?, isNumberChar char = false

theorem stops_nil : Stops [] := by
  intro char member
  cases member

theorem stops_cons {char : Char} {rest : List Char} (stop : isNumberChar char = false) :
    Stops (char :: rest) := by
  intro other member
  cases member
  exact stop

/-- The first character of the text of a value, unless that is a number. -/
def opening : Json → Option Char
  | .null => some 'n'
  | .bool true => some 't'
  | .bool false => some 'f'
  | .number _ => none
  | .string _ => some '"'
  | .array _ => some '['
  | .object _ => some '\x7b'

def openingOf (char : Char) : Option Char := if isNumberChar char then none else some char

theorem openingOf_head_write {value : Json} (printable : value.Printable) :
    ∃ char rest, value.write = char :: rest ∧ openingOf char = value.opening := by
  cases value with
  | null => exact ⟨'n', _, rfl, by decide⟩
  | bool value =>
    cases value with
    | true => exact ⟨'t', _, rfl, by decide⟩
    | false => exact ⟨'f', _, rfl, by decide⟩
  | number text =>
    have isNumber : IsNumber text := printable
    obtain ⟨char, rest, split⟩ := List.exists_cons_of_ne_nil isNumber.nonempty
    refine ⟨char, rest, split, ?_⟩
    have isNumberChar := isNumber.chars char (by simp [split])
    simp [openingOf, opening, isNumberChar]
  | string text => exact ⟨'"', _, rfl, rfl⟩
  | array items =>
    cases items with
    | nil => exact ⟨'[', _, rfl, rfl⟩
    | cons item items => exact ⟨'[', _, rfl, rfl⟩
  | object members =>
    cases members with
    | nil => exact ⟨'\x7b', _, rfl, rfl⟩
    | cons member members =>
      obtain ⟨name, value⟩ := member
      exact ⟨'\x7b', _, rfl, rfl⟩

/-- The first character of a text says which kind of value it is the text of. -/
theorem opening_eq_of_write {left right : Json} {rest other : List Char}
    (leftPrintable : left.Printable) (rightPrintable : right.Printable)
    (same : left.write ++ rest = right.write ++ other) : left.opening = right.opening := by
  obtain ⟨char, more, isText, isOpening⟩ := openingOf_head_write leftPrintable
  obtain ⟨otherChar, otherMore, otherText, otherOpening⟩ := openingOf_head_write rightPrintable
  rw [isText, otherText, List.cons_append, List.cons_append, List.cons.injEq] at same
  rw [← isOpening, ← otherOpening, same.1]

/-- No value begins as an array ends. -/
theorem write_ne_closing {value : Json} (printable : value.Printable) (rest other : List Char) :
    value.write ++ rest ≠ ']' :: other := by
  intro same
  obtain ⟨char, more, isText, isOpening⟩ := openingOf_head_write printable
  rw [isText, List.cons_append, List.cons.injEq] at same
  rw [same.1] at isOpening
  cases value with
  | bool value => cases value <;> cases isOpening
  | null | number _ | string _ | array _ | object _ => cases isOpening

/-! ## Parts of a text -/

theorem writeString_inj {left right : String} {rest other : List Char}
    (same : writeString left ++ rest = writeString right ++ other) : left = right ∧ rest = other := by
  unfold writeString at same
  rw [List.cons_append, List.cons_append, List.cons.injEq] at same
  have read := congrArg RecordJson.readChars same.2
  rw [RecordJson.readChars_writeChars, RecordJson.readChars_writeChars, Option.some.injEq,
    Prod.mk.injEq] at read
  exact ⟨String.toList_inj.mp read.1, read.2⟩

theorem takeWhile_number {text : String} (isNumber : IsNumber text) {rest : List Char}
    (stops : Stops rest) : (text.toList ++ rest).takeWhile isNumberChar = text.toList := by
  rw [List.takeWhile_append_of_pos isNumber.chars]
  cases rest with
  | nil => simp
  | cons char rest => simp [stops char rfl]

theorem number_inj {left right : String} {rest other : List Char} (leftNumber : IsNumber left)
    (rightNumber : IsNumber right) (leftStops : Stops rest) (rightStops : Stops other)
    (same : left.toList ++ rest = right.toList ++ other) : left = right ∧ rest = other := by
  have texts := congrArg (List.takeWhile isNumberChar) same
  rw [takeWhile_number leftNumber leftStops, takeWhile_number rightNumber rightStops] at texts
  rw [texts] at same
  exact ⟨String.toList_inj.mp texts, List.append_cancel_left same⟩

theorem stops_writeItems (items : List Json) (rest : List Char) : Stops (writeItems items ++ rest) := by
  cases items with
  | nil => exact stops_cons (by decide)
  | cons item items => exact stops_cons (by decide)

theorem stops_writeMembers (members : List (String × Json)) (rest : List Char) :
    Stops (writeMembers members ++ rest) := by
  cases members with
  | nil => exact stops_cons (by decide)
  | cons member members =>
    obtain ⟨name, value⟩ := member
    exact stops_cons (by decide)

/-! ## Reading a text back -/

mutual

theorem write_inj : ∀ {left right : Json} {rest other : List Char}, left.Printable → right.Printable →
    Stops rest → Stops other → left.write ++ rest = right.write ++ other → left = right ∧ rest = other
  | .null, right, rest, other, printable, isPrintable, _, _, same => by
    have opening := opening_eq_of_write printable isPrintable same
    cases right with
    | null => exact ⟨rfl, List.append_cancel_left same⟩
    | bool value => cases value <;> cases opening
    | number _ | string _ | array _ | object _ => cases opening
  | .bool value, right, rest, other, printable, isPrintable, _, _, same => by
    have opening := opening_eq_of_write printable isPrintable same
    cases right with
    | bool found =>
      cases value <;> cases found
      · exact ⟨rfl, List.append_cancel_left same⟩
      · cases opening
      · cases opening
      · exact ⟨rfl, List.append_cancel_left same⟩
    | null | number _ | string _ | array _ | object _ => cases value <;> cases opening
  | .number text, right, rest, other, isNumber, isPrintable, stops, otherStops, same => by
    have opening := opening_eq_of_write isNumber isPrintable same
    cases right with
    | number found =>
      obtain ⟨texts, rests⟩ := number_inj isNumber isPrintable stops otherStops same
      exact ⟨congrArg Json.number texts, rests⟩
    | bool value => cases value <;> cases opening
    | null | string _ | array _ | object _ => cases opening
  | .string text, right, rest, other, printable, isPrintable, _, _, same => by
    have opening := opening_eq_of_write printable isPrintable same
    cases right with
    | string found =>
      obtain ⟨texts, rests⟩ := writeString_inj same
      exact ⟨congrArg Json.string texts, rests⟩
    | bool value => cases value <;> cases opening
    | null | number _ | array _ | object _ => cases opening
  | .array items, right, rest, other, printable, isPrintable, _, _, same => by
    have opening := opening_eq_of_write printable isPrintable same
    cases right with
    | array found =>
      obtain ⟨equal, rests⟩ := array_inj printable isPrintable same
      exact ⟨congrArg Json.array equal, rests⟩
    | bool value => cases value <;> cases opening
    | null | number _ | string _ | object _ => cases opening
  | .object members, right, rest, other, printable, isPrintable, _, _, same => by
    have opening := opening_eq_of_write printable isPrintable same
    cases right with
    | object found =>
      obtain ⟨equal, rests⟩ := object_inj printable isPrintable same
      exact ⟨congrArg Json.object equal, rests⟩
    | bool value => cases value <;> cases opening
    | null | number _ | string _ | array _ => cases opening

theorem array_inj : ∀ {left right : List Json} {rest other : List Char}, PrintableItems left →
    PrintableItems right → write (.array left) ++ rest = write (.array right) ++ other →
      left = right ∧ rest = other
  | [], [], _, _, _, _, same => ⟨rfl, List.append_cancel_left same⟩
  | [], item :: items, rest, other, _, isPrintable, same => by
    change '[' :: ']' :: rest = '[' :: (write item ++ writeItems items ++ other) at same
    rw [List.cons.injEq, List.append_assoc] at same
    exact absurd same.2.symm (write_ne_closing isPrintable.1 _ _)
  | item :: items, [], rest, other, printable, _, same => by
    change '[' :: (write item ++ writeItems items ++ rest) = '[' :: ']' :: other at same
    rw [List.cons.injEq, List.append_assoc] at same
    exact absurd same.2 (write_ne_closing printable.1 _ _)
  | item :: items, found :: more, rest, other, printable, isPrintable, same => by
    simp only [write, List.cons_append, List.append_assoc, List.cons.injEq, true_and] at same
    obtain ⟨rfl, later⟩ := write_inj printable.1 isPrintable.1 (stops_writeItems items rest)
      (stops_writeItems more other) same
    obtain ⟨rfl, rests⟩ := items_inj printable.2 isPrintable.2 later
    exact ⟨rfl, rests⟩

theorem items_inj : ∀ {left right : List Json} {rest other : List Char}, PrintableItems left →
    PrintableItems right → writeItems left ++ rest = writeItems right ++ other →
      left = right ∧ rest = other
  | [], [], _, _, _, _, same => ⟨rfl, List.append_cancel_left same⟩
  | [], item :: items, rest, other, _, _, same => by simp [writeItems] at same
  | item :: items, [], rest, other, _, _, same => by simp [writeItems] at same
  | item :: items, found :: more, rest, other, printable, isPrintable, same => by
    simp only [writeItems, List.cons_append, List.append_assoc, List.cons.injEq, true_and] at same
    obtain ⟨rfl, later⟩ := write_inj printable.1 isPrintable.1 (stops_writeItems items rest)
      (stops_writeItems more other) same
    obtain ⟨rfl, rests⟩ := items_inj printable.2 isPrintable.2 later
    exact ⟨rfl, rests⟩

theorem object_inj : ∀ {left right : List (String × Json)} {rest other : List Char},
    PrintableMembers left → PrintableMembers right →
    write (.object left) ++ rest = write (.object right) ++ other → left = right ∧ rest = other
  | [], [], _, _, _, _, same => ⟨rfl, List.append_cancel_left same⟩
  | [], (name, value) :: members, rest, other, _, _, same => by simp [write, writeString] at same
  | (name, value) :: members, [], rest, other, _, _, same => by simp [write, writeString] at same
  | (name, value) :: members, (found, kept) :: more, rest, other, printable, isPrintable, same => by
    simp only [write, List.cons_append, List.append_assoc, List.cons.injEq, true_and] at same
    obtain ⟨rfl, valued⟩ := writeString_inj same
    rw [List.cons.injEq] at valued
    obtain ⟨rfl, later⟩ := write_inj printable.1 isPrintable.1 (stops_writeMembers members rest)
      (stops_writeMembers more other) valued.2
    obtain ⟨rfl, rests⟩ := members_inj printable.2 isPrintable.2 later
    exact ⟨rfl, rests⟩

theorem members_inj : ∀ {left right : List (String × Json)} {rest other : List Char},
    PrintableMembers left → PrintableMembers right →
    writeMembers left ++ rest = writeMembers right ++ other → left = right ∧ rest = other
  | [], [], _, _, _, _, same => ⟨rfl, List.append_cancel_left same⟩
  | [], (name, value) :: members, rest, other, _, _, same => by simp [writeMembers] at same
  | (name, value) :: members, [], rest, other, _, _, same => by simp [writeMembers] at same
  | (name, value) :: members, (found, kept) :: more, rest, other, printable, isPrintable, same => by
    simp only [writeMembers, List.cons_append, List.append_assoc, List.cons.injEq, true_and] at same
    obtain ⟨rfl, valued⟩ := writeString_inj same
    rw [List.cons.injEq] at valued
    obtain ⟨rfl, later⟩ := write_inj printable.1 isPrintable.1 (stops_writeMembers members rest)
      (stops_writeMembers more other) valued.2
    obtain ⟨rfl, rests⟩ := members_inj printable.2 isPrintable.2 later
    exact ⟨rfl, rests⟩

end

/-- Values that are printed alike are the same. -/
theorem toString_inj {left right : Json} (leftPrintable : left.Printable)
    (rightPrintable : right.Printable) (same : left.toString = right.toString) : left = right := by
  have texts : left.write ++ [] = right.write ++ [] := by
    rw [List.append_nil, List.append_nil]
    exact String.ofList_inj.mp same
  exact (write_inj leftPrintable rightPrintable stops_nil stops_nil texts).1

end SpectraGQL.Protocol.Json
