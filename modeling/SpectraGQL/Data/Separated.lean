import Mathlib.Data.List.Basic
import Mathlib.Algebra.Ring.Nat

/-! # Lists split at a separator

What the pieces of `List.splitOn` are like, and what `List.intercalate` makes of pieces.
-/

namespace Data

variable {α : Type} {separator item : α} {pieces : List (List α)}

/-! ## Pieces -/

section Pieces

variable [BEq α] [LawfulBEq α]

theorem splitOn_cons_self (text : List α) :
    (separator :: text).splitOn separator = [] :: text.splitOn separator := by
  rw [List.splitOn_cons_eq_if_modifyHead, if_pos (beq_self_eq_true separator)]

/-- An item that is no separator is the first of the first piece. -/
theorem exists_splitOn_cons (different : item ≠ separator) (text : List α) :
    ∃ first others, text.splitOn separator = first :: others ∧
      (item :: text).splitOn separator = (item :: first) :: others := by
  cases split : text.splitOn separator with
  | nil => exact absurd split (List.splitOn_ne_nil _ _)
  | cons first others =>
    refine ⟨first, others, rfl, ?_⟩
    rw [List.splitOn_cons_eq_if_modifyHead, if_neg (by simpa using different), split]
    rfl

theorem not_mem_of_mem_splitOn (text : List α) :
    ∀ piece ∈ text.splitOn separator, separator ∉ piece := by
  induction text with
  | nil => simp
  | cons item text inductionHypothesis =>
    intro piece member
    by_cases same : item = separator
    · subst same
      rw [splitOn_cons_self, List.mem_cons] at member
      cases member with
      | inl isFirst => simp [isFirst]
      | inr later => exact inductionHypothesis piece later
    · obtain ⟨first, others, split, whole⟩ := exists_splitOn_cons same text
      rw [split] at inductionHypothesis
      rw [whole, List.mem_cons] at member
      cases member with
      | inl isFirst =>
        have fresh := inductionHypothesis first List.mem_cons_self
        simp [isFirst, Ne.symm same, fresh]
      | inr later => exact inductionHypothesis piece (List.mem_cons_of_mem _ later)

theorem mem_of_mem_splitOn (text : List α) :
    ∀ piece ∈ text.splitOn separator, ∀ item ∈ piece, item ∈ text := by
  induction text with
  | nil => simp
  | cons item text inductionHypothesis =>
    intro piece member other isItem
    by_cases same : item = separator
    · subst same
      rw [splitOn_cons_self, List.mem_cons] at member
      cases member with
      | inl isFirst => simp [isFirst] at isItem
      | inr later => exact List.mem_cons_of_mem _ (inductionHypothesis piece later other isItem)
    · obtain ⟨first, others, split, whole⟩ := exists_splitOn_cons same text
      rw [split] at inductionHypothesis
      rw [whole, List.mem_cons] at member
      cases member with
      | inl isFirst =>
        subst isFirst
        exact (List.mem_cons.mp isItem).elim (fun isHead => by simp [isHead]) fun inFirst =>
          List.mem_cons_of_mem _ (inductionHypothesis first List.mem_cons_self other inFirst)
      | inr later =>
        exact List.mem_cons_of_mem _
          (inductionHypothesis piece (List.mem_cons_of_mem _ later) other isItem)

/-- And the last item is the last of the last piece. -/
theorem exists_splitOn_concat (different : item ≠ separator) (text : List α) :
    ∃ others last, (text ++ [item]).splitOn separator = others ++ [last ++ [item]] := by
  induction text with
  | nil =>
    obtain ⟨first, others, split, whole⟩ := exists_splitOn_cons different []
    rw [List.splitOn_nil, List.cons.injEq] at split
    obtain ⟨rfl, rfl⟩ := split
    exact ⟨[], [], whole⟩
  | cons head text inductionHypothesis =>
    obtain ⟨others, last, split⟩ := inductionHypothesis
    rw [List.cons_append]
    by_cases same : head = separator
    · subst same
      exact ⟨[] :: others, last, by rw [splitOn_cons_self, split, List.cons_append]⟩
    · obtain ⟨first, rest, isSplit, whole⟩ := exists_splitOn_cons same (text ++ [item])
      rw [split] at isSplit
      cases others with
      | nil =>
        obtain ⟨rfl, rfl⟩ := List.cons.inj isSplit
        exact ⟨[], head :: last, whole⟩
      | cons next others =>
        obtain ⟨rfl, rfl⟩ := List.cons.inj isSplit
        exact ⟨(head :: next) :: others, last, whole⟩

end Pieces

/-! ## Put together -/

theorem mem_intercalate (member : item ∈ [separator].intercalate pieces) :
    item = separator ∨ ∃ piece ∈ pieces, item ∈ piece := by
  induction pieces with
  | nil => simp at member
  | cons first others inductionHypothesis =>
    cases others with
    | nil =>
      rw [List.intercalate_singleton] at member
      exact .inr ⟨first, List.mem_singleton_self _, member⟩
    | cons second others =>
      rw [List.intercalate_cons_cons, List.append_assoc, List.mem_append, List.mem_append,
        List.mem_singleton] at member
      obtain inFirst | isSeparator | later := member
      · exact .inr ⟨first, List.mem_cons_self, inFirst⟩
      · exact .inl isSeparator
      · exact (inductionHypothesis later).imp id fun ⟨piece, isPiece, inPiece⟩ =>
          ⟨piece, List.mem_cons_of_mem _ isPiece, inPiece⟩

theorem head?_intercalate (first : List α) (others : List (List α)) (notEmpty : first ≠ []) :
    ([separator].intercalate (first :: others)).head? = first.head? := by
  cases others with
  | nil => rw [List.intercalate_singleton]
  | cons second others =>
    rw [List.intercalate_cons_cons, List.append_assoc, List.head?_append_of_ne_nil _ notEmpty]

theorem getLast?_intercalate (others : List (List α)) (last : List α) (notEmpty : last ≠ []) :
    ([separator].intercalate (others ++ [last])).getLast? = last.getLast? := by
  induction others with
  | nil => rw [List.nil_append, List.intercalate_singleton]
  | cons first others inductionHypothesis =>
    rw [List.cons_append, List.intercalate_cons_of_ne_nil (by simp), List.getLast?_append,
      inductionHypothesis, List.getLast?_eq_getLast_of_ne_nil notEmpty]
    rfl

/-- As long as the pieces, with a separator behind each but the last. -/
theorem length_intercalate (separator : α) (pieces : List (List α)) :
    ([separator].intercalate pieces).length = (pieces.map List.length).sum + (pieces.length - 1) := by
  induction pieces with
  | nil => rfl
  | cons first others inductionHypothesis =>
    cases others with
    | nil => simp
    | cons second others =>
      rw [List.intercalate_cons_cons, List.length_append, List.length_append, inductionHypothesis]
      simp only [List.length_cons, List.map_cons, List.sum_cons, List.length_nil]
      omega

end Data
