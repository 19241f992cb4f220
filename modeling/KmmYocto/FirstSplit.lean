import Mathlib

/-!
# Splitting at the first separator

What stands up to the first separator, and what stands past it.  A list with a
separator is the two with the separator between them, and no other split with
a front without a separator gives the list.
-/

namespace KmmYocto.FirstSplit

universe u

variable
    {α : Type u} [DecidableEq α] {sep : α} {text front back : List α}

/-- The part before the first separator, or all of it. -/
def upTo (sep : α) (text : List α) : List α :=
  text.takeWhile (· ≠ sep)

/-- The part behind the first separator, or nothing. -/
def past (sep : α) (text : List α) : List α :=
  (text.dropWhile (· ≠ sep)).drop 1

@[simp]
theorem upTo_cons_self : upTo sep (sep :: text) = [] := by
  simp [upTo]

@[simp]
theorem past_cons_self : past sep (sep :: text) = text := by
  simp [past]

theorem upTo_cons_of_ne {first : α} (other : first ≠ sep) :
    upTo sep (first :: text) = first :: upTo sep text := by
  simp [upTo, other]

theorem past_cons_of_ne {first : α} (other : first ≠ sep) :
    past sep (first :: text) = past sep text := by
  simp [past, other]

theorem sep_notMem_upTo : sep ∉ upTo sep text := by
  induction text with
  | nil => exact List.not_mem_nil
  | cons first rest induction =>
      by_cases same : first = sep
      · subst same
        rw [upTo_cons_self]
        exact List.not_mem_nil
      · rw [upTo_cons_of_ne same, List.mem_cons, not_or]
        exact ⟨Ne.symm same, induction⟩

/-- A list with a separator is its two parts. -/
theorem upTo_append_past (holds : sep ∈ text) :
    upTo sep text ++ sep :: past sep text = text := by
  induction text with
  | nil => cases holds
  | cons first rest induction =>
      by_cases same : first = sep
      · subst same
        rw [upTo_cons_self, past_cons_self, List.nil_append]
      · have later : sep ∈ rest := by
          rcases List.mem_cons.mp holds with equal | later
          · exact absurd equal.symm same
          · exact later
        rw [upTo_cons_of_ne same, past_cons_of_ne same, List.cons_append,
          induction later]

theorem upTo_append (plain : sep ∉ front) :
    upTo sep (front ++ sep :: back) = front := by
  induction front with
  | nil => exact upTo_cons_self
  | cons first rest induction =>
      rw [List.mem_cons, not_or] at plain
      rw [List.cons_append, upTo_cons_of_ne (Ne.symm plain.1),
        induction plain.2]

theorem past_append (plain : sep ∉ front) :
    past sep (front ++ sep :: back) = back := by
  induction front with
  | nil => exact past_cons_self
  | cons first rest induction =>
      rw [List.mem_cons, not_or] at plain
      rw [List.cons_append, past_cons_of_ne (Ne.symm plain.1),
        induction plain.2]

end KmmYocto.FirstSplit
