import Mathlib

/-!
# Runs in a list

A run is a longest stretch of neighbours that all have a property.  An
observer that sees the elements one by one knows where the run that is still
going on started, and so which is the first run of a given length.
-/

namespace KmmYocto.Runs

universe u

variable
    {α : Type u}
    {p : α → Prop}
    {xs : List α}

/-- The elements from `i` up to `j` are a run: all have the property, and the
elements next to them do not. -/
structure MaximalRun (p : α → Prop) (xs : List α) (i j : Nat) : Prop where
  nonempty : i < j
  inside : j ≤ xs.length
  holds : ∀ k, i ≤ k → k < j → ∀ x ∈ xs[k]?, p x
  before : 0 < i → ∀ x ∈ xs[i - 1]?, ¬ p x
  after : ∀ x ∈ xs[j]?, ¬ p x

/-- A run of at least `n` elements starts at `i`. -/
def StartsRun (p : α → Prop) (n : Nat) (xs : List α) (i : Nat) : Prop :=
  ∃ j, MaximalRun p xs i j ∧ i + n ≤ j

/-- The run at the end of the list starts at `start`; it may be empty. -/
structure Trailing (p : α → Prop) (xs : List α) (start : Nat) : Prop where
  inside : start ≤ xs.length
  holds : ∀ k, start ≤ k → ∀ x ∈ xs[k]?, p x
  before : 0 < start → ∀ x ∈ xs[start - 1]?, ¬ p x

/-- A stretch with the property goes on up to an element without it. -/
theorem exists_maximal {i j : Nat} (inside : j ≤ xs.length)
    (holds : ∀ k, i ≤ k → k < j → ∀ x ∈ xs[k]?, p x) :
    ∃ last, j ≤ last ∧ last ≤ xs.length ∧
      (∀ k, i ≤ k → k < last → ∀ x ∈ xs[k]?, p x) ∧
        ∀ x ∈ xs[last]?, ¬ p x := by
  obtain ⟨left, rest⟩ : ∃ left, j + left = xs.length :=
    ⟨xs.length - j, by omega⟩
  induction left generalizing j with
  | zero =>
      refine ⟨j, le_rfl, inside, holds, ?_⟩
      intro x member
      rw [List.getElem?_eq_none (by omega)] at member
      exact absurd member (by simp)
  | succ left induction =>
      by_cases goesOn : ∀ x ∈ xs[j]?, p x
      · obtain ⟨last, later, found⟩ :=
          @induction (j + 1) (by omega) (by
            intro k from_ upTo
            rcases Nat.lt_succ_iff_lt_or_eq.mp upTo with earlier | rfl
            · exact holds k from_ earlier
            · exact goesOn) (by omega)
        exact ⟨last, by omega, found⟩
      · refine ⟨j, le_rfl, inside, holds, ?_⟩
        intro x member stays
        refine goesOn fun other found => ?_
        rwa [Option.mem_unique found member]

/-- It takes the first `n` elements to know that a run is that long. -/
theorem startsRun_iff {n i : Nat} (positive : 0 < n) :
    StartsRun p n xs i ↔
      i + n ≤ xs.length ∧
        (∀ k, i ≤ k → k < i + n → ∀ x ∈ xs[k]?, p x) ∧
          (0 < i → ∀ x ∈ xs[i - 1]?, ¬ p x) := by
  constructor
  · rintro ⟨j, run, long⟩
    exact
      ⟨long.trans run.inside,
        fun k from_ upTo => run.holds k from_ (by omega), run.before⟩
  · rintro ⟨inside, holds, before⟩
    obtain ⟨j, long, within, all, after⟩ := exists_maximal inside holds
    exact ⟨j, ⟨by omega, within, all, before, after⟩, long⟩

namespace Trailing

variable {start : Nat} {x : α}

theorem nil : Trailing p [] 0 :=
  ⟨le_rfl, by simp, by simp⟩

/-- One more element with the property. -/
theorem concat (trailing : Trailing p xs start) (holds : p x) :
    Trailing p (xs ++ [x]) start := by
  refine ⟨?_, ?_, ?_⟩
  · rw [List.length_append]
    exact trailing.inside.trans (Nat.le_add_right _ _)
  · intro k from_ y member
    rcases lt_trichotomy k xs.length with earlier | rfl | later
    · rw [List.getElem?_append_left earlier] at member
      exact trailing.holds k from_ y member
    · obtain rfl : x = y := by simpa using member
      exact holds
    · rw [List.getElem?_eq_none (by simp; omega)] at member
      exact absurd member (by simp)
  · intro positive
    have := trailing.inside
    rw [List.getElem?_append_left (by omega)]
    exact trailing.before positive

/-- An element without the property. -/
theorem concat_not (fails : ¬ p x) :
    Trailing p (xs ++ [x]) (xs.length + 1) := by
  refine ⟨by simp, ?_, ?_⟩
  · intro k from_ y member
    rw [List.getElem?_eq_none (by simpa using from_)] at member
    exact absurd member (by simp)
  · intro _ y member
    obtain rfl : x = y := by simpa using member
    exact fails

theorem exists_trailing (p : α → Prop) (xs : List α) :
    ∃ start, Trailing p xs start := by
  induction xs using List.reverseRecOn with
  | nil => exact ⟨0, nil⟩
  | append_singleton xs x induction =>
      obtain ⟨start, trailing⟩ := induction
      by_cases holds : p x
      · exact ⟨start, trailing.concat holds⟩
      · exact ⟨_, concat_not holds⟩

theorem startsRun (trailing : Trailing p xs start) {n : Nat}
    (positive : 0 < n) (long : start + n ≤ xs.length) :
    StartsRun p n xs start :=
  (startsRun_iff positive).mpr
    ⟨long, fun k from_ _ => trailing.holds k from_, trailing.before⟩

/-- With one more element, only the run at the end can become long enough. -/
theorem startsRun_concat (trailing : Trailing p xs start) {n i : Nat}
    (positive : 0 < n) :
    StartsRun p n (xs ++ [x]) i ↔
      StartsRun p n xs i ∨
        (i = start ∧ p x ∧ start + n = xs.length + 1) := by
  have early : ∀ k < xs.length, (xs ++ [x])[k]? = xs[k]? :=
    fun k within => List.getElem?_append_left within
  rw [startsRun_iff positive, startsRun_iff positive, List.length_append,
    List.length_singleton]
  constructor
  · rintro ⟨inside, holds, before⟩
    by_cases within : i + n ≤ xs.length
    · refine .inl ⟨within, ?_, ?_⟩
      · intro k from_ upTo
        rw [← early k (by omega)]
        exact holds k from_ upTo
      · intro later
        rw [← early (i - 1) (by omega)]
        exact before later
    · -- the stretch reaches the new element, so it is the run at the end
      have new : p x :=
        holds xs.length (by omega) (by omega) x (by simp)
      have starts : i = start := by
        have bound := trailing.inside
        rcases lt_trichotomy i start with earlier | same | later
        · have last := List.getElem?_eq_getElem (l := xs) (i := start - 1) (by omega)
          refine absurd (holds (start - 1) (by omega) (by omega) _ ?_)
            (trailing.before (by omega) _ last)
          rw [early _ (by omega)]
          exact last
        · exact same
        · have last := List.getElem?_eq_getElem (l := xs) (i := i - 1) (by omega)
          refine absurd (trailing.holds (i - 1) (by omega) _ last)
            (before (by omega) _ ?_)
          rw [early _ (by omega)]
          exact last
      exact .inr ⟨starts, new, by omega⟩
  · rintro (⟨inside, holds, before⟩ | ⟨rfl, holds, long⟩)
    · refine ⟨by omega, ?_, ?_⟩
      · intro k from_ upTo
        rw [early k (by omega)]
        exact holds k from_ upTo
      · intro later
        rw [early (i - 1) (by omega)]
        exact before later
    · have grown := trailing.concat holds
      exact ⟨by omega, fun k from_ _ => grown.holds k from_, grown.before⟩

end Trailing

/-! ## The first run that is long enough -/

variable {n : Nat} {x : α}

/-- It stays the first one, whatever comes. -/
theorem isLeast_concat {i : Nat} (positive : 0 < n)
    (least : IsLeast {each | StartsRun p n xs each} i) :
    IsLeast {each | StartsRun p n (xs ++ [x]) each} i := by
  obtain ⟨start, trailing⟩ := Trailing.exists_trailing p xs
  have inside := ((startsRun_iff positive).mp least.1).1
  refine ⟨(trailing.startsRun_concat positive).mpr (.inl least.1), ?_⟩
  intro other starts
  rcases (trailing.startsRun_concat positive).mp starts with
    earlier | ⟨rfl, -, long⟩
  · exact least.2 earlier
  · omega

/-- Where there was none, the run at the end becomes the first one. -/
theorem startsRun_concat_of_none {start i : Nat} (positive : 0 < n)
    (trailing : Trailing p xs start) (none : ∀ each, ¬ StartsRun p n xs each) :
    StartsRun p n (xs ++ [x]) i ↔
      i = start ∧ p x ∧ start + n ≤ xs.length + 1 := by
  rw [trailing.startsRun_concat positive, or_iff_right (none i)]
  have short : ¬ start + n ≤ xs.length :=
    fun long => none start (trailing.startsRun positive long)
  constructor
  · rintro ⟨same, holds, long⟩
    exact ⟨same, holds, long.le⟩
  · rintro ⟨same, holds, long⟩
    exact ⟨same, holds, by omega⟩

end KmmYocto.Runs
