import Mathlib

/-!
# A dictionary in which the last assignment wins

Keys are listed in the order of their first assignment, and each has the value
of its last one.  A dictionary is determined by its entries: assigning them
again, in their order, gives it back.
-/

namespace KmmYocto

universe u v

/-- An ordered dictionary: its keys, and the value of each. -/
@[ext]
structure LastWins (κ : Type u) (ν : Type v) where
  order : List κ
  val : κ → Option ν
  nodup : order.Nodup
  known : ∀ key, key ∈ order ↔ (val key).isSome

namespace LastWins

variable {κ : Type u} {ν : Type v}

/-- The dictionary without keys. -/
def empty : LastWins κ ν where
  order := []
  val _ := none
  nodup := List.nodup_nil
  known _ := by simp

/-- The keys with their values. -/
def entries (dict : LastWins κ ν) : List (κ × ν) :=
  dict.order.filterMap fun key => (dict.val key).map (key, ·)

theorem mem_entries {dict : LastWins κ ν} {key : κ} {value : ν} :
    (key, value) ∈ dict.entries ↔ dict.val key = some value := by
  rw [entries, List.mem_filterMap]
  constructor
  · rintro ⟨other, -, found⟩
    obtain ⟨held, stored, equal⟩ := Option.map_eq_some_iff.mp found
    cases equal
    exact stored
  · intro stored
    refine ⟨key, (dict.known key).mpr ?_, ?_⟩
    · rw [stored]
      rfl
    · rw [stored]
      rfl

theorem map_fst_entries (dict : LastWins κ ν) :
    dict.entries.map Prod.fst = dict.order := by
  have all : ∀ key ∈ dict.order, (dict.val key).isSome := fun key member =>
    (dict.known key).mp member
  rw [entries]
  generalize dict.order = order at all ⊢
  induction order with
  | nil => rfl
  | cons key rest induction =>
      rw [List.forall_mem_cons] at all
      obtain ⟨value, stored⟩ := Option.isSome_iff_exists.mp all.1
      have head : (dict.val key).map (key, ·) = some (key, value) := by
        rw [stored]
        rfl
      simp only [List.filterMap_cons, head, List.map_cons, induction all.2]

section Assign

variable [DecidableEq κ]

/-- Assign a value to a key. -/
def assign (dict : LastWins κ ν) (key : κ) (value : ν) : LastWins κ ν where
  order :=
    if (dict.val key).isSome then dict.order else dict.order ++ [key]
  val := Function.update dict.val key (some value)
  nodup := by
    split_ifs with present
    · exact dict.nodup
    · refine List.Nodup.append dict.nodup (List.nodup_singleton key) ?_
      rintro other member last
      rw [List.mem_singleton.mp last] at member
      exact present ((dict.known key).mp member)
  known other := by
    by_cases same : other = key
    · subst same
      rw [Function.update_self]
      split_ifs with present
      · exact iff_of_true ((dict.known other).mpr present) rfl
      · exact iff_of_true (by simp) rfl
    · rw [Function.update_of_ne same]
      refine Iff.trans ?_ (dict.known other)
      split_ifs
      · rfl
      · simp [same]

/-- Assign in order. -/
def assignAll (dict : LastWins κ ν) (pairs : List (κ × ν)) : LastWins κ ν :=
  pairs.foldl (fun acc pair => acc.assign pair.1 pair.2) dict

variable
    {dict : LastWins κ ν} {key : κ} {value : ν} {pairs : List (κ × ν)}

@[simp]
theorem val_assign_self : (dict.assign key value).val key = some value :=
  Function.update_self ..

theorem val_assign_of_ne {other : κ} (distinct : other ≠ key) :
    (dict.assign key value).val other = dict.val other :=
  Function.update_of_ne distinct ..

theorem assignAll_append (dict : LastWins κ ν) (front back : List (κ × ν)) :
    dict.assignAll (front ++ back) = (dict.assignAll front).assignAll back :=
  List.foldl_append ..

/-- A key that is not assigned keeps its value. -/
theorem val_assignAll_of_notMem (absent : ∀ pair ∈ pairs, pair.1 ≠ key) :
    (dict.assignAll pairs).val key = dict.val key := by
  induction pairs generalizing dict with
  | nil => rfl
  | cons pair rest induction =>
      rw [List.forall_mem_cons] at absent
      exact (induction absent.2).trans (val_assign_of_ne absent.1.symm)

/-- The last assignment of a key gives its value. -/
theorem val_assignAll_of_last {front back : List (κ × ν)}
    (last : ∀ pair ∈ back, pair.1 ≠ key) :
    (dict.assignAll (front ++ (key, value) :: back)).val key = some value := by
  rw [assignAll_append]
  exact (val_assignAll_of_notMem last).trans val_assign_self

/-- Different keys have the values they are assigned. -/
theorem val_assignAll_of_mem (distinct : (pairs.map Prod.fst).Nodup)
    (member : (key, value) ∈ pairs) :
    (dict.assignAll pairs).val key = some value := by
  obtain ⟨front, back, rfl⟩ := List.append_of_mem member
  refine val_assignAll_of_last fun pair later same => ?_
  rw [List.map_append, List.map_cons] at distinct
  exact
    (List.nodup_cons.mp (List.nodup_append.mp distinct).2.1).1
      (List.mem_map.mpr ⟨pair, later, same⟩)

/-- A value comes from a last assignment, or it was there. -/
theorem exists_last_of_val (found : (dict.assignAll pairs).val key = some value) :
    (∃ front back, pairs = front ++ (key, value) :: back ∧
        ∀ pair ∈ back, pair.1 ≠ key) ∨
      (∀ pair ∈ pairs, pair.1 ≠ key) ∧ dict.val key = some value := by
  induction pairs generalizing dict with
  | nil => exact .inr ⟨nofun, found⟩
  | cons pair rest induction =>
      obtain ⟨first, firstValue⟩ := pair
      rcases induction found with ⟨front, back, split, last⟩ | ⟨absent, held⟩
      · exact .inl ⟨(first, firstValue) :: front, back, by rw [split]; rfl, last⟩
      · by_cases same : key = first
        · subst same
          rw [val_assign_self] at held
          cases held
          exact .inl ⟨[], rest, rfl, absent⟩
        · rw [val_assign_of_ne same] at held
          exact
            .inr ⟨List.forall_mem_cons.mpr ⟨Ne.symm same, absent⟩, held⟩

/-- Keys that are all new and different are appended in order. -/
theorem order_assignAll_of_fresh (fresh : ∀ pair ∈ pairs, dict.val pair.1 = none)
    (distinct : (pairs.map Prod.fst).Nodup) :
    (dict.assignAll pairs).order = dict.order ++ pairs.map Prod.fst := by
  induction pairs generalizing dict with
  | nil => exact (List.append_nil _).symm
  | cons pair rest induction =>
      rw [List.forall_mem_cons] at fresh
      rw [List.map_cons, List.nodup_cons] at distinct
      have later :
          ∀ other ∈ rest, (dict.assign pair.1 pair.2).val other.1 = none := by
        intro other member
        rw [val_assign_of_ne]
        · exact fresh.2 other member
        · intro same
          exact distinct.1 (List.mem_map.mpr ⟨other, member, same⟩)
      have order :
          (dict.assign pair.1 pair.2).order = dict.order ++ [pair.1] := by
        apply if_neg
        rw [fresh.1]
        exact Bool.false_ne_true
      refine (induction later distinct.2).trans ?_
      rw [order, List.map_cons, List.append_assoc, List.singleton_append]

/-- A dictionary is what its entries assign. -/
theorem assignAll_entries (dict : LastWins κ ν) :
    empty.assignAll dict.entries = dict := by
  have keys := dict.map_fst_entries
  have distinct : (dict.entries.map Prod.fst).Nodup := keys ▸ dict.nodup
  apply LastWins.ext
  · rw [order_assignAll_of_fresh (fun _ _ => rfl) distinct, keys]
    exact List.nil_append _
  · funext key
    cases stored : (empty.assignAll dict.entries).val key with
    | some value =>
        rcases exists_last_of_val stored with ⟨front, back, split, -⟩ | ⟨-, held⟩
        · refine (mem_entries.mp ?_).symm
          rw [split]
          exact List.mem_append_right _ List.mem_cons_self
        · cases held
    | none =>
        cases held : dict.val key with
        | none => rfl
        | some value =>
            rw [val_assignAll_of_mem distinct (mem_entries.mpr held)] at stored
            cases stored

end Assign

end LastWins

end KmmYocto
