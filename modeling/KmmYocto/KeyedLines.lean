import Mathlib

/-!
# Settings in a list of lines

Some lines belong to a key.  A setting is such a line; to apply it is to put
it in the place of every line of its key, or at the end if there is none.

A list meets a setting if it has lines of the key and all of them are the
setting.  Settings of different keys do not disturb each other, so that a list
to which all are applied meets all, and applying them again changes nothing.
-/

namespace KmmYocto.KeyedLines

universe u v

variable
    {α : Type u} {κ : Type v} [DecidableEq κ] (owner : α → Option κ)

/-- The line belongs to the key of the setting. -/
def Same (setting line : α) : Prop :=
  owner line = owner setting

instance (setting line : α) : Decidable (Same owner setting line) :=
  inferInstanceAs (Decidable (_ = _))

/-- Apply a setting. -/
def upsert (lines : List α) (setting : α) : List α :=
  if lines.any fun line => decide (Same owner setting line) then
    lines.map fun line => if Same owner setting line then setting else line
  else lines ++ [setting]

/-- Apply settings in order. -/
def upsertAll (lines settings : List α) : List α :=
  settings.foldl (upsert owner) lines

/-- The key of the setting is set, and to nothing else. -/
structure Meets (lines : List α) (setting : α) : Prop where
  present : setting ∈ lines
  only : ∀ line ∈ lines, Same owner setting line → line = setting

variable
    {owner} {lines settings : List α} {setting other : α}

theorem any_same_iff :
    (lines.any fun line => decide (Same owner setting line)) = true ↔
      ∃ line ∈ lines, Same owner setting line := by
  simp only [List.any_eq_true, decide_eq_true_eq]

theorem mem_upsert {line : α} :
    line ∈ upsert owner lines setting ↔
      line = setting ∨ line ∈ lines ∧ ¬ Same owner setting line := by
  rw [upsert]
  split_ifs with found
  · obtain ⟨first, member, same⟩ := any_same_iff.mp found
    rw [List.mem_map]
    constructor
    · rintro ⟨old, inside, rfl⟩
      split_ifs with matches_
      · exact .inl rfl
      · exact .inr ⟨inside, matches_⟩
    · rintro (rfl | ⟨inside, differs⟩)
      · exact ⟨first, member, if_pos same⟩
      · exact ⟨line, inside, if_neg differs⟩
  · rw [List.mem_append, List.mem_singleton]
    constructor
    · rintro (inside | rfl)
      · refine .inr ⟨inside, fun same => found ?_⟩
        exact any_same_iff.mpr ⟨line, inside, same⟩
      · exact .inl rfl
    · rintro (rfl | ⟨inside, -⟩)
      · exact .inr rfl
      · exact .inl inside

theorem meets_upsert_self : Meets owner (upsert owner lines setting) setting where
  present := mem_upsert.mpr (.inl rfl)
  only line member same := by
    rcases mem_upsert.mp member with equal | ⟨-, differs⟩
    · exact equal
    · exact absurd same differs

/-- Settings of different keys do not disturb each other. -/
theorem Meets.upsert (meets : Meets owner lines other)
    (apart : ¬ Same owner setting other) :
    Meets owner (upsert owner lines setting) other where
  present := mem_upsert.mpr (.inr ⟨meets.present, apart⟩)
  only line member same := by
    rcases mem_upsert.mp member with rfl | ⟨inside, -⟩
    · exact absurd same.symm apart
    · exact meets.only line inside same

/-- A setting that is met changes nothing. -/
theorem Meets.upsert_eq (meets : Meets owner lines setting) :
    KeyedLines.upsert owner lines setting = lines := by
  rw [KeyedLines.upsert,
    if_pos (any_same_iff.mpr ⟨setting, meets.present, rfl⟩)]
  conv_rhs => rw [← List.map_id lines]
  refine List.map_congr_left fun line member => ?_
  split_ifs with same
  · exact (meets.only line member same).symm
  · rfl

/-- What all settings leave alone stays, in its order. -/
theorem filter_upsert {kept : α → Bool}
    (skips : ∀ line, Same owner setting line → kept line = false) :
    (upsert owner lines setting).filter kept = lines.filter kept := by
  have gone : ∀ line, Same owner setting line → ¬ kept line = true := by
    intro line same
    rw [skips line same]
    exact Bool.false_ne_true
  rw [upsert]
  split_ifs with found
  · clear found
    induction lines with
    | nil => rfl
    | cons line rest induction =>
        rw [List.map_cons]
        by_cases same : Same owner setting line
        · rw [if_pos same, List.filter_cons_of_neg (gone setting rfl),
            List.filter_cons_of_neg (gone line same), induction]
        · rw [if_neg same, List.filter_cons, List.filter_cons, induction]
  · rw [List.filter_append, List.filter_cons_of_neg (gone setting rfl),
      List.filter_nil, List.append_nil]

section All

theorem filter_upsertAll {kept : α → Bool}
    (skips : ∀ setting ∈ settings, ∀ line,
      Same owner setting line → kept line = false) :
    (upsertAll owner lines settings).filter kept = lines.filter kept := by
  induction settings generalizing lines with
  | nil => rfl
  | cons setting rest induction =>
      rw [List.forall_mem_cons] at skips
      exact (induction skips.2).trans (filter_upsert skips.1)

theorem Meets.upsertAll (meets : Meets owner lines other)
    (apart : ∀ setting ∈ settings, ¬ Same owner setting other) :
    Meets owner (upsertAll owner lines settings) other := by
  induction settings generalizing lines with
  | nil => exact meets
  | cons setting rest induction =>
      rw [List.forall_mem_cons] at apart
      exact induction (meets.upsert apart.1) apart.2

variable (distinct : settings.Pairwise fun first second =>
  ¬ Same owner first second)
include distinct

/-- A list to which all settings are applied meets all. -/
theorem meets_upsertAll :
    ∀ setting ∈ settings, Meets owner (upsertAll owner lines settings) setting := by
  induction settings generalizing lines with
  | nil => exact List.forall_mem_nil _
  | cons setting rest induction =>
      obtain ⟨first, later⟩ := List.pairwise_cons.mp distinct
      refine List.forall_mem_cons.mpr ⟨?_, induction later⟩
      exact
        (@meets_upsert_self _ _ _ owner lines setting).upsertAll
          fun other member same => first other member same.symm

/-- Settings change nothing exactly if all are met. -/
theorem upsertAll_eq_iff :
    upsertAll owner lines settings = lines ↔
      ∀ setting ∈ settings, Meets owner lines setting := by
  constructor
  · intro equal
    have meets := @meets_upsertAll _ _ _ owner lines settings distinct
    rwa [equal] at meets
  · intro meets
    clear distinct
    induction settings with
    | nil => rfl
    | cons setting rest induction =>
        rw [List.forall_mem_cons] at meets
        rw [upsertAll, List.foldl_cons, meets.1.upsert_eq]
        exact induction meets.2

theorem upsertAll_upsertAll :
    upsertAll owner (upsertAll owner lines settings) settings =
      upsertAll owner lines settings :=
  (upsertAll_eq_iff distinct).mpr (meets_upsertAll distinct)

end All

end KmmYocto.KeyedLines
