import KmmYocto.Env
import KmmYocto.LastWins
import KmmYocto.FirstSplit

/-!
# The environment that is built into the image

uboot-env_1.0.bb concatenates the initial environment of U-Boot with
ab-env.txt and merges the assignments with awk: a key keeps the place of its
first assignment and takes the value of its last one, since `mkenvimage`
resolves nothing.

The first line of ab-env.txt is a comment.  If the initial environment does
not end with a line break, `cat` joins that line to its last assignment.
-/

namespace KmmYocto

namespace UbootEnvText

/-! ## awk -/

/-- The records of a text. -/
def records : List Char → List (List Char)
  | [] => [[]]
  | c :: rest =>
      if c = '\n' then [] :: records rest
      else
        match records rest with
        | [] => [[c]]
        | first :: others => (c :: first) :: others

/-- `[#[:space:]]`. -/
def skipChar (c : Char) : Bool :=
  c ∈ ['#', ' ', '\t', '\n', '\x0b', '\x0c', '\r']

/-- `/^[#[:space:]]/ || !/=/`: the record is passed over. -/
def skip (line : List Char) : Bool :=
  line.head?.any skipChar || decide ('=' ∉ line)

/-- `$1` with the field separator `=`. -/
def key (line : List Char) : List Char :=
  FirstSplit.upTo '=' line

/-- What `sub(/^[^=]*=/, "")` leaves. -/
def value (line : List Char) : List Char :=
  FirstSplit.past '=' line

/-- The assignments of a text, in order. -/
def assignments (text : List Char) : List (List Char × List Char) :=
  ((records text).filter fun line => ! skip line).map fun line =>
    (key line, value line)

/-- The arrays `order` and `val` at the end of the input. -/
def merged (text : List Char) : LastWins (List Char) (List Char) :=
  LastWins.empty.assignAll (assignments text)

/-- `print order[i] "=" val[order[i]]`. -/
def printed (pairs : List (List Char × List Char)) : List Char :=
  pairs.flatMap fun pair => pair.1 ++ '=' :: (pair.2 ++ ['\n'])

/-- The awk program. -/
def awk (text : List Char) : List Char :=
  printed (merged text).entries

/-! ## Records and assignments -/

theorem records_ne_nil (text : List Char) : records text ≠ [] := by
  cases text with
  | nil => exact List.cons_ne_nil _ _
  | cons c rest =>
      rw [records]
      split_ifs
      · exact List.cons_ne_nil _ _
      · split <;> exact List.cons_ne_nil _ _

/-- A line break ends a record. -/
theorem records_append (front back : List Char) :
    records (front ++ '\n' :: back) = records front ++ records back := by
  induction front with
  | nil => rfl
  | cons c rest induction =>
      rw [List.cons_append, records, records, induction]
      split_ifs
      · rfl
      · cases first : records rest with
        | nil => exact absurd first (records_ne_nil rest)
        | cons head others => rfl

theorem newline_notMem_records {text line : List Char}
    (member : line ∈ records text) : '\n' ∉ line := by
  induction text generalizing line with
  | nil =>
      rw [List.mem_singleton.mp member]
      exact List.not_mem_nil
  | cons c rest induction =>
      rw [records] at member
      split_ifs at member with newline
      · rcases List.mem_cons.mp member with rfl | later
        · exact List.not_mem_nil
        · exact induction later
      · cases first : records rest with
        | nil => exact absurd first (records_ne_nil rest)
        | cons head others =>
            rw [first] at member
            rcases List.mem_cons.mp member with rfl | later
            · have clean := induction (first ▸ List.mem_cons_self)
              rw [List.mem_cons, not_or]
              exact ⟨Ne.symm newline, clean⟩
            · exact induction (first ▸ List.mem_cons_of_mem _ later)

theorem records_of_line {line : List Char} (single : '\n' ∉ line) :
    records line = [line] := by
  induction line with
  | nil => rfl
  | cons c rest induction =>
      rw [List.mem_cons, not_or] at single
      rw [records, if_neg (Ne.symm single.1), induction single.2]

/-- What can be printed as one record and read again. -/
structure Clean (pair : List Char × List Char) : Prop where
  keyEq : '=' ∉ pair.1
  keyLine : '\n' ∉ pair.1
  valueLine : '\n' ∉ pair.2
  start : pair.1.head?.any skipChar = false

/-- Every assignment of a text can be printed and read again. -/
theorem clean_of_mem_assignments {text : List Char}
    {pair : List Char × List Char} (member : pair ∈ assignments text) :
    Clean pair := by
  obtain ⟨line, found, rfl⟩ := List.mem_map.mp member
  obtain ⟨inside, kept⟩ := List.mem_filter.mp found
  have single := newline_notMem_records inside
  simp only [skip, Bool.not_eq_true', Bool.or_eq_false_iff,
    decide_eq_false_iff_not, not_not] at kept
  obtain ⟨start, holds⟩ := kept
  have split : line = key line ++ '=' :: value line :=
    (FirstSplit.upTo_append_past holds).symm
  constructor
  case keyEq => exact FirstSplit.sep_notMem_upTo
  case keyLine =>
    intro newline
    exact single (split ▸ List.mem_append_left _ newline)
  case valueLine =>
    intro newline
    exact
      single (split ▸
        List.mem_append_right _ (List.mem_cons_of_mem _ newline))
  case start =>
    cases line with
    | nil => cases holds
    | cons c rest =>
        by_cases same : c = '='
        · subst same
          simp only [key, FirstSplit.upTo_cons_self, List.head?_nil,
            Option.any_none]
        · rw [key, FirstSplit.upTo_cons_of_ne same]
          exact start

/-- Printed assignments are read again. -/
theorem assignments_printed {pairs : List (List Char × List Char)}
    (clean : ∀ pair ∈ pairs, Clean pair) :
    assignments (printed pairs) = pairs := by
  induction pairs with
  | nil => rfl
  | cons pair rest induction =>
      rw [List.forall_mem_cons] at clean
      obtain ⟨head, tail⟩ := clean
      have line :
          printed (pair :: rest) =
            (pair.1 ++ '=' :: pair.2) ++ '\n' :: printed rest := by
        simp only [printed, List.flatMap_cons, List.append_assoc,
          List.cons_append, List.nil_append]
      have single : '\n' ∉ pair.1 ++ '=' :: pair.2 := by
        rw [List.mem_append, List.mem_cons, not_or, not_or]
        exact ⟨head.keyLine, by decide, head.valueLine⟩
      have kept : skip (pair.1 ++ '=' :: pair.2) = false := by
        have start : (pair.1 ++ '=' :: pair.2).head?.any skipChar = false := by
          cases first : pair.1 with
          | nil => rfl
          | cons c others =>
              have clean := head.start
              rw [first] at clean
              exact clean
        rw [skip, start]
        simp
      have later := induction tail
      rw [assignments] at later ⊢
      rw [line, records_append, records_of_line single, List.filter_append,
        List.map_append, later]
      simp [kept, key, value, FirstSplit.upTo_append head.keyEq,
        FirstSplit.past_append head.keyEq]

theorem assignments_append (front back : List Char) :
    assignments (front ++ '\n' :: back) =
      assignments front ++ assignments back := by
  rw [assignments, records_append, List.filter_append, List.map_append]
  rfl

/-! ## Merging -/

/-- Every printed assignment can be read again. -/
theorem clean_of_mem_entries {text : List Char}
    {pair : List Char × List Char} (member : pair ∈ (merged text).entries) :
    Clean pair := by
  obtain ⟨name, held⟩ := pair
  rcases LastWins.exists_last_of_val (LastWins.mem_entries.mp member) with
    ⟨front, back, split, -⟩ | ⟨-, none⟩
  · refine @clean_of_mem_assignments text _ ?_
    rw [split]
    exact List.mem_append_right _ List.mem_cons_self
  · cases none

theorem assignments_awk (text : List Char) :
    assignments (awk text) = (merged text).entries :=
  assignments_printed fun _ member => clean_of_mem_entries member

/-- The merged text assigns what the text does. -/
theorem merged_awk (text : List Char) : merged (awk text) = merged text := by
  rw [merged, assignments_awk, LastWins.assignAll_entries]

/-! ## The image of the build -/

/--
The lines of ab-env.txt, long ones in pieces.  Of the comments and empty lines
in front only the first line is here; awk passes over all of them.
-/
def abEnvLines : List (List String) :=
  [["# A/B 環境変数 (u-boot-initial-env ", "に追記される。重複キーは後勝ち)"],
    ["bootdelay=1"],
    ["bootlimit=1"],
    ["upgrade_available=0"],
    ["bootcount=0"],
    ["ab_slot=a"],
    ["ab_fallback_slot=a"],
    ["ab_mmcdev=2"],
    ["ab_boot=if test \"x${ab_slot}\" = xb; ",
      "then setenv ab_bootpart 2; ",
      "else setenv ab_bootpart 1; fi; ",
      "echo \"A/B: booting slot ${ab_slot} ",
      "(mmc ${ab_mmcdev}:${ab_bootpart})\"; ",
      "sysboot mmc ${ab_mmcdev}:",
      "${ab_bootpart} fat ${scriptaddr} ",
      "/extlinux/extlinux.conf"],
    ["altbootcmd=echo \"A/B: bootlimit ",
      "reached, falling back to slot ",
      "${ab_fallback_slot}\"; ",
      "setenv ab_slot ${ab_fallback_slot}; ",
      "setenv upgrade_available 0; ",
      "setenv bootcount 0; saveenv; ",
      "run ab_boot"],
    ["bootcmd=run ab_boot"]]

/-- The characters of a text in pieces. -/
def chars (pieces : List String) : List Char :=
  pieces.flatMap String.toList

def abEnvTxt : List Char :=
  abEnvLines.flatMap fun line => chars line ++ ['\n']

/-- `uboot-env.txt` of an initial environment. -/
def ubootEnvTxt (initial : List Char) : List Char :=
  awk (initial ++ abEnvTxt)

/-- What ab-env.txt assigns. -/
def abAssignments : List (List Char × List Char) :=
  [("bootdelay", ["1"]), ("bootlimit", ["1"]), ("upgrade_available", ["0"]),
    ("bootcount", ["0"]), ("ab_slot", ["a"]), ("ab_fallback_slot", ["a"]),
    ("ab_mmcdev", ["2"]),
    ("ab_boot",
      "if test \"x${ab_slot}\" = xb; " :: (abEnvLines.getD 8 []).tail),
    ("altbootcmd",
      "echo \"A/B: bootlimit " :: (abEnvLines.getD 9 []).tail),
    ("bootcmd", ["run ab_boot"])].map fun pair => (pair.1.toList, chars pair.2)

theorem assignments_abEnvTxt : assignments abEnvTxt = abAssignments := by
  decide +kernel

theorem nodup_abEnvTxt : ((assignments abEnvTxt).map Prod.fst).Nodup := by
  rw [assignments_abEnvTxt]
  decide +kernel

/-- A text that `cat` does not join to the next one. -/
def EndsLine (text : List Char) : Prop :=
  text = [] ∨ ∃ body, text = body ++ ['\n']

/-- What is concatenated assigns what the two texts assign. -/
theorem assignments_cat {initial : List Char} (ends : EndsLine initial)
    (rest : List Char) :
    assignments (initial ++ rest) = assignments initial ++ assignments rest := by
  rcases ends with rfl | ⟨body, rfl⟩
  · rfl
  · have last : assignments (body ++ ['\n']) = assignments body :=
      (assignments_append body []).trans (List.append_nil _)
    rw [last, List.append_assoc]
    exact assignments_append body rest

/-- The environment of a text; an empty value unsets the variable. -/
def imported (text : List Char) : Env where
  get name :=
    ((merged text).val name.key.toList).bind fun value =>
      if value = [] then none else some (String.ofList value)

section Build

variable
    {initial : List Char}

/-- ab-env.txt has the last word on its variables, and no other. -/
theorem val_ubootEnvTxt (ends : EndsLine initial) :
    (∀ pair ∈ assignments abEnvTxt,
        (merged (ubootEnvTxt initial)).val pair.1 = some pair.2) ∧
      ∀ name, (∀ pair ∈ assignments abEnvTxt, pair.1 ≠ name) →
        (merged (ubootEnvTxt initial)).val name = (merged initial).val name := by
  have split : merged (ubootEnvTxt initial) =
      (merged initial).assignAll (assignments abEnvTxt) := by
    rw [ubootEnvTxt, merged_awk, merged, assignments_cat ends,
      LastWins.assignAll_append, merged]
  rw [split]
  constructor
  · intro pair member
    exact LastWins.val_assignAll_of_mem nodup_abEnvTxt member
  · intro name absent
    exact LastWins.val_assignAll_of_notMem absent

/-- The text assigns what ab-env.txt does, and the last values of the rest. -/
theorem mem_assignments_ubootEnvTxt (ends : EndsLine initial)
    (name value : List Char) :
    (name, value) ∈ assignments (ubootEnvTxt initial) ↔
      (name, value) ∈ assignments abEnvTxt ∨
        (∀ pair ∈ assignments abEnvTxt, pair.1 ≠ name) ∧
          ∃ front back, assignments initial = front ++ (name, value) :: back ∧
            ∀ pair ∈ back, pair.1 ≠ name := by
  obtain ⟨ours, others⟩ := val_ubootEnvTxt ends
  have listed :
      (name, value) ∈ assignments (ubootEnvTxt initial) ↔
        (merged (ubootEnvTxt initial)).val name = some value := by
    rw [ubootEnvTxt, assignments_awk, LastWins.mem_entries, merged_awk]
  rw [listed]
  constructor
  · intro held
    by_cases known : ∃ pair ∈ assignments abEnvTxt, pair.1 = name
    · obtain ⟨pair, member, rfl⟩ := known
      rw [ours pair member] at held
      cases held
      exact .inl member
    · have absent : ∀ pair ∈ assignments abEnvTxt, pair.1 ≠ name :=
        fun pair member same => known ⟨pair, member, same⟩
      rw [others name absent] at held
      rcases LastWins.exists_last_of_val held with last | ⟨-, none⟩
      · exact .inr ⟨absent, last⟩
      · cases none
  · rintro (member | ⟨absent, front, back, split, last⟩)
    · exact ours _ member
    · rw [others name absent, merged, split,
        LastWins.val_assignAll_of_last last]

/-- A device whose initial environment is silent starts from ab-env.txt. -/
theorem imported_ubootEnvTxt (ends : EndsLine initial)
    (silent : ∀ name ∈ [EnvVar.bootOs, .mcoreSlot, .mcoreTry],
      ∀ pair ∈ assignments initial, pair.1 ≠ name.key.toList) :
    imported (ubootEnvTxt initial) = shippedEnv := by
  obtain ⟨ours, others⟩ := val_ubootEnvTxt ends
  have sets : ∀ (name : EnvVar) (value : String),
      (name.key.toList, value.toList) ∈ assignments abEnvTxt →
        value.toList ≠ [] →
          (imported (ubootEnvTxt initial)).get name = some value := by
    intro name value member nonempty
    have held := ours _ member
    simp only [imported, held, Option.bind_some, if_neg nonempty,
      String.ofList_toList]
  have unsets : ∀ name ∈ [EnvVar.bootOs, .mcoreSlot, .mcoreTry],
      (imported (ubootEnvTxt initial)).get name = none := by
    intro name member
    have absent : ∀ pair ∈ assignments abEnvTxt,
        pair.1 ≠ name.key.toList := by
      rw [assignments_abEnvTxt]
      revert name
      decide +kernel
    have unset : (merged initial).val name.key.toList = none :=
      LastWins.val_assignAll_of_notMem (silent name member)
    simp only [imported, others _ absent, unset, Option.bind_none]
  rw [assignments_abEnvTxt] at sets
  apply Env.ext
  funext name
  cases name with
  | abSlot => exact sets .abSlot "a" (by decide +kernel) (by decide)
  | abFallbackSlot =>
      exact sets .abFallbackSlot "a" (by decide +kernel) (by decide)
  | upgradeAvailable =>
      exact sets .upgradeAvailable "0" (by decide +kernel) (by decide)
  | bootcount => exact sets .bootcount "0" (by decide +kernel) (by decide)
  | bootlimit => exact sets .bootlimit "1" (by decide +kernel) (by decide)
  | bootOs => exact unsets .bootOs (by simp)
  | mcoreSlot => exact unsets .mcoreSlot (by simp)
  | mcoreTry => exact unsets .mcoreTry (by simp)

/--
Whatever the initial environment, `uboot-env.txt` assigns each key once, gives
the keys of ab-env.txt their values there and the others their last value, and
merging it again changes nothing.  A device whose initial environment leaves
the other variables of the boot flow alone starts from `shippedEnv`.
-/
theorem ubootEnvTxt_seeds (ends : EndsLine initial) :
    ((assignments (ubootEnvTxt initial)).map Prod.fst).Nodup ∧
      awk (ubootEnvTxt initial) = ubootEnvTxt initial ∧
      (∀ name value, (name, value) ∈ assignments (ubootEnvTxt initial) ↔
        (name, value) ∈ assignments abEnvTxt ∨
          (∀ pair ∈ assignments abEnvTxt, pair.1 ≠ name) ∧
            ∃ front back, assignments initial = front ++ (name, value) :: back ∧
              ∀ pair ∈ back, pair.1 ≠ name) ∧
      ((∀ name ∈ [EnvVar.bootOs, .mcoreSlot, .mcoreTry],
          ∀ pair ∈ assignments initial, pair.1 ≠ name.key.toList) →
        imported (ubootEnvTxt initial) = shippedEnv) := by
  refine ⟨?_, ?_, mem_assignments_ubootEnvTxt ends, imported_ubootEnvTxt ends⟩
  · rw [ubootEnvTxt, assignments_awk, LastWins.map_fst_entries]
    exact LastWins.nodup _
  · rw [ubootEnvTxt, awk, merged_awk, ← awk]

end Build

end UbootEnvText

namespace Bench

open UbootEnvText

/-- A boot command and a delay that ab-env.txt replaces, and an address. -/
def initialEnv : List Char :=
  "bootcmd=bootflow scan\nbootdelay=2\nscriptaddr=0x43500000\n".toList

theorem initialEnv_shipped :
    imported (ubootEnvTxt initialEnv) = shippedEnv :=
  (ubootEnvTxt_seeds
    (.inr ⟨initialEnv.dropLast, by decide +kernel⟩)).2.2.2 (by decide +kernel)

end Bench

end KmmYocto
