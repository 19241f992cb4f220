import Mathlib

/-!
# The U-Boot environment of the A/B boot flow

The A/B state of the device lives in the U-Boot environment: a map from
variable names to strings that the SPL, U-Boot proper and the `ab` command
all read and rewrite.  Only the variables that these three use are modelled.

The readers follow U-Boot: `env_get_yesno` looks at the first character,
`env_get_ulong` parses a decimal prefix into 64 bits, and setting a variable
to the empty string deletes it.
-/

namespace KmmYocto

/-- One of the two sides of an A/B set. -/
inductive Slot where
  | a
  | b
deriving DecidableEq, Repr

namespace Slot

/-- The letter by which the environment and the scripts name the slot. -/
def name : Slot → String
  | .a => "a"
  | .b => "b"

/-- `other` of the `ab` command. -/
def other : Slot → Slot
  | .a => .b
  | .b => .a

/-- `bootpart` of the `ab` command: the BOOT partition of the slot. -/
def bootpart : Slot → Nat
  | .a => 1
  | .b => 2

/-- `rootpart` of the `ab` command: the root partition of the slot. -/
def rootpart : Slot → Nat
  | .a => 5
  | .b => 6

@[simp]
theorem name_ne_empty (slot : Slot) : slot.name ≠ "" := by
  cases slot <;> decide

theorem name_injective : Function.Injective name := by
  intro left right equal
  cases left <;> cases right <;> first | rfl | exact absurd equal (by decide)

@[simp]
theorem name_inj {left right : Slot} :
    left.name = right.name ↔ left = right :=
  name_injective.eq_iff

@[simp]
theorem bootpart_inj {left right : Slot} :
    left.bootpart = right.bootpart ↔ left = right := by
  cases left <;> cases right <;> decide

@[simp]
theorem other_ne (slot : Slot) : slot.other ≠ slot := by
  cases slot <;> decide

@[simp]
theorem ne_other (slot : Slot) : slot ≠ slot.other :=
  (other_ne slot).symm

instance forallDecidable (property : Slot → Prop)
    [∀ slot, Decidable (property slot)] : Decidable (∀ slot, property slot) :=
  decidable_of_iff (property .a ∧ property .b)
    ⟨fun both slot => by
      cases slot with
      | a => exact both.1
      | b => exact both.2,
      fun every => ⟨every .a, every .b⟩⟩

end Slot

/-- The environment variables of the A/B boot flow. -/
inductive EnvVar where
  | abSlot
  | abFallbackSlot
  | upgradeAvailable
  | bootcount
  | bootlimit
  | bootOs
  | mcoreSlot
  | mcoreTry
deriving DecidableEq, Repr

/-- The name of a variable in the environment. -/
def EnvVar.key : EnvVar → String
  | .abSlot => "ab_slot"
  | .abFallbackSlot => "ab_fallback_slot"
  | .upgradeAvailable => "upgrade_available"
  | .bootcount => "bootcount"
  | .bootlimit => "bootlimit"
  | .bootOs => "boot_os"
  | .mcoreSlot => "mcore_slot"
  | .mcoreTry => "mcore_try"

/-- An environment block: `none` is a variable that is not set. -/
@[ext]
structure Env where
  get : EnvVar → Option String

namespace Env

/-- `env_set`: the empty string deletes the variable. -/
def set (env : Env) (name : EnvVar) (value : String) : Env where
  get queried :=
    if queried = name then
      (if value = "" then none else some value)
    else env.get queried

/-- `env_set` with a null value. -/
def delete (env : Env) (name : EnvVar) : Env where
  get queried := if queried = name then none else env.get queried

/-- Several assignments, in order. -/
def setAll (env : Env) (assignments : List (EnvVar × String)) : Env :=
  assignments.foldl (fun acc assignment => acc.set assignment.1 assignment.2) env

@[simp]
theorem get_set_self (env : Env) (name : EnvVar) (value : String) :
    (env.set name value).get name =
      if value = "" then none else some value := by
  simp [set]

@[simp]
theorem get_set_of_ne (env : Env) {name queried : EnvVar} (value : String)
    (distinct : queried ≠ name) :
    (env.set name value).get queried = env.get queried := by
  simp [set, distinct]

@[simp]
theorem get_delete_self (env : Env) (name : EnvVar) :
    (env.delete name).get name = none := by
  simp [delete]

@[simp]
theorem get_delete_of_ne (env : Env) {name queried : EnvVar}
    (distinct : queried ≠ name) :
    (env.delete name).get queried = env.get queried := by
  simp [delete, distinct]

@[simp]
theorem setAll_nil (env : Env) : env.setAll [] = env :=
  rfl

@[simp]
theorem setAll_cons (env : Env) (assignment : EnvVar × String)
    (rest : List (EnvVar × String)) :
    env.setAll (assignment :: rest) =
      (env.set assignment.1 assignment.2).setAll rest :=
  rfl

/-- A variable that no assignment names keeps its value. -/
theorem get_setAll_of_notMem (env : Env) {queried : EnvVar}
    {assignments : List (EnvVar × String)}
    (absent : ∀ assignment ∈ assignments, queried ≠ assignment.1) :
    (env.setAll assignments).get queried = env.get queried := by
  induction assignments generalizing env with
  | nil => rfl
  | cons assignment rest induction =>
      have restAbsent :
          ∀ later ∈ rest, queried ≠ later.1 :=
        fun later member => absent later (List.mem_cons_of_mem _ member)
      rw [setAll_cons, induction _ restAbsent,
        get_set_of_ne _ _ (absent assignment List.mem_cons_self)]

/-- `envget` of the `ab` command: an unset variable reads as empty. -/
def envget (env : Env) (name : EnvVar) : String :=
  (env.get name).getD ""

/-- `env_get_yesno`: -1 when unset, 1 for `1`, `y`, `Y`, `t` and `T`. -/
def getYesno (env : Env) (name : EnvVar) : Int :=
  match env.get name with
  | none => -1
  | some value =>
      if value.toList.head? ∈
          [some '1', some 'y', some 'Y', some 't', some 'T'] then 1
      else 0

/-- `simple_strtoul` in base 10: the leading digits, in 64 bits. -/
def simpleStrtoul (value : String) : Nat :=
  Nat.ofDigitChars 10 (value.toList.takeWhile Char.isDigit) 0 % 2 ^ 64

/-- `env_get_ulong` in base 10. -/
def getUlong (env : Env) (name : EnvVar) (default : Nat) : Nat :=
  match env.get name with
  | none => default
  | some value => simpleStrtoul value

/-- `env_set_ulong`: the decimal digits of the number. -/
def setUlong (env : Env) (name : EnvVar) (value : Nat) : Env :=
  env.set name value.repr

/-! ## Decimal numbers in variables -/

/-- Parsing a printed number gives the number back, in 64 bits. -/
@[simp]
theorem simpleStrtoul_repr (value : Nat) :
    simpleStrtoul value.repr = value % 2 ^ 64 := by
  have allDigits :
      (Nat.toDigits 10 value).takeWhile Char.isDigit =
        Nat.toDigits 10 value := by
    rw [List.takeWhile_eq_self_iff]
    intro digit member
    exact Nat.isDigit_of_mem_toDigits (by decide) (by decide) member
  rw [simpleStrtoul, Nat.toList_repr, allDigits,
    Nat.ofDigitChars_ten_toDigits]

@[simp]
theorem getUlong_setUlong (env : Env) (name : EnvVar)
    (value default : Nat) :
    (env.setUlong name value).getUlong name default = value % 2 ^ 64 := by
  simp [getUlong, setUlong]

/-- The one-digit string the SPL builds by hand, saturating at nine. -/
def digitString (value : Nat) : String :=
  String.singleton (Nat.digitChar (if value > 9 then 9 else value))

theorem digitString_eq_repr (value : Nat) :
    digitString value = (min value 9).repr := by
  have small : min value 9 < 10 := by omega
  have clipped : (if value > 9 then 9 else value) = min value 9 := by
    split <;> omega
  apply String.toList_injective
  rw [digitString, clipped, Nat.toList_repr, Nat.toDigits_of_lt_base small]
  simp

@[simp]
theorem digitString_ne_empty (value : Nat) : digitString value ≠ "" := by
  simp [digitString_eq_repr]

@[simp]
theorem simpleStrtoul_digitString (value : Nat) :
    simpleStrtoul (digitString value) = min value 9 := by
  rw [digitString_eq_repr, simpleStrtoul_repr, Nat.mod_eq_of_lt (by omega)]

end Env

/-- The variables `ab-env.txt` seeds; all others are unset on a new device. -/
def shippedEnv : Env where
  get
    | .bootlimit => some "1"
    | .upgradeAvailable => some "0"
    | .bootcount => some "0"
    | .abSlot => some "a"
    | .abFallbackSlot => some "a"
    | _ => none

end KmmYocto
