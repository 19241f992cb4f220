import Mathlib

/-!
# A counter that is read in halves

The System Counter of the i.MX 8M has 64 bits, and the M4 reads 32 of them at
a time.  `sctr_now` reads the upper half before and after the lower one and
starts again when the two differ.  The counter runs on meanwhile: `counter i`
is its value at the `i`-th read.

Whatever lies between the reads, the result is the value that the counter had
at one of them, and the loop starts again only where the upper half moved.
-/

namespace KmmYocto

/-! ## Halves -/

section Halves

variable
    {size before between after : Nat}

/-- Between two reads of one upper half, there is no other one. -/
theorem div_eq_of_between (lower : before ≤ between)
    (upper : between ≤ after) (same : before / size = after / size) :
    between / size = before / size :=
  Nat.le_antisymm
    ((Nat.div_le_div_right upper).trans same.ge)
    (Nat.div_le_div_right lower)

/-- The halves of two moments with the same upper half are one value. -/
theorem halves_eq (lower : before ≤ between) (upper : between ≤ after)
    (same : before / size = after / size) :
    size * (before / size) + between % size = between := by
  rw [← div_eq_of_between lower upper same]
  exact Nat.div_add_mod between size

/-- A counter that moves by less than a half changes its upper half once. -/
theorem div_eq_or_div_eq {first second third : Nat} (nonempty : 0 < size)
    (lower : first ≤ second) (upper : second ≤ third)
    (slow : third < first + size) :
    first / size = second / size ∨ second / size = third / size := by
  have firstStep := Nat.div_le_div_right lower (c := size)
  have secondStep := Nat.div_le_div_right upper (c := size)
  have total : third / size ≤ first / size + 1 := by
    rw [← Nat.add_div_right first nonempty]
    exact Nat.div_le_div_right slow.le
  omega

end Halves

/-! ## `sctr_now` -/

/-- `SCTR_CNTCV_HI`. -/
def cntcvHi (counter : Nat) : UInt32 :=
  UInt32.ofNat (counter / 2 ^ 32)

/-- `SCTR_CNTCV_LO`. -/
def cntcvLo (counter : Nat) : UInt32 :=
  UInt32.ofNat counter

/--
`sctr_now` with so many turns of its loop, from read `i` on: the result and
the number of the read after the last one.
-/
def sctrNow (counter : Nat → Nat) : Nat → Nat → Option (UInt64 × Nat)
  | 0, _ => none
  | turns + 1, i =>
      let hi := cntcvHi (counter i)
      let lo := cntcvLo (counter (i + 1))
      if hi ≠ cntcvHi (counter (i + 2)) then sctrNow counter turns (i + 3)
      else some (hi.toUInt64 <<< 32 ||| lo.toUInt64, i + 3)

section Reads

variable
    {counter : Nat → Nat}

theorem cntcvHi_eq_iff {value other : Nat} (small : value < 2 ^ 64)
    (small' : other < 2 ^ 64) :
    cntcvHi value = cntcvHi other ↔ value / 2 ^ 32 = other / 2 ^ 32 := by
  rw [← UInt32.toNat_inj, cntcvHi, cntcvHi, UInt32.toNat_ofNat',
    UInt32.toNat_ofNat', Nat.mod_eq_of_lt (by omega),
    Nat.mod_eq_of_lt (by omega)]

/-- The two halves as one word. -/
theorem toNat_halves (hi lo : UInt32) :
    (hi.toUInt64 <<< 32 ||| lo.toUInt64).toNat =
      2 ^ 32 * hi.toNat + lo.toNat := by
  have hiBound := hi.toNat_lt
  have loBound := lo.toNat_lt
  rw [UInt64.toNat_or, UInt64.toNat_shiftLeft, UInt32.toNat_toUInt64,
    UInt32.toNat_toUInt64]
  have shift : (32 : UInt64).toNat % 64 = 32 := rfl
  rw [shift, Nat.shiftLeft_eq, Nat.mul_comm,
    Nat.mod_eq_of_lt (by omega), Nat.two_pow_add_eq_or_of_lt loBound]

theorem toNat_sctr {before between after : Nat} (lower : before ≤ between)
    (upper : between ≤ after) (bounded : after < 2 ^ 64)
    (same : cntcvHi before = cntcvHi after) :
    ((cntcvHi before).toUInt64 <<< 32 |||
        (cntcvLo between).toUInt64).toNat = between := by
  rw [cntcvHi_eq_iff (by omega) bounded] at same
  rw [toNat_halves, cntcvHi, cntcvLo, UInt32.toNat_ofNat',
    UInt32.toNat_ofNat', Nat.mod_eq_of_lt (by omega)]
  exact halves_eq lower upper same

/-- The result is the value of the counter at one of the reads. -/
theorem sctrNow_eq_some (monotone : Monotone counter) {turns i : Nat}
    {result : UInt64} {last : Nat}
    (returns : sctrNow counter turns i = some (result, last))
    (bounded : counter (last - 1) < 2 ^ 64) :
    i < last ∧ ∃ read, i ≤ read ∧ read < last ∧ result.toNat = counter read := by
  induction turns generalizing i with
  | zero => cases returns
  | succ turns induction =>
      rw [sctrNow] at returns
      split_ifs at returns with differs
      · obtain ⟨later, read, lower, upper, value⟩ := induction returns
        exact ⟨by omega, read, by omega, upper, value⟩
      · obtain ⟨rfl, rfl⟩ := Prod.mk.inj (Option.some.inj returns)
        refine ⟨by omega, i + 1, by omega, by omega, ?_⟩
        exact
          toNat_sctr (monotone (by omega)) (monotone (by omega)) bounded
            (not_not.mp differs)

/-- Two turns are enough where six reads take less than half the counter. -/
theorem exists_sctrNow (monotone : Monotone counter) (i : Nat)
    (bounded : counter (i + 5) < 2 ^ 64)
    (slow : counter (i + 5) < counter i + 2 ^ 32) :
    ∃ result last, last ≤ i + 6 ∧
      sctrNow counter 2 i = some (result, last) := by
  have first : counter i ≤ counter (i + 2) := monotone (by omega)
  have second : counter (i + 2) ≤ counter (i + 3) := monotone (by omega)
  have third : counter (i + 3) ≤ counter (i + 5) := monotone (by omega)
  rw [sctrNow]
  split_ifs with differs
  · -- the upper half moved in the first turn, so it stays in the second
    have moved : counter i / 2 ^ 32 ≠ counter (i + 2) / 2 ^ 32 := by
      rwa [ne_eq, cntcvHi_eq_iff (by omega) (by omega)] at differs
    have stays : counter (i + 2) / 2 ^ 32 = counter (i + 5) / 2 ^ 32 :=
      (div_eq_or_div_eq (by decide) first (second.trans third)
        slow).resolve_left moved
    have same : cntcvHi (counter (i + 3)) = cntcvHi (counter (i + 5)) := by
      rw [cntcvHi_eq_iff (by omega) bounded,
        div_eq_of_between second third stays]
      exact stays
    rw [sctrNow, if_neg (not_not.mpr same)]
    exact ⟨_, _, le_rfl, rfl⟩
  · exact ⟨_, _, by omega, rfl⟩

/--
Where six reads take less than half the counter, `sctr_now` returns after two
turns at most, with the value of the counter at one of its reads.
-/
theorem sctrNow_returns (monotone : Monotone counter) (i : Nat)
    (bounded : counter (i + 5) < 2 ^ 64)
    (slow : counter (i + 5) < counter i + 2 ^ 32) :
    ∃ result last, sctrNow counter 2 i = some (result, last) ∧
      last ≤ i + 6 ∧
      ∃ read, i ≤ read ∧ read < last ∧ result.toNat = counter read := by
  obtain ⟨result, last, within, returns⟩ :=
    exists_sctrNow monotone i bounded slow
  have before : counter (last - 1) < 2 ^ 64 :=
    (monotone (by omega)).trans_lt bounded
  exact
    ⟨result, last, returns, within,
      (sctrNow_eq_some monotone returns before).2⟩

/-- The upper half moves between the first and the second read. -/
theorem sctrNow_returns_rollover :
    ∃ result last,
      sctrNow (fun i => 2 ^ 32 - 1 + i) 2 0 = some (result, last) ∧
        last ≤ 6 ∧
        ∃ read, 0 ≤ read ∧ read < last ∧ result.toNat = 2 ^ 32 - 1 + read :=
  sctrNow_returns (fun _ _ le => Nat.add_le_add_left le _) 0 (by decide)
    (by decide)

end Reads

end KmmYocto
