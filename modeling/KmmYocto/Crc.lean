import Mathlib

/-!
# Cyclic redundancy checks, bit by bit

A reflected CRC of width `w` is a shift register: a bit is added to its lowest
place, the register moves one place down, and the polynomial is added when the
bit that falls out is set.  The register is a linear function of the bits, and
moving it is injective when the polynomial has its highest bit.

An error is the difference of two equally long messages, so what the check does
not see are the differences that leave the register at zero.  It sees every
burst that is not longer than the register, every two flipped bits that are not
a period of the register apart, and, where the polynomial has an odd number of
bits, every odd number of flipped bits.
-/

namespace KmmYocto.Crc

variable
    {w : Nat}

/-- The register moves one place. -/
def shift (poly crc : BitVec w) : BitVec w :=
  if crc.getLsbD 0 then (crc >>> 1) ^^^ poly else crc >>> 1

/-- A bit at the lowest place. -/
def unit (w : Nat) (bit : Bool) : BitVec w :=
  if bit then 1#w else 0#w

/-- The register after one bit. -/
def feed (poly crc : BitVec w) (bit : Bool) : BitVec w :=
  shift poly (crc ^^^ unit w bit)

/-- The register after a message. -/
def feedAll (poly crc : BitVec w) (bits : List Bool) : BitVec w :=
  bits.foldl (feed poly) crc

section

variable
    {poly : BitVec w}

@[simp]
theorem feedAll_nil (crc : BitVec w) : feedAll poly crc [] = crc :=
  rfl

@[simp]
theorem feedAll_cons (crc : BitVec w) (bit : Bool) (rest : List Bool) :
    feedAll poly crc (bit :: rest) = feedAll poly (feed poly crc bit) rest :=
  rfl

@[simp]
theorem feedAll_append (crc : BitVec w) (first second : List Bool) :
    feedAll poly crc (first ++ second) =
      feedAll poly (feedAll poly crc first) second :=
  List.foldl_append

/-! ## Linear -/

theorem shift_xor (a b : BitVec w) :
    shift poly (a ^^^ b) = shift poly a ^^^ shift poly b := by
  have twice :
      (a >>> 1) ^^^ (b >>> 1) =
        ((a >>> 1) ^^^ poly) ^^^ ((b >>> 1) ^^^ poly) := by
    calc
      (a >>> 1) ^^^ (b >>> 1) =
          ((a >>> 1) ^^^ (b >>> 1)) ^^^ (poly ^^^ poly) := by
        rw [BitVec.xor_self, BitVec.xor_zero]
      _ = ((a >>> 1) ^^^ poly) ^^^ ((b >>> 1) ^^^ poly) := by ac_rfl
  rw [shift, shift, shift, BitVec.getLsbD_xor,
    BitVec.ushiftRight_xor_distrib]
  cases a.getLsbD 0 with
  | false =>
      cases b.getLsbD 0 with
      | false => rfl
      | true => exact BitVec.xor_assoc _ _ _
  | true =>
      cases b.getLsbD 0 with
      | false =>
          show (a >>> 1 ^^^ b >>> 1) ^^^ poly = (a >>> 1 ^^^ poly) ^^^ b >>> 1
          ac_rfl
      | true => exact twice

theorem shift_zero : shift poly 0#w = 0#w := by
  simp [shift]

theorem iterate_shift_zero (count : Nat) :
    (shift poly)^[count] 0#w = 0#w := by
  induction count with
  | zero => rfl
  | succ count induction =>
      rw [Function.iterate_succ_apply, shift_zero, induction]

theorem unit_xor (first second : Bool) :
    unit w (first ^^ second) = unit w first ^^^ unit w second := by
  cases first <;> cases second <;> simp [unit]

/-- The difference of two registers is the register of the difference. -/
theorem feedAll_xor {first second : List Bool}
    (same : first.length = second.length) (a b : BitVec w) :
    feedAll poly a first ^^^ feedAll poly b second =
      feedAll poly (a ^^^ b) (List.zipWith (· ^^ ·) first second) := by
  induction first generalizing a b second with
  | nil =>
      obtain rfl := List.length_eq_zero_iff.mp same.symm
      rfl
  | cons bit first induction =>
      cases second with
      | nil => cases same
      | cons other second =>
          rw [feedAll_cons, feedAll_cons, induction (Nat.succ.inj same),
            List.zipWith_cons_cons, feedAll_cons]
          congr 1
          simp only [feed, unit_xor, ← shift_xor]
          congr 1
          ac_rfl

/-- Zeros only move the register. -/
theorem feedAll_replicate_false (crc : BitVec w) (count : Nat) :
    feedAll poly crc (List.replicate count false) =
      (shift poly)^[count] crc := by
  induction count generalizing crc with
  | zero => rfl
  | succ count induction =>
      rw [List.replicate_succ, feedAll_cons, induction,
        Function.iterate_succ_apply]
      congr 1
      simp [feed, unit]

/-! ## Whole words at once -/

/-- The bits as a word, the first one lowest. -/
def word (w : Nat) : List Bool → BitVec w
  | [] => 0#w
  | bit :: rest => (word w rest <<< 1) ^^^ unit w bit

theorem getLsbD_word (bits : List Bool) (i : Nat) :
    (word w bits).getLsbD i = (decide (i < w) && bits.getD i false) := by
  induction bits generalizing i with
  | nil => simp [word]
  | cons bit rest induction =>
      rw [word, BitVec.getLsbD_xor, BitVec.getLsbD_shiftLeft]
      cases i with
      | zero => cases bit <;> simp [unit]
      | succ i =>
          have high : (unit w bit).getLsbD (i + 1) = false := by
            cases bit <;> simp [unit, BitVec.getLsbD_one]
          rw [high, Bool.xor_false, Nat.add_sub_cancel, induction,
            List.getD_cons_succ]
          by_cases inside : i + 1 < w
          · have before : i < w := by omega
            simp [inside, before]
          · simp [inside]

/-- A word that has room above comes back one place lower. -/
theorem shift_shiftLeft {crc : BitVec w} (room : crc.getLsbD (w - 1) = false) :
    shift poly (crc <<< 1) = crc := by
  have lowest : (crc <<< 1).getLsbD 0 = false := by
    simp [BitVec.getLsbD_shiftLeft]
  rw [shift, lowest]
  apply BitVec.eq_of_getLsbD_eq
  intro i inside
  show ((crc <<< 1) >>> 1).getLsbD i = _
  rw [BitVec.getLsbD_ushiftRight, BitVec.getLsbD_shiftLeft]
  by_cases last : i + 1 < w
  · have place : 1 + i < w := by omega
    simp [place]
  · have at_ : i = w - 1 := by omega
    rw [at_, room]
    have above : ¬ 1 + (w - 1) < w := by omega
    simp [above]

/-- As many bits as the register has may be added at once. -/
theorem feedAll_eq_iterate {bits : List Bool} (short : bits.length ≤ w)
    (crc : BitVec w) :
    feedAll poly crc bits = (shift poly)^[bits.length] (crc ^^^ word w bits) := by
  induction bits generalizing crc with
  | nil => simp [word]
  | cons bit rest induction =>
      rw [List.length_cons] at short
      have room : (word w rest).getLsbD (w - 1) = false := by
        rw [getLsbD_word, List.getD_eq_default _ _ (by omega), Bool.and_false]
      rw [feedAll_cons, induction (by omega), List.length_cons,
        Function.iterate_succ_apply]
      congr 1
      rw [word, feed, shift_xor, shift_xor, shift_xor,
        shift_shiftLeft room]
      ac_rfl

/-! ## Injective -/

/-- With its highest bit, the polynomial shows that a bit fell out. -/
theorem shift_eq_zero_iff (highest : poly.getLsbD (w - 1) = true)
    (crc : BitVec w) : shift poly crc = 0#w ↔ crc = 0#w := by
  constructor
  · intro zero
    rw [shift] at zero
    have nonempty : 0 < w := by
      by_contra empty
      rw [BitVec.getLsbD_of_ge _ _ (by omega)] at highest
      cases highest
    split_ifs at zero with lowest
    · have top := congrArg (fun crc => crc.getLsbD (w - 1)) zero
      have above : ¬ 1 + (w - 1) < w := by omega
      simp only [BitVec.getLsbD_xor, BitVec.getLsbD_ushiftRight, highest,
        BitVec.getLsbD_zero] at top
      rw [BitVec.getLsbD_of_ge _ _ (by omega)] at top
      cases top
    · apply BitVec.eq_of_getLsbD_eq
      intro i inside
      rw [BitVec.getLsbD_zero]
      cases i with
      | zero => exact Bool.eq_false_iff.mpr lowest
      | succ i =>
          have place := congrArg (fun crc => crc.getLsbD i) zero
          simp only [BitVec.getLsbD_ushiftRight, BitVec.getLsbD_zero] at place
          rwa [Nat.add_comm] at place
  · rintro rfl
    exact shift_zero

theorem iterate_shift_eq_zero_iff (highest : poly.getLsbD (w - 1) = true)
    (count : Nat) (crc : BitVec w) :
    (shift poly)^[count] crc = 0#w ↔ crc = 0#w := by
  induction count generalizing crc with
  | zero => exact Iff.rfl
  | succ count induction =>
      rw [Function.iterate_succ_apply, induction, shift_eq_zero_iff highest]

/-! ## Errors that are seen -/

/-- A burst that is not longer than the register is seen. -/
theorem feedAll_burst (highest : poly.getLsbD (w - 1) = true)
    {burst : List Bool} (short : burst.length ≤ w) (some : true ∈ burst)
    (front back : Nat) :
    feedAll poly 0#w
        (List.replicate front false ++ (burst ++ List.replicate back false)) ≠
      0#w := by
  rw [feedAll_append, feedAll_append, feedAll_replicate_false,
    feedAll_replicate_false, iterate_shift_zero, ne_eq,
    iterate_shift_eq_zero_iff highest, feedAll_eq_iterate short,
    iterate_shift_eq_zero_iff highest, BitVec.zero_xor]
  obtain ⟨i, inside, set⟩ := List.getElem_of_mem some
  intro zero
  have bit := congrArg (fun crc => crc.getLsbD i) zero
  simp only [getLsbD_word, BitVec.getLsbD_zero] at bit
  rw [List.getD_eq_getElem _ _ inside, set] at bit
  have place : i < w := by omega
  simp [place] at bit

/-- Two flipped bits are seen unless they are a period apart. -/
theorem feedAll_pair (highest : poly.getLsbD (w - 1) = true)
    {distance : Nat}
    (period : (shift poly)^[distance + 1] (unit w true) ≠ unit w true)
    (front back : Nat) :
    feedAll poly 0#w
        (List.replicate front false ++
          (true :: (List.replicate distance false ++
            (true :: List.replicate back false)))) ≠
      0#w := by
  rw [feedAll_append, feedAll_cons, feedAll_append, feedAll_cons,
    feedAll_replicate_false, feedAll_replicate_false,
    feedAll_replicate_false, iterate_shift_zero, ne_eq,
    iterate_shift_eq_zero_iff highest, feed, shift_eq_zero_iff highest, feed,
    BitVec.zero_xor, ← Function.iterate_succ_apply]
  intro zero
  apply period
  have equal := congrArg (fun crc => crc ^^^ unit w true) zero
  simpa [BitVec.xor_assoc] using equal

/-- The parity of the set bits. -/
def parity (crc : BitVec w) : ZMod 2 :=
  ∑ i ∈ Finset.range w, ((crc.getLsbD i).toNat : ZMod 2)

theorem parity_zero : parity 0#w = 0 := by
  simp [parity]

theorem parity_xor (a b : BitVec w) : parity (a ^^^ b) = parity a + parity b := by
  rw [parity, parity, parity, ← Finset.sum_add_distrib]
  apply Finset.sum_congr rfl
  intro i _
  rw [BitVec.getLsbD_xor]
  cases a.getLsbD i <;> cases b.getLsbD i <;> decide

/-- Moving loses the lowest bit. -/
theorem parity_ushiftRight (crc : BitVec w) :
    parity (crc >>> 1) + ((crc.getLsbD 0).toNat : ZMod 2) = parity crc := by
  have longer :
      parity crc =
        ∑ i ∈ Finset.range (w + 1), ((crc.getLsbD i).toNat : ZMod 2) := by
    rw [Finset.sum_range_succ, BitVec.getLsbD_of_ge crc w le_rfl]
    simp [parity]
  rw [longer, Finset.sum_range_succ', parity]
  congr 1
  apply Finset.sum_congr rfl
  intro i _
  rw [BitVec.getLsbD_ushiftRight, Nat.add_comm]

/-- A polynomial with an odd number of bits keeps the parity. -/
theorem parity_shift (odd : parity poly = 1) (crc : BitVec w) :
    parity (shift poly crc) = parity crc := by
  have moved := parity_ushiftRight crc
  rw [shift]
  cases lowest : crc.getLsbD 0 with
  | false =>
      rw [lowest] at moved
      simpa using moved
  | true =>
      rw [lowest] at moved
      simpa [parity_xor, odd] using moved

theorem parity_feedAll (odd : parity poly = 1) (nonempty : 0 < w)
    (bits : List Bool) (crc : BitVec w) :
    parity (feedAll poly crc bits) = parity crc + (bits.count true : ZMod 2) := by
  have ofUnit : parity (unit w true) = 1 := by
    rw [parity, Finset.sum_eq_single 0]
    · simp [unit, nonempty]
    · intro i _ other
      simp [unit, BitVec.getLsbD_one, other]
    · simp [nonempty]
  induction bits generalizing crc with
  | nil => simp
  | cons bit rest induction =>
      rw [feedAll_cons, induction, feed, parity_shift odd, parity_xor]
      cases bit with
      | false => simp [unit, parity_zero]
      | true =>
          rw [ofUnit, List.count_cons_self]
          push_cast
          ring

/-- An odd number of flipped bits is seen. -/
theorem feedAll_odd (odd : parity poly = 1) (nonempty : 0 < w)
    {error : List Bool} (flips : error.count true % 2 = 1) :
    feedAll poly 0#w error ≠ 0#w := by
  intro zero
  have total := parity_feedAll odd nonempty error 0#w
  rw [zero, parity_zero, zero_add] at total
  have even : (error.count true : ZMod 2) = 0 := total.symm
  rw [ZMod.natCast_eq_zero_iff] at even
  omega

end

end KmmYocto.Crc
