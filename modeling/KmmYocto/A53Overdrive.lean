import Mathlib

/-!
# Voltage before frequency

`a53_overdrive` runs in the SPL of the XPI: it raises VDD_ARM through the PMIC
and then moves the A53 from 1.2 to 1.8 GHz.  The I2C transfers can fail, and a
transfer that fails may have reached the PMIC; the voltage registers ignore
writes while REGLOCK_VREG is set; and a rail takes its time to follow its
register.

Every state that the SoC passes through is recorded, and the rail moves on
from each of them for as long as one likes.
-/

namespace KmmYocto

/-- `CORE_SEL_CFG`: what the A53 runs from. -/
inductive CoreSel where
  | sysPll1_800m
  | armPll
deriving DecidableEq

/-- The A53 with its clocks, its rail and the registers of the PMIC. -/
structure A53 where
  coreSel : CoreSel
  /-- The rate of the ARM PLL in MHz, or `none` while it locks. -/
  armPll : Option Nat
  /-- `BD718XX_REGLOCK`. -/
  regLock : BitVec 8
  /-- `BD718XX_BUCK2_VOLT_RUN`. -/
  voltRun : BitVec 8
  /-- VDD_ARM in microvolts. -/
  rail : Nat

/-- `BD718XX_REGLOCK_VREG`. -/
def regLockVreg : BitVec 8 := 0x10

/-- `val`: 0.70 V and 0x1e steps of 10 mV. -/
def overdriveVal : BitVec 8 := 0x1e

/-- What a write over I2C comes to. -/
inductive I2cWrite where
  | acked
  | failed (landed : Bool)
deriving DecidableEq

/-- The surroundings of a run. -/
structure A53Bus where
  /-- `uclass_get_device_by_seq` succeeds. -/
  i2c1 : Bool
  /-- `dm_i2c_probe` finds the PMIC. -/
  pmic : Bool
  lockRead : Bool
  lockWrite : I2cWrite
  voltWrite : I2cWrite
  voltRead : Bool
  /-- `intpll_configure` succeeds; otherwise the PLL stays as it is. -/
  intpll : Bool
  /-- The time in microseconds that passes before each step. -/
  elapsed : Nat → Nat

namespace A53

/-- The voltage that a register value asks for, in microvolts. -/
def target (soc : A53) : Nat :=
  700000 + 10000 * soc.voltRun.toNat

/-- The rail follows its register at 1.25 mV in a microsecond. -/
def pass (soc : A53) (micros : Nat) : A53 :=
  { soc with
    rail :=
      if soc.rail ≤ soc.target then min soc.target (soc.rail + 1250 * micros)
      else max soc.target (soc.rail - 1250 * micros) }

/-- A write reaches the PMIC. -/
def lands : I2cWrite → Bool
  | .acked => true
  | .failed landed => landed

/-- `dm_i2c_write` to `BD718XX_REGLOCK`. -/
def writeLock (soc : A53) (outcome : I2cWrite) (value : BitVec 8) : A53 :=
  if lands outcome then { soc with regLock := value } else soc

/-- `dm_i2c_write` to `BD718XX_BUCK2_VOLT_RUN`; a locked register ignores it. -/
def writeVolt (soc : A53) (outcome : I2cWrite) (value : BitVec 8) : A53 :=
  if lands outcome ∧ soc.regLock &&& regLockVreg = 0 then
    { soc with voltRun := value }
  else soc

/-- `clock_set_target_val` on `CORE_SEL_CFG`. -/
def select (soc : A53) (coreSel : CoreSel) : A53 :=
  { soc with coreSel }

/-- The ARM PLL takes a rate, or it starts to lock. -/
def setPll (soc : A53) (armPll : Option Nat) : A53 :=
  { soc with armPll }

/-- `a53_set_mhz`: the states that it passes through. -/
def setMhz (soc : A53) (mhz : Nat) (intpll : Bool) (elapsed : Nat → Nat) :
    List A53 :=
  let parked := (soc.pass (elapsed 0)).select .sysPll1_800m
  let locking := (parked.pass (elapsed 1)).setPll none
  let locked := (locking.pass (elapsed 2)).setPll (some mhz)
  if intpll then
    [parked, locking, locked, (locked.pass (elapsed 3)).select .armPll]
  else [parked, (parked.pass (elapsed 3)).select .armPll]

end A53

/-- `a53_overdrive`: the states that the SoC passes through, in order. -/
def a53Overdrive (bus : A53Bus) (soc : A53) : List A53 :=
  if ¬ bus.i2c1 then [soc]
  else if ¬ bus.pmic then [soc]
  else
    let unlocked :=
      if bus.lockRead then
        (soc.pass (bus.elapsed 0)).writeLock bus.lockWrite
          (soc.regLock &&& ~~~ regLockVreg)
      else soc.pass (bus.elapsed 0)
    let written :=
      (unlocked.pass (bus.elapsed 1)).writeVolt bus.voltWrite overdriveVal
    let read := written.pass (bus.elapsed 2)
    if bus.voltWrite ≠ .acked ∨ ¬ bus.voltRead ∨
        read.voltRun ≠ overdriveVal then
      [soc, unlocked, written, read]
    else
      -- `udelay(200)`
      let waited := read.pass (200 + bus.elapsed 3)
      [soc, unlocked, written, read, waited] ++
        waited.setMhz 1800 bus.intpll fun index => bus.elapsed (4 + index)

namespace A53

/-- The rate of the A53 in MHz; it must not run from a PLL that locks. -/
def mhz (soc : A53) : Option Nat :=
  match soc.coreSel with
  | .sysPll1_800m => some 800
  | .armPll => soc.armPll

/-- A rate of at most 1.2 GHz, or at most 1.8 GHz with 1.00 V. -/
def Safe (soc : A53) : Prop :=
  ∃ rate, soc.mhz = some rate ∧
    (rate ≤ 1200 ∨ rate ≤ 1800 ∧ 1000000 ≤ soc.rail)

/-- The rail is above a level and stays there. -/
def Above (soc : A53) (level : Nat) : Prop :=
  level ≤ soc.rail ∧ level ≤ soc.target

variable
    {soc : A53} {level micros : Nat}

@[simp]
theorem target_pass : (soc.pass micros).target = soc.target :=
  rfl

@[simp]
theorem mhz_pass : (soc.pass micros).mhz = soc.mhz :=
  rfl

@[simp]
theorem voltRun_pass : (soc.pass micros).voltRun = soc.voltRun :=
  rfl

/-- A rail that is above a level does not sink below it. -/
theorem Above.pass (above : soc.Above level) (micros : Nat) :
    (soc.pass micros).Above level := by
  obtain ⟨rail, target⟩ := above
  refine ⟨?_, target⟩
  simp only [A53.pass]
  split_ifs <;> omega

/-- The rail rises by 1.25 mV in each microsecond, up to its target. -/
theorem above_of_wait {low : Nat} (above : low ≤ soc.rail)
    (target : level ≤ soc.target) (enough : level ≤ low + 1250 * micros) :
    (soc.pass micros).Above level := by
  refine ⟨?_, target⟩
  simp only [A53.pass]
  split_ifs <;> omega

/-- A higher voltage keeps the rail above the level. -/
theorem Above.writeVolt (above : soc.Above level) (outcome : I2cWrite)
    {value : BitVec 8} (high : level ≤ 700000 + 10000 * value.toNat) :
    (soc.writeVolt outcome value).Above level := by
  rw [A53.writeVolt]
  split_ifs
  · exact ⟨above.1, high⟩
  · exact above

theorem voltRun_writeLock (outcome : I2cWrite) (value : BitVec 8) :
    (soc.writeLock outcome value).voltRun = soc.voltRun := by
  rw [A53.writeLock]
  split_ifs <;> rfl

/-- An acknowledged write takes if the register is not locked. -/
theorem voltRun_writeVolt_acked (value : BitVec 8) :
    (soc.writeVolt .acked value).voltRun = value ↔
      soc.voltRun = value ∨ soc.regLock &&& regLockVreg = 0 := by
  rw [A53.writeVolt]
  split_ifs with reached
  · exact iff_of_true rfl (.inr reached.2)
  · have locked : ¬ soc.regLock &&& regLockVreg = 0 :=
      fun clear => reached ⟨rfl, clear⟩
    exact (or_iff_left locked).symm

/-- A rate that is safe stays safe while the rail moves. -/
theorem safe_pass {rate : Nat} (runs : soc.mhz = some rate)
    (fits : rate ≤ 1200 ∨ rate ≤ 1800 ∧ soc.Above 1000000) :
    (soc.pass micros).Safe := by
  refine ⟨rate, runs, ?_⟩
  rcases fits with slow | ⟨fast, above⟩
  · exact .inl slow
  · exact .inr ⟨fast, (above.pass micros).1⟩

/-- The states of `a53_set_mhz` are safe, and the last one has the rate. -/
theorem setMhz_spec (above : soc.Above 1000000) (runs : soc.armPll = some 1200)
    (intpll : Bool) (elapsed : Nat → Nat) :
    (∀ state ∈ soc.setMhz 1800 intpll elapsed,
        ∀ micros, (state.pass micros).Safe) ∧
      ∃ last, (soc.setMhz 1800 intpll elapsed).getLast? = some last ∧
        last.mhz = some (if intpll then 1800 else 1200) := by
  have parks : ∀ (state : A53), state.coreSel = .sysPll1_800m →
      ∀ micros, (state.pass micros).Safe := by
    intro state parked micros
    have rate : state.mhz = some 800 := by rw [mhz, parked]
    exact safe_pass rate (.inl (by decide))
  cases intpll with
  | false =>
      refine ⟨?_, _, rfl, runs⟩
      refine List.forall_mem_cons.mpr ⟨parks _ rfl, ?_⟩
      refine List.forall_mem_cons.mpr ⟨fun micros => ?_, List.forall_mem_nil _⟩
      exact @safe_pass _ _ 1200 runs (.inl le_rfl)
  | true =>
      refine ⟨?_, _, rfl, rfl⟩
      refine List.forall_mem_cons.mpr ⟨parks _ rfl, ?_⟩
      refine List.forall_mem_cons.mpr ⟨parks _ rfl, ?_⟩
      refine List.forall_mem_cons.mpr ⟨parks _ rfl, ?_⟩
      refine List.forall_mem_cons.mpr ⟨fun micros => ?_, List.forall_mem_nil _⟩
      have high := (((above.pass (elapsed 0)).pass (elapsed 1)).pass
        (elapsed 2)).pass (elapsed 3)
      exact @safe_pass _ _ 1800 rfl (.inr ⟨le_rfl, high⟩)

end A53

/-- The A53 runs at 1.2 GHz, with its rail and its target not below 0.75 V. -/
structure A53.Runs1200 (soc : A53) : Prop where
  coreSel : soc.coreSel = .armPll
  armPll : soc.armPll = some 1200
  above : soc.Above 750000

theorem A53.Runs1200.mhz {soc : A53} (runs : soc.Runs1200) :
    soc.mhz = some 1200 := by
  rw [A53.mhz, runs.coreSel, runs.armPll]

theorem A53.Runs1200.pass {soc : A53} (runs : soc.Runs1200) (micros : Nat) :
    (soc.pass micros).Runs1200 :=
  ⟨runs.coreSel, runs.armPll, runs.above.pass micros⟩

theorem A53.Runs1200.writeLock {soc : A53} (runs : soc.Runs1200)
    (outcome : I2cWrite) (value : BitVec 8) :
    (soc.writeLock outcome value).Runs1200 := by
  rw [A53.writeLock]
  split_ifs
  · exact ⟨runs.coreSel, runs.armPll, runs.above⟩
  · exact runs

theorem A53.Runs1200.writeVolt {soc : A53} (runs : soc.Runs1200)
    (outcome : I2cWrite) {value : BitVec 8}
    (high : 750000 ≤ 700000 + 10000 * value.toNat) :
    (soc.writeVolt outcome value).Runs1200 := by
  have above := runs.above.writeVolt outcome high
  rw [A53.writeVolt] at above ⊢
  split_ifs at above ⊢
  · exact ⟨runs.coreSel, runs.armPll, above⟩
  · exact runs

theorem A53.Runs1200.safe_pass {soc : A53} (runs : soc.Runs1200)
    (micros : Nat) : (soc.pass micros).Safe :=
  A53.safe_pass runs.mhz (.inl le_rfl)

/-- The register can take the value, or it has the value already. -/
def A53Bus.Reaches (bus : A53Bus) (soc : A53) : Prop :=
  soc.voltRun = overdriveVal ∨ soc.regLock &&& regLockVreg = 0 ∨
    bus.lockRead = true ∧ A53.lands bus.lockWrite = true

/-- Everything up to the read-back succeeds. -/
structure A53Bus.Confirms (bus : A53Bus) (soc : A53) : Prop where
  i2c1 : bus.i2c1 = true
  pmic : bus.pmic = true
  acked : bus.voltWrite = .acked
  voltRead : bus.voltRead = true
  reaches : bus.Reaches soc

/-- Clearing the lock bit clears it. -/
theorem and_not_regLockVreg (value : BitVec 8) :
    (value &&& ~~~ regLockVreg) &&& regLockVreg = 0 := by
  rw [BitVec.and_assoc, BitVec.not_and_self]
  exact BitVec.and_zero

/-- The lock bit is clear if it was, or if the write to it lands. -/
theorem A53.regLock_writeLock (soc : A53) (outcome : I2cWrite) :
    (soc.writeLock outcome (soc.regLock &&& ~~~ regLockVreg)).regLock &&&
        regLockVreg = 0 ↔
      soc.regLock &&& regLockVreg = 0 ∨ A53.lands outcome = true := by
  rw [A53.writeLock]
  split_ifs with landed
  · exact iff_of_true (and_not_regLockVreg _) (.inr landed)
  · exact (or_iff_left landed).symm

/--
Whatever the transfers do and however long each step takes, at no time does
the A53 run at more than 1.2 GHz below 1.00 V, or from a PLL that locks.  It
ends at 1.8 GHz if the read-back confirms the voltage and the PLL locks, and
at 1.2 GHz otherwise.
-/
theorem a53Overdrive_safe (bus : A53Bus) (soc : A53) (runs : soc.Runs1200) :
    (∀ state ∈ a53Overdrive bus soc, ∀ micros, (state.pass micros).Safe) ∧
      ∃ last, (a53Overdrive bus soc).getLast? = some last ∧
        (bus.Confirms soc ∧ bus.intpll = true → last.mhz = some 1800) ∧
        (¬ (bus.Confirms soc ∧ bus.intpll = true) → last.mhz = some 1200) := by
  rw [a53Overdrive]
  by_cases i2c1 : bus.i2c1 = true
  case neg =>
    rw [if_pos i2c1]
    refine ⟨?_, soc, rfl, fun both => absurd both.1.i2c1 i2c1,
      fun _ => runs.mhz⟩
    simpa using runs.safe_pass
  rw [if_neg (not_not.mpr i2c1)]
  by_cases pmic : bus.pmic = true
  case neg =>
    rw [if_pos pmic]
    refine ⟨?_, soc, rfl, fun both => absurd both.1.pmic pmic,
      fun _ => runs.mhz⟩
    simpa using runs.safe_pass
  rw [if_neg (not_not.mpr pmic)]
  -- the lock bit is clear, or the register is as it was
  obtain ⟨unlocked, unlockedEq⟩ : ∃ unlocked, unlocked =
      (if bus.lockRead then
        (soc.pass (bus.elapsed 0)).writeLock bus.lockWrite
          (soc.regLock &&& ~~~ regLockVreg)
      else soc.pass (bus.elapsed 0)) := ⟨_, rfl⟩
  have unlock : unlocked.Runs1200 ∧ unlocked.voltRun = soc.voltRun ∧
      (unlocked.regLock &&& regLockVreg = 0 ↔
        soc.regLock &&& regLockVreg = 0 ∨
          bus.lockRead = true ∧ A53.lands bus.lockWrite = true) := by
    have passed := runs.pass (bus.elapsed 0)
    rw [unlockedEq]
    split_ifs with reads
    · refine ⟨passed.writeLock _ _, A53.voltRun_writeLock _ _, ?_⟩
      rw [and_iff_right reads]
      exact A53.regLock_writeLock (soc.pass (bus.elapsed 0)) bus.lockWrite
    · exact ⟨passed, rfl, (or_iff_left fun both => reads both.1).symm⟩
  simp only [← unlockedEq]
  obtain ⟨unlockedRuns, volt, free⟩ := unlock
  obtain ⟨written, writtenEq⟩ : ∃ written, written =
      (unlocked.pass (bus.elapsed 1)).writeVolt bus.voltWrite overdriveVal :=
    ⟨_, rfl⟩
  have writtenRuns : written.Runs1200 := by
    rw [writtenEq]
    exact (unlockedRuns.pass _).writeVolt _ (by decide)
  have confirmed : bus.voltWrite = .acked →
      (written.voltRun = overdriveVal ↔ bus.Reaches soc) := by
    intro acked
    rw [writtenEq, acked, A53.voltRun_writeVolt_acked, A53.voltRun_pass, volt]
    exact or_congr_right free
  simp only [← writtenEq]
  split_ifs with bad
  · refine ⟨?_, _, rfl, ?_, fun _ => writtenRuns.mhz⟩
    · simp only [List.forall_mem_cons]
      exact ⟨runs.safe_pass, unlockedRuns.safe_pass, writtenRuns.safe_pass,
        (writtenRuns.pass _).safe_pass, List.forall_mem_nil _⟩
    · rintro ⟨confirms, -⟩
      rcases bad with other | fails | other
      · exact absurd confirms.acked other
      · exact absurd confirms.voltRead fails
      · exact absurd ((confirmed confirms.acked).mpr confirms.reaches) other
  · push Not at bad
    obtain ⟨acked, reads, value⟩ := bad
    have confirms : bus.Confirms soc :=
      ⟨i2c1, pmic, acked, reads, (confirmed acked).mp value⟩
    have readRuns := writtenRuns.pass (bus.elapsed 2)
    -- 200 microseconds take the rail from 0.75 V to 1.00 V
    have high :
        ((written.pass (bus.elapsed 2)).pass (200 + bus.elapsed 3)).Above
          1000000 := by
      refine A53.above_of_wait readRuns.above.1 ?_ (by omega)
      rw [A53.target, value]
      decide
    obtain ⟨safe, last, lastEq, lastRate⟩ :=
      A53.setMhz_spec high writtenRuns.armPll bus.intpll
        fun index => bus.elapsed (4 + index)
    refine ⟨?_, last, ?_, ?_, ?_⟩
    · simp only [List.cons_append, List.nil_append, List.forall_mem_cons]
      exact ⟨runs.safe_pass, unlockedRuns.safe_pass, writtenRuns.safe_pass,
        readRuns.safe_pass, (readRuns.pass _).safe_pass, safe⟩
    · rw [List.getLast?_append, lastEq]
      rfl
    · rintro ⟨-, locks⟩
      rw [lastRate, if_pos locks]
    · intro fails
      rw [lastRate, if_neg fun locks => fails ⟨confirms, locks⟩]

namespace Bench

/-- The rail at 0.90 V, and the registers locked. -/
def xpiA53 : A53 where
  coreSel := .armPll
  armPll := some 1200
  regLock := 0x11
  voltRun := 0x14
  rail := 900000

/-- The write to the lock is not acknowledged, but it reaches the PMIC. -/
def xpiBus : A53Bus where
  i2c1 := true
  pmic := true
  lockRead := true
  lockWrite := .failed true
  voltWrite := .acked
  voltRead := true
  intpll := true
  elapsed _ := 0

theorem xpiA53_overdrive :
    ∃ last, (a53Overdrive xpiBus xpiA53).getLast? = some last ∧
      last.mhz = some 1800 := by
  obtain ⟨-, last, lastEq, fast, -⟩ :=
    a53Overdrive_safe xpiBus xpiA53 ⟨rfl, rfl, ⟨by decide, by decide⟩⟩
  exact
    ⟨last, lastEq,
      fast ⟨⟨rfl, rfl, rfl, rfl, .inr (.inr ⟨rfl, rfl⟩)⟩, rfl⟩⟩

end Bench

end KmmYocto
