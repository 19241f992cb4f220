import KmmYocto.LinuxSlots

/-!
# How often a trial can be started

A pending trial is a small protocol of its own: the SPL counts a try when it
picks the slot, U-Boot proper counts again on its path, and either of them
ends the trial once the count is over the limit.  `Stage` is that protocol,
with the stored count as its only datum; the device follows it whatever is
reset, crashes or is written for the M-core in between.
-/

namespace KmmYocto

/-- How far a trial has come; the number is the stored count. -/
inductive Stage where
  /-- The SPL has not picked a partition yet. -/
  | waiting (count : Nat)
  /-- The SPL has picked the tried slot. -/
  | chosen (count : Nat)
  /-- U-Boot proper has counted the boot as well. -/
  | counted (count : Nat)
  /-- The trial is over and the fallback slot is back. -/
  | fallen

namespace Stage

/--
The protocol of a trial.  The flag says whether the SPL decides in this step,
and the slot is the one whose kernel the step starts.
-/
inductive Next (trial : SlotState) (limit : Nat) :
    Stage → Bool → Option Slot → Stage → Prop where
  | stays (stage : Stage) : Next trial limit stage false none stage
  | restarts {count : Nat} :
      Next trial limit (.chosen count) false none (.waiting count)
  | restartsCounted {count : Nat} :
      Next trial limit (.counted count) false none (.waiting count)
  | picksTried {count : Nat} (within : count + 1 ≤ limit) :
      Next trial limit (.waiting count) true none (.chosen (count + 1))
  | picksFallback {count : Nat} :
      Next trial limit (.waiting count) true none .fallen
  | counts {count : Nat} :
      Next trial limit (.chosen count) false none (.counted (count + 1))
  | startsTried {count : Nat} :
      Next trial limit (.chosen count) false (some trial.slot)
        (.waiting count)
  | startsCounted {count : Nat} (within : count ≤ limit) :
      Next trial limit (.counted count) false (some trial.slot)
        (.waiting count)
  | startsFallback {count : Nat} :
      Next trial limit (.counted count) false (some trial.fallback) .fallen
  | picksFallen : Next trial limit .fallen true none .fallen
  | startsFallen :
      Next trial limit .fallen false (some trial.fallback) .fallen

/-- How many kernels of the tried slot can still be started. -/
def starts (limit : Nat) : Stage → Nat
  | .waiting count => limit - count
  | .chosen count => limit - count + 1
  | .counted count => if count ≤ limit then limit - count + 1 else 0
  | .fallen => 0

/-- How many more decisions can leave the trial open. -/
def decisions (limit : Nat) : Stage → Nat
  | .waiting count => limit - count
  | .chosen count => limit - count
  | .counted count => limit - count
  | .fallen => 0

/-- The trial is not over. -/
def Open (stage : Stage) : Prop :=
  stage ≠ .fallen

variable
    {trial : SlotState} {limit : Nat} {stage next : Stage} {decides : Bool}
    {started : Option Slot}

/-- Every start of the tried slot is paid for. -/
theorem Next.pays_start (step : Next trial limit stage decides started next)
    (distinct : trial.slot ≠ trial.fallback) :
    next.starts limit + (decide (started = some trial.slot)).toNat ≤
      stage.starts limit := by
  have other : ¬ some trial.fallback = some trial.slot :=
    fun equal => distinct (Option.some.inj equal).symm
  cases step with
  | stays => simp
  | restarts => simp [starts]
  | @restartsCounted count =>
      simp only [starts]
      split_ifs
      · simp
      · simp
        omega
  | picksTried within =>
      simp only [starts, reduceCtorEq, decide_false, Bool.toNat_false]
      omega
  | picksFallback => simp [starts]
  | counts =>
      simp only [starts, reduceCtorEq, decide_false, Bool.toNat_false]
      split_ifs <;> omega
  | startsTried => simp [starts]
  | startsCounted within => simp [starts, within]
  | startsFallback => simp [starts, other]
  | picksFallen => simp [starts]
  | startsFallen => simp [starts, other]

/-- Every decision that leaves the trial open is paid for. -/
theorem Next.pays_decision
    (step : Next trial limit stage decides started next)
    (stillOpen : next.Open) :
    stage.Open ∧
      next.decisions limit + decides.toNat ≤ stage.decisions limit := by
  cases step with
  | stays => exact ⟨stillOpen, by simp⟩
  | restarts => exact ⟨nofun, by simp [decisions]⟩
  | restartsCounted => exact ⟨nofun, by simp [decisions]⟩
  | picksTried within =>
      refine ⟨nofun, ?_⟩
      simp only [decisions, Bool.toNat_true]
      omega
  | picksFallback => exact absurd rfl stillOpen
  | counts =>
      refine ⟨nofun, ?_⟩
      simp only [decisions, Bool.toNat_false]
      omega
  | startsTried => exact ⟨nofun, by simp [decisions]⟩
  | startsCounted within => exact ⟨nofun, by simp [decisions]⟩
  | startsFallback => exact absurd rfl stillOpen
  | picksFallen => exact absurd rfl stillOpen
  | startsFallen => exact absurd rfl stillOpen

/-- After the trial only the fallback slot is started. -/
theorem Next.of_fallen (step : Next trial limit .fallen decides started next) :
    next = .fallen ∧ (started = none ∨ started = some trial.fallback) := by
  cases step with
  | stays => exact ⟨rfl, .inl rfl⟩
  | picksFallen => exact ⟨rfl, .inl rfl⟩
  | startsFallen => exact ⟨rfl, .inr rfl⟩

end Stage

/-! ## The environment during a trial -/

namespace Env

/-- The environment spells out a pending trial, its limit and its count. -/
structure Trying (env : Env) (trial : SlotState) (limit count : Nat) :
    Prop where
  holds : env.Holds trial
  readsLimit : env.get .bootlimit = some (digitString limit)
  readsCount : env.getUlong .bootcount 0 = count
  small : count ≤ limit + 1

namespace Trying

variable
    {env other : Env} {trial : SlotState} {limit count : Nat}

theorem of_agree (trying : env.Trying trial limit count)
    (agree : ∀ name, name ≠ .mcoreSlot → name ≠ .mcoreTry →
      name ≠ .bootOs → other.get name = env.get name) :
    other.Trying trial limit count where
  holds :=
    trying.holds.of_agree
      (agree .abSlot (by decide) (by decide) (by decide))
      (agree .abFallbackSlot (by decide) (by decide) (by decide))
      (agree .upgradeAvailable (by decide) (by decide) (by decide))
  readsLimit :=
    (agree .bootlimit (by decide) (by decide) (by decide)).trans trying.readsLimit
  readsCount := by
    rw [getUlong, agree .bootcount (by decide) (by decide) (by decide),
      ← getUlong, trying.readsCount]
  small := trying.small

theorem getUlong_bootlimit (trying : env.Trying trial limit count)
    (digit : limit ≤ 9) (default : Nat) :
    env.getUlong .bootlimit default = limit := by
  rw [getUlong, trying.readsLimit]
  simp [digit]

theorem nextTry_eq (trying : env.Trying trial limit count)
    (digit : limit ≤ 9) : env.nextTry = count + 1 := by
  have small := trying.small
  rw [nextTry, trying.readsCount]
  omega

/-- The SPL counts a try within the limit. -/
theorem picked_within (trying : env.Trying trial limit count)
    (pending : trial.trial = true) (digit : limit ≤ 9)
    (within : count + 1 ≤ limit) :
    env.picked.Trying trial limit (count + 1) := by
  have inTrial : env.InTrial := trying.holds.inTrial.mpr pending
  have allowed : ¬ env.Exhausted := by
    rw [Exhausted, trying.nextTry_eq digit, trying.getUlong_bootlimit digit]
    omega
  have kept : ∀ name, name ≠ .bootcount →
      env.picked.get name = env.get name := by
    intro name distinct
    rw [picked, if_pos inTrial, if_neg allowed,
      get_countTry_of_ne env distinct]
  refine ⟨?_, ?_, ?_, by omega⟩
  · exact
      trying.holds.of_agree (kept _ (by decide)) (kept _ (by decide))
        (kept _ (by decide))
  · exact (kept _ (by decide)).trans trying.readsLimit
  · rw [picked, if_pos inTrial, if_neg allowed, countTry,
      trying.nextTry_eq digit]
    simp only [getUlong, get_set_self, digitString_ne_empty, if_false,
      simpleStrtoul_digitString]
    omega

/-- Over the limit the SPL ends the trial. -/
theorem picked_over (trying : env.Trying trial limit count)
    (pending : trial.trial = true) (digit : limit ≤ 9)
    (exceeds : limit < count + 1) : env.picked.Holds trial.settle := by
  have inTrial : env.InTrial := trying.holds.inTrial.mpr pending
  have exhausted : env.Exhausted := by
    rw [Exhausted, trying.nextTry_eq digit, trying.getUlong_bootlimit digit]
    exact exceeds
  rw [picked, if_pos inTrial, if_pos exhausted]
  exact trying.holds.fallBack pending

/-- U-Boot proper counts as well. -/
theorem bootcountInc (trying : env.Trying trial limit count)
    (pending : trial.trial = true) (digit : limit ≤ 9)
    (within : count ≤ limit) :
    env.bootcountInc.Trying trial limit (count + 1) where
  holds := trying.holds.bootcountInc
  readsLimit :=
    (get_bootcountInc_of_ne env (by decide)).trans trying.readsLimit
  readsCount := by
    have load : env.bootcountLoad = count := by
      rw [bootcountLoad, if_pos (trying.holds.upgrading.mpr pending),
        trying.readsCount]
    rw [Env.bootcountInc, getUlong_setUlong, load]
    omega
  small := by omega

/-- With a limit set, U-Boot proper gives up once the count is over it. -/
theorem bootcountError_iff (trying : env.Trying trial limit count)
    (pending : trial.trial = true) (digit : limit ≤ 9)
    (positive : 0 < limit) :
    env.BootcountError ↔ limit < count := by
  rw [BootcountError, trying.getUlong_bootlimit digit, bootcountLoad,
    if_pos (trying.holds.upgrading.mpr pending), trying.readsCount]
  omega

end Trying

/-- Outside a trial the SPL leaves the environment alone. -/
theorem Holds.picked_of_settled {env : Env} {state : SlotState}
    (holds : env.Holds state) (settled : state.trial = false) :
    env.picked = env := by
  have notTrial : ¬ env.InTrial := by
    rw [holds.inTrial, settled]
    decide
  rw [Env.picked, if_neg notTrial]

/-- The SPL picks the partition of the slot that the state names. -/
theorem Holds.abPart_afterPick {env : Env} {state : SlotState}
    (holds : env.picked.Holds state) (spl : Spl) :
    (spl.afterPick env).abPart = state.slot.bootpart := by
  show ((slotChar (env.picked.get .abSlot)).bootpart : Int) = _
  rw [holds.slotChar_eq]

theorem Holds.not_bootcountError {env : Env} {state : SlotState}
    (holds : env.Holds state) (settled : state.trial = false) :
    ¬ env.BootcountError := by
  intro exceeded
  have pending := holds.upgrading.mp exceeded.upgrading
  rw [settled] at pending
  cases pending

/-- Outside a trial no change of the boot chain moves the state. -/
theorem Holds.change {env : Env} {state : SlotState} (change : Change)
    (settled : state.trial = false) (holds : env.Holds state) :
    (change.apply env).Holds state := by
  cases change with
  | pick =>
      rw [Change.apply, holds.picked_of_settled settled]
      exact holds
  | disarm => exact holds.disarmed
  | untry => exact holds.untried
  | count => exact holds.bootcountInc
  | alt =>
      rw [Change.apply, if_neg (holds.not_bootcountError settled)]
      exact holds

end Env

/-! ## The device in a trial -/

/-- The step neither loses a save nor belongs to `ab linux`. -/
def Act.LeavesTrial : Act → Prop
  | .fsBootPartition save => save = .stored
  | .startUboot save => save = .stored
  | .mcoreStage save => save = .stored
  | .bootcountInc save => save = .stored
  | .bootCommand save => save = .stored
  | .ab command _ => command.isMcore = true
  | _ => True

namespace Machine

/-- The slot whose kernel is started between two states of the device. -/
def started (before after : Machine) : Option Slot :=
  match before.phase, after.phase with
  | .linux _, _ => none
  | _, .linux boot => some boot.running
  | _, _ => none

/-- The SPL settles on a partition between two states of the device. -/
def decides (before after : Machine) : Bool :=
  match before.phase, after.phase with
  | .spl _ undecided, .spl _ decided =>
      decide (undecided.abPart = 0 ∧ decided.abPart ≠ 0)
  | _, _ => false

@[simp]
theorem started_self (machine : Machine) : started machine machine = none := by
  rcases machine with ⟨disk, ⟨pc, spl⟩ | ⟨counted, ram⟩ | boot⟩ <;> rfl

@[simp]
theorem decides_self (machine : Machine) :
    decides machine machine = false := by
  rcases machine with ⟨disk, ⟨pc, spl⟩ | ⟨counted, ram⟩ | boot⟩
  · simp only [decides, decide_eq_false_iff_not]
    exact fun both => both.2 both.1
  · rfl
  · rfl

@[simp]
theorem started_reset (machine : Machine) :
    started machine { machine with phase := .spl .start Spl.start } =
      none := by
  rcases machine with ⟨disk, ⟨pc, spl⟩ | ⟨counted, ram⟩ | boot⟩ <;> rfl

@[simp]
theorem decides_reset (machine : Machine) :
    decides machine { machine with phase := .spl .start Spl.start } =
      false := by
  rcases machine with ⟨disk, ⟨pc, spl⟩ | ⟨counted, ram⟩ | boot⟩
  · simp [decides, Spl.start]
  · rfl
  · rfl

/-- A step that starts a kernel is not one of the SPL's decisions. -/
theorem decides_of_started {before after : Machine} {slot : Slot}
    (starts : started before after = some slot) :
    decides before after = false := by
  rcases before with ⟨disk, ⟨pc, spl⟩ | ⟨counted, ram⟩ | boot⟩
  · rcases after with ⟨later, ⟨next, decided⟩ | ⟨counted, ram⟩ | boot⟩
    · cases starts
    · rfl
    · rfl
  · rfl
  · rfl

/-- The SPL, if it runs, has not decided yet or has decided for the slot. -/
def HeadsFor (slot : Slot) (machine : Machine) : Prop :=
  match machine.phase with
  | .spl pc spl =>
      (pc = .start ∧ spl.abPart = 0) ∨
        (pc ≠ .start ∧ spl.abPart = slot.bootpart)
  | .proper _ _ => True
  | .linux _ => True

section Heads

variable
    {machine : Machine} {slot : Slot} {pc : SplPc} {spl : Spl}

theorem HeadsFor.of_decided (heads : machine.HeadsFor slot)
    (runs : machine.phase = .spl pc spl) (decided : spl.abPart ≠ 0) :
    pc ≠ .start ∧ spl.abPart = slot.bootpart := by
  rw [HeadsFor, runs] at heads
  exact heads.resolve_left fun both => decided both.2

theorem HeadsFor.of_later (heads : machine.HeadsFor slot)
    (runs : machine.phase = .spl pc spl) (later : pc ≠ .start) :
    spl.abPart = slot.bootpart := by
  rw [HeadsFor, runs] at heads
  exact (heads.resolve_left fun both => later both.1).2

theorem HeadsFor.of_undecided (heads : machine.HeadsFor slot)
    (runs : machine.phase = .spl pc spl) (undecided : spl.abPart = 0) :
    pc = .start := by
  have bound : (0 : Int) < slot.bootpart := by cases slot <;> decide
  rw [HeadsFor, runs] at heads
  rcases heads with ⟨first, -⟩ | ⟨-, part⟩
  · exact first
  · omega

end Heads

/-- The device is at a stage of the trial. -/
inductive AtStage (trial : SlotState) (limit : Nat) :
    Machine → Stage → Prop where
  | inLinux {disk : Disk} {boot : LinuxBoot} {count : Nat}
      (stored : disk.env.Trying trial limit count) :
      AtStage trial limit ⟨disk, .linux boot⟩ (.waiting count)
  | undecided {disk : Disk} {spl : Spl} {count : Nat}
      (undecided : spl.abPart = 0)
      (unchanged : spl.env disk.env = disk.env)
      (stored : disk.env.Trying trial limit count) :
      AtStage trial limit ⟨disk, .spl .start spl⟩ (.waiting count)
  | chosen {disk : Disk} {pc : SplPc} {spl : Spl} {count : Nat}
      (asked : pc ≠ .start) (part : spl.abPart = trial.slot.bootpart)
      (work : (spl.env disk.env).Trying trial limit count)
      (stored : disk.env.Trying trial limit count)
      (within : 0 < limit ∧ count ≤ limit) :
      AtStage trial limit ⟨disk, .spl pc spl⟩ (.chosen count)
  | uncounted {disk : Disk} {ram : Env} {count : Nat}
      (work : ram.Trying trial limit count)
      (stored : disk.env.Trying trial limit count)
      (within : 0 < limit ∧ count ≤ limit) :
      AtStage trial limit ⟨disk, .proper false ram⟩ (.chosen count)
  | counted {disk : Disk} {ram : Env} {count : Nat}
      (work : ram.Trying trial limit count)
      (stored : disk.env.Trying trial limit count)
      (positive : 0 < limit) :
      AtStage trial limit ⟨disk, .proper true ram⟩ (.counted count)
  | fallen {machine : Machine}
      (work : machine.workEnv.Holds trial.settle)
      (stored : machine.disk.env.Holds trial.settle)
      (heads : machine.HeadsFor trial.fallback) :
      AtStage trial limit machine .fallen

namespace AtStage

variable
    {platform : Platform} {trial : SlotState} {limit : Nat}
    {machine next : Machine} {stage : Stage} {act : Act}

theorem stored_of_fallen (reached : AtStage trial limit machine .fallen) :
    machine.disk.env.Holds trial.settle := by
  cases reached with
  | fallen work stored heads => exact stored

/-- The protocol allows the step between two states of the device. -/
def Follows (trial : SlotState) (limit : Nat) (machine : Machine)
    (stage : Stage) (next : Machine) : Prop :=
  ∃ nextStage : Stage,
    AtStage trial limit next nextStage ∧
      Stage.Next trial limit stage (decides machine next)
        (started machine next) nextStage

/-- A step that neither decides nor starts a kernel may keep the stage. -/
theorem Follows.stays (same : AtStage trial limit next stage)
    (undecided : decides machine next = false)
    (unstarted : started machine next = none) :
    Follows trial limit machine stage next := by
  refine ⟨stage, same, ?_⟩
  rw [undecided, unstarted]
  exact .stays stage

/-- After the trial, the SPL may decide and the fallback slot may start. -/
theorem Follows.ofFallen (reached : AtStage trial limit next .fallen)
    (returns : started machine next = none ∨
      started machine next = some trial.fallback) :
    Follows trial limit machine .fallen next := by
  refine ⟨.fallen, reached, ?_⟩
  rcases returns with none | starts
  · rw [none]
    cases decides machine next with
    | false => exact .stays .fallen
    | true => exact .picksFallen
  · rw [decides_of_started starts, starts]
    exact .startsFallen

/-- A reset forgets everything but the stored count. -/
theorem follows_reset (reached : AtStage trial limit machine stage) :
    Follows trial limit machine stage
      { machine with phase := .spl .start Spl.start } := by
  have quiet :
      ∀ nextStage,
        AtStage trial limit
            { machine with phase := .spl .start Spl.start } nextStage →
          Stage.Next trial limit stage false none nextStage →
            Follows trial limit machine stage
              { machine with phase := .spl .start Spl.start } := by
    intro nextStage restarted allowed
    refine ⟨nextStage, restarted, ?_⟩
    rw [decides_reset, started_reset]
    exact allowed
  cases reached with
  | inLinux stored =>
      exact quiet _ (.undecided rfl rfl stored) (.stays _)
  | undecided undecided unchanged stored =>
      exact quiet _ (.undecided rfl rfl stored) (.stays _)
  | chosen asked part work stored within =>
      exact quiet _ (.undecided rfl rfl stored) .restarts
  | uncounted work stored within =>
      exact quiet _ (.undecided rfl rfl stored) .restarts
  | counted work stored positive =>
      exact quiet _ (.undecided rfl rfl stored) .restartsCounted
  | fallen work stored heads =>
      exact quiet _ (.fallen stored stored (.inl ⟨rfl, rfl⟩)) (.stays _)

/-- The deciding call counts a try, or ends the trial. -/
theorem follows_picks {disk : Disk} {spl : Spl} {count : Nat}
    (pending : trial.trial = true) (digit : limit ≤ 9)
    (undecided : spl.abPart = 0)
    (stored : disk.env.Trying trial limit count) :
    Follows trial limit ⟨disk, .spl .start spl⟩ (.waiting count)
      ⟨{ disk with env := disk.env.picked },
        .spl .picked (spl.afterPick disk.env)⟩ := by
  have decided : (spl.afterPick disk.env).abPart ≠ 0 :=
    Int.ne_of_gt (Spl.abPart_afterPick_pos spl disk.env)
  have decides :
      decides ⟨disk, .spl .start spl⟩
        ⟨{ disk with env := disk.env.picked },
          .spl .picked (spl.afterPick disk.env)⟩ = true := by
    simp only [Machine.decides, decide_eq_true_eq]
    exact ⟨undecided, decided⟩
  by_cases within : count + 1 ≤ limit
  · have tried := stored.picked_within pending digit within
    have part :
        (spl.afterPick disk.env).abPart = trial.slot.bootpart :=
      tried.holds.abPart_afterPick spl
    refine
      ⟨.chosen (count + 1),
        .chosen nofun part tried tried ⟨by omega, within⟩, ?_⟩
    rw [decides]
    exact .picksTried within
  · have settled := stored.picked_over pending digit (by omega)
    have part :
        (spl.afterPick disk.env).abPart = trial.fallback.bootpart := by
      rw [settled.abPart_afterPick spl, SlotState.slot_settle,
        SlotState.confirmed_of_trial pending]
    refine ⟨.fallen, .fallen settled settled (.inr ⟨nofun, part⟩), ?_⟩
    rw [decides]
    exact .picksFallback

/-- Once the trial is over, the boot chain returns to the fallback slot. -/
theorem follows_fallen (pending : trial.trial = true)
    (work : machine.workEnv.Holds trial.settle)
    (stored : machine.disk.env.Holds trial.settle)
    (heads : machine.HeadsFor trial.fallback)
    (turn : Turn platform machine act next) :
    Follows trial limit machine .fallen next := by
  have settled : trial.settle.trial = false := rfl
  have returns : trial.settle.slot = trial.fallback :=
    SlotState.confirmed_of_trial pending
  have keeps : ∀ change env,
      env.Holds trial.settle → (Change.apply change env).Holds trial.settle :=
    fun change _ => Env.Holds.change change settled
  obtain ⟨nextWork, nextStored⟩ := turn.bootMoves.keeps keeps work stored
  have reached :
      next.HeadsFor trial.fallback → AtStage trial limit next .fallen :=
    fun heads => .fallen nextWork nextStored heads
  have boots : machine.workEnv.abBoot = trial.fallback :=
    work.abBoot_eq.trans returns
  cases turn with
  | idle => exact .ofFallen (reached heads) (.inl (started_self machine))
  | reset =>
      exact .ofFallen (reached (.inl ⟨rfl, rfl⟩)) (.inl (started_reset machine))
  | @asksAgain pc spl save runs decided =>
      obtain ⟨later, part⟩ := heads.of_decided runs decided
      refine .ofFallen (reached (.inr ⟨?_, part⟩)) (.inl ?_)
      · rwa [SplPc.afterAnswer_of_ne later]
      · simp only [started, runs]
  | @picks pc spl save runs undecided =>
      obtain rfl : pc = .start := heads.of_undecided runs undecided
      have part :
          (spl.afterPick (spl.env machine.disk.env)).abPart =
            trial.fallback.bootpart := by
        rw [← returns]
        exact nextWork.abPart_afterPick spl
      refine .ofFallen (reached (.inr ⟨?_, part⟩)) (.inl ?_)
      · rw [SplPc.start_afterAnswer (Spl.abPart_afterPick_pos _ _)]
        exact nofun
      · simp only [started, runs]
  | disarms save runs =>
      have part := heads.of_later runs nofun
      refine .ofFallen (reached (.inr ⟨nofun, part⟩)) (.inl ?_)
      simp only [started, runs]
  | loadsOs found runs =>
      have part := heads.of_later runs nofun
      refine .ofFallen (reached (.inr ⟨?_, part⟩)) (.inl ?_)
      · cases found <;> exact nofun
      · simp only [started, runs]
  | loadsUboot runs =>
      have part := heads.of_later runs nofun
      refine .ofFallen (reached (.inr ⟨nofun, part⟩)) (.inl ?_)
      simp only [started, runs]
  | stages save runs first =>
      have part := heads.of_later runs nofun
      refine .ofFallen (reached (.inr ⟨nofun, part⟩)) (.inl ?_)
      simp only [started, runs]
  | entersKernel runs done =>
      refine .ofFallen (reached trivial) (.inr ?_)
      simp only [started, runs, heads.of_later runs nofun, slotOfPart_bootpart]
  | entersProper runs done =>
      refine .ofFallen (reached trivial) (.inl ?_)
      simp only [started, runs]
  | counts save runs =>
      refine .ofFallen (reached trivial) (.inl ?_)
      simp only [started, runs]
  | boots save runs allowed =>
      refine .ofFallen (reached trivial) (.inr ?_)
      rw [workEnv, runs] at boots
      simp only [started, runs, boots]
  | bootsAlternative save runs exceeded =>
      rw [workEnv, runs] at work
      exact absurd exceeded (work.not_bootcountError settled)

/-- Between its decision and the jump the SPL saves, loads and stages. -/
theorem follows_chosen {disk : Disk} {pc : SplPc} {spl : Spl} {count : Nat}
    (asked : pc ≠ .start) (part : spl.abPart = trial.slot.bootpart)
    (work : (spl.env disk.env).Trying trial limit count)
    (stored : disk.env.Trying trial limit count)
    (within : 0 < limit ∧ count ≤ limit)
    (leaves : act.LeavesTrial)
    (turn : Turn platform ⟨disk, .spl pc spl⟩ act next) :
    Follows trial limit ⟨disk, .spl pc spl⟩ (.chosen count) next := by
  have decided : spl.abPart ≠ 0 := by
    rw [part]
    cases trial.slot <;> decide
  have stays :
      ∀ {later : Disk} {pc' : SplPc} {spl' : Spl},
        pc' ≠ .start → spl'.abPart = spl.abPart →
          (spl'.env later.env).Trying trial limit count →
            later.env.Trying trial limit count →
              Follows trial limit ⟨disk, .spl pc spl⟩ (.chosen count)
                ⟨later, .spl pc' spl'⟩ := by
    intro later pc' spl' asked' same work' stored'
    refine .stays (.chosen asked' (same.trans part) work' stored' within) ?_ rfl
    simp [decides, decided]
  have disarmed :
      (spl.env disk.env).disarmed.Trying trial limit count :=
    work.of_agree fun name _ _ other => Env.get_disarmed_of_ne _ other
  have untried :
      (spl.env disk.env).untried.Trying trial limit count :=
    work.of_agree fun name _ other _ => Env.get_untried_of_ne _ other
  cases turn with
  | idle => exact .stays (.chosen asked part work stored within) (decides_self _) rfl
  | reset => exact follows_reset (.chosen asked part work stored within)
  | asksAgain save runs decided =>
      cases runs
      rw [SplPc.afterAnswer_of_ne asked]
      exact stays asked rfl work stored
  | picks save runs undecided =>
      cases runs
      exact absurd undecided decided
  | disarms save runs =>
      cases runs
      obtain rfl : save = .stored := leaves
      refine stays nofun rfl disarmed ?_
      show (if _ then _ else _ : Env).Trying trial limit count
      split_ifs
      · exact disarmed
      · exact stored
  | loadsOs found runs =>
      cases runs
      refine stays ?_ rfl work stored
      cases found <;> exact nofun
  | loadsUboot runs =>
      cases runs
      exact stays nofun rfl work stored
  | stages save runs first =>
      cases runs
      obtain rfl : save = .stored := leaves
      refine stays nofun rfl untried ?_
      show (if _ then _ else _ : Env).Trying trial limit count
      split_ifs
      · exact stored
      · exact untried
  | entersKernel runs done =>
      cases runs
      refine ⟨_, .inLinux stored, ?_⟩
      simpa [decides, started, part] using .startsTried
  | entersProper runs done =>
      cases runs
      exact .stays (.uncounted stored stored within) rfl rfl
  | counts save runs => cases runs
  | boots save runs allowed => cases runs
  | bootsAlternative save runs exceeded => cases runs

/-- U-Boot proper counts the boot as well. -/
theorem follows_uncounted {disk : Disk} {ram : Env} {count : Nat}
    (pending : trial.trial = true) (digit : limit ≤ 9)
    (work : ram.Trying trial limit count)
    (stored : disk.env.Trying trial limit count)
    (within : 0 < limit ∧ count ≤ limit)
    (leaves : act.LeavesTrial)
    (turn : Turn platform ⟨disk, .proper false ram⟩ act next) :
    Follows trial limit ⟨disk, .proper false ram⟩ (.chosen count) next := by
  have reached :
      AtStage trial limit ⟨disk, .proper false ram⟩ (.chosen count) :=
    .uncounted work stored within
  cases turn with
  | idle => exact .stays reached rfl rfl
  | reset => exact follows_reset reached
  | counts save runs =>
      cases runs
      obtain rfl : save = .stored := leaves
      have counted := work.bootcountInc pending digit within.2
      rw [if_pos (work.holds.upgrading.mpr pending)]
      exact ⟨_, .counted counted counted within.1, .counts⟩
  | asksAgain save runs decided => cases runs
  | picks save runs undecided => cases runs
  | disarms save runs => cases runs
  | loadsOs found runs => cases runs
  | loadsUboot runs => cases runs
  | stages save runs first => cases runs
  | entersKernel runs done => cases runs
  | entersProper runs done => cases runs
  | boots save runs allowed => cases runs
  | bootsAlternative save runs exceeded => cases runs

/-- U-Boot proper gives up once the count is over the limit. -/
theorem follows_counted {disk : Disk} {ram : Env} {count : Nat}
    (pending : trial.trial = true) (digit : limit ≤ 9)
    (work : ram.Trying trial limit count)
    (stored : disk.env.Trying trial limit count)
    (positive : 0 < limit)
    (leaves : act.LeavesTrial)
    (turn : Turn platform ⟨disk, .proper true ram⟩ act next) :
    Follows trial limit ⟨disk, .proper true ram⟩ (.counted count) next := by
  have reached :
      AtStage trial limit ⟨disk, .proper true ram⟩ (.counted count) :=
    .counted work stored positive
  have exceeds := work.bootcountError_iff pending digit positive
  cases turn with
  | idle => exact .stays reached rfl rfl
  | reset => exact follows_reset reached
  | boots save runs allowed =>
      cases runs
      have within : count ≤ limit := Nat.le_of_not_lt (mt exceeds.mpr allowed)
      refine ⟨_, .inLinux stored, ?_⟩
      simpa [decides, started, work.holds.abBoot_eq] using
        .startsCounted within
  | bootsAlternative save runs exceeded =>
      cases runs
      obtain rfl : save = .stored := leaves
      have settled := work.holds.altbootcmd pending
      have returns : ram.altbootcmd.abBoot = trial.fallback :=
        settled.abBoot_eq.trans (SlotState.confirmed_of_trial pending)
      refine ⟨.fallen, .fallen settled settled trivial, ?_⟩
      simpa [decides, started, returns] using .startsFallback
  | asksAgain save runs decided => cases runs
  | picks save runs undecided => cases runs
  | disarms save runs => cases runs
  | loadsOs found runs => cases runs
  | loadsUboot runs => cases runs
  | stages save runs first => cases runs
  | entersKernel runs done => cases runs
  | entersProper runs done => cases runs
  | counts save runs => cases runs

/-- No step of the boot chain leaves the protocol. -/
theorem follows_turn (pending : trial.trial = true) (digit : limit ≤ 9)
    (reached : AtStage trial limit machine stage) (leaves : act.LeavesTrial)
    (turn : Turn platform machine act next) :
    Follows trial limit machine stage next := by
  cases reached with
  | inLinux stored =>
      rcases turn.of_linux with rfl | rfl
      · exact .stays (.inLinux stored) rfl rfl
      · exact follows_reset (.inLinux stored)
  | @undecided disk spl count undecided unchanged stored =>
      have reached :
          AtStage trial limit ⟨disk, .spl .start spl⟩ (.waiting count) :=
        .undecided undecided unchanged stored
      cases turn with
      | idle => exact .stays reached (decides_self _) rfl
      | reset => exact follows_reset reached
      | asksAgain save runs decided =>
          cases runs
          exact absurd undecided decided
      | picks save runs undecided =>
          cases runs
          obtain rfl : save = .stored := leaves
          have inTrial : disk.env.InTrial :=
            stored.holds.inTrial.mpr pending
          simp only [unchanged, if_pos inTrial, envSave_stored,
            SplPc.start_afterAnswer (Spl.abPart_afterPick_pos _ _)]
          exact follows_picks pending digit undecided stored
      | disarms save runs => cases runs
      | loadsOs found runs => cases runs
      | loadsUboot runs => cases runs
      | stages save runs first => cases runs
      | entersKernel runs done => cases runs
      | entersProper runs done => cases runs
      | counts save runs => cases runs
      | boots save runs allowed => cases runs
      | bootsAlternative save runs exceeded => cases runs
  | chosen asked part work stored within =>
      exact follows_chosen asked part work stored within leaves turn
  | uncounted work stored within =>
      exact follows_uncounted pending digit work stored within leaves turn
  | counted work stored positive =>
      exact follows_counted pending digit work stored positive leaves turn
  | fallen work stored heads =>
      exact follows_fallen pending work stored heads turn

/--
What runs in Linux and leaves the variables of the trial alone leaves the
stage alone, whether it reboots or not.
-/
theorem follows_linux {disk later : Disk} {boot : LinuxBoot}
    (reached : AtStage trial limit ⟨disk, .linux boot⟩ stage)
    (agree : ∀ name, name ≠ .mcoreSlot → name ≠ .mcoreTry →
      name ≠ .bootOs → later.env.get name = disk.env.get name)
    (rebooting : Bool) :
    Follows trial limit ⟨disk, .linux boot⟩ stage
      ⟨later, phaseAfter boot rebooting⟩ := by
  cases reached with
  | inLinux stored =>
      have kept := stored.of_agree agree
      cases rebooting with
      | true => exact .stays (.undecided rfl rfl kept) rfl rfl
      | false => exact .stays (.inLinux kept) rfl rfl
  | fallen work stored heads =>
      have kept : later.env.Holds trial.settle :=
        stored.of_agree (agree _ (by decide) (by decide) (by decide))
          (agree _ (by decide) (by decide) (by decide))
          (agree _ (by decide) (by decide) (by decide))
      cases rebooting with
      | true => exact .stays (.fallen kept kept (.inl ⟨rfl, rfl⟩)) rfl rfl
      | false => exact .stays (.fallen kept kept trivial) rfl rfl

/-- The device follows the protocol of the trial. -/
theorem follows_step (platform : Platform) (pending : trial.trial = true)
    (digit : limit ≤ 9) (live : machine.Live)
    (reached : AtStage trial limit machine stage)
    (leaves : act.LeavesTrial) :
    Follows trial limit machine stage (machine.step platform act) := by
  rcases step_cases platform live act with
    ⟨-, turn⟩ | ⟨issued, rfl, inLinux, -, equal⟩ | ⟨boot, -, inLinux, -, equal⟩
  · exact follows_turn pending digit reached leaves turn
  · rw [equal]
    obtain ⟨disk, phase⟩ := machine
    obtain rfl : phase = .linux issued.boot := inLinux
    have moves :=
      abMoves platform ⟨disk, .linux issued.boot⟩ issued.boot issued.command
        issued.ctx
    exact
      follows_linux reached
        (fun name notSlot notTry _ =>
          moves.get_of_isMcore leaves notSlot notTry) _
  · rw [equal]
    obtain ⟨disk, phase⟩ := machine
    obtain rfl : phase = .linux boot := inLinux
    exact
      follows_linux reached
        (fun name _ _ other => Env.get_set_of_ne disk.env "yes" other) false

end AtStage

/-! ## One run of the SPL -/

/-- What a call of `spl_mmc_fs_boot_partition` answers. -/
def partitionAnswer (platform : Platform) (machine : Machine) :
    Act → Option Int
  | .fsBootPartition save =>
      match machine.phase with
      | .spl _ spl =>
          some
            (splMmcFsBootPartition (machine.board platform) save
              machine.disk.env spl).value
      | .proper _ _ => none
      | .linux _ => none
  | _ => none

/-- The count differs in the copies the running programs work on. -/
def changesCount (before after : Machine) : Bool :=
  decide
    (after.workEnv.get .bootcount ≠ before.workEnv.get .bootcount)

/-- The SPL that runs before the step still runs after it. -/
def StaysInSpl (act : Act) (after : Machine) : Prop :=
  match act, after.phase with
  | .reset, _ => False
  | _, .spl _ _ => True
  | _, _ => False

/--
A run of the SPL that answers `part`.  The flag says that it can still
count.
-/
inductive InSplRun (part : Int) : Machine → Bool → Prop where
  | fresh {disk : Disk}
      (picks : (Spl.start.afterPick disk.env).abPart = part) :
      InSplRun part ⟨disk, .spl .start Spl.start⟩ true
  | decided {disk : Disk} {pc : SplPc} {spl : Spl} (live : spl.Live)
      (answers : spl.abPart = part) (some : part ≠ 0) :
      InSplRun part ⟨disk, .spl pc spl⟩ false

section SplRun

variable
    {platform : Platform} {part : Int} {machine next : Machine}
    {mayCount : Bool} {act : Act}

/-- The deciding call answers with the partition it settles on. -/
theorem partitionAnswer_undecided {disk : Disk} {pc : SplPc} {spl : Spl}
    (live : spl.Live) (undecided : spl.abPart = 0) (save : Save) :
    partitionAnswer platform ⟨disk, .spl pc spl⟩ (.fsBootPartition save) =
      some (spl.afterPick (spl.env disk.env)).abPart := by
  have init :
      (board platform ⟨disk, .spl pc spl⟩).envInit = true := rfl
  have equal :=
    splMmcFsBootPartition_undecided init live undecided save disk.env
  rw [board_loaded] at equal
  simp only [partitionAnswer, equal]
  rfl

/-- Every call within one run of the SPL gets the same answer. -/
theorem InSplRun.answer (inRun : InSplRun part machine mayCount)
    {value : Int} (asked : machine.partitionAnswer platform act = some value) :
    value = part := by
  cases act with
  | fsBootPartition save =>
      cases inRun with
      | fresh picks =>
          rw [partitionAnswer_undecided Spl.live_start rfl, Spl.env_start,
            picks] at asked
          exact (Option.some.inj asked).symm
      | decided live answers some =>
          have decided := answers.trans_ne some
          simp only [partitionAnswer,
            splMmcFsBootPartition_decided decided] at asked
          exact (Option.some.inj asked).symm.trans answers
  | _ => cases asked

/-- A step within the run counts only if the SPL decides in it. -/
theorem InSplRun.turn (inRun : InSplRun part machine mayCount)
    (stays : StaysInSpl act next)
    (turn : Turn platform machine act next) :
    ∃ stillMay, InSplRun part next stillMay ∧
      stillMay.toNat + (changesCount machine next).toNat ≤
        mayCount.toNat := by
  have unchanged :
      ∀ {mayCount : Bool}, InSplRun part next mayCount →
        next.workEnv.get .bootcount = machine.workEnv.get .bootcount →
          ∃ stillMay, InSplRun part next stillMay ∧
            stillMay.toNat + (changesCount machine next).toNat ≤
              mayCount.toNat := by
    intro mayCount kept same
    exact ⟨mayCount, kept, by simp [changesCount, same]⟩
  cases inRun with
  | @fresh disk picks =>
      cases turn with
      | idle => exact unchanged (.fresh picks) rfl
      | reset => exact absurd stays not_false
      | asksAgain save runs decided =>
          cases runs
          exact absurd rfl decided
      | picks save runs undecided =>
          cases runs
          have positive := Spl.abPart_afterPick_pos Spl.start disk.env
          refine ⟨false, .decided nofun picks (by omega), ?_⟩
          rw [Bool.toNat_false, Nat.zero_add]
          exact Bool.toNat_le _
      | disarms save runs => cases runs
      | loadsOs found runs => cases runs
      | loadsUboot runs => cases runs
      | stages save runs first => cases runs
      | entersKernel runs done => cases runs
      | entersProper runs done => cases runs
      | counts save runs => cases runs
      | boots save runs allowed => cases runs
      | bootsAlternative save runs exceeded => cases runs
  | @decided disk pc spl live answers some =>
      cases turn with
      | idle => exact unchanged (.decided live answers some) rfl
      | reset => exact absurd stays not_false
      | asksAgain save runs decided =>
          cases runs
          exact unchanged (.decided live answers some) rfl
      | picks save runs undecided =>
          cases runs
          exact absurd (answers.symm.trans undecided) some
      | disarms save runs =>
          cases runs
          exact
            unchanged (.decided (Spl.live_afterDisarm _ _) answers some)
              (Env.get_disarmed_of_ne _ (by decide))
      | loadsOs found runs =>
          cases runs
          exact unchanged (.decided live answers some) rfl
      | loadsUboot runs =>
          cases runs
          exact unchanged (.decided live answers some) rfl
      | stages save runs first =>
          cases runs
          exact
            unchanged (.decided (Spl.live_afterStage _ _ _) answers some)
              (Env.get_untried_of_ne _ (by decide))
      | entersKernel runs done => exact absurd stays not_false
      | entersProper runs done => exact absurd stays not_false
      | counts save runs => cases runs
      | boots save runs allowed => cases runs
      | bootsAlternative save runs exceeded => cases runs

/-- The device can only take turns of the boot chain while the SPL runs. -/
theorem InSplRun.step (platform : Platform)
    (inRun : InSplRun part machine mayCount)
    (stays : StaysInSpl act (machine.step platform act)) :
    ∃ stillMay, InSplRun part (machine.step platform act) stillMay ∧
      stillMay.toNat +
          (changesCount machine (machine.step platform act)).toNat ≤
        mayCount.toNat := by
  have live : machine.Live := by
    cases inRun with
    | fresh picks => exact Spl.live_start
    | decided live answers some => exact live
  rcases step_cases platform live act with
    ⟨-, turn⟩ | ⟨issued, -, inLinux, -, -⟩ | ⟨boot, -, inLinux, -, -⟩
  · exact inRun.turn stays turn
  · cases inRun <;> cases inLinux
  · cases inRun <;> cases inLinux

/--
Within one run of the SPL the count changes at most once, and every call of
`spl_mmc_fs_boot_partition` gets the same answer.
-/
theorem splRun_counts_once (platform : Platform)
    (fresh : machine.phase = .spl .start Spl.start) {acts : List Act}
    (stays : Trace.Along (step platform)
      (fun machine act => StaysInSpl act (machine.step platform act))
      machine acts) :
    Trace.count (step platform)
        (fun machine act => changesCount machine (machine.step platform act))
        machine acts ≤ 1 ∧
      ∃ part,
        Trace.Along (step platform)
          (fun machine act =>
            ∀ value, machine.partitionAnswer platform act = some value →
              value = part)
          machine acts := by
  obtain ⟨disk, phase⟩ := machine
  obtain rfl : phase = .spl .start Spl.start := fresh
  have inRun :
      InSplRun (Spl.start.afterPick disk.env).abPart
        ⟨disk, .spl .start Spl.start⟩ true :=
    .fresh rfl
  constructor
  · obtain ⟨final, -, paid⟩ :=
      Trace.count_le_of_simulation Bool.toNat (fun _ => True)
        (fun machine mayCount act inRun stays => by
          obtain ⟨next, related, paid⟩ := inRun.step platform stays
          exact ⟨next, related, fun _ => ⟨trivial, paid⟩⟩)
        inRun stays
    have bound := (paid trivial).2
    rw [Bool.toNat_true] at bound
    omega
  · generalize (Spl.start.afterPick disk.env).abPart = part at inRun
    refine ⟨part, ?_⟩
    have running : ∃ mayCount,
        InSplRun part ⟨disk, .spl .start Spl.start⟩ mayCount :=
      ⟨true, inRun⟩
    refine
      @Trace.along_of_invariant _ _ _
        (fun machine => ∃ mayCount, InSplRun part machine mayCount) _ _ ?_ ?_
        _ _ running stays
    · rintro machine act ⟨mayCount, inRun⟩ stays
      obtain ⟨next, related, -⟩ := inRun.step platform stays
      exact ⟨next, related⟩
    · rintro machine act ⟨mayCount, inRun⟩ - value asked
      exact inRun.answer asked

end SplRun

/-! ## The bound -/

/-- In Linux, right after a trial of `target` was armed. -/
structure JustArmed (machine : Machine) (target fallback : Slot)
    (limit : Nat) : Prop where
  inLinux : ∃ boot, machine.phase = .linux boot
  distinct : target ≠ fallback
  slot : machine.disk.env.get .abSlot = some target.name
  returns : machine.disk.env.get .abFallbackSlot = some fallback.name
  trial : machine.disk.env.get .upgradeAvailable = some "1"
  uncounted : machine.disk.env.get .bootcount = some "0"
  digit : limit ≤ 9
  readsLimit : machine.disk.env.get .bootlimit = some (Env.digitString limit)

section Bound

variable
    {platform : Platform} {machine : Machine} {target fallback : Slot}
    {limit : Nat} {acts : List Act}

/-- The trial that was just armed has not been counted yet. -/
theorem JustArmed.atStage (armed : machine.JustArmed target fallback limit) :
    AtStage (SlotState.arm target fallback armed.distinct) limit machine
      (.waiting 0) := by
  obtain ⟨boot, inLinux⟩ := armed.inLinux
  obtain ⟨disk, phase⟩ := machine
  obtain rfl : phase = .linux boot := inLinux
  refine .inLinux ⟨⟨armed.slot, armed.returns, armed.trial⟩,
    armed.readsLimit, ?_, Nat.zero_le _⟩
  rw [Env.getUlong, armed.uncounted]
  decide

theorem JustArmed.live (armed : machine.JustArmed target fallback limit) :
    machine.Live := by
  obtain ⟨boot, inLinux⟩ := armed.inLinux
  rw [Live, inLinux]
  trivial

/-- The device is on at a stage of the trial, and its SPL can go on. -/
def OnTrial (trial : SlotState) (limit : Nat) (machine : Machine)
    (stage : Stage) : Prop :=
  machine.Live ∧ AtStage trial limit machine stage

theorem JustArmed.onTrial (armed : machine.JustArmed target fallback limit) :
    OnTrial (SlotState.arm target fallback armed.distinct) limit machine
      (.waiting 0) :=
  ⟨armed.live, armed.atStage⟩

/-- One step, as the runs of the device are simulated. -/
theorem OnTrial.step {trial : SlotState} {stage : Stage} {act : Act}
    (onTrial : OnTrial trial limit machine stage) (platform : Platform)
    (pending : trial.trial = true) (digit : limit ≤ 9)
    (leaves : act.LeavesTrial) :
    ∃ next,
      OnTrial trial limit (machine.step platform act) next ∧
        Stage.Next trial limit stage
          (decides machine (machine.step platform act))
          (started machine (machine.step platform act)) next := by
  obtain ⟨next, reached, allowed⟩ :=
    onTrial.2.follows_step platform pending digit onTrial.1 leaves
  exact ⟨next, ⟨step_live platform onTrial.1 act, reached⟩, allowed⟩

/-- The kernel of the tried slot is started at most `limit` times. -/
theorem JustArmed.count_started
    (armed : machine.JustArmed target fallback limit)
    (leaves : ∀ act ∈ acts, act.LeavesTrial) :
    Trace.count (step platform)
        (fun machine act =>
          decide
            (started machine (machine.step platform act) = some target))
        machine acts ≤ limit := by
  have guarded :=
    (Trace.along_event (step platform) Act.LeavesTrial machine acts).mpr
      leaves
  have bound :=
    @Trace.count_le_of_simulation _ _ _ (step platform)
      (OnTrial (SlotState.arm target fallback armed.distinct) limit)
      (fun _ act => act.LeavesTrial)
      (fun machine act =>
        decide (started machine (machine.step platform act) = some target))
      (Stage.starts limit) (fun _ => True) ?_ _ _ _ armed.onTrial guarded
  · obtain ⟨final, -, paid⟩ := bound
    exact (Nat.le_add_left _ _).trans (paid trivial).2
  · intro machine stage act onTrial leaves
    obtain ⟨next, reached, allowed⟩ :=
      onTrial.step platform rfl armed.digit leaves
    exact
      ⟨next, reached, fun _ => ⟨trivial, allowed.pays_start armed.distinct⟩⟩

/-- More decisions than the limit end the trial. -/
theorem JustArmed.fallen (armed : machine.JustArmed target fallback limit)
    (leaves : ∀ act ∈ acts, act.LeavesTrial)
    (many : limit + 1 ≤
      Trace.count (step platform)
        (fun machine act => decides machine (machine.step platform act))
        machine acts) :
    OnTrial (SlotState.arm target fallback armed.distinct) limit
      (machine.after platform acts) .fallen := by
  have guarded :=
    (Trace.along_event (step platform) Act.LeavesTrial machine acts).mpr
      leaves
  have bound :=
    @Trace.count_le_of_simulation _ _ _ (step platform)
      (OnTrial (SlotState.arm target fallback armed.distinct) limit)
      (fun _ act => act.LeavesTrial)
      (fun machine act => decides machine (machine.step platform act))
      (Stage.decisions limit) Stage.Open ?_ _ _ _ armed.onTrial guarded
  · obtain ⟨final, onTrial, paid⟩ := bound
    have fallen : final = .fallen := by
      by_contra stillOpen
      have within :
          final.decisions limit +
              Trace.count (step platform)
                (fun machine act =>
                  decides machine (machine.step platform act))
                machine acts ≤ limit :=
        (paid stillOpen).2
      omega
    rwa [fallen] at onTrial
  · intro machine stage act onTrial leaves
    obtain ⟨next, reached, allowed⟩ :=
      onTrial.step platform rfl armed.digit leaves
    exact ⟨next, reached, allowed.pays_decision⟩

/-- After the trial only the fallback slot is started. -/
theorem OnTrial.along_started {trial : SlotState}
    (onTrial : OnTrial trial limit machine .fallen)
    (pending : trial.trial = true) (digit : limit ≤ 9)
    (leaves : ∀ act ∈ acts, act.LeavesTrial) :
    Trace.Along (Machine.step platform)
      (fun machine act =>
        started machine (machine.step platform act) = none ∨
          started machine (machine.step platform act) =
            some trial.fallback)
      machine acts := by
  refine
    @Trace.along_of_invariant _ _ _
      (fun machine => OnTrial trial limit machine .fallen)
      (fun _ act => act.LeavesTrial) _ ?_ ?_ _ _ onTrial
      ((Trace.along_event _ Act.LeavesTrial machine acts).mpr leaves)
  · intro machine act onTrial leaves
    obtain ⟨next, reached, allowed⟩ :=
      onTrial.step platform pending digit leaves
    rwa [allowed.of_fallen.1] at reached
  · intro machine act onTrial leaves
    obtain ⟨next, -, allowed⟩ :=
      onTrial.step platform pending digit leaves
    exact allowed.of_fallen.2

end Bound

/--
After a trial was armed, whatever is reset and whichever path is taken: the
tried kernel starts at most `limit` times; one run of the SPL counts at most
once and keeps its answer; and after `limit + 1` decisions of the SPL the
fallback slot is back and is the only one that is started.
-/
theorem trial_bounded (platform : Platform) {machine : Machine}
    {target fallback : Slot} {limit : Nat}
    (armed : machine.JustArmed target fallback limit) {acts : List Act}
    (leaves : ∀ act ∈ acts, act.LeavesTrial) :
    Trace.count (step platform)
        (fun machine act =>
          decide
            (started machine (machine.step platform act) = some target))
        machine acts ≤ limit ∧
      (∀ before during after,
        acts = before ++ during ++ after →
          (machine.after platform before).phase = .spl .start Spl.start →
            Trace.Along (step platform)
                (fun machine act =>
                  StaysInSpl act (machine.step platform act))
                (machine.after platform before) during →
              Trace.count (step platform)
                  (fun machine act =>
                    changesCount machine (machine.step platform act))
                  (machine.after platform before) during ≤ 1 ∧
                ∃ part,
                  Trace.Along (step platform)
                    (fun machine act =>
                      ∀ value,
                        machine.partitionAnswer platform act = some value →
                          value = part)
                    (machine.after platform before) during) ∧
      ∀ before after,
        acts = before ++ after →
          limit + 1 ≤
              Trace.count (step platform)
                (fun machine act =>
                  decides machine (machine.step platform act))
                machine before →
            (machine.after platform before).disk.env.get .abSlot =
                some fallback.name ∧
              (machine.after platform before).disk.env.get
                  .upgradeAvailable = some "0" ∧
              Trace.Along (step platform)
                (fun machine act =>
                  started machine (machine.step platform act) = none ∨
                    started machine (machine.step platform act) =
                      some fallback)
                (machine.after platform before) after := by
  refine ⟨armed.count_started leaves, ?_, ?_⟩
  · intro before during after _ fresh stays
    exact splRun_counts_once platform fresh stays
  · rintro before after rfl many
    have earlier : ∀ act ∈ before, act.LeavesTrial :=
      fun act member => leaves act (List.mem_append_left _ member)
    have later : ∀ act ∈ after, act.LeavesTrial :=
      fun act member => leaves act (List.mem_append_right _ member)
    have onTrial := armed.fallen earlier many
    have settled :
        (machine.after platform before).disk.env.Holds
          (SlotState.arm target fallback armed.distinct).settle :=
      onTrial.2.stored_of_fallen
    exact
      ⟨settled.slot, settled.trial,
        onTrial.along_started rfl armed.digit later⟩

/-- Linux a right after a trial of b was armed. -/
def armedForB : Machine where
  disk := { Bench.disk with env := shippedEnv.setTrial "b" "a" "1" }
  phase := .linux ⟨.a, Chosen.proper⟩

theorem armedForB_justArmed : armedForB.JustArmed .b .a 1 where
  inLinux := ⟨_, rfl⟩
  distinct := by decide
  slot := by decide
  returns := by decide
  trial := by decide
  uncounted := by decide
  digit := by decide
  readsLimit := by decide

/-- The falcon path is asked for, and the device boots twice. -/
def twoBoots : List Act :=
  .falconRearm true :: (Bench.falconBoot ++ Bench.falconBoot)

/-- The tried kernel starts once; the second boot is back in slot a. -/
theorem armedForB_bounded :
    Trace.count (step Bench.platform)
        (fun machine act =>
          decide
            (started machine (machine.step Bench.platform act) = some .b))
        armedForB twoBoots = 1 ∧
      (armedForB.after Bench.platform twoBoots).disk.env.get .abSlot =
        some "a" := by
  have leaves : ∀ act ∈ twoBoots, act.LeavesTrial := by
    simp [twoBoots, Bench.falconBoot, Act.LeavesTrial]
  obtain ⟨starts, -, returns⟩ :=
    trial_bounded Bench.platform armedForB_justArmed leaves
  exact
    ⟨le_antisymm starts (by decide +kernel),
      (returns _ [] rfl (by decide +kernel)).1⟩

end Machine

end KmmYocto
