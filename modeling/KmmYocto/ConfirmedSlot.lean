import KmmYocto.LinuxSlots

/-!
# Which steps move the confirmed slot

The confirmed slot is the slot the device keeps if nothing is committed.
`arm` writes RUNNING as the fallback and the target of `linux-try` as the
slot to try without looking at either, so the confirmed slot is safe exactly
in the runs whose `arm` steps are issued from the confirmed slot.
-/

namespace KmmYocto

/-- A device as shipped: slot a runs, and nothing is being tried. -/
def Machine.shipped (disk : Disk) (chosen : Chosen) : Machine where
  disk := { disk with env := shippedEnv, linuxTry := none }
  phase := .linux ⟨.a, chosen⟩

/-- A device with the slot that was committed last. -/
structure Tracked where
  machine : Machine
  committed : Slot

/-- The slot a step commits: RUNNING, if the step is a `commit` that writes. -/
def Machine.commits (platform : Platform) (machine : Machine) (act : Act) :
    Option Slot :=
  (machine.issued act).bind fun issued =>
    if issued.command.isCommit = true ∧
        (machine.session platform issued).wroteEnv = true
    then some issued.boot.running else none

/-- The next state, and the slot committed last. -/
def Tracked.step (platform : Platform) (tracked : Tracked) (act : Act) :
    Tracked where
  machine := tracked.machine.step platform act
  committed :=
    (tracked.machine.commits platform act).getD tracked.committed

/-- As shipped, slot a counts as committed. -/
def Tracked.shipped (disk : Disk) (chosen : Chosen) : Tracked where
  machine := Machine.shipped disk chosen
  committed := .a

/--
The step moves the confirmed slot only if it is a `commit`, and then to
RUNNING; and a trial that is pending after it returns to the slot committed
last, which is not the tried one.
-/
def OnlyCommitMoves (platform : Platform) (tracked : Tracked) (act : Act) :
    Prop :=
  let before := tracked.machine.disk.env
  let after := (tracked.step platform act).machine.disk.env
  (after.confirmedSlot = before.confirmedSlot ∨
    ∃ issued ∈ tracked.machine.issued act,
      issued.command.isCommit = true ∧
        after.confirmedSlot = issued.boot.running.name) ∧
  (after.envget .upgradeAvailable = "1" →
    after.envget .abFallbackSlot ≠ after.envget .abSlot ∧
      after.envget .abFallbackSlot =
        (tracked.step platform act).committed.name)

instance (platform : Platform) (tracked : Tracked) (act : Act) :
    Decidable (OnlyCommitMoves platform tracked act) :=
  inferInstanceAs (Decidable ((_ ∨ ∃ issued ∈ _, _ ∧ _) ∧ (_ → _ ∧ _)))

/--
An `arm` that gets as far as writing the environment runs while RUNNING is
the confirmed slot and `linux-try` names the other one.
-/
def ArmsFromConfirmed (machine : Machine) (act : Act) : Prop :=
  ∀ issued ∈ machine.issued act, ∀ file ∈ machine.disk.linuxTry,
    issued.command.isArm = true →
    issued.ctx.lockFree = true → issued.ctx.fwSetenvOk = true →
      issued.boot.running.name = machine.disk.env.confirmedSlot ∧
        file.toSlot ≠ issued.boot.running

/-- Both copies of the environment confirm the slot committed last. -/
structure Tracked.Sound (tracked : Tracked) : Prop where
  live : tracked.machine.Live
  stored : tracked.machine.disk.env.Confirms tracked.committed
  work : tracked.machine.workEnv.Confirms tracked.committed

theorem Tracked.shipped_sound (disk : Disk) (chosen : Chosen) :
    (Tracked.shipped disk chosen).Sound := by
  have confirms : shippedEnv.Confirms .a :=
    ⟨SlotState.commit .a, ⟨rfl, rfl, rfl⟩, rfl⟩
  exact ⟨trivial, confirms, confirms⟩

/-- An `arm` that finds its file, the lock and a working store writes. -/
theorem Machine.session_of_isArm (platform : Platform) {machine : Machine}
    {issued : Machine.Issued} (arms : issued.command.isArm = true)
    {file : LinuxTry} (found : machine.disk.linuxTry = some file)
    (lockFree : issued.ctx.lockFree = true)
    (stores : issued.ctx.fwSetenvOk = true) :
    (machine.session platform issued).store.env =
      machine.disk.env.setTrial file.toSlot.name issued.boot.running.name
        "1" := by
  obtain ⟨command, ctx, boot⟩ := issued
  cases command with
  | linuxTryArm noReboot =>
      show Script.Ends (Ab.linuxTryArm ctx boot noReboot)
        ⟨machine.disk, [], false⟩ fun _ later =>
          later.store.env =
            machine.disk.env.setTrial file.toSlot.name boot.running.name "1"
      simp only [Ab.linuxTryArm, Script.ends_bind, Ab.ends_tryTarget, found,
        Option.map_some, Ab.ends_lock, Ab.ends_envset_trial,
        Ab.ends_maybeReboot]
      exact
        ⟨fun _ => ⟨fun _ => rfl, fun refused => absurd stores refused⟩,
          fun locked => absurd lockFree locked⟩
  | _ => cases arms

/-- What a command does to the confirmed slot. -/
theorem Moves.confirms {ctx : Ctx} {boot : LinuxBoot} {disk : Disk}
    {command : AbCommand} {wrote : Bool} {env : Env}
    {file : Option LinuxTry} {confirmed : Slot}
    (moves : Moves ctx boot disk command wrote env file)
    (confirms : disk.env.Confirms confirmed)
    (armsSafely : ∀ armed, disk.linuxTry = some armed →
      command.isArm = true → ctx.lockFree = true → ctx.fwSetenvOk = true →
        boot.running = confirmed ∧ armed.toSlot ≠ boot.running) :
    ((command.isCommit = true ∧ wrote = true) ∧
        env.Confirms boot.running) ∨
      (¬ (command.isCommit = true ∧ wrote = true) ∧
        env.Confirms confirmed) := by
  cases moves with
  | nothing => exact .inr ⟨by simp, confirms⟩
  | begun settled running tailscale => exact .inr ⟨by simp, confirms⟩
  | armed noReboot found stored =>
      obtain ⟨rfl, distinct⟩ := armsSafely _ found rfl stored.1 stored.2
      exact .inr ⟨nofun, disk.env.confirms_arm distinct⟩
  | committed force trial tried removed =>
      exact .inl ⟨⟨rfl, rfl⟩, disk.env.confirms_commit boot.running⟩
  | rolledBack noReboot trial removed =>
      exact .inr ⟨nofun, confirms.rollback trial⟩
  | forgotten noReboot settled => exact .inr ⟨nofun, confirms⟩
  | returned noReboot settled running =>
      have same : boot.running = confirmed :=
        Slot.name_injective (running.symm.trans (confirms.settled settled))
      refine .inr ⟨nofun, ?_⟩
      rw [← same]
      exact disk.env.confirms_arm (Slot.other_ne _)
  | mcore ofMcore own value =>
      refine .inr ⟨AbCommand.not_commit_of_mcore ofMcore, ?_⟩
      rcases own with rfl | rfl <;>
        exact confirms.set value (by decide) (by decide) (by decide)

namespace Tracked

variable
    (platform : Platform) {tracked : Tracked} {act : Act}

theorem step_committed_of_silent
    (silent : tracked.machine.issued act = none) :
    (tracked.step platform act).committed = tracked.committed := by
  simp [step, Machine.commits, silent]

/-- A commit that writes commits RUNNING. -/
theorem step_committed_of_commit {issued : Machine.Issued}
    (runs : tracked.machine.issued act = some issued)
    (commits : issued.command.isCommit = true ∧
      (tracked.machine.session platform issued).wroteEnv = true) :
    (tracked.step platform act).committed = issued.boot.running := by
  simp [step, Machine.commits, runs, commits]

/-- No other command commits anything. -/
theorem step_committed_of_other {issued : Machine.Issued}
    (runs : tracked.machine.issued act = some issued)
    (other : ¬ (issued.command.isCommit = true ∧
      (tracked.machine.session platform issued).wroteEnv = true)) :
    (tracked.step platform act).committed = tracked.committed := by
  simp only [step, Machine.commits, runs, Option.bind_some, if_neg other,
    Option.getD_none]

/-- The guard of `arm`, with the confirmed slot as a slot. -/
theorem Sound.armsSafely (sound : tracked.Sound)
    (guarded : ArmsFromConfirmed tracked.machine act)
    {issued : Machine.Issued}
    (runs : tracked.machine.issued act = some issued)
    (armed : LinuxTry) (found : tracked.machine.disk.linuxTry = some armed)
    (arms : issued.command.isArm = true)
    (lockFree : issued.ctx.lockFree = true)
    (stores : issued.ctx.fwSetenvOk = true) :
    issued.boot.running = tracked.committed ∧
      armed.toSlot ≠ issued.boot.running := by
  obtain ⟨running, distinct⟩ :=
    guarded issued runs armed found arms lockFree stores
  rw [sound.stored.confirmedSlot_eq, Slot.name_inj] at running
  exact ⟨running, distinct⟩

/-- What a guarded step does to the confirmed slot. -/
theorem Sound.confirms_step (sound : tracked.Sound)
    (guarded : ArmsFromConfirmed tracked.machine act) :
    (tracked.step platform act).Sound ∧
      ((tracked.step platform act).committed = tracked.committed ∨
        ∃ issued ∈ tracked.machine.issued act,
          issued.command.isCommit = true ∧
            (tracked.step platform act).committed = issued.boot.running) := by
  have live := Machine.step_live platform sound.live act
  rcases Machine.step_cases platform sound.live act with
    ⟨silent, turn⟩ | ⟨issued, -, -, runs, equal⟩ |
      ⟨boot, -, inLinux, silent, equal⟩
  · have kept :
        ∀ change env,
          env.Confirms tracked.committed →
            (Change.apply change env).Confirms tracked.committed :=
      fun change _ => Env.Confirms.change change
    obtain ⟨work, stored⟩ :=
      turn.bootMoves.keeps kept sound.work sound.stored
    have same := step_committed_of_silent platform silent
    refine ⟨⟨live, ?_, ?_⟩, .inl same⟩
    · rw [same]
      exact stored
    · rw [same]
      exact work
  · have moves :=
      Machine.abMoves platform tracked.machine issued.boot issued.command
        issued.ctx
    have both :
        ∀ confirmed,
          (tracked.machine.session platform issued).store.env.Confirms
              confirmed →
            (tracked.step platform act).committed = confirmed →
              (tracked.step platform act).Sound := by
      rintro confirmed confirms rfl
      refine ⟨live, ?_, ?_⟩
      · show (tracked.machine.step platform act).disk.env.Confirms _
        rw [equal]
        exact confirms
      · show (tracked.machine.step platform act).workEnv.Confirms _
        rw [equal, Machine.workEnv_afterCommand]
        exact confirms
    rcases moves.confirms sound.stored (sound.armsSafely guarded runs) with
      ⟨commits, confirms⟩ | ⟨other, confirms⟩
    · have committed := step_committed_of_commit platform runs commits
      exact
        ⟨both _ confirms committed,
          .inr ⟨issued, runs, commits.1, committed⟩⟩
    · have same := step_committed_of_other platform runs other
      exact ⟨both _ confirms same, .inl same⟩
  · have same := step_committed_of_silent platform silent
    have armed :
        (tracked.machine.disk.env.set .bootOs "yes").Confirms
          tracked.committed :=
      sound.stored.set "yes" (by decide) (by decide) (by decide)
    refine ⟨⟨live, ?_, ?_⟩, .inl same⟩
    · rw [same]
      show (tracked.machine.step platform act).disk.env.Confirms _
      rw [equal]
      exact armed
    · rw [same]
      show (tracked.machine.step platform act).workEnv.Confirms _
      rw [equal, Machine.workEnv_rearmed inLinux]
      exact armed

/--
At a sound state, a step moves the confirmed slot only by a commit, and leaves
any trial with the committed slot to return to, exactly when an `arm` that it
makes comes from the confirmed slot.
-/
theorem Sound.onlyCommitMoves_iff (sound : tracked.Sound) :
    OnlyCommitMoves platform tracked act ↔
      ArmsFromConfirmed tracked.machine act := by
  constructor
  · rintro ⟨moves, trial⟩ issued runs file found arms lockFree stores
    have stored :
        (tracked.step platform act).machine.disk.env =
          tracked.machine.disk.env.setTrial file.toSlot.name
            issued.boot.running.name "1" := by
      show (tracked.machine.step platform act).disk.env = _
      rw [Machine.step_of_issued platform runs]
      exact
        Machine.session_of_isArm platform arms found lockFree stores
    rw [stored] at moves trial
    constructor
    · rcases moves with same | ⟨other, otherRuns, commit, -⟩
      · rw [← same]
        simp [Env.confirmedSlot]
      · obtain rfl := Option.some.inj (runs.symm.trans otherRuns)
        exact absurd commit (AbCommand.not_commit_of_isArm arms)
    · intro equal
      apply (trial (by simp)).1
      simp [equal]
  · intro guarded
    obtain ⟨after, committed⟩ := sound.confirms_step platform guarded
    refine ⟨?_, after.stored.trial⟩
    rw [after.stored.confirmedSlot_eq, sound.stored.confirmedSlot_eq]
    rcases committed with same | ⟨issued, runs, commit, commits⟩
    · exact .inl (congrArg Slot.name same)
    · exact .inr ⟨issued, runs, commit, congrArg Slot.name commits⟩

end Tracked

/--
From the shipped state, only commits move the confirmed slot, along exactly
those runs whose `arm` steps are issued from the confirmed slot.
-/
theorem onlyCommitMoves_along_iff (platform : Platform) (disk : Disk)
    (chosen : Chosen) (acts : List Act) :
    Trace.Along (Tracked.step platform) (OnlyCommitMoves platform)
        (Tracked.shipped disk chosen) acts ↔
      Trace.Along (Tracked.step platform)
        (fun tracked act => ArmsFromConfirmed tracked.machine act)
        (Tracked.shipped disk chosen) acts := by
  apply Trace.along_iff_guarded
  · intro tracked act (sound : tracked.Sound) guarded
    exact (sound.confirms_step platform guarded).1
  · intro tracked act (sound : tracked.Sound)
    exact sound.onlyCommitMoves_iff platform
  · exact Tracked.shipped_sound disk chosen

/-- A trial of slot b is armed once more from within the trial. -/
def armedTwice : List Act :=
  .falconRearm true :: .ab .linuxTryBegin Bench.ctx ::
    .ab (.linuxTryArm true) Bench.ctx :: Bench.falconBoot ++
      [.ab (.linuxTryArm true) Bench.ctx]

/-- The second `arm` makes the tried slot its own fallback. -/
theorem armedTwice_moves_confirmedSlot :
    ¬ Trace.Along (Tracked.step Bench.platform)
      (OnlyCommitMoves Bench.platform)
      (Tracked.shipped Bench.disk Chosen.proper) armedTwice := by
  decide +kernel

end KmmYocto
