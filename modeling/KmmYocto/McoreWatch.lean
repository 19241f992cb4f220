import KmmYocto.BootEffects
import KmmYocto.CommandEffects

/-!
# Watching one M-core firmware while another one is written

`ab mcore confirm` takes no lock.  It reads at its start, watches for up to
forty seconds and writes `mcore_slot` at its end, while `update` and
`rollback` run under the lock in between.  The system here is the device with
these processes cut at the points where another one can step in.

Two parts of the state are history: the file the SPL staged in this boot, and
the files that were staged in a boot whose confirmation found the keepalive
healthy.
-/

namespace KmmYocto

/-- The command that holds the lock, and how far it has come. -/
inductive Holder where
  | updating (tgt : Slot) (bytes : List UInt8)
  /-- The file is in place; it is read back and armed next. -/
  | moved (tgt : Slot) (bytes : List UInt8)
  | rollingBack (tgt : Slot)

/-- The confirmation of this boot. -/
inductive Confirmation where
  | unstarted
  | watching (tried : Slot) (current : String)
  | ended

/-- A step of the device or of one of the processes. -/
inductive McoreEvent where
  /-- A reset, a step of the boot chain or falcon-rearm. -/
  | device (act : Act)
  | updateBegin (ctx : Ctx) (file : Option (List UInt8))
  | updateMove
  | updateArm (ctx : Ctx) (noReboot : Bool)
  | rollbackBegin (ctx : Ctx)
  | rollbackArm (ctx : Ctx) (noReboot : Bool)
  /-- The command that holds the lock is killed. -/
  | killed
  | confirmBegin
  | confirmEnd (ctx : Ctx) (healthy : Bool)

/-- The device with the processes of the running Linux and the history. -/
structure McoreSystem where
  machine : Machine
  holder : Option Holder
  confirmation : Confirmation
  /-- The file the SPL staged when it last staged one. -/
  staged : Option (List UInt8)
  /-- Files that were found healthy in a boot that staged them. -/
  proven : List (List UInt8)

/-- The slot this boot tries, if the SPL could stage it. -/
def Machine.triedMcore (machine : Machine) : Option Slot :=
  match machine.phase with
  | .spl _ spl =>
      if spl.mcoreLoaded = spl.mcoreTried then spl.mcoreTried else none
  | .proper _ _ => none
  | .linux boot =>
      if boot.chosen.mcoreSlot = boot.chosen.mcoreTry then
        boot.chosen.mcoreTry
      else none

/-- The file staged between two states of the device, or else the last one. -/
def Machine.stagedFile (before after : Machine)
    (last : Option (List UInt8)) : Option (List UInt8) :=
  match before.phase, after.phase with
  | .spl _ unstaged, .spl _ staged =>
      if unstaged.mcoreDone = false ∧ staged.mcoreDone = true then
        staged.mcoreLoaded.bind before.disk.mcore
      else last
  | _, _ => last

namespace McoreSystem

/-- The slot whose trial in this boot has not been decided yet. -/
def pending (state : McoreSystem) : Option Slot :=
  match state.machine.phase, state.confirmation with
  | .linux _, .ended => none
  | _, _ => state.machine.triedMcore

/-- A step of the device; what ran in a Linux that is left is gone. -/
def turn (platform : Platform) (state : McoreSystem) (act : Act) :
    McoreSystem :=
  let next := state.machine.step platform act
  match state.machine.phase, next.phase with
  | .linux _, .linux _ => { state with machine := next }
  | _, _ =>
      { state with
        machine := next
        holder := none
        confirmation := .unstarted
        staged := state.machine.stagedFile next state.staged }

/-- The last part of a command runs and may ask for a reboot. -/
def finish (state : McoreSystem) (boot : LinuxBoot) (script : Ab PUnit) :
    McoreSystem :=
  let session := (Script.exec script state.machine.disk).2
  if session.rebooting then
    { state with
      machine := ⟨session.store, .spl .start Spl.start⟩
      holder := none
      confirmation := .unstarted }
  else { state with machine := ⟨session.store, .linux boot⟩ }

/-- The next state. -/
def step (platform : Platform) (state : McoreSystem) :
    McoreEvent → McoreSystem
  | .device (.ab _ _) => state
  | .device act => state.turn platform act
  | .updateBegin ctx file =>
      match state.machine.phase, state.holder with
      | .linux _, none =>
          match (Script.exec (Ab.mcoreUpdateBegin platform ctx file)
            state.machine.disk).1 with
          | .ok (tgt, bytes) =>
              { state with holder := some (.updating tgt bytes) }
          | .error _ => state
      | _, _ => state
  | .updateMove =>
      match state.machine.phase, state.holder with
      | .linux boot, some (.updating tgt bytes) =>
          finish { state with holder := some (.moved tgt bytes) } boot
            (Ab.mcoreUpdateMove tgt bytes)
      | _, _ => state
  | .updateArm ctx noReboot =>
      match state.machine.phase, state.holder with
      | .linux boot, some (.moved tgt bytes) =>
          finish { state with holder := none } boot
            (Ab.mcoreUpdateArm ctx tgt bytes noReboot)
      | _, _ => state
  | .rollbackBegin ctx =>
      match state.machine.phase, state.holder with
      | .linux _, none =>
          match (Script.exec (Ab.mcoreRollbackBegin platform ctx)
            state.machine.disk).1 with
          | .ok tgt => { state with holder := some (.rollingBack tgt) }
          | .error _ => state
      | _, _ => state
  | .rollbackArm ctx noReboot =>
      match state.machine.phase, state.holder with
      | .linux boot, some (.rollingBack tgt) =>
          finish { state with holder := none } boot
            (Ab.mcoreRollbackArm ctx tgt noReboot)
      | _, _ => state
  | .killed => { state with holder := none }
  | .confirmBegin =>
      match state.machine.phase, state.confirmation with
      | .linux boot, .unstarted =>
          match (Script.exec (Ab.mcoreConfirmBegin boot)
            state.machine.disk).1 with
          | .ok (some (tried, current)) =>
              { state with confirmation := .watching tried current }
          | _ => { state with confirmation := .ended }
      | _, _ => state
  | .confirmEnd ctx healthy =>
      match state.machine.phase, state.confirmation with
      | .linux boot, .watching tried current =>
          finish
            { state with
              confirmation := .ended
              proven :=
                if boot.chosen.mcoreSlot = some tried ∧ healthy = true then
                  state.staged.toList ++ state.proven
                else state.proven }
            boot (Ab.mcoreConfirmEnd ctx boot tried current healthy)
      | _, _ => state

/-- What `mcore_slot` names is a file that was found healthy. -/
def Proven (state : McoreSystem) : Prop :=
  ∀ slot : Slot, state.machine.disk.env.envget .mcoreSlot = slot.name →
    ∃ file ∈ state.proven, state.machine.disk.mcore slot = some file

/--
No `update` that gets to choose a slot chooses the one whose trial in this
boot is still to be decided.
-/
def SparesPending (state : McoreSystem) : McoreEvent → Prop
  | .updateBegin _ _ =>
      ∀ slot ∈ state.pending,
        state.machine.disk.env.envget .mcoreTry = "" →
          Ab.mcoreTarget (state.machine.disk.env.envget .mcoreSlot) ≠ slot
  | _ => True

instance (state : McoreSystem) : Decidable state.Proven :=
  inferInstanceAs (Decidable (∀ _, _ → _))

instance (state : McoreSystem) (event : McoreEvent) :
    Decidable (state.SparesPending event) :=
  match event with
  | .updateBegin _ _ => inferInstanceAs (Decidable (∀ slot ∈ _, _ → _))
  | .device _ => .isTrue trivial
  | .updateMove => .isTrue trivial
  | .updateArm _ _ => .isTrue trivial
  | .rollbackBegin _ => .isTrue trivial
  | .rollbackArm _ _ => .isTrue trivial
  | .killed => .isTrue trivial
  | .confirmBegin => .isTrue trivial
  | .confirmEnd _ _ => .isTrue trivial

/-! ## What the boot chain does to the trial -/

end McoreSystem

namespace Machine

variable
    {platform : Platform} {machine next : Machine} {act : Act}

/-- An SPL that has not staged yet has loaded nothing. -/
def Unstaged (machine : Machine) : Prop :=
  ∀ pc spl, machine.phase = .spl pc spl → spl.mcoreDone = false →
    spl.mcoreLoaded = none

theorem unstaged_of_linux {disk : Disk} {boot : LinuxBoot} :
    Unstaged ⟨disk, .linux boot⟩ := by
  intro pc spl runs
  cases runs

theorem unstaged_start {disk : Disk} :
    Unstaged ⟨disk, .spl .start Spl.start⟩ := by
  intro pc spl runs _
  cases runs
  rfl

/-- What the SPL has loaded when it stages is one of the two files. -/
theorem file_of_loaded {board : Board} {env : Env} {spl : Spl} {slot : Slot}
    (unloaded : spl.mcoreLoaded = none)
    (loaded : (spl.afterStage board env).mcoreLoaded = some slot) :
    ∃ file, board.mcoreFile slot = some file := by
  simp only [Spl.afterStage, unloaded, Option.orElse_eq_orElse,
    Option.orElse_eq_or, Option.or_none] at loaded
  obtain ⟨pair, found, rfl⟩ := Option.map_eq_some_iff.mp loaded
  obtain ⟨sel, -, firmware⟩ := Option.bind_eq_some_iff.mp found
  obtain ⟨checked, accepted, rfl⟩ := Option.map_eq_some_iff.mp firmware
  rw [Board.firmware] at accepted
  split_ifs at accepted
  obtain ⟨file, present, -⟩ := Option.bind_eq_some_iff.mp accepted
  exact ⟨file, present⟩

/-- A tried slot is the one the SPL has loaded. -/
theorem loaded_of_triedMcore {disk : Disk} {pc : SplPc} {spl : Spl}
    {slot : Slot} (tried : slot ∈ Machine.triedMcore ⟨disk, .spl pc spl⟩) :
    spl.mcoreLoaded = some slot := by
  simp only [triedMcore, Option.mem_def] at tried
  split_ifs at tried with same
  exact same.trans tried

/-- The slot tried after a turn was tried before, or its file is staged now. -/
theorem Turn.triedMcore (turn : Turn platform machine act next)
    (unstaged : machine.Unstaged) (last : Option (List UInt8)) :
    next.Unstaged ∧
      ∀ slot ∈ next.triedMcore,
        (slot ∈ machine.triedMcore ∧ machine.stagedFile next last = last) ∨
          ∃ file, machine.stagedFile next last = some file ∧
            machine.disk.mcore slot = some file := by
  obtain ⟨disk, phase⟩ := machine
  have same :
      ∀ {later : Disk} {pc pc' : SplPc} {spl spl' : Spl},
        phase = .spl pc spl → spl'.mcoreDone = spl.mcoreDone →
          spl'.mcoreLoaded = spl.mcoreLoaded →
            spl'.mcoreTried = spl.mcoreTried →
              Unstaged ⟨later, .spl pc' spl'⟩ ∧
                ∀ slot ∈ Machine.triedMcore ⟨later, .spl pc' spl'⟩,
                  (slot ∈ Machine.triedMcore ⟨disk, phase⟩ ∧
                    stagedFile ⟨disk, phase⟩ ⟨later, .spl pc' spl'⟩ last =
                      last) ∨
                    ∃ file,
                      stagedFile ⟨disk, phase⟩ ⟨later, .spl pc' spl'⟩ last =
                        some file ∧ disk.mcore slot = some file := by
    intro later pc pc' spl spl' runs done loaded tried
    subst runs
    refine ⟨?_, fun slot member => .inl ⟨?_, ?_⟩⟩
    · intro _ _ runs notDone
      cases runs
      rw [loaded]
      exact unstaged _ _ rfl (done.symm.trans notDone)
    · simpa only [Machine.triedMcore, loaded, tried] using member
    · simp only [stagedFile, done]
      rw [if_neg]
      rintro ⟨notDone, isDone⟩
      rw [notDone] at isDone
      cases isDone
  have gone :
      ∀ {next : Machine}, next.Unstaged → next.triedMcore = none →
        next.Unstaged ∧
          ∀ slot ∈ next.triedMcore,
            (slot ∈ Machine.triedMcore ⟨disk, phase⟩ ∧
              stagedFile ⟨disk, phase⟩ next last = last) ∨
              ∃ file, stagedFile ⟨disk, phase⟩ next last = some file ∧
                disk.mcore slot = some file := by
    intro next unstaged untried
    refine ⟨unstaged, ?_⟩
    rw [untried]
    intro slot member
    cases member
  cases turn with
  | idle =>
      refine ⟨unstaged, fun slot member => .inl ⟨member, ?_⟩⟩
      cases phase with
      | spl pc spl =>
          simp only [stagedFile]
          rw [if_neg]
          rintro ⟨notDone, done⟩
          rw [notDone] at done
          cases done
      | proper counted ram => rfl
      | linux boot => rfl
  | reset => exact gone unstaged_start rfl
  | asksAgain save runs decided => exact same runs rfl rfl rfl
  | picks save runs undecided => exact same runs rfl rfl rfl
  | disarms save runs => exact same runs rfl rfl rfl
  | loadsOs found runs => exact same runs rfl rfl rfl
  | loadsUboot runs => exact same runs rfl rfl rfl
  | @stages falcon spl save runs first =>
      obtain rfl : phase = .spl (.loaded falcon) spl := runs
      refine ⟨?_, fun slot member => .inr ?_⟩
      · intro pc spl runs notDone
        cases runs
        cases notDone
      · have loaded := loaded_of_triedMcore member
        obtain ⟨file, present⟩ :=
          file_of_loaded (unstaged _ _ rfl first) loaded
        have staged : disk.mcore slot = some file := present
        refine ⟨file, ?_, staged⟩
        simp only [stagedFile, first, loaded, Option.bind_some]
        rw [if_pos ⟨trivial, rfl⟩, staged]
  | @entersKernel spl runs done =>
      obtain rfl : phase = .spl (.loaded true) spl := runs
      exact ⟨unstaged_of_linux, fun slot member => .inl ⟨member, rfl⟩⟩
  | entersProper runs done =>
      refine gone ?_ rfl
      intro pc spl runs
      cases runs
  | counts save runs =>
      refine gone ?_ rfl
      intro pc spl runs
      cases runs
  | boots save runs allowed => exact gone unstaged_of_linux rfl
  | bootsAlternative save runs exceeded => exact gone unstaged_of_linux rfl

end Machine

/-! ## What the parts of the commands do -/

namespace Ab

/-- The other slot is never the one that is confirmed. -/
theorem mcoreTarget_name_ne (slot : Slot) : mcoreTarget slot.name ≠ slot := by
  cases slot <;> decide

/-- An `update` that gets to choose takes the other slot, with no try pending. -/
theorem ends_mcoreUpdateBegin (platform : Platform) (ctx : Ctx)
    (file : Option (List UInt8)) (session : Session Disk Write) :
    Script.Ends (mcoreUpdateBegin platform ctx file) session
      fun result _ =>
        ∀ chosen, result = .ok chosen →
          session.store.env.envget .mcoreTry = "" ∧
            chosen.1 =
              mcoreTarget (session.store.env.envget .mcoreSlot) := by
  cases file with
  | none =>
      rintro chosen ⟨⟩
  | some bytes =>
      simp only [mcoreUpdateBegin, Script.ends_bind, Script.ends_require,
        ends_lock, ends_envget, Script.ends_pure]
      refine ⟨fun _ => ⟨fun _ => ⟨fun _ => ⟨fun unpending => ?_, ?_⟩, ?_⟩,
        ?_⟩, ?_⟩
      · rintro chosen equal
        obtain rfl := Except.ok.inj equal
        exact ⟨unpending, rfl⟩
      all_goals rintro _ chosen ⟨⟩

/-- The two slots of p3 and `mcore_slot` are as before. -/
def LeavesMcore (disk : Disk) (later : Session Disk Write) : Prop :=
  later.store.mcore = disk.mcore ∧
    later.store.env.get .mcoreSlot = disk.env.get .mcoreSlot

/-- Arming a try leaves the firmware and the confirmed slot alone. -/
theorem ends_mcoreRollbackArm (ctx : Ctx) (tgt : Slot) (noReboot : Bool)
    (session : Session Disk Write) :
    Script.Ends (mcoreRollbackArm ctx tgt noReboot) session
      fun _ later => LeavesMcore session.store later := by
  simp only [mcoreRollbackArm, Script.ends_bind, ends_envset_single,
    ends_maybeReboot]
  constructor
  · intro _
    exact ⟨rfl, Env.get_set_of_ne _ _ (by decide)⟩
  · intro _
    exact ⟨rfl, rfl⟩

theorem ends_mcoreUpdateArm (ctx : Ctx) (tgt : Slot) (bytes : List UInt8)
    (noReboot : Bool) (session : Session Disk Write) :
    Script.Ends (mcoreUpdateArm ctx tgt bytes noReboot) session
      fun _ later => LeavesMcore session.store later := by
  rw [mcoreUpdateArm, Script.ends_bind, Script.ends_require]
  constructor
  · intro _
    exact ends_mcoreRollbackArm ctx tgt noReboot session
  · intro _
    exact ⟨rfl, rfl⟩

/-- A confirmation that watches knows the slot that was tried. -/
theorem ends_mcoreConfirmBegin (boot : LinuxBoot)
    (session : Session Disk Write) :
    Script.Ends (mcoreConfirmBegin boot) session
      fun result _ =>
        ∀ tried current, result = .ok (some (tried, current)) →
          boot.chosen.mcoreTry = some tried := by
  rw [mcoreConfirmBegin]
  cases boot.chosen.mcoreTry with
  | none =>
      rintro tried current equal
      cases Except.ok.inj equal
  | some slot =>
      rintro tried current equal
      cases equal
      rfl

/-- Only a healthy trial of a staged firmware is confirmed. -/
theorem ends_mcoreConfirmEnd (ctx : Ctx) (boot : LinuxBoot) (tried : Slot)
    (current : String) (healthy : Bool) (session : Session Disk Write) :
    Script.Ends (mcoreConfirmEnd ctx boot tried current healthy) session
      fun _ later =>
        LeavesMcore session.store later ∨
          ((boot.chosen.mcoreSlot = some tried ∧ healthy = true) ∧
            later.store.mcore = session.store.mcore ∧
              later.store.env.get .mcoreSlot = some tried.name) := by
  simp only [mcoreConfirmEnd, Script.ends_ite, ends_envset_single,
    Script.ends_reboot, Script.ends_pure]
  refine ⟨fun confirmed => ⟨fun _ => .inr ⟨confirmed, rfl, ?_⟩,
    fun _ => .inl ⟨rfl, rfl⟩⟩, fun _ => ⟨fun _ => .inl ⟨rfl, rfl⟩,
      fun _ => .inl ⟨rfl, rfl⟩⟩⟩
  simp [wroteEnv]

end Ab

/-! ## The invariant -/

namespace McoreSystem

/-- The file is in the slot, and no command is about to overwrite it. -/
def Keeps (state : McoreSystem) (slot : Slot) (file : List UInt8) : Prop :=
  state.machine.disk.mcore slot = some file ∧
    ∀ bytes, state.holder ≠ some (.updating slot bytes)

/--
A trial that is still to be decided is of the file that was staged, and what
`mcore_slot` names was found healthy.
-/
structure Sound (state : McoreSystem) : Prop where
  live : state.machine.Live
  unstaged : state.machine.Unstaged
  agrees : state.machine.workEnv.get .mcoreSlot =
    state.machine.disk.env.get .mcoreSlot
  watched : ∀ boot tried current,
    state.machine.phase = .linux boot →
      state.confirmation = .watching tried current →
        boot.chosen.mcoreTry = some tried
  pending : ∀ slot ∈ state.pending,
    ∃ file, state.staged = some file ∧ state.Keeps slot file
  proven : ∀ slot : Slot,
    state.machine.disk.env.get .mcoreSlot = some slot.name →
      ∃ file ∈ state.proven, state.Keeps slot file

variable
    {platform : Platform} {state : McoreSystem} {boot : LinuxBoot}

/-- Until the confirmation has ended, the slot that was tried is pending. -/
theorem pending_of_undecided (undecided : state.confirmation ≠ .ended) :
    state.pending = state.machine.triedMcore := by
  rw [pending]
  split
  · contradiction
  · rfl

/-- In Linux only a trial that was not decided is pending. -/
theorem undecided_of_pending {slot : Slot} (member : slot ∈ state.pending)
    (inLinux : state.machine.phase = .linux boot) :
    state.confirmation ≠ .ended := by
  intro ended
  rw [pending, inLinux, ended] at member
  cases member

theorem triedMcore_of_linux (inLinux : state.machine.phase = .linux boot)
    (disk : Disk) :
    Machine.triedMcore ⟨disk, .linux boot⟩ = state.machine.triedMcore := by
  simp only [Machine.triedMcore, inLinux]

theorem Sound.toProven (sound : state.Sound) : state.Proven := by
  intro slot named
  have stored :
      state.machine.disk.env.get .mcoreSlot = some slot.name := by
    rw [Env.envget] at named
    cases value : state.machine.disk.env.get .mcoreSlot with
    | none =>
        rw [value] at named
        exact absurd named.symm slot.name_ne_empty
    | some text =>
        rw [value] at named
        exact congrArg some named
  obtain ⟨file, member, kept⟩ := sound.proven slot stored
  exact ⟨file, member, kept.1⟩

/-- A step within Linux that keeps the files that matter keeps the invariant. -/
theorem Sound.within (sound : state.Sound)
    (inLinux : state.machine.phase = .linux boot) {disk : Disk}
    {holder : Option Holder} {confirmation : Confirmation}
    {proven : List (List UInt8)}
    (slot : disk.env.get .mcoreSlot =
      state.machine.disk.env.get .mcoreSlot)
    (undecided : confirmation ≠ .ended → state.confirmation ≠ .ended)
    (watched : ∀ tried current, confirmation = .watching tried current →
      boot.chosen.mcoreTry = some tried)
    (more : ∀ file ∈ state.proven, file ∈ proven)
    (keeps : ∀ slot file,
      slot ∈ state.pending ∨
          state.machine.disk.env.get .mcoreSlot = some slot.name →
        state.Keeps slot file →
          disk.mcore slot = some file ∧
            ∀ bytes, holder ≠ some (.updating slot bytes)) :
    Sound ⟨⟨disk, .linux boot⟩, holder, confirmation, state.staged, proven⟩ where
  live := trivial
  unstaged := Machine.unstaged_of_linux
  agrees := rfl
  watched := by
    intro boot' tried current runs watching
    cases runs
    exact watched tried current watching
  pending := by
    intro tried member
    have still := undecided_of_pending member rfl
    have was : tried ∈ state.pending := by
      rw [pending_of_undecided (undecided still),
        ← triedMcore_of_linux inLinux disk]
      rwa [pending_of_undecided still] at member
    obtain ⟨file, staged, kept⟩ := sound.pending tried was
    exact ⟨file, staged, keeps tried file (.inl was) kept⟩
  proven := by
    intro named stored
    have was := slot.symm.trans stored
    obtain ⟨file, member, kept⟩ := sound.proven named was
    exact ⟨file, more file member, keeps named file (.inr was) kept⟩

/-- A reboot ends the processes and keeps the files. -/
theorem Sound.finish {script : Ab PUnit}
    (sound : Sound
      { state with
        machine :=
          ⟨(Script.exec script state.machine.disk).2.store, .linux boot⟩ }) :
    (state.finish boot script).Sound := by
  rw [McoreSystem.finish]
  split_ifs
  · refine ⟨by simp [Machine.Live], Machine.unstaged_start, rfl, ?_, ?_, ?_⟩
    · intro boot tried current runs
      cases runs
    · intro slot member
      cases member
    · intro slot stored
      obtain ⟨file, member, kept⟩ := sound.proven slot stored
      refine ⟨file, member, kept.1, ?_⟩
      rintro bytes ⟨⟩
  · exact sound

/-- A turn of the boot chain keeps the files and `mcore_slot`. -/
theorem Sound.enters (sound : state.Sound) {next : Machine} {act : Act}
    (turn : Machine.Turn platform state.machine act next)
    (was : ∀ slot ∈ next.triedMcore,
      slot ∈ state.machine.triedMcore → slot ∈ state.pending) :
    Sound
      { state with
        machine := next
        holder := none
        confirmation := .unstarted
        staged := state.machine.stagedFile next state.staged } := by
  have files : next.disk.mcore = state.machine.disk.mcore := by
    rw [turn.disk_eq]
  have closed :
      ∀ change env,
        env.get .mcoreSlot = state.machine.disk.env.get .mcoreSlot →
          (Change.apply change env).get .mcoreSlot =
            state.machine.disk.env.get .mcoreSlot :=
    fun change env same => (change.get_mcoreSlot env).trans same
  obtain ⟨work, stored⟩ := turn.bootMoves.keeps closed sound.agrees rfl
  obtain ⟨unstaged, tried⟩ := turn.triedMcore sound.unstaged state.staged
  refine ⟨turn.live sound.live, unstaged, work.trans stored.symm, ?_, ?_, ?_⟩
  · intro boot slot current _ watching
    cases watching
  · intro slot member
    rw [pending_of_undecided (by nofun)] at member
    rcases tried slot member with ⟨before, same⟩ | ⟨file, staged, present⟩
    · obtain ⟨file, staged, kept⟩ := sound.pending slot (was slot member before)
      refine ⟨file, same.trans staged, ?_, fun _ => nofun⟩
      show next.disk.mcore slot = some file
      rw [files]
      exact kept.1
    · refine ⟨file, staged, ?_, fun _ => nofun⟩
      show next.disk.mcore slot = some file
      rw [files]
      exact present
  · intro slot named
    obtain ⟨file, member, kept⟩ := sound.proven slot (stored.symm.trans named)
    refine ⟨file, member, ?_, fun _ => nofun⟩
    show next.disk.mcore slot = some file
    rw [files]
    exact kept.1

/-- A step of the device keeps the invariant. -/
theorem Sound.turn (sound : state.Sound) {act : Act}
    (notCommand : ∀ command ctx, act ≠ .ab command ctx) :
    (state.turn platform act).Sound := by
  have noLinux :
      (∀ boot, state.machine.phase ≠ .linux boot) →
        Machine.Turn platform state.machine act
            (state.machine.step platform act) →
          (state.turn platform act).Sound := by
    intro outside turn
    have entered := sound.enters turn fun slot _ before => by
      rw [McoreSystem.pending]
      split
      · exact absurd ‹_› (outside _)
      · exact before
    rw [McoreSystem.turn]
    split
    · exact absurd ‹_› (outside _)
    · exact entered
  rcases Machine.step_cases platform sound.live act with
    ⟨-, turn⟩ | ⟨issued, issues, -, -, -⟩ | ⟨boot, -, inLinux, -, equal⟩
  · obtain ⟨⟨disk, phase⟩, holder, confirmation, staged, proven⟩ := state
    cases phase with
    | spl pc spl => exact noLinux (fun _ => nofun) turn
    | proper counted ram => exact noLinux (fun _ => nofun) turn
    | linux boot =>
        rcases turn.of_linux with same | reset
        · rw [McoreSystem.turn]
          simp only [same]
          exact sound
        · have entered := sound.enters turn fun slot member _ => by
            rw [reset] at member
            cases member
          rw [McoreSystem.turn]
          simp only [reset] at entered ⊢
          exact entered
  · exact absurd issues (notCommand _ _)
  · obtain ⟨⟨disk, phase⟩, holder, confirmation, staged, proven⟩ := state
    obtain rfl : phase = .linux boot := inLinux
    rw [McoreSystem.turn]
    simp only [equal]
    exact
      sound.within rfl (Env.get_set_of_ne _ _ (by decide)) id
        (fun tried current watching => sound.watched boot tried current rfl watching)
        (fun file member => member) (fun slot file _ kept => kept)

section Processes

variable
    {disk : Disk} {holder : Option Holder} {confirmation : Confirmation}
    {staged : Option (List UInt8)} {proven : List (List UInt8)}

/-- A command that leaves the firmware alone gives up the lock. -/
theorem Sound.releases
    (sound : Sound
      ⟨⟨disk, .linux boot⟩, holder, confirmation, staged, proven⟩)
    {script : Ab PUnit}
    (leaves : Script.Ends script ⟨disk, [], false⟩
      fun _ later => Ab.LeavesMcore disk later) :
    (McoreSystem.finish
      ⟨⟨disk, .linux boot⟩, none, confirmation, staged, proven⟩
      boot script).Sound := by
  obtain ⟨files, slot⟩ := leaves
  refine Sound.finish (sound.within rfl slot id ?_ (fun _ member => member) ?_)
  · intro tried current watching
    exact sound.watched boot tried current rfl watching
  · rintro slot file - ⟨present, -⟩
    refine ⟨?_, fun _ => nofun⟩
    rw [← present]
    exact congrFun files slot

/-- The slot a guarded `update` chooses matters to nobody. -/
theorem Sound.updateBegins
    (sound : Sound
      ⟨⟨disk, .linux boot⟩, holder, confirmation, staged, proven⟩)
    {tgt : Slot} (bytes : List UInt8)
    (spares : ∀ slot ∈ McoreSystem.pending
      ⟨⟨disk, .linux boot⟩, holder, confirmation, staged, proven⟩,
        tgt ≠ slot)
    (other : tgt = Ab.mcoreTarget (disk.env.envget .mcoreSlot)) :
    Sound
      ⟨⟨disk, .linux boot⟩, some (.updating tgt bytes), confirmation, staged,
        proven⟩ := by
  refine sound.within rfl rfl id ?_ (fun _ member => member) ?_
  · intro tried current watching
    exact sound.watched boot tried current rfl watching
  · rintro slot file matters ⟨present, -⟩
    refine ⟨present, fun later equal => ?_⟩
    cases equal
    rcases matters with member | named
    · exact spares tgt member rfl
    · have current : disk.env.envget .mcoreSlot = tgt.name := by
        rw [Env.envget, named, Option.getD_some]
      rw [current] at other
      exact Ab.mcoreTarget_name_ne tgt other.symm

/-- The file of another slot comes into place. -/
theorem Sound.updateMoves {tgt : Slot} {bytes : List UInt8}
    (sound : Sound
      ⟨⟨disk, .linux boot⟩, some (.updating tgt bytes), confirmation, staged,
        proven⟩) :
    (McoreSystem.finish
      ⟨⟨disk, .linux boot⟩, some (.moved tgt bytes), confirmation, staged,
        proven⟩
      boot (Ab.mcoreUpdateMove tgt bytes)).Sound := by
  have moved :
      (Script.exec (Ab.mcoreUpdateMove tgt bytes) disk).2.store =
        { disk with mcore := Function.update disk.mcore tgt (some bytes) } :=
    rfl
  refine Sound.finish ?_
  rw [moved]
  refine sound.within rfl rfl id ?_ (fun _ member => member) ?_
  · intro tried current watching
    exact sound.watched boot tried current rfl watching
  · rintro slot file - ⟨present, free⟩
    have distinct : slot ≠ tgt := by
      rintro rfl
      exact free bytes rfl
    refine ⟨?_, fun _ => nofun⟩
    rw [← present]
    exact Function.update_of_ne distinct _ _

/-- A confirmation confirms the file that was staged, or nothing. -/
theorem Sound.confirms {tried : Slot} {current : String}
    (sound : Sound
      ⟨⟨disk, .linux boot⟩, holder, .watching tried current, staged, proven⟩)
    (ctx : Ctx) (healthy : Bool) :
    (McoreSystem.finish
      ⟨⟨disk, .linux boot⟩, holder, .ended, staged,
        if boot.chosen.mcoreSlot = some tried ∧ healthy = true then
          staged.toList ++ proven
        else proven⟩
      boot (Ab.mcoreConfirmEnd ctx boot tried current healthy)).Sound := by
  have more :
      ∀ file ∈ proven,
        file ∈
          if boot.chosen.mcoreSlot = some tried ∧ healthy = true then
            staged.toList ++ proven
          else proven := by
    intro file member
    split_ifs
    · exact List.mem_append_right _ member
    · exact member
  refine Sound.finish ?_
  rcases Ab.ends_mcoreConfirmEnd ctx boot tried current healthy
    ⟨disk, [], false⟩ with ⟨files, slot⟩ | ⟨confirmed, files, slot⟩
  · refine
      sound.within rfl slot (fun still => absurd rfl still) (fun _ _ => nofun)
        more ?_
    rintro slot file - ⟨present, free⟩
    refine ⟨?_, free⟩
    rw [← present]
    exact congrFun files slot
  · have try_eq := sound.watched boot tried current rfl rfl
    have member :
        tried ∈ McoreSystem.pending
          ⟨⟨disk, .linux boot⟩, holder, .watching tried current, staged,
            proven⟩ := by
      rw [pending_of_undecided (by nofun)]
      simp only [Machine.triedMcore, try_eq, confirmed.1, if_true,
        Option.mem_def]
    obtain ⟨file, rfl, present, free⟩ := sound.pending tried member
    refine ⟨trivial, Machine.unstaged_of_linux, rfl, ?_, ?_, ?_⟩
    · intro boot tried current _ watching
      cases watching
    · intro slot member
      exact absurd rfl (undecided_of_pending member rfl)
    · intro named stored
      have equal := Option.some.inj (slot.symm.trans stored)
      obtain rfl := Slot.name_injective equal
      refine ⟨file, ?_, ?_, free⟩
      · rw [if_pos confirmed]
        exact List.mem_append_left _ (by simp)
      · rw [← present]
        exact congrFun files tried

end Processes

/-- A guarded step keeps the invariant. -/
theorem Sound.step (sound : state.Sound) {event : McoreEvent}
    (guarded : state.SparesPending event) :
    (state.step platform event).Sound := by
  obtain ⟨⟨disk, phase⟩, holder, confirmation, staged, proven⟩ := state
  cases event with
  | device act =>
      cases act with
      | ab command ctx => exact sound
      | reset => exact sound.turn fun _ _ => nofun
      | fsBootPartition save => exact sound.turn fun _ _ => nofun
      | startUboot save => exact sound.turn fun _ _ => nofun
      | loadOs found => exact sound.turn fun _ _ => nofun
      | loadUboot => exact sound.turn fun _ _ => nofun
      | mcoreStage save => exact sound.turn fun _ _ => nofun
      | leaveSpl => exact sound.turn fun _ _ => nofun
      | bootcountInc save => exact sound.turn fun _ _ => nofun
      | bootCommand save => exact sound.turn fun _ _ => nofun
      | falconRearm completed => exact sound.turn fun _ _ => nofun
  | updateBegin ctx file =>
      cases phase with
      | spl pc spl => exact sound
      | proper counted ram => exact sound
      | linux boot =>
          cases holder with
          | some holder => exact sound
          | none =>
              have spec :=
                Ab.ends_mcoreUpdateBegin platform ctx file ⟨disk, [], false⟩
              simp only [McoreSystem.step, Script.exec]
              split
              · next tgt bytes chosen =>
                  obtain ⟨unpending, (other : tgt = _)⟩ := spec _ chosen
                  refine sound.updateBegins bytes ?_ other
                  intro slot member
                  rw [other]
                  exact guarded slot member unpending
              · exact sound
  | updateMove =>
      rcases phase with ⟨pc, spl⟩ | ⟨counted, ram⟩ | boot
      · exact sound
      · exact sound
      · rcases holder with _ | ⟨tgt, bytes⟩ | ⟨tgt, bytes⟩ | tgt
        · exact sound
        · exact sound.updateMoves
        · exact sound
        · exact sound
  | updateArm ctx noReboot =>
      rcases phase with ⟨pc, spl⟩ | ⟨counted, ram⟩ | boot
      · exact sound
      · exact sound
      · rcases holder with _ | ⟨tgt, bytes⟩ | ⟨tgt, bytes⟩ | tgt
        · exact sound
        · exact sound
        · exact
            sound.releases (Ab.ends_mcoreUpdateArm ctx tgt bytes noReboot _)
        · exact sound
  | rollbackBegin ctx =>
      rcases phase with ⟨pc, spl⟩ | ⟨counted, ram⟩ | boot
      · exact sound
      · exact sound
      · cases holder with
        | some holder => exact sound
        | none =>
            simp only [McoreSystem.step]
            split
            · refine sound.within rfl rfl id ?_ (fun _ member => member) ?_
              · intro tried current watching
                exact sound.watched boot tried current rfl watching
              · exact fun slot file _ kept => ⟨kept.1, fun _ => nofun⟩
            · exact sound
  | rollbackArm ctx noReboot =>
      rcases phase with ⟨pc, spl⟩ | ⟨counted, ram⟩ | boot
      · exact sound
      · exact sound
      · rcases holder with _ | ⟨tgt, bytes⟩ | ⟨tgt, bytes⟩ | tgt
        · exact sound
        · exact sound
        · exact sound
        · exact
            sound.releases (Ab.ends_mcoreRollbackArm ctx tgt noReboot _)
  | killed =>
      refine ⟨sound.live, sound.unstaged, sound.agrees, sound.watched, ?_, ?_⟩
      · intro slot member
        obtain ⟨file, staged, kept⟩ := sound.pending slot member
        exact ⟨file, staged, kept.1, fun _ => nofun⟩
      · intro slot named
        obtain ⟨file, member, kept⟩ := sound.proven slot named
        exact ⟨file, member, kept.1, fun _ => nofun⟩
  | confirmBegin =>
      rcases phase with ⟨pc, spl⟩ | ⟨counted, ram⟩ | boot
      · exact sound
      · exact sound
      · cases confirmation with
        | unstarted =>
            have spec := Ab.ends_mcoreConfirmBegin boot ⟨disk, [], false⟩
            simp only [McoreSystem.step, Script.exec]
            split
            · next tried current known =>
                refine sound.within rfl rfl (fun _ => nofun) ?_
                  (fun _ member => member) (fun _ _ _ kept => kept)
                intro slot text watching
                cases watching
                exact spec _ _ known
            · exact
                sound.within rfl rfl (fun still => absurd rfl still)
                  (fun _ _ => nofun) (fun _ member => member)
                  (fun _ _ _ kept => kept)
        | watching tried current => exact sound
        | ended => exact sound
  | confirmEnd ctx healthy =>
      rcases phase with ⟨pc, spl⟩ | ⟨counted, ram⟩ | boot
      · exact sound
      · exact sound
      · cases confirmation with
        | unstarted => exact sound
        | watching tried current => exact sound.confirms ctx healthy
        | ended => exact sound

/-- A running Linux with nothing going on and an empty history. -/
def start (disk : Disk) (boot : LinuxBoot) : McoreSystem where
  machine := ⟨disk, .linux boot⟩
  holder := none
  confirmation := .ended
  staged := none
  proven := []

/-- With no firmware confirmed, the start meets the invariant. -/
theorem sound_start {disk : Disk} (boot : LinuxBoot)
    (unconfirmed : disk.env.get .mcoreSlot = none) :
    (start disk boot).Sound where
  live := trivial
  unstaged := Machine.unstaged_of_linux
  agrees := rfl
  watched := by
    intro _ tried current _ watching
    cases watching
  pending := by
    intro slot member
    cases member
  proven := by
    intro slot named
    cases unconfirmed.symm.trans named

/--
As long as no `update` chooses the slot whose trial is still being watched,
`mcore_slot` names a firmware that was found healthy, whatever else happens
in whatever order.
-/
theorem proven_along (platform : Platform) {disk : Disk} (boot : LinuxBoot)
    (unconfirmed : disk.env.get .mcoreSlot = none)
    {events : List McoreEvent}
    (guarded : Trace.Along (step platform) SparesPending (start disk boot)
      events) :
    Trace.Along (step platform)
      (fun state event => (state.step platform event).Proven)
      (start disk boot) events := by
  apply Trace.along_of_invariant _ _ (sound_start boot unconfirmed) guarded
  · intro state event sound guarded
    exact sound.step guarded
  · intro state event sound guarded
    exact (sound.step guarded).toProven

/-- The first firmware is written, booted by falcon and watched. -/
def firstUpdate (during : List McoreEvent) : List McoreEvent :=
  [.device (.falconRearm true),
    .updateBegin Bench.ctx (some (Bench.firmware 1)), .updateMove,
    .updateArm Bench.ctx false] ++
    Bench.falconBoot.map .device ++
    .confirmBegin :: during ++ [.confirmEnd Bench.ctx true]

/-- Another update steps in while the first firmware is being watched. -/
theorem firstUpdate_overwritten :
    ¬ Trace.Along (step Bench.platform)
      (fun state event => (state.step Bench.platform event).Proven)
      (start Bench.disk ⟨.a, Chosen.proper⟩)
      (firstUpdate
        [.updateBegin Bench.ctx (some (Bench.firmware 2)), .updateMove]) := by
  decide +kernel

/-- Left alone, the first firmware is confirmed as it was staged. -/
theorem firstUpdate_proven :
    Trace.Along (step Bench.platform)
        (fun state event => (state.step Bench.platform event).Proven)
        (start Bench.disk ⟨.a, Chosen.proper⟩) (firstUpdate []) ∧
      (Trace.run (step Bench.platform)
        (start Bench.disk ⟨.a, Chosen.proper⟩)
        (firstUpdate [])).machine.disk.env.get .mcoreSlot = some "a" := by
  have guarded :
      Trace.Along (step Bench.platform) SparesPending
        (start Bench.disk ⟨.a, Chosen.proper⟩) (firstUpdate []) := by
    decide +kernel
  exact ⟨proven_along Bench.platform _ rfl guarded, by decide +kernel⟩

end McoreSystem

end KmmYocto
