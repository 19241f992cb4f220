import KmmYocto.TrialWrites

/-!
# Sessions of `ab.sh linux try`

A session on a PC calls `begin`, `root`, `boot` and `arm`, one after the
other, and stops at the first failure.  Each call is a command of its own
under the lock; between two of them the device may reboot and other sessions
may call theirs.  All that links the calls of one session on the device is
the file `linux-try`.

The history of a session is what its verified calls wrote, and what the calls
of other sessions have written since its `begin`.
-/

namespace KmmYocto

/-- A `root` call that succeeded: its arguments, and what was there before. -/
structure RootRun where
  slot : Slot
  ctx : Ctx
  size : Nat
  sum : String
  stream : Ab.Stream
  before : List UInt8

/-- A `boot` call that succeeded. -/
structure BootRun where
  slot : Slot
  ctx : Ctx
  source : BootTree
  key : Option (List Char)
  before : BootTree

/-- The root partition after the call. -/
def RootRun.written (platform : Platform) (run : RootRun) : List UInt8 :=
  Ab.ddOver (platform.rootCapacity run.slot) run.stream.data run.before

/-- The stream arrived whole, and what was read back has the sum. -/
def RootRun.Verified (platform : Platform) (run : RootRun) : Prop :=
  (run.stream.complete = true ∧
    run.stream.data.length ≤ platform.rootCapacity run.slot) ∧
    platform.sha256
      ((run.ctx.readRoot (run.written platform)).take
        (Ab.readBackLength run.size)) = run.sum

instance (platform : Platform) (run : RootRun) :
    Decidable (run.Verified platform) :=
  inferInstanceAs (Decidable (_ ∧ _))

/-- The call installed its image as this tree, and every file compared equal. -/
def BootRun.Installed (platform : Platform) (run : BootRun)
    (tree : BootTree) : Prop :=
  BootFiles.installed platform run.slot run.source run.key run.before =
      some tree ∧
    BootFiles.mismatches run.source (run.ctx.readBoot tree) = []

instance (platform : Platform) (run : BootRun) (tree : BootTree) :
    Decidable (run.Installed platform tree) :=
  inferInstanceAs (Decidable (_ ∧ _))

/-- The target's root partition is what the call has written and verified. -/
def RootRun.LeftIn (platform : Platform) (run : RootRun) (disk : Disk)
    (target : Slot) : Prop :=
  run.slot = target ∧ run.Verified platform ∧
    disk.root target = run.written platform

instance (platform : Platform) (run : RootRun) (disk : Disk)
    (target : Slot) : Decidable (run.LeftIn platform disk target) :=
  inferInstanceAs (Decidable (_ ∧ _ ∧ _))

/-- The target's BOOT partition is what the call has installed. -/
def BootRun.LeftIn (platform : Platform) (run : BootRun) (disk : Disk)
    (target : Slot) : Prop :=
  run.slot = target ∧ run.Installed platform (disk.boot target)

instance (platform : Platform) (run : BootRun) (disk : Disk)
    (target : Slot) : Decidable (run.LeftIn platform disk target) :=
  inferInstanceAs (Decidable (_ ∧ _))

/-- What a session has achieved. -/
inductive SessionStage where
  | idle
  | begun
  | rooted (root : RootRun)
  | booted (root : RootRun) (boot : BootRun)
  /-- Armed, or stopped by a failure. -/
  | ended

/-- The next call of a session, with the arguments the PC passes. -/
inductive TryCall where
  | begin
  | root (size : Nat) (sum : String) (stream : Ab.Stream)
  | boot (source : BootTree) (key : Option (List Char))
  | arm (noReboot : Bool)

/-- The command of the call. -/
def TryCall.command : TryCall → AbCommand
  | .begin => .linuxTryBegin
  | .root size sum stream => .linuxTryRoot (some (size, sum)) stream
  | .boot source key => .linuxTryBoot (some source) key
  | .arm noReboot => .linuxTryArm noReboot

/-- The commands that only sessions call. -/
def AbCommand.isTry : AbCommand → Bool
  | .linuxTryBegin => true
  | .linuxTryRoot _ _ => true
  | .linuxTryBoot _ _ => true
  | .linuxTryArm _ => true
  | _ => false

theorem AbCommand.isTry_of_usesTarget {command : AbCommand}
    (uses : command.usesTarget = true) : command.isTry = true := by
  cases command with
  | linuxTryRoot arguments stream => rfl
  | linuxTryBoot image key => rfl
  | linuxTryArm noReboot => rfl
  | _ => cases uses

namespace SessionStage

/-- The stage after a call; `root` and `boot` use the slot in `linux-try`. -/
def after (disk : Disk) (ctx : Ctx) (succeeds : Bool) :
    SessionStage → TryCall → Option SessionStage
  | .idle, .begin => some (if succeeds then .begun else .ended)
  | .begun, .root size sum stream =>
      match succeeds, disk.linuxTry with
      | true, some file =>
          some
            (.rooted
              ⟨file.toSlot, ctx, size, sum, stream, disk.root file.toSlot⟩)
      | _, _ => some .ended
  | .rooted root, .boot source key =>
      match succeeds, disk.linuxTry with
      | true, some file =>
          some
            (.booted root
              ⟨file.toSlot, ctx, source, key, disk.boot file.toSlot⟩)
      | _, _ => some .ended
  | .booted _ _, .arm _ => some .ended
  | _, _ => none

end SessionStage

/-- A step of the device, or a call of a session. -/
inductive TryEvent where
  | device (act : Act)
  | call (session : Nat) (ctx : Ctx) (call : TryCall)

/-- The device, the sessions and their history. -/
structure TrySystem where
  machine : Machine
  stage : Nat → SessionStage
  /-- What other sessions have written since the session's `begin`. -/
  foreign : Nat → List Write

namespace TrySystem

/-- No session has made a call yet. -/
def start (machine : Machine) : TrySystem where
  machine
  stage _ := .idle
  foreign _ := []

/-- A call that is made, and what it adds to the history. -/
def called (platform : Platform) (state : TrySystem) (boot : LinuxBoot)
    (session : Nat) (ctx : Ctx) (call : TryCall) (stage : SessionStage) :
    TrySystem where
  machine := state.machine.step platform (.ab call.command ctx)
  stage := Function.update state.stage session stage
  foreign other :=
    if other = session then
      match call with
      | .begin => []
      | _ => state.foreign other
    else
      state.foreign other ++
        (state.machine.runAb platform boot call.command ctx).2.writes

/-- A session makes its next call on a running Linux, if it has one. -/
def calls (platform : Platform) (state : TrySystem) (boot : LinuxBoot)
    (session : Nat) (ctx : Ctx) (call : TryCall) : TrySystem :=
  let succeeds :=
    (state.machine.runAb platform boot call.command ctx).1.isOk
  match (state.stage session).after state.machine.disk ctx succeeds
    call with
  | none => state
  | some stage => state.called platform boot session ctx call stage

/-- The session makes no further call. -/
def stopped (state : TrySystem) (session : Nat) : TrySystem :=
  { state with stage := Function.update state.stage session .ended }

/-- The next state.  A session that cannot reach a running Linux stops. -/
def step (platform : Platform) (state : TrySystem) : TryEvent → TrySystem
  | .device (.ab command ctx) =>
      if command.isTry then state
      else
        { state with
          machine := state.machine.step platform (.ab command ctx) }
  | .device act => { state with machine := state.machine.step platform act }
  | .call session ctx call =>
      match state.machine.phase with
      | .linux boot => state.calls platform boot session ctx call
      | _ => state.stopped session

/-- A successful `arm`: who armed which slot, with what written before. -/
structure Arming where
  session : Nat
  target : Slot
  root : RootRun
  boot : BootRun

/-- The successful `arm` that the event is, if it is one. -/
def arming (platform : Platform) (state : TrySystem) :
    TryEvent → Option Arming
  | .call session ctx (.arm noReboot) =>
      match state.machine.phase, state.stage session,
        state.machine.disk.linuxTry with
      | .linux boot, .booted root written, some file =>
          if (state.machine.runAb platform boot (.linuxTryArm noReboot)
              ctx).1.isOk then
            some ⟨session, file.toSlot, root, written⟩
          else none
      | _, _, _ => none
  | _ => none

/--
A successful `arm` arms what the session's own calls have written, whole and
verified, and nothing of another session.
-/
def ArmsOwn (platform : Platform) (state : TrySystem) (event : TryEvent) :
    Prop :=
  ∀ arming ∈ state.arming platform event,
    arming.root.LeftIn platform state.machine.disk arming.target ∧
    arming.boot.LeftIn platform state.machine.disk arming.target ∧
    ∀ write ∈ state.foreign arming.session,
      write.partition ≠ some arming.target

instance (platform : Platform) (state : TrySystem) (event : TryEvent) :
    Decidable (state.ArmsOwn platform event) :=
  inferInstanceAs (Decidable (∀ arming ∈ state.arming platform event, _))

end TrySystem

namespace TrySystem

/--
The slot that a successful `arm` finds in `linux-try` is the one that the
`root` and `boot` of its session have found there, and no other session has
written to that slot since the session's `begin`.
-/
def Undisturbed (platform : Platform) (state : TrySystem) (event : TryEvent) :
    Prop :=
  ∀ arming ∈ state.arming platform event,
    arming.root.slot = arming.target ∧ arming.boot.slot = arming.target ∧
      ∀ write ∈ state.foreign arming.session,
        write.partition ≠ some arming.target

instance (platform : Platform) (state : TrySystem) (event : TryEvent) :
    Decidable (state.Undisturbed platform event) :=
  inferInstanceAs (Decidable (∀ arming ∈ state.arming platform event, _))

end TrySystem

/-! ## What the calls do -/

namespace Ab

open Script

section Calls

variable
    {platform : Platform} {ctx : Ctx} {disk : Disk}

/-- A `root` that succeeds has written the whole stream and verified it. -/
theorem ends_linuxTryRoot {file : LinuxTry}
    (found : disk.linuxTry = some file) (size : Nat) (sum : String)
    (stream : Stream) :
    Ends (linuxTryRoot platform ctx (some (size, sum)) stream)
      ⟨disk, [], false⟩
      fun result later =>
        result.isOk = true →
          let run : RootRun :=
            ⟨file.toSlot, ctx, size, sum, stream, disk.root file.toSlot⟩
          run.Verified platform ∧
            later.store = disk.apply (.root run.slot (run.written platform)) := by
  simp only [linuxTryRoot, ends_bind, ends_tryTarget, found, Option.map_some,
    ends_lock, ends_require, ends_read, ends_persist]
  refine ⟨fun _ => ⟨fun _ => ⟨fun _ => ⟨fun whole =>
    ⟨fun same _ => ⟨⟨whole, same⟩, rfl⟩, ?_⟩, ?_⟩, ?_⟩, ?_⟩, ?_⟩
  all_goals exact fun _ failed => absurd failed Bool.false_ne_true

/-- A `boot` that succeeds has installed its image and compared it. -/
theorem ends_linuxTryBoot {file : LinuxTry}
    (found : disk.linuxTry = some file) (source : BootTree)
    (key : Option (List Char)) :
    Ends (linuxTryBoot platform ctx (some source) key) ⟨disk, [], false⟩
      fun result later =>
        result.isOk = true →
          let run : BootRun :=
            ⟨file.toSlot, ctx, source, key, disk.boot file.toSlot⟩
          ∃ tree, run.Installed platform tree ∧
            later.store.boot run.slot = tree ∧
              later.store.root = disk.root := by
  rw [linuxTryBoot, ends_bind, ends_tryTarget, found]
  simp only [Option.map_some, ends_bind, ends_lock, ends_require, ends_read,
    ends_persist]
  refine ⟨fun _ => ⟨fun _ => ?_, fun _ failed => absurd failed Bool.false_ne_true⟩,
    fun _ failed => absurd failed Bool.false_ne_true⟩
  cases conf : BootFiles.file
      (BootFiles.copyInto source
        (BootFiles.clear (disk.boot file.toSlot)))
      "extlinux/extlinux.conf" with
  | none => exact fun failed => absurd failed Bool.false_ne_true
  | some text =>
      simp only [ends_bind, ends_persist, ends_require]
      refine ⟨fun same _ => ?_,
        fun _ failed => absurd failed Bool.false_ne_true⟩
      refine ⟨_, ⟨?_, same⟩, Function.update_self .., rfl⟩
      exact congrArg (Option.map _) conf

end Calls

end Ab

/-! ## What other steps leave -/

/-- The log of a command tells the whole change of the disk. -/
theorem Machine.session_replay (platform : Platform) (machine : Machine)
    (issued : Machine.Issued) :
    (machine.session platform issued).store =
      Script.replay machine.disk
        (machine.session platform issued).writes :=
  issued.command.replays platform issued.ctx issued.boot machine.disk

/-- The two partitions of the slot are the same. -/
structure SameSlot (slot : Slot) (before after : Disk) : Prop where
  root : after.root slot = before.root slot
  boot : after.boot slot = before.boot slot

/-- None of the writes goes to a partition of the slot. -/
def Spared (writes : List Write) (slot : Slot) : Prop :=
  ∀ write ∈ writes, write.partition ≠ some slot

theorem SameSlot.refl (slot : Slot) (disk : Disk) : SameSlot slot disk disk :=
  ⟨rfl, rfl⟩

theorem SameSlot.trans {slot : Slot} {first second third : Disk}
    (early : SameSlot slot first second)
    (late : SameSlot slot second third) : SameSlot slot first third :=
  ⟨late.root.trans early.root, late.boot.trans early.boot⟩

/-- A write elsewhere leaves the slot as it was. -/
theorem SameSlot.apply {slot : Slot} {write : Write} (disk : Disk)
    (elsewhere : write.partition ≠ some slot) :
    SameSlot slot disk (disk.apply write) := by
  cases write with
  | root other bytes =>
      have distinct : slot ≠ other := fun equal => elsewhere (by rw [equal]; rfl)
      exact ⟨Function.update_of_ne distinct .., rfl⟩
  | boot other tree =>
      have distinct : slot ≠ other := fun equal => elsewhere (by rw [equal]; rfl)
      exact ⟨rfl, Function.update_of_ne distinct ..⟩
  | env env => exact ⟨rfl, rfl⟩
  | mbr mbr => exact ⟨rfl, rfl⟩
  | linuxTry file => exact ⟨rfl, rfl⟩
  | mcore other file => exact ⟨rfl, rfl⟩

/-- Writes that spare the slot leave it as it was. -/
theorem SameSlot.replay {slot : Slot} {writes : List Write} (disk : Disk)
    (spared : Spared writes slot) :
    SameSlot slot disk (Script.replay disk writes) := by
  induction writes generalizing disk with
  | nil => exact refl slot disk
  | cons write rest induction =>
      have now := apply disk (spared write List.mem_cons_self)
      exact now.trans
        (induction _ fun other later =>
          spared other (List.mem_cons_of_mem _ later))

/-- A step outside the sessions leaves every slot as it was. -/
theorem Machine.step_sameSlot (platform : Platform) {machine : Machine}
    (live : machine.Live) {act : Act}
    (notTry : ∀ command ctx, act = .ab command ctx →
      command.isTry = false) (slot : Slot) :
    SameSlot slot machine.disk (machine.step platform act).disk := by
  rcases machine.step_cases platform live act with
    ⟨-, turn⟩ | ⟨issued, rfl, inLinux, -, equal⟩ | ⟨boot, -, -, -, equal⟩
  · rw [turn.disk_eq]
    exact ⟨rfl, rfl⟩
  · rw [equal]
    show SameSlot slot machine.disk (machine.session platform issued).store
    rw [machine.session_replay platform issued]
    apply SameSlot.replay
    intro write member goes
    have uses := (machine.session_partition platform issued member goes).1
    have quiet := notTry issued.command issued.ctx rfl
    rw [AbCommand.isTry_of_usesTarget uses] at quiet
    cases quiet
  · rw [equal]
    exact ⟨rfl, rfl⟩

/-! ## What a session relies on -/

section Kept

variable
    {platform : Platform} {before later : Disk} {earlier foreign : List Write}

/-- The call's image is whole, and in place unless others wrote to the slot. -/
def RootRun.Kept (platform : Platform) (run : RootRun) (disk : Disk)
    (foreign : List Write) : Prop :=
  run.Verified platform ∧
    (Spared foreign run.slot → disk.root run.slot = run.written platform)

/-- The same of the image that the call has installed. -/
def BootRun.Kept (platform : Platform) (run : BootRun) (disk : Disk)
    (foreign : List Write) : Prop :=
  Spared foreign run.slot → run.Installed platform (disk.boot run.slot)

theorem RootRun.Kept.frame {run : RootRun}
    (kept : run.Kept platform before earlier)
    (same : Spared foreign run.slot →
      Spared earlier run.slot ∧ SameSlot run.slot before later) :
    run.Kept platform later foreign := by
  obtain ⟨verified, inPlace⟩ := kept
  refine ⟨verified, fun spared => ?_⟩
  obtain ⟨sparedBefore, sameSlot⟩ := same spared
  rw [sameSlot.root, inPlace sparedBefore]

theorem BootRun.Kept.frame {run : BootRun}
    (kept : run.Kept platform before earlier)
    (same : Spared foreign run.slot →
      Spared earlier run.slot ∧ SameSlot run.slot before later) :
    run.Kept platform later foreign := by
  intro spared
  obtain ⟨sparedBefore, sameSlot⟩ := same spared
  rw [sameSlot.boot]
  exact kept sparedBefore

/-- What a session has achieved is kept unless others wrote to its slots. -/
def SessionStage.Kept (platform : Platform) (disk : Disk)
    (foreign : List Write) : SessionStage → Prop
  | .idle => True
  | .begun => True
  | .rooted root => root.Kept platform disk foreign
  | .booted root boot =>
      root.Kept platform disk foreign ∧ boot.Kept platform disk foreign
  | .ended => True

/-- Steps that write to a slot only what they log keep it. -/
theorem SessionStage.Kept.frame {stage : SessionStage}
    (kept : stage.Kept platform before earlier)
    (same : ∀ slot, Spared foreign slot →
      Spared earlier slot ∧ SameSlot slot before later) :
    stage.Kept platform later foreign := by
  cases stage with
  | idle => trivial
  | begun => trivial
  | rooted root => exact RootRun.Kept.frame kept (same root.slot)
  | booted root boot =>
      obtain ⟨rootKept, bootKept⟩ := kept
      exact ⟨rootKept.frame (same root.slot), bootKept.frame (same boot.slot)⟩
  | ended => trivial

section Calls

variable
    {machine : Machine} {boot : LinuxBoot} {ctx : Ctx} {next : SessionStage}

theorem SessionStage.kept_rooted {size : Nat} {sum : String}
    {stream : Ab.Stream}
    (goesOn : SessionStage.begun.after machine.disk ctx
      (machine.runAb platform boot (.linuxTryRoot (some (size, sum)) stream)
        ctx).1.isOk (.root size sum stream) = some next) :
    next.Kept platform
      (machine.runAb platform boot (.linuxTryRoot (some (size, sum)) stream)
        ctx).2.store foreign := by
  dsimp only [SessionStage.after] at goesOn
  split at goesOn
  · next file succeeds found =>
      obtain rfl := Option.some.inj goesOn
      have ends :=
        @Ab.ends_linuxTryRoot platform ctx _ _ found size sum stream
      obtain ⟨verified, left⟩ := ends succeeds
      refine ⟨verified, fun _ => ?_⟩
      rw [show (machine.runAb platform boot
        (.linuxTryRoot (some (size, sum)) stream) ctx).2.store = _ from left]
      exact Function.update_self ..
  · obtain rfl := Option.some.inj goesOn
    trivial

theorem SessionStage.kept_booted {root : RootRun} {source : BootTree}
    {key : Option (List Char)}
    (kept : root.Kept platform machine.disk foreign)
    (goesOn : (SessionStage.rooted root).after machine.disk ctx
      (machine.runAb platform boot (.linuxTryBoot (some source) key)
        ctx).1.isOk (.boot source key) = some next) :
    next.Kept platform
      (machine.runAb platform boot (.linuxTryBoot (some source) key)
        ctx).2.store foreign := by
  dsimp only [SessionStage.after] at goesOn
  split at goesOn
  · next file succeeds found =>
      obtain rfl := Option.some.inj goesOn
      have ends := @Ab.ends_linuxTryBoot platform ctx _ _ found source key
      obtain ⟨tree, installed, left, sameRoot⟩ := ends succeeds
      subst left
      obtain ⟨verified, inPlace⟩ := kept
      refine ⟨⟨verified, fun spared => ?_⟩, fun _ => installed⟩
      exact (congrFun sameRoot _).trans (inPlace spared)
  · obtain rfl := Option.some.inj goesOn
    trivial

/-- A call keeps what its own session has achieved, and adds to it. -/
theorem SessionStage.Kept.after {call : TryCall} {stage : SessionStage}
    (kept : stage.Kept platform machine.disk foreign)
    (goesOn : stage.after machine.disk ctx
      (machine.runAb platform boot call.command ctx).1.isOk call =
        some next) :
    next.Kept platform
      (machine.runAb platform boot call.command ctx).2.store foreign := by
  cases stage with
  | idle =>
      cases call with
      | begin =>
          obtain rfl := Option.some.inj goesOn
          split_ifs
          · trivial
          · trivial
      | _ => cases goesOn
  | begun =>
      cases call with
      | root size sum stream => exact kept_rooted goesOn
      | _ => cases goesOn
  | rooted root =>
      cases call with
      | boot source key => exact kept_booted kept goesOn
      | _ => cases goesOn
  | booted root boot =>
      cases call with
      | arm noReboot =>
          obtain rfl := Option.some.inj goesOn
          trivial
      | _ => cases goesOn
  | ended => cases call <;> cases goesOn

end Calls

end Kept

/-! ## Runs of many sessions -/

namespace TrySystem

variable
    {platform : Platform} {state : TrySystem}

/-- Every session still has what it achieved, unless others wrote there. -/
structure Sound (platform : Platform) (state : TrySystem) : Prop where
  live : state.machine.Live
  kept : ∀ session,
    (state.stage session).Kept platform state.machine.disk
      (state.foreign session)

theorem sound_start {machine : Machine} (live : machine.Live) :
    (start machine).Sound platform where
  live
  kept _ := trivial

/-- Only a session that has not begun calls `begin`. -/
theorem stage_of_begin {disk : Disk} {ctx : Ctx} {succeeds : Bool}
    {stage next : SessionStage}
    (goesOn : stage.after disk ctx succeeds .begin = some next) :
    stage = .idle := by
  cases stage with
  | idle => rfl
  | _ => cases goesOn

/-- A call adds to its own session and is logged for the others. -/
theorem Sound.called (sound : state.Sound platform) {boot : LinuxBoot}
    (inLinux : state.machine.phase = .linux boot) {session : Nat}
    {ctx : Ctx} {call : TryCall} {next : SessionStage}
    (goesOn : (state.stage session).after state.machine.disk ctx
      (state.machine.runAb platform boot call.command ctx).1.isOk call =
        some next) :
    (state.called platform boot session ctx call next).Sound platform := by
  let issued : Machine.Issued := ⟨call.command, ctx, boot⟩
  have stepped :
      state.machine.step platform (.ab call.command ctx) =
        state.machine.afterCommand platform issued := by
    apply Machine.step_of_issued
    rw [Machine.issued, inLinux]
  refine ⟨state.machine.step_live platform sound.live _, ?_⟩
  intro other
  simp only [TrySystem.called, stepped]
  by_cases own : other = session
  · subst own
    rw [Function.update_self, if_pos rfl]
    refine SessionStage.Kept.after ?_ goesOn
    cases call with
    | begin =>
        rw [stage_of_begin goesOn]
        trivial
    | _ => exact sound.kept other
  · rw [Function.update_of_ne own, if_neg own]
    refine (sound.kept other).frame fun slot spared => ⟨?_, ?_⟩
    · intro write member
      exact spared write (List.mem_append_left _ member)
    · show SameSlot slot state.machine.disk
        (state.machine.session platform issued).store
      rw [state.machine.session_replay platform issued]
      apply SameSlot.replay
      intro write member
      exact spared write (List.mem_append_right _ member)

theorem Sound.stopped (sound : state.Sound platform) (session : Nat) :
    (state.stopped session).Sound platform where
  live := sound.live
  kept other := by
    simp only [TrySystem.stopped]
    by_cases own : other = session
    · subst own
      rw [Function.update_self]
      trivial
    · rw [Function.update_of_ne own]
      exact sound.kept other

/-- A step of the device keeps what every session has achieved. -/
theorem Sound.device (sound : state.Sound platform) (act : Act)
    (notTry : ∀ command ctx, act = .ab command ctx →
      command.isTry = false) :
    { state with machine := state.machine.step platform act }.Sound
      platform where
  live := state.machine.step_live platform sound.live act
  kept session :=
    (sound.kept session).frame fun slot spared =>
      ⟨spared, state.machine.step_sameSlot platform sound.live notTry slot⟩

theorem Sound.step (sound : state.Sound platform) (event : TryEvent) :
    (state.step platform event).Sound platform := by
  cases event with
  | device act =>
      cases act with
      | ab command ctx =>
          rw [TrySystem.step]
          split_ifs with isTry
          · exact sound
          · apply sound.device
            rintro _ _ ⟨⟩
            exact Bool.eq_false_iff.mpr isTry
      | _ =>
          apply sound.device
          rintro _ _ ⟨⟩
  | call session ctx call =>
      rw [TrySystem.step]
      split
      · next boot inLinux =>
          rw [TrySystem.calls]
          cases goesOn : (state.stage session).after state.machine.disk ctx
              (state.machine.runAb platform boot call.command ctx).1.isOk
              call with
          | none => exact sound
          | some stage => exact sound.called inLinux goesOn
      · exact sound.stopped session

/-- The session that arms a slot has written and installed its images. -/
theorem stage_of_arming {event : TryEvent} {arming : Arming}
    (armed : arming ∈ state.arming platform event) :
    state.stage arming.session = .booted arming.root arming.boot := by
  cases event with
  | device act => cases armed
  | call session ctx call =>
      cases call with
      | arm noReboot =>
          rw [TrySystem.arming] at armed
          split at armed
          · next boot root written file inLinux stage found =>
              split_ifs at armed with succeeds
              · obtain rfl := Option.some.inj armed
                exact stage
              · cases armed
          · cases armed
      | _ => cases armed

/-- An `arm` arms what its session has written exactly if it is undisturbed. -/
theorem Sound.armsOwn_iff (sound : state.Sound platform) (event : TryEvent) :
    state.ArmsOwn platform event ↔ state.Undisturbed platform event := by
  constructor
  · intro armsOwn arming armed
    obtain ⟨rootLeft, bootLeft, spared⟩ := armsOwn arming armed
    exact ⟨rootLeft.1, bootLeft.1, spared⟩
  · intro undisturbed arming armed
    obtain ⟨rootSlot, bootSlot, spared⟩ := undisturbed arming armed
    have kept := sound.kept arming.session
    rw [stage_of_arming armed] at kept
    obtain ⟨⟨verified, inPlace⟩, installed⟩ := kept
    rw [RootRun.LeftIn, BootRun.LeftIn]
    rw [rootSlot] at inPlace
    rw [BootRun.Kept, bootSlot] at installed
    exact
      ⟨⟨rootSlot, verified, inPlace spared⟩, ⟨bootSlot, installed spared⟩,
        spared⟩

/--
In a run of any number of sessions, of reboots, rollbacks and other commands,
each `arm` arms one image, which its own session has written and verified,
exactly if it is undisturbed.
-/
theorem armsOwn_along_iff (platform : Platform) {machine : Machine}
    (live : machine.Live) (events : List TryEvent) :
    Trace.Along (step platform) (ArmsOwn platform) (start machine) events ↔
      Trace.Along (step platform) (Undisturbed platform) (start machine)
        events :=
  @Trace.along_iff_guarded _ _ (step platform) (Sound platform)
    (Undisturbed platform) _ (fun _ event sound _ => sound.step event)
    (fun _ event sound => sound.armsOwn_iff event) _ _ (sound_start live)

end TrySystem

/-! ## Two sessions -/

namespace Bench

def bootImage : BootTree :=
  [("extlinux/extlinux.conf", "append root=/dev/mmcblk2p5".toList)]

/-- A `root` call with the bench's image of the byte. -/
def rootCall (byte : UInt8) (complete : Bool) : TryCall :=
  .root 512 (Sha256.hexDigest (rootImage byte))
    ⟨if complete then rootImage byte else (rootImage byte).take 256, complete⟩

/-- A session that others interrupt before its `arm`. -/
def interrupted (others : List TryEvent) : List TryEvent :=
  [.call 1 ctx .begin, .call 1 ctx (rootCall 0 true),
    .call 1 ctx (.boot bootImage none)] ++ others ++ [.call 1 ctx (.arm true)]

end Bench

namespace TrySystem

/-- Another PC begins, and loses the network while it streams its root. -/
def twoSessions : List TryEvent :=
  Bench.interrupted
    [.call 2 Bench.ctx .begin, .call 2 Bench.ctx (Bench.rootCall 1 false)]

/-- The first session then arms half of one image over half of another. -/
theorem twoSessions_mixed :
    ¬ Trace.Along (step Bench.platform) (ArmsOwn Bench.platform)
      (start (Machine.shipped Bench.disk Chosen.proper)) twoSessions := by
  decide +kernel

/-- Another `begin` and a reboot do no harm. -/
theorem begunTwice_armsOwn :
    Trace.Along (step Bench.platform) (ArmsOwn Bench.platform)
      (start (Machine.shipped Bench.disk Chosen.proper))
      (Bench.interrupted
        (.call 2 Bench.ctx .begin :: .device (.falconRearm true) ::
          Bench.falconBoot.map .device)) :=
  (@armsOwn_along_iff Bench.platform
    (Machine.shipped Bench.disk Chosen.proper) trivial _).mpr
    (by decide +kernel)

end TrySystem

end KmmYocto
