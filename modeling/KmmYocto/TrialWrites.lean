import KmmYocto.ConfirmedSlot

/-!
# Which partitions a trial writes

`try root` and `try boot` write the slot that `linux-try` names and look at
nothing else, and no other command writes a BOOT or a root partition.  The
named slot is a spare one as long as the steps that read the file are issued
from the confirmed slot and a commit always removes the file.
-/

namespace KmmYocto

/-- The slot whose BOOT or root partition the write goes to. -/
def Write.partition : Write → Option Slot
  | .boot slot _ => some slot
  | .root slot _ => some slot
  | .env _ => none
  | .mbr _ => none
  | .linuxTry _ => none
  | .mcore _ _ => none

/-- The write goes to no BOOT and no root partition. -/
def Write.SparesPartitions (write : Write) : Prop :=
  write.partition = none

theorem Write.spares_linuxTry (file : Option LinuxTry) :
    (Write.linuxTry file).SparesPartitions :=
  rfl

theorem Write.spares_mcore (slot : Slot) (file : List UInt8) :
    (Write.mcore slot file).SparesPartitions :=
  rfl

/-- A write to a BOOT or root partition goes to this slot. -/
def Write.Targets (target : Slot) (write : Write) : Prop :=
  ∀ slot, write.partition = some slot → slot = target

namespace Ab

open Script

theorem writesOnly_lock (ctx : Ctx) {allowed : Write → Prop} :
    WritesOnly allowed (lock ctx) :=
  writesOnly_require _ _

theorem writesOnly_envget (name : EnvVar) {allowed : Write → Prop} :
    WritesOnly allowed (envget name) :=
  writesOnly_read.bind fun _ => writesOnly_pure _

theorem writesOnly_envVerify {allowed : Write → Prop} :
    ∀ assignments, WritesOnly allowed (envVerify assignments)
  | [] => writesOnly_pure _
  | (_, _) :: rest =>
      (writesOnly_envget _).bind fun _ =>
        (writesOnly_require _ _).bind fun _ => writesOnly_envVerify rest

theorem writesOnly_envset (ctx : Ctx)
    (assignments : List (EnvVar × String)) {allowed : Write → Prop}
    (permitted : ∀ env, allowed (.env env)) :
    WritesOnly allowed (envset ctx assignments) :=
  (writesOnly_require _ _).bind fun _ => writesOnly_read.bind fun _ =>
    (writesOnly_persist (permitted _)).bind fun _ =>
      writesOnly_envVerify assignments

theorem writesOnly_mbrSet (ctx : Ctx) (slot : String)
    {allowed : Write → Prop} (permitted : ∀ mbr, allowed (.mbr mbr)) :
    WritesOnly allowed (mbrSet ctx slot) := by
  refine writesOnly_read.bind fun disk => .ite (writesOnly_pure _) ?_
  have readBack : ∀ expected : List UInt8,
      WritesOnly allowed (do
        let after ← Script.read
        Script.require (after.mbr.bytes = expected)
          "ab: MBR の bootable フラグの読み戻しが一致しない" : Ab PUnit) :=
    fun expected => writesOnly_read.bind fun _ => writesOnly_require _ _
  exact
    .ite ((writesOnly_persist (permitted _)).bind fun _ => readBack _)
      (readBack _)

theorem writesOnly_maybeReboot (noReboot : Bool) {allowed : Write → Prop} :
    WritesOnly allowed (maybeReboot noReboot) :=
  .ite (writesOnly_pure _) writesOnly_reboot

theorem writesOnly_tryTarget {allowed : Write → Prop} :
    WritesOnly allowed tryTarget :=
  writesOnly_read.bind fun _ => writesOnly_pure _

/-! ## The commands that write no partition -/

theorem sparesPartitions_linuxTryBegin (platform : Platform) (ctx : Ctx)
    (boot : LinuxBoot) :
    WritesOnly Write.SparesPartitions (linuxTryBegin platform ctx boot) :=
  (writesOnly_lock ctx).bind fun _ => (writesOnly_envget _).bind fun _ =>
    (writesOnly_require _ _).bind fun _ => (writesOnly_envget _).bind fun _ =>
      (writesOnly_require _ _).bind fun _ =>
        (writesOnly_require _ _).bind fun _ =>
          (writesOnly_persist (Write.spares_linuxTry _)).bind fun _ =>
            writesOnly_pure _

theorem sparesPartitions_linuxTryArm (ctx : Ctx) (boot : LinuxBoot)
    (noReboot : Bool) :
    WritesOnly Write.SparesPartitions (linuxTryArm ctx boot noReboot) := by
  refine writesOnly_tryTarget.bind fun target => ?_
  cases target with
  | none => exact writesOnly_die _
  | some tgt =>
      exact
        (writesOnly_lock ctx).bind fun _ =>
          (writesOnly_envset ctx _ fun _ => rfl).bind fun _ =>
            writesOnly_maybeReboot noReboot

theorem sparesPartitions_linuxCommit (ctx : Ctx) (boot : LinuxBoot)
    (force : Bool) :
    WritesOnly Write.SparesPartitions (linuxCommit ctx boot force) := by
  refine (writesOnly_lock ctx).bind fun _ =>
    (writesOnly_envget _).bind fun slot =>
      (writesOnly_envget _).bind fun trial => .ite ?_ ?_
  · exact
      (writesOnly_require _ _).bind fun _ =>
        writesOnly_mbrSet ctx _ fun _ => rfl
  · exact
      (writesOnly_require _ _).bind fun _ => writesOnly_read.bind fun _ =>
        (writesOnly_require _ _).bind fun _ =>
          (writesOnly_envset ctx _ fun _ => rfl).bind fun _ =>
            (writesOnly_mbrSet ctx _ fun _ => rfl).bind fun _ =>
              writesOnly_persist (Write.spares_linuxTry _)

theorem sparesPartitions_linuxRollback (ctx : Ctx) (boot : LinuxBoot)
    (noReboot : Bool) :
    WritesOnly Write.SparesPartitions (linuxRollback ctx boot noReboot) := by
  refine (writesOnly_lock ctx).bind fun _ =>
    (writesOnly_envget _).bind fun trial => .ite ?_ ?_
  · exact
      (writesOnly_envget _).bind fun _ =>
        (writesOnly_envset ctx _ fun _ => rfl).bind fun _ =>
          (writesOnly_mbrSet ctx _ fun _ => rfl).bind fun _ =>
            (writesOnly_persist (Write.spares_linuxTry _)).bind fun _ =>
              writesOnly_maybeReboot noReboot
  · exact
      (writesOnly_envget _).bind fun _ => (writesOnly_require _ _).bind fun _ =>
        writesOnly_read.bind fun _ => (writesOnly_require _ _).bind fun _ =>
          (writesOnly_persist (Write.spares_linuxTry _)).bind fun _ =>
            (writesOnly_envset ctx _ fun _ => rfl).bind fun _ =>
              writesOnly_maybeReboot noReboot

theorem sparesPartitions_mcoreUpdate (platform : Platform) (ctx : Ctx)
    (file : Option (List UInt8)) (noReboot : Bool) :
    WritesOnly Write.SparesPartitions
      (mcoreUpdate platform ctx file noReboot) := by
  cases file with
  | none => exact writesOnly_die _
  | some bytes =>
      exact
        (writesOnly_require _ _).bind fun _ =>
          (writesOnly_require _ _).bind fun _ =>
            (writesOnly_lock ctx).bind fun _ =>
              (writesOnly_envget _).bind fun _ =>
                (writesOnly_require _ _).bind fun _ =>
                  (writesOnly_envget _).bind fun _ =>
                    (writesOnly_persist (Write.spares_mcore _ _)).bind fun _ =>
                      (writesOnly_require _ _).bind fun _ =>
                        (writesOnly_envset ctx _ fun _ => rfl).bind fun _ =>
                          writesOnly_maybeReboot noReboot

theorem sparesPartitions_mcoreRollback (platform : Platform) (ctx : Ctx)
    (noReboot : Bool) :
    WritesOnly Write.SparesPartitions
      (mcoreRollback platform ctx noReboot) :=
  (writesOnly_lock ctx).bind fun _ => (writesOnly_envget _).bind fun _ =>
    (writesOnly_require _ _).bind fun _ => writesOnly_read.bind fun _ =>
      (writesOnly_require _ _).bind fun _ =>
        (writesOnly_envset ctx _ fun _ => rfl).bind fun _ =>
          writesOnly_maybeReboot noReboot

theorem sparesPartitions_mcoreConfirm (ctx : Ctx) (boot : LinuxBoot)
    (healthy : Bool) :
    WritesOnly Write.SparesPartitions (mcoreConfirm ctx boot healthy) := by
  rw [mcoreConfirm]
  cases boot.chosen.mcoreTry with
  | none => exact writesOnly_pure _
  | some tried =>
      exact
        (writesOnly_envget _).bind fun _ =>
          .ite (writesOnly_envset ctx _ fun _ => rfl)
            (.ite writesOnly_reboot (writesOnly_pure _))

/-! ## The two commands that write the target -/

theorem writesOnly_linuxTryRoot (platform : Platform) (ctx : Ctx)
    (arguments : Option (Nat × String)) (stream : Stream)
    {allowed : Write → Prop}
    (permitted : ∀ slot bytes, allowed (.root slot bytes)) :
    WritesOnly allowed (linuxTryRoot platform ctx arguments stream) := by
  rcases arguments with _ | ⟨size, sum⟩
  · exact writesOnly_die _
  · refine (writesOnly_require _ _).bind fun _ =>
      writesOnly_tryTarget.bind fun target => ?_
    cases target with
    | none => exact writesOnly_die _
    | some tgt =>
        exact
          (writesOnly_lock ctx).bind fun _ =>
            (writesOnly_require _ _).bind fun _ =>
              writesOnly_read.bind fun _ =>
                (writesOnly_persist (permitted _ _)).bind fun _ =>
                  (writesOnly_require _ _).bind fun _ =>
                    writesOnly_require _ _

theorem writesOnly_linuxTryBoot (platform : Platform) (ctx : Ctx)
    (image : Option BootTree) (key : Option (List Char))
    {allowed : Write → Prop}
    (permitted : ∀ slot tree, allowed (.boot slot tree)) :
    WritesOnly allowed (linuxTryBoot platform ctx image key) := by
  cases image with
  | none => exact writesOnly_die _
  | some source =>
      refine writesOnly_tryTarget.bind fun target => ?_
      cases target with
      | none => exact writesOnly_die _
      | some tgt =>
          refine (writesOnly_lock ctx).bind fun _ =>
            (writesOnly_require _ _).bind fun _ =>
              writesOnly_read.bind fun now =>
                (writesOnly_persist (permitted _ _)).bind fun _ =>
                  (writesOnly_persist (permitted _ _)).bind fun _ => ?_
          cases BootFiles.file
              (BootFiles.copyInto source (BootFiles.clear (now.boot tgt)))
              "extlinux/extlinux.conf" with
          | none => exact writesOnly_die _
          | some text =>
              exact
                (writesOnly_persist (permitted _ _)).bind fun _ =>
                  writesOnly_require _ _

theorem targets_linuxTryRoot (platform : Platform) (ctx : Ctx)
    (arguments : Option (Nat × String)) (stream : Stream) {disk : Disk}
    {file : LinuxTry} (found : disk.linuxTry = some file) :
    Ends (linuxTryRoot platform ctx arguments stream) ⟨disk, [], false⟩
      fun _ later =>
        ∀ write ∈ later.writes, write.Targets file.toSlot := by
  cases arguments with
  | none => simp [linuxTryRoot]
  | some pair =>
      obtain ⟨size, sum⟩ := pair
      simp only [linuxTryRoot, ends_bind, ends_require, ends_tryTarget, found]
      refine ⟨fun _ => ?_, fun _ write none => absurd none List.not_mem_nil⟩
      have toTarget : ∀ bytes,
          (Write.root file.toSlot bytes).Targets file.toSlot := by
        rintro bytes slot ⟨⟩
        rfl
      refine WritesOnly.ends ?_ disk false
      exact
        (writesOnly_lock ctx).bind fun _ => (writesOnly_require _ _).bind fun _ =>
          writesOnly_read.bind fun _ =>
            (writesOnly_persist (toTarget _)).bind fun _ =>
              (writesOnly_require _ _).bind fun _ => writesOnly_require _ _

theorem targets_linuxTryBoot (platform : Platform) (ctx : Ctx)
    (image : Option BootTree) (key : Option (List Char)) {disk : Disk}
    {file : LinuxTry} (found : disk.linuxTry = some file) :
    Ends (linuxTryBoot platform ctx image key) ⟨disk, [], false⟩
      fun _ later =>
        ∀ write ∈ later.writes, write.Targets file.toSlot := by
  cases image with
  | none => simp [linuxTryBoot]
  | some source =>
      rw [linuxTryBoot, ends_bind, ends_tryTarget, found]
      have toTarget : ∀ tree,
          (Write.boot file.toSlot tree).Targets file.toSlot := by
        rintro tree slot ⟨⟩
        rfl
      refine WritesOnly.ends ?_ disk false
      refine (writesOnly_lock ctx).bind fun _ =>
        (writesOnly_require _ _).bind fun _ => writesOnly_read.bind fun now =>
          (writesOnly_persist (toTarget _)).bind fun _ =>
            (writesOnly_persist (toTarget _)).bind fun _ => ?_
      cases BootFiles.file
          (BootFiles.copyInto source
            (BootFiles.clear (now.boot file.toSlot)))
          "extlinux/extlinux.conf" with
      | none => exact writesOnly_die _
      | some text =>
          exact
            (writesOnly_persist (toTarget _)).bind fun _ =>
              writesOnly_require _ _

/-- Without `linux-try` the two commands write nothing. -/
theorem noWrites_of_not_begun (platform : Platform) (ctx : Ctx)
    (boot : LinuxBoot) {command : AbCommand} (uses : command.usesTarget = true)
    {disk : Disk} (missing : disk.linuxTry = none) :
    Ends (command.script platform ctx boot) ⟨disk, [], false⟩
      fun _ later => later.writes = [] := by
  cases command with
  | linuxTryRoot arguments stream =>
      rcases arguments with _ | ⟨size, sum⟩ <;>
        simp [AbCommand.script, linuxTryRoot, missing]
  | linuxTryBoot image key =>
      cases image <;> simp [AbCommand.script, linuxTryBoot, missing]
  | linuxTryArm noReboot => simp [AbCommand.script, linuxTryArm, missing]
  | _ => cases uses

end Ab

/-- The log of a command tells the whole change of the disk. -/
theorem AbCommand.replays (platform : Platform) (ctx : Ctx)
    (boot : LinuxBoot) (command : AbCommand) (disk : Disk) :
    Script.Ends (command.script platform ctx boot) ⟨disk, [], false⟩
      fun _ later => later.store = Script.replay disk later.writes := by
  have logged :
      Script.WritesOnly (fun _ => True)
        (command.script platform ctx boot) := by
    have any :
        ∀ {α : Type} {script : Ab α},
          Script.WritesOnly Write.SparesPartitions script →
            Script.WritesOnly (fun _ => True) script :=
      fun writes => writes.mono fun _ _ => trivial
    cases command with
    | linuxTryBegin =>
        exact
          (any (Ab.sparesPartitions_linuxTryBegin platform ctx boot)).bind fun _ =>
            Script.writesOnly_pure _
    | linuxTryRoot arguments stream =>
        exact Ab.writesOnly_linuxTryRoot platform ctx arguments stream
          fun _ _ => trivial
    | linuxTryBoot image key =>
        exact Ab.writesOnly_linuxTryBoot platform ctx image key
          fun _ _ => trivial
    | linuxTryArm noReboot =>
        exact any (Ab.sparesPartitions_linuxTryArm ctx boot noReboot)
    | linuxCommit force =>
        exact any (Ab.sparesPartitions_linuxCommit ctx boot force)
    | linuxRollback noReboot =>
        exact any (Ab.sparesPartitions_linuxRollback ctx boot noReboot)
    | mcoreUpdate file noReboot =>
        exact any
          (Ab.sparesPartitions_mcoreUpdate platform ctx file noReboot)
    | mcoreRollback noReboot =>
        exact any (Ab.sparesPartitions_mcoreRollback platform ctx noReboot)
    | mcoreConfirm healthy =>
        exact any (Ab.sparesPartitions_mcoreConfirm ctx boot healthy)
  exact logged.store_eq disk false

/-- A command writes BOOT and root partitions only of the slot `linux-try` names. -/
theorem Machine.session_partition (platform : Platform) (machine : Machine)
    (issued : Machine.Issued) {write : Write} {slot : Slot}
    (member : write ∈ (machine.session platform issued).writes)
    (goes : write.partition = some slot) :
    issued.command.usesTarget = true ∧
      ∃ file, machine.disk.linuxTry = some file ∧ file.toSlot = slot := by
  obtain ⟨command, ctx, boot⟩ := issued
  have spared :
      ∀ {α : Type} {script : Ab α},
        Script.WritesOnly Write.SparesPartitions script →
          write ∉ (script.exec machine.disk).2.writes := by
    intro α script writes inLog
    have spares := writes.ends machine.disk false write inLog
    rw [Write.SparesPartitions, goes] at spares
    cases spares
  by_cases uses : command.usesTarget = true
  · refine ⟨uses, ?_⟩
    cases found : machine.disk.linuxTry with
    | none =>
        have empty := Ab.noWrites_of_not_begun platform ctx boot uses found
        have log : (machine.session platform ⟨command, ctx, boot⟩).writes = [] :=
          empty
        rw [log] at member
        cases member
    | some file =>
        refine ⟨file, rfl, ?_⟩
        cases command with
        | linuxTryRoot arguments stream =>
            exact
              (Ab.targets_linuxTryRoot platform ctx arguments stream found
                write member slot goes).symm
        | linuxTryBoot image key =>
            exact
              (Ab.targets_linuxTryBoot platform ctx image key found
                write member slot goes).symm
        | linuxTryArm noReboot =>
            exact absurd member
              (spared (Ab.sparesPartitions_linuxTryArm ctx boot noReboot))
        | _ => cases uses
  · exfalso
    cases command with
    | linuxTryBegin =>
        exact spared
          ((Ab.sparesPartitions_linuxTryBegin platform ctx boot).bind fun _ =>
            Script.writesOnly_pure _) member
    | linuxTryRoot arguments stream => exact uses rfl
    | linuxTryBoot image key => exact uses rfl
    | linuxTryArm noReboot => exact uses rfl
    | linuxCommit force =>
        exact spared (Ab.sparesPartitions_linuxCommit ctx boot force) member
    | linuxRollback noReboot =>
        exact spared
          (Ab.sparesPartitions_linuxRollback ctx boot noReboot) member
    | mcoreUpdate file noReboot =>
        exact spared
          (Ab.sparesPartitions_mcoreUpdate platform ctx file noReboot) member
    | mcoreRollback noReboot =>
        exact spared
          (Ab.sparesPartitions_mcoreRollback platform ctx noReboot) member
    | mcoreConfirm healthy =>
        exact spared (Ab.sparesPartitions_mcoreConfirm ctx boot healthy) member

/-! ## Whole runs -/

/-- What the step writes belongs neither to RUNNING nor to the confirmed slot. -/
def SparesSlotsInUse (platform : Platform) (machine : Machine) (act : Act) :
    Prop :=
  ∀ issued ∈ machine.issued act,
    ∀ write ∈ (machine.session platform issued).writes,
      ∀ slot ∈ write.partition,
        slot ≠ issued.boot.running ∧
          slot.name ≠ machine.disk.env.confirmedSlot

instance (platform : Platform) (machine : Machine) (act : Act) :
    Decidable (SparesSlotsInUse platform machine act) :=
  inferInstanceAs (Decidable (∀ issued ∈ machine.issued act, _))

/--
A step that reads the target back is issued while RUNNING is the confirmed
slot, and a commit finds the MBR writable.
-/
def TargetReadFromConfirmed (machine : Machine) (act : Act) : Prop :=
  ∀ issued ∈ machine.issued act,
    (issued.command.usesTarget = true →
      machine.disk.linuxTry.isSome = true →
        issued.boot.running.name = machine.disk.env.confirmedSlot) ∧
    (issued.command.isCommit = true → issued.ctx.mbrWriteOk = true)

instance (machine : Machine) (act : Act) :
    Decidable (TargetReadFromConfirmed machine act) :=
  inferInstanceAs (Decidable (∀ issued ∈ machine.issued act, _))

/-- What a command leaves in `linux-try` names no confirmed slot. -/
theorem Moves.target_ne {ctx : Ctx} {boot : LinuxBoot} {disk : Disk}
    {command : AbCommand} {wrote : Bool} {env : Env}
    {file : Option LinuxTry} {confirmed : Slot}
    (moves : Moves ctx boot disk command wrote env file)
    (confirms : disk.env.Confirms confirmed)
    (spared : ∀ named, disk.linuxTry = some named →
      named.toSlot ≠ confirmed)
    (mbrWrites : command.isCommit = true → ctx.mbrWriteOk = true)
    {named : LinuxTry} (left : file = some named) :
    named.toSlot ≠ confirmed ∧
      ¬ (command.isCommit = true ∧ wrote = true) := by
  cases moves with
  | nothing => exact ⟨spared named left, by simp⟩
  | begun settled running tailscale =>
      have same : boot.running = confirmed :=
        Slot.name_injective (running.symm.trans (confirms.settled settled))
      obtain rfl := Option.some.inj left
      rw [← same]
      exact ⟨Slot.other_ne _, by simp⟩
  | armed noReboot found stored => exact ⟨spared named left, nofun⟩
  | committed force trial tried removed =>
      rcases removed with rfl | ⟨refused, -⟩
      · cases left
      · exact absurd (mbrWrites rfl) refused
  | rolledBack noReboot trial removed =>
      rcases removed with rfl | rfl
      · cases left
      · exact ⟨spared named left, nofun⟩
  | forgotten noReboot settled => cases left
  | returned noReboot settled running => cases left
  | mcore ofMcore own value =>
      exact ⟨spared named left, AbCommand.not_commit_of_mcore ofMcore⟩

/-- The environment is sound, and `linux-try` does not name the confirmed slot. -/
structure Tracked.Spared (tracked : Tracked) : Prop where
  sound : tracked.Sound
  target : ∀ file, tracked.machine.disk.linuxTry = some file →
    file.toSlot ≠ tracked.committed

namespace Tracked.Spared

variable
    {tracked : Tracked} {act : Act}

/-- The guard of the writes covers the guard of `arm`. -/
theorem armsFromConfirmed (spared : tracked.Spared)
    (guarded : TargetReadFromConfirmed tracked.machine act) :
    ArmsFromConfirmed tracked.machine act := by
  intro issued runs file found arms lockFree stores
  have uses := AbCommand.usesTarget_of_isArm arms
  have begun : tracked.machine.disk.linuxTry.isSome = true :=
    Option.isSome_iff_exists.mpr ⟨file, found⟩
  have running := (guarded issued runs).1 uses begun
  refine ⟨running, ?_⟩
  have confirmed : issued.boot.running = tracked.committed := by
    rw [← Slot.name_inj, ← spared.sound.stored.confirmedSlot_eq]
    exact running
  rw [confirmed]
  exact spared.target file found

theorem step (platform : Platform) (spared : tracked.Spared)
    (guarded : TargetReadFromConfirmed tracked.machine act) :
    (tracked.step platform act).Spared := by
  have arms := spared.armsFromConfirmed guarded
  refine ⟨(spared.sound.confirms_step platform arms).1, ?_⟩
  intro file left
  change (tracked.machine.step platform act).disk.linuxTry = some file at left
  rcases Machine.step_cases platform spared.sound.live act with
    ⟨silent, turn⟩ | ⟨issued, -, -, runs, equal⟩ |
      ⟨boot, -, -, silent, equal⟩
  · rw [Tracked.step_committed_of_silent platform silent]
    rw [turn.disk_eq] at left
    exact spared.target file left
  · rw [equal] at left
    have moves :=
      Machine.abMoves platform tracked.machine issued.boot issued.command
        issued.ctx
    obtain ⟨distinct, other⟩ :=
      moves.target_ne spared.sound.stored spared.target
        (guarded issued runs).2 left
    rw [Tracked.step_committed_of_other platform runs other]
    exact distinct
  · rw [Tracked.step_committed_of_silent platform silent]
    rw [equal] at left
    exact spared.target file left

/-- A guarded step writes only a spare slot. -/
theorem sparesSlotsInUse (platform : Platform) (spared : tracked.Spared)
    (guarded : TargetReadFromConfirmed tracked.machine act) :
    SparesSlotsInUse platform tracked.machine act := by
  intro issued runs write member slot goes
  obtain ⟨uses, file, found, rfl⟩ :=
    Machine.session_partition platform tracked.machine issued member goes
  have running := (guarded issued runs).1 uses (by simp [found])
  have confirmed := spared.sound.stored.confirmedSlot_eq
  have distinct := spared.target file found
  rw [confirmed, Slot.name_inj] at running
  constructor
  · rw [running]
    exact distinct
  · rw [confirmed, ne_eq, Slot.name_inj]
    exact distinct

end Tracked.Spared

/-- The committed slot is a record beside the run and does not steer it. -/
theorem Tracked.along_machine (platform : Platform)
    (holds : Machine → Act → Prop) (tracked : Tracked) (acts : List Act) :
    Trace.Along (Tracked.step platform)
        (fun tracked act => holds tracked.machine act) tracked acts ↔
      Trace.Along (Machine.step platform) holds tracked.machine acts := by
  induction acts generalizing tracked with
  | nil => exact Iff.rfl
  | cons act rest induction =>
      exact and_congr_right fun _ => induction (tracked.step platform act)

/--
From the shipped state, along every run whose steps read the target back only
from the confirmed slot, no write hits a slot in use.
-/
theorem sparesSlotsInUse_along (platform : Platform) (disk : Disk)
    (chosen : Chosen) (acts : List Act)
    (guarded : Trace.Along (Machine.step platform) TargetReadFromConfirmed
      (Machine.shipped disk chosen) acts) :
    Trace.Along (Machine.step platform) (SparesSlotsInUse platform)
      (Machine.shipped disk chosen) acts := by
  have initial : (Tracked.shipped disk chosen).Spared :=
    ⟨Tracked.shipped_sound disk chosen, nofun⟩
  have trackedGuard :=
    (Tracked.along_machine platform TargetReadFromConfirmed
      (Tracked.shipped disk chosen) acts).mpr guarded
  apply
    (Tracked.along_machine platform (SparesSlotsInUse platform)
      (Tracked.shipped disk chosen) acts).mp
  exact
    Trace.along_of_invariant
      (fun _ _ spared guard => Tracked.Spared.step platform spared guard)
      (fun _ _ spared guard => spared.sparesSlotsInUse platform guard)
      initial trackedGuard

/-- An image of one sector is streamed with its sum. -/
def rootStreamed : Act :=
  .ab
    (.linuxTryRoot (some (512, Sha256.hexDigest (Bench.rootImage 1)))
      ⟨Bench.rootImage 1, true⟩)
    Bench.ctx

/-- A trial of slot b is armed, and its root is streamed once more from within. -/
def streamedWithin : List Act :=
  .falconRearm true :: .ab .linuxTryBegin Bench.ctx ::
    .ab (.linuxTryArm true) Bench.ctx :: Bench.falconBoot ++ [rootStreamed]

/-- The stream goes to the root partition that is mounted as `/`. -/
theorem streamedWithin_hits_running :
    ¬ Trace.Along (Machine.step Bench.platform)
      (SparesSlotsInUse Bench.platform)
      (Machine.shipped Bench.disk Chosen.proper) streamedWithin := by
  decide +kernel

/-- A trial of slot b, committed after its boot. -/
def committedTrial : List Act :=
  .falconRearm true :: .ab .linuxTryBegin Bench.ctx :: rootStreamed ::
    .ab (.linuxTryArm true) Bench.ctx :: Bench.falconBoot ++
      [.ab (.linuxCommit true) Bench.ctx]

/-- An ordinary update never writes a slot in use. -/
theorem committedTrial_sparesSlotsInUse :
    Trace.Along (Machine.step Bench.platform)
      (SparesSlotsInUse Bench.platform)
      (Machine.shipped Bench.disk Chosen.proper) committedTrial :=
  sparesSlotsInUse_along Bench.platform Bench.disk Chosen.proper
    committedTrial (by decide +kernel)

end KmmYocto
