import KmmYocto.XpiRepair

/-!
# What a Linux command leaves behind

An operation that switches the Linux slot makes up to three writes and can be
refused or fail before, between and after them.  Here is what it has written
when it ends, for every state it can be called in: what a failed one leaves,
and what a successful one makes of the environment and the MBR.
-/

namespace KmmYocto

/-- The operations that switch the Linux slot, or prepare to. -/
inductive LinuxSwitch where
  | tryBegin
  | tryArm (noReboot : Bool)
  | commit (force : Bool)
  | rollback (noReboot : Bool)
deriving DecidableEq, Repr

namespace LinuxSwitch

def command : LinuxSwitch → AbCommand
  | .tryBegin => .linuxTryBegin
  | .tryArm noReboot => .linuxTryArm noReboot
  | .commit force => .linuxCommit force
  | .rollback noReboot => .linuxRollback noReboot

/-- The operation run on the device: its result and the session it ends in. -/
def run (platform : Platform) (ctx : Ctx) (boot : LinuxBoot) (disk : Disk)
    (switch : LinuxSwitch) : Except String PUnit × Session Disk Write :=
  Script.exec (switch.command.script platform ctx boot) disk

/-! ## Failed operations -/

/-- The environment, the MBR and `linux-try` are the same. -/
structure Unchanged (before after : Disk) : Prop where
  env : after.env = before.env
  mbr : after.mbr = before.mbr
  linuxTry : after.linuxTry = before.linuxTry

/-- An operation that exits non-zero changes nothing. -/
def FailsClean (platform : Platform) (ctx : Ctx) (boot : LinuxBoot)
    (disk : Disk) (switch : LinuxSwitch) : Prop :=
  ∀ message, (switch.run platform ctx boot disk).1 = .error message →
    Unchanged disk (switch.run platform ctx boot disk).2.store

/-- The environment is written and the MBR cannot be brought into line. -/
def StopsBeforeMbr (ctx : Ctx) (boot : LinuxBoot) (disk : Disk)
    (switch : LinuxSwitch) : Prop :=
  ∃ name ∈ settles ctx boot disk switch.command,
    Ab.mbrBootable disk.mbr ≠ name ∧
      disk.mbr.bytes ≠ (disk.mbr.flagged name).bytes ∧
        ¬ ctx.mbrWriteOk = true

/-- A rollback removes `linux-try` and cannot write the environment. -/
def StopsBeforeEnv (ctx : Ctx) (boot : LinuxBoot) (disk : Disk) :
    LinuxSwitch → Prop
  | .rollback _ =>
      (disk.env.envget .upgradeAvailable ≠ "1" ∧
          disk.env.envget .abSlot = boot.running.name) ∧
        (ctx.lockFree = true ∧ ¬ ctx.fwSetenvOk = true) ∧
          Ab.linuxSlotOk ctx disk boot.running.other = true ∧
            disk.linuxTry ≠ none
  | _ => False

section Failing

variable
    {platform : Platform} {ctx : Ctx} {boot : LinuxBoot} {disk : Disk}

theorem unchanged_refl : Unchanged disk disk :=
  ⟨rfl, rfl, rfl⟩

/-- The end of a trial is a change. -/
theorem setTrial_ne {env : Env} {slot fallback : String}
    (trial : env.envget .upgradeAvailable = "1") :
    env.setTrial slot fallback "0" ≠ env := by
  intro same
  have read := env.envget_upgradeAvailable_setTrial slot fallback "0"
  rw [same, trial] at read
  exact absurd read (by decide)

theorem failsClean_tryBegin :
    FailsClean platform ctx boot disk .tryBegin := by
  show Script.Ends (AbCommand.linuxTryBegin.script platform ctx boot)
    ⟨disk, [], false⟩ fun result later =>
      ∀ message, result = .error message → Unchanged disk later.store
  simp only [AbCommand.script, Ab.linuxTryBegin, Script.ends_bind,
    Ab.ends_lock, Ab.ends_envget, Script.ends_require, Script.ends_persist,
    Script.ends_pure]
  refine ⟨fun _ => ⟨fun _ => ⟨fun _ => ⟨?_, ?_⟩, ?_⟩, ?_⟩, ?_⟩
  · intro _ message succeeded
    cases succeeded
  all_goals exact fun _ _ _ => unchanged_refl

theorem failsClean_tryArm (noReboot : Bool) :
    FailsClean platform ctx boot disk (.tryArm noReboot) := by
  show Script.Ends (Ab.linuxTryArm ctx boot noReboot) ⟨disk, [], false⟩
    fun result later =>
      ∀ message, result = .error message → Unchanged disk later.store
  simp only [Ab.linuxTryArm, Script.ends_bind, Ab.ends_tryTarget]
  cases disk.linuxTry.map LinuxTry.toSlot with
  | none => exact fun _ _ => unchanged_refl
  | some tgt =>
      simp only [Script.ends_bind, Ab.ends_lock, Ab.ends_envset_trial,
        Ab.ends_maybeReboot]
      refine ⟨fun _ => ⟨?_, ?_⟩, ?_⟩
      · intro _ message succeeded
        cases succeeded
      all_goals exact fun _ _ _ => unchanged_refl

/-- What a command that ends a trial does after its writes. -/
def afterSettle : AbCommand → Ab PUnit
  | .linuxRollback noReboot => Ab.maybeReboot noReboot
  | _ => pure PUnit.unit

/-- The writes of a command that ends a trial on the named slot. -/
def settle (ctx : Ctx) (name : String) (command : AbCommand) : Ab PUnit := do
  Ab.envset ctx
    [(.abSlot, name), (.abFallbackSlot, name),
      (.upgradeAvailable, "0"), (.bootcount, "0")]
  Ab.mbrSet ctx name
  Script.persist (.linuxTry none)
  afterSettle command

@[simp]
theorem ends_afterSettle_iff (command : AbCommand)
    (session : Session Disk Write)
    (post : Except String PUnit → Disk → Prop) :
    Script.Ends (afterSettle command) session
        (fun result later => post result later.store) ↔
      post (.ok PUnit.unit) session.store := by
  cases command with
  | linuxRollback noReboot => rw [afterSettle, Ab.ends_maybeReboot]
  | _ => rfl

/-- A command that settles on a slot comes to the writes of `settle`. -/
theorem ends_of_settles {command : AbCommand} {name : String}
    (ends : settles ctx boot disk command = some name)
    (post : Except String PUnit → Session Disk Write → Prop) :
    Script.Ends (command.script platform ctx boot) ⟨disk, [], false⟩ post ↔
      Script.Ends (settle ctx name command) ⟨disk, [], false⟩ post := by
  cases command with
  | linuxCommit force =>
      rw [settles] at ends
      split_ifs at ends with passes
      obtain ⟨trial, ⟨lockFree, stores⟩, named, checked⟩ := passes
      cases ends
      simp only [AbCommand.script, Ab.linuxCommit, settle, afterSettle,
        Script.ends_bind, Ab.ends_lock, Ab.ends_envget, Script.ends_ite,
        Script.ends_require, Script.ends_read, Ab.ends_envset_trial, trial,
        lockFree, stores, named, checked, ne_eq, not_true_eq_false,
        not_false_eq_true, false_implies, true_implies, true_and, and_true,
        Script.ends_pure]
      rfl
  | linuxRollback noReboot =>
      rw [settles] at ends
      split_ifs at ends with passes
      obtain ⟨trial, lockFree, stores⟩ := passes
      cases ends
      simp only [AbCommand.script, Ab.linuxRollback, settle, afterSettle,
        Script.ends_bind, Ab.ends_lock, Ab.ends_envget, Script.ends_ite,
        Ab.ends_envset_trial, trial, lockFree, stores, not_true_eq_false,
        false_implies, true_implies, and_true]
  | _ => cases ends

/-- The writes of a settling command fail only at the MBR. -/
theorem ends_settle_iff {name : String} {command : AbCommand}
    (stores : ctx.fwSetenvOk = true)
    (post : Except String PUnit → Disk → Prop) :
    Script.Ends (settle ctx name command) ⟨disk, [], false⟩
        (fun result later => post result later.store) ↔
      let written := { disk with env := disk.env.setTrial name name "0" }
      if Ab.mbrBootable disk.mbr = name then
        post (.ok PUnit.unit) { written with linuxTry := none }
      else if ctx.mbrWriteOk = true then
        post (.ok PUnit.unit)
          { written with mbr := disk.mbr.flagged name, linuxTry := none }
      else if disk.mbr.bytes = (disk.mbr.flagged name).bytes then
        post (.ok PUnit.unit) { written with linuxTry := none }
      else
        post (.error "ab: MBR の bootable フラグの読み戻しが一致しない")
          written := by
  rw [settle, Script.ends_bind, Ab.ends_envset_trial]
  simp only [stores, not_true_eq_false, false_implies, true_implies, and_true,
    Script.ends_bind]
  rw [Ab.ends_mbrSet_iff]
  simp only [Script.ends_persist, ends_afterSettle_iff, Ab.wroteEnv,
    Medium.apply, Disk.apply]

theorem trial_of_settles {switch : LinuxSwitch} {name : String}
    (ends : settles ctx boot disk switch.command = some name) :
    disk.env.envget .upgradeAvailable = "1" ∧ ctx.fwSetenvOk = true := by
  cases switch with
  | commit force =>
      simp only [command, settles] at ends
      split_ifs at ends with passes
      exact ⟨passes.1, passes.2.1.2⟩
  | rollback noReboot =>
      simp only [command, settles] at ends
      split_ifs at ends with passes
      exact ⟨passes.1, passes.2.2⟩
  | _ => cases ends

/-- An operation that ends a trial fails with a change only at the MBR. -/
theorem failsClean_iff_of_settles {switch : LinuxSwitch} {name : String}
    (ends : settles ctx boot disk switch.command = some name) :
    FailsClean platform ctx boot disk switch ↔
      ¬ StopsBeforeMbr ctx boot disk switch := by
  have trialStores := trial_of_settles ends
  have onPath :
      FailsClean platform ctx boot disk switch ↔
        Script.Ends (settle ctx name switch.command) ⟨disk, [], false⟩
          fun result later =>
            ∀ message, result = .error message → Unchanged disk later.store :=
    ends_of_settles ends fun result later =>
      ∀ message, result = .error message → Unchanged disk later.store
  rw [onPath, ends_settle_iff trialStores.2 fun result final =>
    ∀ message, result = .error message → Unchanged disk final]
  simp only [StopsBeforeMbr, ends, Option.mem_def, Option.some.injEq,
    exists_eq_left']
  split_ifs with flagged writable same
  · simp [flagged]
  · simp [writable]
  · simp [same]
  · constructor
    · intro clean
      exact absurd (clean _ rfl).env (setTrial_ne trialStores.1)
    · intro avoided
      exact absurd ⟨flagged, same, writable⟩ avoided

/-- A commit that does not settle fails, or only repairs the MBR. -/
theorem ends_commit_of_not_settles {force : Bool}
    {post : Except String PUnit → Session Disk Write → Prop}
    (refused : settles ctx boot disk (.linuxCommit force) = none)
    (fails : ∀ message, post (.error message) ⟨disk, [], false⟩)
    (repairs : disk.env.envget .upgradeAvailable ≠ "1" →
      disk.env.envget .abSlot = boot.running.name →
        Script.Ends (Ab.mbrSet ctx boot.running.name) ⟨disk, [], false⟩
          post) :
    Script.Ends (Ab.linuxCommit ctx boot force) ⟨disk, [], false⟩ post := by
  simp only [Ab.linuxCommit, Script.ends_bind, Ab.ends_lock, Ab.ends_envget,
    Script.ends_ite, Script.ends_require, Script.ends_read,
    Ab.ends_envset_trial]
  refine ⟨fun lockFree => ⟨fun noTrial => ⟨repairs noTrial, ?_⟩, fun trial =>
    ⟨fun named => ⟨fun checked => ⟨fun stores => ?_, ?_⟩, ?_⟩, ?_⟩⟩, ?_⟩
  case refine_2 =>
    rw [settles, if_pos
      ⟨not_not.mp trial, ⟨lockFree, stores⟩, named, checked⟩] at refused
    cases refused
  all_goals exact fun _ => fails _

/-- Without a trial a commit writes at most the MBR. -/
theorem failsClean_commit_of_not_settles {force : Bool}
    (refused : settles ctx boot disk (.linuxCommit force) = none) :
    FailsClean platform ctx boot disk (.commit force) := by
  have onPath :
      Script.Ends (Ab.linuxCommit ctx boot force) ⟨disk, [], false⟩
        fun result later =>
          ∀ message, result = .error message → Unchanged disk later.store := by
    refine ends_commit_of_not_settles refused
      (fun _ _ _ => unchanged_refl) fun _ _ => ?_
    rw [Ab.ends_mbrSet_iff]
    split_ifs
    · exact fun _ _ => unchanged_refl
    · intro _ failed
      cases failed
    · exact fun _ _ => unchanged_refl
    · exact fun _ _ => unchanged_refl
  exact onPath

theorem failsClean_rollback_of_not_settles {noReboot : Bool}
    (refused : settles ctx boot disk (.linuxRollback noReboot) = none) :
    FailsClean platform ctx boot disk (.rollback noReboot) ↔
      ¬ StopsBeforeEnv ctx boot disk (.rollback noReboot) := by
  show Script.Ends (Ab.linuxRollback ctx boot noReboot) ⟨disk, [], false⟩
    (fun result later =>
      ∀ message, result = .error message → Unchanged disk later.store) ↔ _
  simp only [Ab.linuxRollback, Script.ends_bind, Ab.ends_lock,
    Ab.ends_envget, Script.ends_ite, Script.ends_require, Script.ends_read,
    Script.ends_persist, Ab.ends_envset_trial, Ab.ends_maybeReboot,
    StopsBeforeEnv]
  constructor
  · rintro ⟨runs, -⟩ ⟨⟨settled, named⟩, ⟨lockFree, refuses⟩, bootable, file⟩
    have failed :=
      (((runs lockFree).2 settled).1 named).1 bootable |>.2 refuses _ rfl
    exact file failed.linuxTry.symm
  · intro avoided
    refine ⟨fun lockFree => ⟨fun trial => ⟨fun stores => ?_, ?_⟩,
      fun settled => ⟨fun named => ⟨fun bootable =>
        ⟨fun _ => ?_, fun refuses _ _ => ?_⟩, ?_⟩, ?_⟩⟩, ?_⟩
    case refine_1 =>
      rw [settles, if_pos ⟨trial, lockFree, stores⟩] at refused
      cases refused
    case refine_3 =>
      intro _ failed
      cases failed
    case refine_4 =>
      have noFile : disk.linuxTry = none :=
        not_not.mp fun file =>
          avoided ⟨⟨settled, named⟩, ⟨lockFree, refuses⟩, bootable, file⟩
      exact ⟨rfl, rfl, noFile.symm⟩
    all_goals exact fun _ _ _ => unchanged_refl

end Failing

/-! ## Successful operations -/

/-- Environment and MBR name the slot, and the SPL follows either of them. -/
structure NamesSlot (platform : Platform) (disk : Disk) (slot : Slot) :
    Prop where
  abSlot : disk.env.get .abSlot = some slot.name
  settled : ¬ disk.env.InTrial
  picks : ∀ save,
    (splMmcFsBootPartition
      (Machine.board platform ⟨disk, .spl .start Spl.start⟩) save disk.env
      Spl.start).value = slot.bootpart
  flagged : Ab.mbrBootable disk.mbr = slot.name
  follows :
    disk.mbr.splMmcFirstBootablePartition platform.logical = slot.bootpart

/-- The operation is a commit, or a rollback that cancels a trial. -/
def Settles (disk : Disk) : LinuxSwitch → Prop
  | .commit _ => True
  | .rollback _ => disk.env.envget .upgradeAvailable = "1"
  | _ => False

/-- What the operation relies on: the script and the SPL read the same. -/
def ReadsAlike (disk : Disk) : LinuxSwitch → Prop
  | .commit _ =>
      disk.env.envget .upgradeAvailable = "1" ∨ ¬ disk.env.InTrial
  | .rollback _ =>
      disk.env.envget .abFallbackSlot = "a" ∨
        disk.env.envget .abFallbackSlot = "b"
  | _ => True

section Succeeding

variable
    {platform : Platform} {ctx : Ctx} {boot : LinuxBoot} {disk : Disk}

/-- A slot that the script finds flagged is the first one the SPL finds. -/
theorem splMmcFirstBootablePartition_of_mbrBootable {mbr : Mbr} {slot : Slot}
    (present : ∀ each : Slot, mbr.systemType each.bootpart ≠ 0)
    (flagged : Ab.mbrBootable mbr = slot.name)
    (logical : Nat → Option Bool) :
    mbr.splMmcFirstBootablePartition logical = slot.bootpart := by
  rw [Ab.mbrBootable] at flagged
  split_ifs at flagged with first second
  · obtain rfl : slot = .a := Slot.name_injective flagged.symm
    have chosen : mbr.primaryInfo 1 = some true :=
      @Mbr.primaryInfo_of_flagged mbr .a ⟨first, present .a⟩
    simp [Mbr.splMmcFirstBootablePartition, Mbr.dosEntryNumbers,
      Mbr.partGetInfo, Slot.bootpart, List.range', chosen]
  · obtain rfl : slot = .b := Slot.name_injective flagged.symm
    have only : mbr.OnlyFlagged .b := ⟨⟨second, present .b⟩, first⟩
    exact Mbr.splMmcFirstBootablePartition_of_onlyFlagged only logical
  · cases slot <;> exact absurd flagged (by decide)

/-- The slot is named as soon as the two records are in order. -/
theorem namesSlot_iff {slot : Slot}
    (present : ∀ each : Slot, disk.mbr.systemType each.bootpart ≠ 0) :
    NamesSlot platform disk slot ↔
      disk.env.get .abSlot = some slot.name ∧ ¬ disk.env.InTrial ∧
        Ab.mbrBootable disk.mbr = slot.name := by
  constructor
  · intro names
    exact ⟨names.abSlot, names.settled, names.flagged⟩
  · rintro ⟨abSlot, settled, flagged⟩
    refine ⟨abSlot, settled, fun save => ?_, flagged,
      splMmcFirstBootablePartition_of_mbrBootable present flagged _⟩
    have kept : disk.env.picked = disk.env := by
      rw [Env.picked, if_neg settled]
    rw [splMmcFsBootPartition_undecided rfl Spl.live_start rfl]
    simp only [Machine.board_loaded, Spl.env_start, kept, abSlot,
      Env.slotChar_name]

/-- Both records are in order exactly if what is written names a slot. -/
theorem exists_namesSlot_iff {name : String} {file : Option LinuxTry}
    {mbr : Mbr} (present : ∀ each : Slot, mbr.systemType each.bootpart ≠ 0)
    (flagged : ∀ slot : Slot, name = slot.name →
      Ab.mbrBootable mbr = slot.name) :
    (∃ slot,
        NamesSlot platform
          { disk with
            env := disk.env.setTrial name name "0"
            mbr
            linuxTry := file } slot) ↔
      name = "a" ∨ name = "b" := by
  have settled : ¬ (disk.env.setTrial name name "0").InTrial := by
    have read :
        (disk.env.setTrial name name "0").get .upgradeAvailable = some "0" := by
      simp [Env.setTrial]
    rw [Env.InTrial, Env.getYesno, read]
    decide
  constructor
  · rintro ⟨slot, names⟩
    have named : name = slot.name := by
      rw [← disk.env.envget_abSlot_setTrial name name "0", Env.envget,
        names.abSlot, Option.getD_some]
    cases slot with
    | a => exact .inl named
    | b => exact .inr named
  · intro isSlot
    obtain ⟨slot, rfl⟩ : ∃ slot : Slot, name = slot.name :=
      isSlot.elim (fun isA => ⟨.a, isA⟩) fun isB => ⟨.b, isB⟩
    refine ⟨slot, (namesSlot_iff present).mpr ⟨?_, settled, flagged slot rfl⟩⟩
    simp [Env.setTrial]

/-- A successful end of a trial names a slot exactly if its target is one. -/
theorem namesSlot_of_settles {switch : LinuxSwitch} {name : String}
    (present : ∀ each : Slot, disk.mbr.systemType each.bootpart ≠ 0)
    (ends : settles ctx boot disk switch.command = some name)
    (succeeds : (switch.run platform ctx boot disk).1 = .ok PUnit.unit) :
    (∃ slot,
        NamesSlot platform (switch.run platform ctx boot disk).2.store slot) ↔
      name = "a" ∨ name = "b" := by
  have onPath :
      Script.Ends (switch.command.script platform ctx boot)
        ⟨disk, [], false⟩ fun result later =>
          result = .ok PUnit.unit →
            ((∃ slot, NamesSlot platform later.store slot) ↔
              name = "a" ∨ name = "b") := by
    rw [ends_of_settles ends,
      ends_settle_iff (trial_of_settles ends).2 fun result final =>
        result = .ok PUnit.unit →
          ((∃ slot, NamesSlot platform final slot) ↔
            name = "a" ∨ name = "b")]
    simp only
    split_ifs with flagged writable same
    · intro _
      exact exists_namesSlot_iff present fun slot named => by
        rw [flagged, named]
    · intro _
      apply exists_namesSlot_iff (Mbr.present_flagged present)
      rintro slot rfl
      exact (Mbr.boots_flagged present).mbrBootable
    · intro _
      apply exists_namesSlot_iff present
      rintro slot rfl
      exact absurd same (Ab.flagged_bytes_ne flagged)
    · intro failed
      cases failed
  exact onPath succeeds

/-- An MBR that boots the slot of `ab_slot` names it outside a trial. -/
theorem exists_namesSlot_iff_settled {running : Slot} {mbr : Mbr}
    (named : disk.env.envget .abSlot = running.name)
    (present : ∀ each : Slot, mbr.systemType each.bootpart ≠ 0)
    (flagged : Ab.mbrBootable mbr = running.name) :
    (∃ slot, NamesSlot platform { disk with mbr } slot) ↔
      ¬ disk.env.InTrial := by
  constructor
  · rintro ⟨slot, names⟩
    exact names.settled
  · intro settled
    refine ⟨running, (namesSlot_iff present).mpr ⟨?_, settled, flagged⟩⟩
    exact Env.get_of_envget named running.name_ne_empty

/-- A successful commit without a trial has found `ab_slot` in order. -/
theorem namesSlot_of_commit {force : Bool}
    (present : ∀ each : Slot, disk.mbr.systemType each.bootpart ≠ 0)
    (settled : settles ctx boot disk (.linuxCommit force) = none)
    (succeeds :
      ((LinuxSwitch.commit force).run platform ctx boot disk).1 =
        .ok PUnit.unit) :
    disk.env.envget .upgradeAvailable ≠ "1" ∧
      ((∃ slot,
          NamesSlot platform
            ((LinuxSwitch.commit force).run platform ctx boot disk).2.store
            slot) ↔
        ¬ disk.env.InTrial) := by
  have onPath :
      Script.Ends (Ab.linuxCommit ctx boot force) ⟨disk, [], false⟩
        fun result later => result = .ok PUnit.unit →
          disk.env.envget .upgradeAvailable ≠ "1" ∧
            ((∃ slot, NamesSlot platform later.store slot) ↔
              ¬ disk.env.InTrial) := by
    refine ends_commit_of_not_settles settled ?_ fun noTrial named => ?_
    · intro message failed
      cases failed
    · rw [Ab.ends_mbrSet_iff]
      split_ifs with flagged writable same
      · intro _
        exact ⟨noTrial, exists_namesSlot_iff_settled named present flagged⟩
      · intro _
        exact
          ⟨noTrial,
            exists_namesSlot_iff_settled named (Mbr.present_flagged present)
              (Mbr.boots_flagged present).mbrBootable⟩
      · exact absurd same (Ab.flagged_bytes_ne flagged)
      · intro failed
        cases failed
  exact onPath succeeds

theorem not_succeeds_of_cancel {noReboot : Bool}
    (trial : disk.env.envget .upgradeAvailable = "1")
    (settled : settles ctx boot disk (.linuxRollback noReboot) = none) :
    ((LinuxSwitch.rollback noReboot).run platform ctx boot disk).1 ≠
      .ok PUnit.unit := by
  have onPath :
      Script.Ends (Ab.linuxRollback ctx boot noReboot) ⟨disk, [], false⟩
        fun result _ => result ≠ .ok PUnit.unit := by
    simp only [Ab.linuxRollback, Script.ends_bind, Ab.ends_lock,
      Ab.ends_envget, Script.ends_ite, Ab.ends_envset_trial]
    refine ⟨fun lockFree => ⟨fun _ => ⟨fun stores => ?_, fun _ => ?_⟩,
      fun noTrial => absurd trial noTrial⟩, fun _ => ?_⟩
    · rw [settles, if_pos ⟨trial, lockFree, stores⟩] at settled
      cases settled
    all_goals
      intro failed
      cases failed
  exact onPath

end Succeeding

end LinuxSwitch

end KmmYocto
