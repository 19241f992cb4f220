import KmmYocto.XpiBoot

/-!
# Repairing an interrupted switch on the 8MM

A trial ends with a write to the environment and, if the MBR does not flag
the slot yet, one to the MBR.  Between the two the next boot follows the MBR
and every command refuses to run, because `ab_slot` names the other slot.
Everywhere else the switch can be finished or undone.
-/

namespace KmmYocto

namespace Env

/-- What the commands and the boot of an 8MM write into the environment. -/
structure OnXpi (env : Env) : Prop where
  slot : ∃ slot : Slot, env.get .abSlot = some slot.name
  fallback : ∃ slot : Slot, env.get .abFallbackSlot = some slot.name
  trial : env.get .upgradeAvailable = some "0" ∨
    env.get .upgradeAvailable = some "1"
  bootOs : env.get .bootOs = none

variable {env : Env}

theorem onXpi_shipped : shippedEnv.OnXpi :=
  ⟨⟨.a, rfl⟩, ⟨.a, rfl⟩, .inl rfl, rfl⟩

theorem OnXpi.setTrial (onXpi : env.OnXpi) (slot fallback : Slot)
    {trial : String} (flag : trial = "0" ∨ trial = "1") :
    (env.setTrial slot.name fallback.name trial).OnXpi := by
  refine ⟨⟨slot, ?_⟩, ⟨fallback, ?_⟩, ?_, ?_⟩
  · simp [Env.setTrial]
  · simp [Env.setTrial]
  · rcases flag with rfl | rfl <;> simp [Env.setTrial]
  · rw [get_setTrial_of_ne] <;> first | exact onXpi.bootOs | decide

/-- Two environments that differ at most in the boot count. -/
def SameButCount (left right : Env) : Prop :=
  ∀ name, name ≠ .bootcount → left.get name = right.get name

theorem SameButCount.onXpi {left right : Env}
    (same : left.SameButCount right) (onXpi : right.OnXpi) : left.OnXpi := by
  refine ⟨?_, ?_, ?_, ?_⟩
  · rw [same _ (by decide)]
    exact onXpi.slot
  · rw [same _ (by decide)]
    exact onXpi.fallback
  · rw [same _ (by decide)]
    exact onXpi.trial
  · rw [same _ (by decide)]
    exact onXpi.bootOs

theorem SameButCount.envget {left right : Env}
    (same : left.SameButCount right) {name : EnvVar}
    (notCount : name ≠ .bootcount) :
    left.envget name = right.envget name := by
  rw [Env.envget, Env.envget, same name notCount]

theorem sameButCount_bootcountInc (env : Env) :
    env.bootcountInc.SameButCount env :=
  fun _ notCount => env.get_bootcountInc_of_ne notCount

theorem OnXpi.altbootcmd (onXpi : env.OnXpi) : env.altbootcmd.OnXpi := by
  rcases onXpi.fallback with ⟨fallback, stored⟩
  refine ⟨⟨fallback, ?_⟩, ⟨fallback, ?_⟩, .inl ?_, ?_⟩
  · simp [Env.altbootcmd, Env.envget, stored]
  · rw [get_altbootcmd_of_ne] <;> first | exact stored | decide
  · simp [Env.altbootcmd]
  · rw [get_altbootcmd_of_ne] <;> first | exact onXpi.bootOs | decide

/-- The three readers of `upgrade_available` agree. -/
theorem OnXpi.trial_iff (onXpi : env.OnXpi) :
    env.envget .upgradeAvailable = "1" ↔
      env.getYesno .upgradeAvailable = 1 := by
  rcases onXpi.trial with stored | stored <;>
    simp [Env.envget, Env.getYesno, stored]

theorem OnXpi.upgrading_iff (onXpi : env.OnXpi) :
    env.Upgrading ↔ env.envget .upgradeAvailable = "1" := by
  rcases onXpi.trial with stored | stored
  · simp only [Env.Upgrading, Env.getUlong, Env.envget, stored]
    decide
  · simp only [Env.Upgrading, Env.getUlong, Env.envget, stored]
    decide

theorem OnXpi.abBoot (onXpi : env.OnXpi) :
    env.abBoot.name = env.envget .abSlot := by
  rcases onXpi.slot with ⟨slot, stored⟩
  cases slot <;> simp [Env.abBoot, Env.envget, stored, Slot.name]

theorem OnXpi.exists_abFallbackSlot (onXpi : env.OnXpi) :
    ∃ slot : Slot, env.envget .abFallbackSlot = slot.name := by
  rcases onXpi.fallback with ⟨slot, stored⟩
  exact ⟨slot, by rw [Env.envget, stored, Option.getD_some]⟩

end Env

/-! ## Devices and what aligns their two records -/

/-- The environment and the MBR are as the commands leave them. -/
structure Disk.OnXpi (disk : Disk) : Prop where
  env : disk.env.OnXpi
  mbr : ∃ slot, disk.mbr.Boots slot

/-- A trial is pending, or the MBR flags the slot `ab_slot` names. -/
def Disk.Aligned (disk : Disk) : Prop :=
  disk.env.envget .upgradeAvailable = "1" ∨
    Ab.mbrBootable disk.mbr = disk.env.envget .abSlot

instance (disk : Disk) : Decidable disk.Aligned :=
  inferInstanceAs (Decidable (_ ∨ _))

namespace Xpi

/-- U-Boot proper works on the stored environment, but for the boot count. -/
structure Sound (xpi : Xpi) : Prop where
  disk : xpi.disk.OnXpi
  ram : ∀ counted ram, xpi.phase = .proper counted ram →
    ram.SameButCount xpi.disk.env

theorem Sound.of_linux {disk : Disk} (onXpi : disk.OnXpi)
    (boot : LinuxBoot) : Sound ⟨disk, .linux boot⟩ :=
  ⟨onXpi, fun _ _ inProper => by cases inProper⟩

theorem Sound.of_spl {disk : Disk} (onXpi : disk.OnXpi) :
    Sound ⟨disk, .spl⟩ :=
  ⟨onXpi, fun _ _ inProper => by cases inProper⟩

/-! ## Boots -/

section Boots

variable
    (platform : Platform) {disk : Disk} {flagged : Slot}

/-- Outside a trial the SPL boots the flagged slot. -/
theorem afterSpl_of_settled (onXpi : disk.OnXpi)
    (boots : disk.mbr.Boots flagged)
    (settled : disk.env.envget .upgradeAvailable ≠ "1") :
    afterSpl platform disk = .linux ⟨flagged, Chosen.proper⟩ := by
  have partition :=
    Mbr.splMmcFirstBootablePartition_of_onlyFlagged boots.only
      platform.logical
  have noTrial : disk.env.getYesno .upgradeAvailable ≠ 1 :=
    fun trial => settled (onXpi.env.trial_iff.mpr trial)
  have noOs : disk.env.getYesno .bootOs = -1 := by
    rw [Env.getYesno, onXpi.env.bootOs]
  have falcon : xpiSplStartUboot true disk.env = 0 := by
    simp [xpiSplStartUboot, noTrial, noOs]
  have found : ¬ (flagged.bootpart : Int) < 0 := by omega
  rw [afterSpl, partition, if_neg found, if_pos falcon,
    slotOfPart_bootpart]

/-- During a trial the SPL starts U-Boot proper. -/
theorem afterSpl_of_trial (onXpi : disk.OnXpi)
    (trial : disk.env.envget .upgradeAvailable = "1") :
    afterSpl platform disk = .proper false disk.env := by
  rcases onXpi.mbr with ⟨flagged, boots⟩
  have partition :=
    Mbr.splMmcFirstBootablePartition_of_onlyFlagged boots.only
      platform.logical
  have proper : xpiSplStartUboot true disk.env = 1 := by
    simp [xpiSplStartUboot, onXpi.env.trial_iff.mp trial]
  have found : ¬ (flagged.bootpart : Int) < 0 := by omega
  have notFalcon : ¬ xpiSplStartUboot true disk.env = 0 := by
    rw [proper]
    decide
  rw [afterSpl, partition, if_neg found, if_neg notFalcon]

theorem after_reboot_of_settled (onXpi : disk.OnXpi)
    (boots : disk.mbr.Boots flagged)
    (settled : disk.env.envget .upgradeAvailable ≠ "1") (phase : XpiPhase) :
    after platform ⟨disk, phase⟩ reboot =
      ⟨disk, .linux ⟨flagged, Chosen.proper⟩⟩ := by
  simp only [after, reboot, Trace.run_cons, Trace.run_nil, step,
    afterSpl_of_settled platform onXpi boots settled]

/-- The boots that a pending trial can take. -/
theorem after_reboot_of_trial (onXpi : disk.OnXpi)
    (trial : disk.env.envget .upgradeAvailable = "1") (phase : XpiPhase) :
    let ram := disk.env.bootcountInc
    after platform ⟨disk, phase⟩ reboot =
      if ram.BootcountError then
        ⟨{ disk with env := ram.altbootcmd },
          .linux ⟨ram.altbootcmd.abBoot, Chosen.proper⟩⟩
      else ⟨{ disk with env := ram }, .linux ⟨ram.abBoot, Chosen.proper⟩⟩ := by
  intro ram
  have upgrading : disk.env.Upgrading := onXpi.env.upgrading_iff.mpr trial
  simp only [after, reboot, Trace.run_cons, Trace.run_nil, step,
    afterSpl_of_trial platform onXpi trial, KmmYocto.bootcountInc,
    if_pos upgrading, KmmYocto.bootCommand, envSave_stored]
  split_ifs <;> rfl

end Boots

end Xpi

/-! ## Commands -/

/-- The lock is free, and the environment and the MBR can be written. -/
structure Ctx.Works (ctx : Ctx) : Prop where
  lockFree : ctx.lockFree = true
  fwSetenvOk : ctx.fwSetenvOk = true
  mbrWriteOk : ctx.mbrWriteOk = true

namespace Ab

variable {ctx : Ctx} {session : Session Disk Write}

theorem flagged_bytes_ne {mbr : Mbr} {slot : Slot}
    (differs : mbrBootable mbr ≠ slot.name) :
    mbr.bytes ≠ (mbr.flagged slot.name).bytes := by
  intro same
  apply differs
  have byteSame : ∀ offset,
      mbr.byte offset = (mbr.flagged slot.name).byte offset := by
    intro offset
    rw [Mbr.byte, same]
    rfl
  rw [mbrBootable, byteSame, byteSame, Mbr.byte_flagged_446,
    Mbr.byte_flagged_462]
  cases slot <;> rfl

/-- What `mbr_set` does, in each of its three cases. -/
theorem ends_mbrSet_slot (slot : Slot)
    (post : Except String PUnit → Session Disk Write → Prop) :
    Script.Ends (mbrSet ctx slot.name) session post ↔
      if mbrBootable session.store.mbr = slot.name then
        post (.ok PUnit.unit) session
      else if ctx.mbrWriteOk = true then
        post (.ok PUnit.unit)
          { session with
            store :=
              { session.store with
                mbr := session.store.mbr.flagged slot.name }
            writes :=
              session.writes ++ [.mbr (session.store.mbr.flagged slot.name)] }
      else
        post (.error "ab: MBR の bootable フラグの読み戻しが一致しない")
          session := by
  rw [ends_mbrSet_iff]
  by_cases already : mbrBootable session.store.mbr = slot.name
  · rw [if_pos already, if_pos already]
  · rw [if_neg already, if_neg already, if_neg (flagged_bytes_ne already)]

/-- A `commit` on the slot that `ab_slot` names leaves a settled device. -/
theorem ends_linuxCommit_of_named {boot : LinuxBoot} {disk : Disk}
    (named : disk.env.envget .abSlot = boot.running.name)
    (present : ∃ slot, disk.mbr.Boots slot)
    (works : ctx.Works) :
    Script.Ends (linuxCommit ctx boot true) ⟨disk, [], false⟩
      fun result later =>
        (result = .ok PUnit.unit ∧ later.rebooting = false) ∧
          later.store.env.envget .upgradeAvailable ≠ "1" ∧
            later.store.env.envget .abSlot = boot.running.name ∧
              mbrBootable later.store.mbr = boot.running.name := by
  rcases present with ⟨flagged, boots⟩
  have afterFlag :
      mbrBootable (disk.mbr.flagged boot.running.name) = boot.running.name :=
    (Mbr.boots_flagged boots.present).mbrBootable
  simp only [linuxCommit, Script.ends_bind, ends_lock, ends_envget,
    Script.ends_ite, Script.ends_require, Script.ends_read,
    ends_envset_trial, ends_mbrSet_slot, Script.ends_persist, named, works.lockFree,
    works.fwSetenvOk, works.mbrWriteOk]
  split_ifs <;> simp_all [wroteEnv, Medium.apply, Disk.apply]

end Ab

/-! ## The writes of a command -/

/-- The slot a command settles on, if it ends a trial and gets to its writes. -/
def settles (ctx : Ctx) (boot : LinuxBoot) (disk : Disk) :
    AbCommand → Option String
  | .linuxCommit force =>
      if disk.env.envget .upgradeAvailable = "1" ∧
          (ctx.lockFree = true ∧ ctx.fwSetenvOk = true) ∧
            disk.env.envget .abSlot = boot.running.name ∧
              (force = true ∨ Ab.linuxChecks ctx boot disk = true)
      then some boot.running.name else none
  | .linuxRollback _ =>
      if disk.env.envget .upgradeAvailable = "1" ∧
          (ctx.lockFree = true ∧ ctx.fwSetenvOk = true)
      then some (disk.env.envget .abFallbackSlot) else none
  | _ => none

/-- What a command that settles on a slot writes. -/
def settleLog (ctx : Ctx) (disk : Disk) (slot : Slot) : List Write :=
  .env (disk.env.setTrial slot.name slot.name "0") ::
    if Ab.mbrBootable disk.mbr = slot.name then [.linuxTry none]
    else if ctx.mbrWriteOk = true then
      [.mbr (disk.mbr.flagged slot.name), .linuxTry none]
    else []

/-- A write that, on its own, cannot set the two records apart. -/
def Write.Harmless (disk : Disk) : Write → Prop
  | .env stored => stored.OnXpi ∧ stored.envget .upgradeAvailable = "1"
  | .mbr sector =>
      ∃ slot, sector.Boots slot ∧ disk.env.envget .abSlot = slot.name
  | _ => True

section Logs

variable
    {platform : Platform} {ctx : Ctx} {boot : LinuxBoot} {disk : Disk}

/-- A command that settles on a slot writes exactly its log. -/
theorem ends_settles {command : AbCommand} {slot : Slot}
    (ends : settles ctx boot disk command = some slot.name) :
    Script.Ends (command.script platform ctx boot) ⟨disk, [], false⟩
      fun _ later => later.writes = settleLog ctx disk slot := by
  cases command with
  | linuxCommit force =>
      rw [settles] at ends
      split_ifs at ends with passes
      rcases passes with ⟨trial, ⟨lockFree, stores⟩, named, checked⟩
      have same : boot.running = slot :=
        Slot.name_injective (Option.some.inj ends)
      simp only [AbCommand.script, Ab.linuxCommit, Script.ends_bind,
        Ab.ends_lock, Ab.ends_envget, Script.ends_ite, Script.ends_require,
        Script.ends_read, Ab.ends_envset_trial, Ab.ends_mbrSet_slot,
        Script.ends_persist, named, trial, lockFree, stores, checked, same,
        ne_eq, true_implies, not_true_eq_false, false_implies, true_and,
        and_true, not_false_eq_true]
      simp only [settleLog, Ab.wroteEnv, List.nil_append]
      split_ifs <;> rfl
  | linuxRollback noReboot =>
      rw [settles] at ends
      split_ifs at ends with passes
      rcases passes with ⟨trial, lockFree, stores⟩
      have named : disk.env.envget .abFallbackSlot = slot.name :=
        Option.some.inj ends
      simp only [AbCommand.script, Ab.linuxRollback, Script.ends_bind,
        Ab.ends_lock, Ab.ends_envget, Script.ends_ite, Script.ends_require,
        Script.ends_read, Ab.ends_envset_trial, Ab.ends_mbrSet_slot,
        Script.ends_persist, Ab.ends_maybeReboot, named, trial, lockFree,
        stores, true_implies, not_true_eq_false, false_implies, and_true]
      simp only [settleLog, Ab.wroteEnv, List.nil_append]
      split_ifs <;> rfl
  | _ => cases ends

theorem ends_harmless_linuxCommit (force : Bool) (onXpi : disk.OnXpi)
    (unsettled : settles ctx boot disk (.linuxCommit force) = none) :
    Script.Ends (Ab.linuxCommit ctx boot force) ⟨disk, [], false⟩
      fun _ later => ∀ write ∈ later.writes, write.Harmless disk := by
  rcases onXpi.mbr with ⟨flagged, boots⟩
  rw [settles, ite_eq_right_iff] at unsettled
  simp only [Ab.linuxCommit, Script.ends_bind, Ab.ends_lock, Ab.ends_envget,
    Script.ends_ite, Script.ends_require, Script.ends_read,
    Ab.ends_envset_trial, Ab.ends_mbrSet_slot]
  constructor
  · intro lockFree
    constructor
    · intro settled
      constructor
      · intro named
        split_ifs
        · intro write member
          cases member
        · intro write member
          rw [List.nil_append, List.mem_singleton] at member
          rw [member]
          exact ⟨_, Mbr.boots_flagged boots.present, named⟩
        · intro write member
          cases member
      · intro _ write member
        cases member
    · intro trial
      constructor
      · intro named
        constructor
        · intro checked
          constructor
          · intro stores
            cases unsettled
              ⟨not_not.mp trial, ⟨lockFree, stores⟩, named, checked⟩
          · intro _ write member
            cases member
        · intro _ write member
          cases member
      · intro _ write member
        cases member
  · intro _ write member
    cases member

theorem ends_harmless_linuxRollback (noReboot : Bool) (onXpi : disk.OnXpi)
    (unsettled : settles ctx boot disk (.linuxRollback noReboot) = none) :
    Script.Ends (Ab.linuxRollback ctx boot noReboot) ⟨disk, [], false⟩
      fun _ later => ∀ write ∈ later.writes, write.Harmless disk := by
  rcases onXpi.env.exists_abFallbackSlot with ⟨fallback, named⟩
  rw [settles, ite_eq_right_iff] at unsettled
  simp only [Ab.linuxRollback, Script.ends_bind, Ab.ends_lock,
    Ab.ends_envget, Script.ends_ite, Script.ends_require, Script.ends_read,
    Script.ends_persist, Ab.ends_envset_trial, Ab.ends_maybeReboot]
  constructor
  · intro lockFree
    constructor
    · intro trial
      constructor
      · intro stores
        cases unsettled ⟨trial, lockFree, stores⟩
      · intro _ write member
        cases member
    · intro settled
      constructor
      · intro confirmed
        constructor
        · intro bootable
          constructor
          · intro stores write member
            simp only [Ab.wroteEnv, List.nil_append, List.cons_append,
              List.mem_cons, List.not_mem_nil, or_false] at member
            rcases member with rfl | rfl
            · trivial
            · exact
                ⟨onXpi.env.setTrial _ _ (.inr rfl),
                  Env.envget_upgradeAvailable_setTrial ..⟩
          · intro _ write member
            rw [List.nil_append, List.mem_singleton] at member
            rw [member]
            trivial
        · intro _ write member
          cases member
      · intro _ write member
        cases member
  · intro _ write member
    cases member

theorem ends_harmless_linuxTryArm (noReboot : Bool) (onXpi : disk.OnXpi) :
    Script.Ends (Ab.linuxTryArm ctx boot noReboot) ⟨disk, [], false⟩
      fun _ later => ∀ write ∈ later.writes, write.Harmless disk := by
  simp only [Ab.linuxTryArm, Script.ends_bind, Ab.ends_tryTarget]
  cases disk.linuxTry with
  | none =>
      intro write member
      cases member
  | some file =>
      simp only [Option.map_some, Script.ends_bind, Ab.ends_lock,
        Ab.ends_envset_trial, Ab.ends_maybeReboot]
      constructor
      · intro _
        constructor
        · intro _ write member
          rw [Ab.wroteEnv, List.nil_append, List.mem_singleton] at member
          rw [member]
          exact
            ⟨onXpi.env.setTrial _ _ (.inr rfl),
              Env.envget_upgradeAvailable_setTrial ..⟩
        · intro _ write member
          cases member
      · intro _ write member
        cases member

/-- Every other command of `ab linux` writes nothing that can do harm. -/
theorem ends_harmless (linux : LinuxCommand) (onXpi : disk.OnXpi)
    (unsettled : settles ctx boot disk linux.command = none) :
    Script.Ends (linux.command.script platform ctx boot) ⟨disk, [], false⟩
      fun _ later => ∀ write ∈ later.writes, write.Harmless disk := by
  rcases linux with ⟨command, ofLinux⟩
  cases command with
  | linuxTryBegin =>
      simp only [AbCommand.script, Ab.linuxTryBegin, Script.ends_bind,
        Ab.ends_lock, Ab.ends_envget, Script.ends_require,
        Script.ends_persist, Script.ends_pure]
      refine ⟨fun _ => ⟨fun _ => ⟨fun _ => ⟨fun _ => ?_, ?_⟩, ?_⟩, ?_⟩, ?_⟩
      · intro write member
        rw [List.nil_append, List.mem_singleton] at member
        rw [member]
        trivial
      all_goals exact fun _ _ member => absurd member List.not_mem_nil
  | linuxTryRoot arguments stream =>
      exact
        (Ab.writesOnly_linuxTryRoot platform ctx arguments stream
          fun _ _ => trivial).ends disk false
  | linuxTryBoot image key =>
      exact
        (Ab.writesOnly_linuxTryBoot platform ctx image key
          fun _ _ => trivial).ends disk false
  | linuxTryArm noReboot =>
      exact ends_harmless_linuxTryArm noReboot onXpi
  | linuxCommit force =>
      exact ends_harmless_linuxCommit force onXpi unsettled
  | linuxRollback noReboot =>
      exact ends_harmless_linuxRollback noReboot onXpi unsettled
  | mcoreUpdate file noReboot => cases ofLinux
  | mcoreRollback noReboot => cases ofLinux
  | mcoreConfirm healthy => cases ofLinux

end Logs

/-! ## Devices after some of the writes -/

namespace Disk

variable {disk : Disk}

/-- Harmless writes keep the two records as they have to be. -/
theorem OnXpi.replay {writes : List Write} {store : Disk}
    (onXpi : store.OnXpi)
    (harmless : ∀ write ∈ writes, write.Harmless disk) :
    (Script.replay store writes).OnXpi := by
  induction writes generalizing store with
  | nil => exact onXpi
  | cons write rest induction =>
      have first := harmless write List.mem_cons_self
      refine induction ?_ fun later member =>
        harmless later (List.mem_cons_of_mem _ member)
      cases write with
      | env stored => exact ⟨first.1, onXpi.mbr⟩
      | mbr sector =>
          rcases first with ⟨slot, boots, -⟩
          exact ⟨onXpi.env, slot, boots⟩
      | _ => exact ⟨onXpi.env, onXpi.mbr⟩

/-- They also keep them aligned. -/
theorem Aligned.replay {writes : List Write} {store : Disk}
    (aligned : store.Aligned)
    (unchanged : store.env.envget .upgradeAvailable = "1" ∨
      store.env = disk.env)
    (harmless : ∀ write ∈ writes, write.Harmless disk) :
    (Script.replay store writes).Aligned := by
  induction writes generalizing store with
  | nil => exact aligned
  | cons write rest induction =>
      have first := harmless write List.mem_cons_self
      have later : ∀ write ∈ rest, write.Harmless disk :=
        fun write member => harmless write (List.mem_cons_of_mem _ member)
      cases write with
      | env stored => exact induction (.inl first.2) (.inl first.2) later
      | mbr sector =>
          rcases first with ⟨slot, boots, named⟩
          refine induction ?_ unchanged later
          rcases unchanged with trial | same
          · exact .inl trial
          · refine .inr ?_
            show Ab.mbrBootable sector = store.env.envget .abSlot
            rw [boots.mbrBootable, same, named]
      | _ => exact induction aligned unchanged later

/-- After a part of a settling command's log. -/
theorem onXpi_replay_settleLog (onXpi : disk.OnXpi) (ctx : Ctx) (slot : Slot)
    (taken : Nat) :
    (Script.replay disk ((settleLog ctx disk slot).take taken)).OnXpi := by
  rcases onXpi.mbr with ⟨flagged, boots⟩
  have stored := onXpi.env.setTrial slot slot (.inl rfl)
  have written : (disk.mbr.flagged slot.name).Boots slot :=
    Mbr.boots_flagged boots.present
  rcases taken with _ | _ | taken
  · exact onXpi
  · exact ⟨stored, onXpi.mbr⟩
  · rw [settleLog]
    split_ifs
    · cases taken <;> exact ⟨stored, onXpi.mbr⟩
    · rcases taken with _ | taken
      · exact ⟨stored, slot, written⟩
      · cases taken <;> exact ⟨stored, slot, written⟩
    · cases taken <;> exact ⟨stored, onXpi.mbr⟩

theorem Aligned.of_sameButCount {env : Env} (aligned : disk.Aligned)
    (same : env.SameButCount disk.env) : Aligned { disk with env } := by
  rw [Aligned]
  dsimp only
  rw [same.envget (by decide), same.envget (by decide)]
  exact aligned

/-- Once the trial is over, the MBR decides. -/
theorem aligned_settled_iff (slot : Slot) (mbr : Mbr)
    (file : Option LinuxTry) :
    Aligned
        { disk with
          env := disk.env.setTrial slot.name slot.name "0"
          mbr
          linuxTry := file } ↔
      Ab.mbrBootable mbr = slot.name := by
  simp [Aligned]

/-- Of a settling command's log, only the first write alone is not aligned. -/
theorem aligned_replay_settleLog
    (trial : disk.env.envget .upgradeAvailable = "1")
    (onXpi : disk.OnXpi) (ctx : Ctx) (slot : Slot) (taken : Nat) :
    (Script.replay disk ((settleLog ctx disk slot).take taken)).Aligned ↔
      taken = 0 ∨ Ab.mbrBootable disk.mbr = slot.name ∨
        (ctx.mbrWriteOk = true ∧ taken ≠ 1) := by
  rcases onXpi.mbr with ⟨flagged, boots⟩
  have afterFlag : Ab.mbrBootable (disk.mbr.flagged slot.name) = slot.name :=
    (Mbr.boots_flagged boots.present).mbrBootable
  rcases taken with _ | _ | taken
  · exact iff_of_true (.inl trial) (.inl rfl)
  · have first := @aligned_settled_iff disk slot disk.mbr disk.linuxTry
    simp only [zero_add, one_ne_zero, ne_eq, not_true_eq_false, and_false,
      or_false, false_or]
    exact first
  · rw [settleLog]
    split_ifs with already writable
    · refine iff_of_true ?_ (.inr (.inl already))
      cases taken <;> exact (aligned_settled_iff slot disk.mbr _).mpr already
    · refine iff_of_true ?_ (.inr (.inr ⟨writable, by omega⟩))
      rcases taken with _ | taken
      · exact (aligned_settled_iff slot _ disk.linuxTry).mpr afterFlag
      · cases taken <;>
          exact (aligned_settled_iff slot _ none).mpr afterFlag
    · refine iff_of_false ?_ (by simp [already, writable])
      cases taken <;>
        exact fun aligned => already
          ((aligned_settled_iff slot disk.mbr disk.linuxTry).mp aligned)

end Disk

/-! ## Steps -/

namespace Xpi

variable {xpi : Xpi} {disk : Disk}

/-- The disk after a command or a part of one. -/
theorem disk_step_ab (platform : Platform) (boot : LinuxBoot)
    (linux : LinuxCommand) (ctx : Ctx) (cut : Option Nat) :
    let log := (runAb platform disk boot linux ctx).2.writes
    (step platform ⟨disk, .linux boot⟩ (.ab linux ctx cut)).disk =
      Script.replay disk (log.take (cut.getD log.length)) := by
  intro log
  cases cut with
  | some taken => rfl
  | none =>
      rw [Option.getD_none, List.take_length]
      exact linux.command.replays platform ctx boot disk

/-- A command settles on a slot, and only during a trial. -/
theorem exists_of_settles {ctx : Ctx} {boot : LinuxBoot}
    {command : AbCommand} {name : String} (onXpi : disk.OnXpi)
    (ends : settles ctx boot disk command = some name) :
    disk.env.envget .upgradeAvailable = "1" ∧
      ∃ slot : Slot, name = slot.name := by
  cases command with
  | linuxCommit force =>
      rw [settles] at ends
      split_ifs at ends with passes
      exact ⟨passes.1, boot.running, (Option.some.inj ends).symm⟩
  | linuxRollback noReboot =>
      rw [settles] at ends
      split_ifs at ends with passes
      rcases onXpi.env.exists_abFallbackSlot with ⟨slot, named⟩
      exact ⟨passes.1, slot, (Option.some.inj ends).symm.trans named⟩
  | _ => cases ends

theorem onXpi_step_ab (platform : Platform) (onXpi : disk.OnXpi)
    (boot : LinuxBoot) (linux : LinuxCommand) (ctx : Ctx)
    (cut : Option Nat) :
    (step platform ⟨disk, .linux boot⟩ (.ab linux ctx cut)).disk.OnXpi := by
  rw [disk_step_ab]
  cases ends : settles ctx boot disk linux.command with
  | none =>
      have harmless : ∀ write ∈ (runAb platform disk boot linux ctx).2.writes,
          write.Harmless disk :=
        ends_harmless linux onXpi ends
      exact onXpi.replay fun write member =>
        harmless write (List.mem_of_mem_take member)
  | some name =>
      rcases exists_of_settles onXpi ends with ⟨-, slot, rfl⟩
      have log : (runAb platform disk boot linux ctx).2.writes =
          settleLog ctx disk slot :=
        ends_settles ends
      rw [log]
      exact Disk.onXpi_replay_settleLog onXpi ctx slot _

/-- Linux or the SPL runs after a command. -/
theorem Sound.of_ab {platform : Platform} {boot : LinuxBoot}
    {linux : LinuxCommand} {ctx : Ctx} {cut : Option Nat}
    (onXpi :
      (step platform ⟨disk, .linux boot⟩ (.ab linux ctx cut)).disk.OnXpi) :
    (step platform ⟨disk, .linux boot⟩ (.ab linux ctx cut)).Sound := by
  cases cut with
  | some taken => exact .of_spl onXpi
  | none =>
      rw [step] at onXpi ⊢
      dsimp only at onXpi ⊢
      split_ifs
      · exact .of_spl onXpi
      · exact .of_linux onXpi boot

/-- Every step keeps the two records as they have to be. -/
theorem Sound.step (platform : Platform) (sound : xpi.Sound)
    (act : XpiAct) : (xpi.step platform act).Sound := by
  rcases xpi with ⟨disk, phase⟩
  have onXpi : disk.OnXpi := sound.disk
  cases act with
  | reset => exact .of_spl onXpi
  | start =>
      cases phase with
      | spl =>
          refine ⟨onXpi, ?_⟩
          intro counted ram inProper
          change afterSpl platform disk = .proper counted ram at inProper
          rw [afterSpl] at inProper
          split_ifs at inProper
          cases inProper
          exact fun _ _ => rfl
      | _ => exact sound
  | bootcountInc =>
      rcases phase with _ | ⟨_ | _, ram⟩ | boot
      case proper.false =>
        have same : ram.SameButCount disk.env := sound.ram _ _ rfl
        have counted := Env.sameButCount_bootcountInc ram
        simp only [Xpi.step, KmmYocto.bootcountInc, envSave_stored]
        split_ifs
        · refine ⟨⟨counted.onXpi (same.onXpi onXpi.env), onXpi.mbr⟩, ?_⟩
          rintro _ _ ⟨⟩ _ _
          rfl
        · refine ⟨onXpi, ?_⟩
          rintro _ _ ⟨⟩ name notCount
          exact (counted name notCount).trans (same name notCount)
      all_goals exact sound
  | bootCommand =>
      rcases phase with _ | ⟨_ | _, ram⟩ | boot
      case proper.true =>
        have same : ram.SameButCount disk.env := sound.ram _ _ rfl
        simp only [Xpi.step, KmmYocto.bootCommand, envSave_stored]
        split_ifs
        · have fallen : Disk.OnXpi { disk with env := ram.altbootcmd } :=
            ⟨(same.onXpi onXpi.env).altbootcmd, onXpi.mbr⟩
          exact .of_linux fallen _
        · exact .of_linux onXpi _
      all_goals exact sound
  | ab linux ctx cut =>
      cases phase with
      | linux boot =>
          exact .of_ab (onXpi_step_ab platform onXpi boot linux ctx cut)
      | _ => exact sound

theorem Sound.run (platform : Platform) (sound : xpi.Sound)
    (acts : List XpiAct) : (xpi.after platform acts).Sound :=
  Trace.run_of_step (fun _ act kept => kept.step platform act) sound acts

/-! ## What a repair is -/

/-- The whole of `ab linux try`, as a PC session runs it. -/
def fullTry (platform : Platform) (ctx : Ctx) (boot : LinuxBoot)
    (size : Nat) (sum : String) (stream : Ab.Stream) (image : BootTree)
    (key : Option (List Char)) (noReboot : Bool) : Ab PUnit := do
  let _ ← Ab.linuxTryBegin platform ctx boot
  Ab.linuxTryRoot platform ctx (some (size, sum)) stream
  Ab.linuxTryBoot platform ctx (some image) key
  Ab.linuxTryArm ctx boot noReboot

/-- The script runs to its end on the disk. -/
def Succeeds (script : Ab PUnit) (disk : Disk) : Prop :=
  (Script.exec script disk).1.isOk = true

/-- `commit`, `rollback` or a full `try` succeeds in the running system. -/
def CanSwitch (platform : Platform) (ctx : Ctx) (boot : LinuxBoot)
    (disk : Disk) : Prop :=
  (∃ force, Succeeds (Ab.linuxCommit ctx boot force) disk) ∨
    (∃ noReboot, Succeeds (Ab.linuxRollback ctx boot noReboot) disk) ∨
      ∃ size sum stream image key noReboot,
        Succeeds
          (fullTry platform ctx boot size sum stream image key noReboot) disk

/-- No trial is pending, and both records name the running slot. -/
def Settled (xpi : Xpi) : Prop :=
  ∃ boot, xpi.phase = .linux boot ∧
    xpi.disk.env.envget .upgradeAvailable ≠ "1" ∧
      xpi.disk.env.envget .abSlot = boot.running.name ∧
        Ab.mbrBootable xpi.disk.mbr = boot.running.name

/-- A command that runs to its end in the given system, or a part of a boot. -/
def IsRepairStep (ctx : Ctx) : XpiAct → Prop
  | .ab _ found cut => found = ctx ∧ cut = none
  | _ => True

/--
After the next boot the switch can be finished or undone, and commands and
reboots can settle the device, whenever the writes of the system work.
-/
def Repairable (platform : Platform) (xpi : Xpi) : Prop :=
  ∃ boot disk, xpi.after platform reboot = ⟨disk, .linux boot⟩ ∧
    ∀ ctx : Ctx, ctx.Works →
      CanSwitch platform ctx boot disk ∧
        ∃ acts, (∀ act ∈ acts, IsRepairStep ctx act) ∧
          Settled (after platform ⟨disk, .linux boot⟩ acts)

/--
A step that ends a trial settles on a slot that the MBR flags already, or
also writes the MBR: the sector can be written, and the power is not cut
after the first write.
-/
def SettlesBoth (xpi : Xpi) : XpiAct → Prop
  | .bootCommand =>
      match xpi.phase with
      | .proper true ram =>
          ram.BootcountError →
            Ab.mbrBootable xpi.disk.mbr = ram.envget .abFallbackSlot
      | _ => True
  | .ab linux ctx cut =>
      match xpi.phase with
      | .linux boot =>
          ∀ name ∈ settles ctx boot xpi.disk linux.command,
            cut = some 0 ∨ Ab.mbrBootable xpi.disk.mbr = name ∨
              (ctx.mbrWriteOk = true ∧ cut ≠ some 1)
      | _ => True
  | _ => True

instance (xpi : Xpi) (act : XpiAct) : Decidable (xpi.SettlesBoth act) :=
  match act, xpi with
  | .bootCommand, ⟨_, .proper true _⟩ => inferInstanceAs (Decidable (_ → _))
  | .bootCommand, ⟨_, .proper false _⟩ => .isTrue trivial
  | .bootCommand, ⟨_, .spl⟩ => .isTrue trivial
  | .bootCommand, ⟨_, .linux _⟩ => .isTrue trivial
  | .ab _ _ _, ⟨_, .linux _⟩ =>
      inferInstanceAs (Decidable (∀ name ∈ _, _ ∨ _ ∨ (_ ∧ _)))
  | .ab _ _ _, ⟨_, .spl⟩ => .isTrue trivial
  | .ab _ _ _, ⟨_, .proper _ _⟩ => .isTrue trivial
  | .reset, _ => .isTrue trivial
  | .start, _ => .isTrue trivial
  | .bootcountInc, _ => .isTrue trivial

section Repair

variable
    (platform : Platform) {boot : LinuxBoot}

/-- On the slot that `ab_slot` names, a `commit` settles the device. -/
theorem canSwitch_of_named
    (named : disk.env.envget .abSlot = boot.running.name)
    (onXpi : disk.OnXpi) {ctx : Ctx} (works : ctx.Works) :
    CanSwitch platform ctx boot disk ∧
      ∃ acts, (∀ act ∈ acts, IsRepairStep ctx act) ∧
        Settled (after platform ⟨disk, .linux boot⟩ acts) := by
  have commits := Ab.ends_linuxCommit_of_named named onXpi.mbr works
  rcases commits with ⟨⟨succeeds, stays⟩, settled, stillNamed, flagged⟩
  constructor
  · refine .inl ⟨true, ?_⟩
    rw [Succeeds, Script.exec, succeeds]
    rfl
  · refine ⟨[.ab ⟨.linuxCommit true, rfl⟩ ctx none], ?_, boot, ?_, ?_⟩
    · intro act member
      rw [List.mem_singleton.mp member]
      exact ⟨rfl, rfl⟩
    · show (if _ then _ else _) = _
      exact if_neg (by rw [Bool.not_eq_true]; exact stays)
    · exact ⟨settled, stillNamed, flagged⟩

theorem not_succeeds {script : Ab PUnit}
    (fails : Script.Ends script ⟨disk, [], false⟩ fun result _ =>
      result.isOk = false) :
    ¬ Succeeds script disk := by
  intro succeeds
  cases fails.symm.trans succeeds

/-- On the other slot, outside a trial, every command refuses to run. -/
theorem not_canSwitch_of_settled
    (other : disk.env.envget .abSlot ≠ boot.running.name)
    (settled : disk.env.envget .upgradeAvailable ≠ "1") (ctx : Ctx) :
    ¬ CanSwitch platform ctx boot disk := by
  rintro (⟨force, succeeds⟩ | ⟨noReboot, succeeds⟩ |
    ⟨size, sum, stream, image, key, noReboot, succeeds⟩)
  · refine not_succeeds ?_ succeeds
    simp only [Ab.linuxCommit, Script.ends_bind, Ab.ends_lock,
      Ab.ends_envget, Script.ends_ite, Script.ends_require]
    refine ⟨fun _ => ⟨fun _ => ⟨?_, fun _ => rfl⟩, ?_⟩, fun _ => rfl⟩
    · exact fun named => absurd named other
    · exact fun trial => absurd settled trial
  · refine not_succeeds ?_ succeeds
    simp only [Ab.linuxRollback, Script.ends_bind, Ab.ends_lock,
      Ab.ends_envget, Script.ends_ite, Script.ends_require]
    refine ⟨fun _ => ⟨?_, fun _ => ⟨?_, fun _ => rfl⟩⟩, fun _ => rfl⟩
    · exact fun trial => absurd trial settled
    · exact fun named => absurd named other
  · refine not_succeeds ?_ succeeds
    simp only [fullTry, Ab.linuxTryBegin, Script.ends_bind, Ab.ends_lock,
      Ab.ends_envget, Script.ends_require]
    refine ⟨fun _ => ⟨fun _ => ⟨?_, fun _ => rfl⟩, fun _ => rfl⟩,
      fun _ => rfl⟩
    exact fun named => absurd named other

/-- The next boot of an aligned device runs the slot `ab_slot` names. -/
theorem Sound.named_after_reboot (sound : xpi.Sound)
    (aligned : xpi.disk.Aligned) :
    ∃ boot disk, xpi.after platform reboot = ⟨disk, .linux boot⟩ ∧
      disk.env.envget .abSlot = boot.running.name := by
  rcases xpi with ⟨disk, phase⟩
  have onXpi : disk.OnXpi := sound.disk
  by_cases trial : disk.env.envget .upgradeAvailable = "1"
  · have counted := Env.sameButCount_bootcountInc disk.env
    have ram := counted.onXpi onXpi.env
    rw [after_reboot_of_trial platform onXpi trial]
    split_ifs
    · exact ⟨_, _, rfl, ram.altbootcmd.abBoot.symm⟩
    · exact ⟨_, _, rfl, ram.abBoot.symm⟩
  · rcases onXpi.mbr with ⟨flagged, boots⟩
    have named := (aligned.resolve_left trial).symm
    rw [after_reboot_of_settled platform onXpi boots trial]
    exact ⟨_, _, rfl, named.trans boots.mbrBootable⟩

/-- A device can be repaired exactly if its two records are aligned. -/
theorem repairable_iff (sound : xpi.Sound) :
    xpi.Repairable platform ↔ xpi.disk.Aligned := by
  constructor
  · rintro ⟨boot, later, booted, repairs⟩
    by_contra unaligned
    rcases xpi with ⟨disk, phase⟩
    have onXpi : disk.OnXpi := sound.disk
    rcases onXpi.mbr with ⟨flagged, boots⟩
    have settled : disk.env.envget .upgradeAvailable ≠ "1" :=
      fun trial => unaligned (.inl trial)
    rw [after_reboot_of_settled platform onXpi boots settled] at booted
    cases booted
    refine not_canSwitch_of_settled platform ?_ settled Bench.ctx
      (repairs Bench.ctx ⟨rfl, rfl, rfl⟩).1
    intro named
    exact unaligned (.inr (boots.mbrBootable.trans named.symm))
  · intro aligned
    rcases sound.named_after_reboot platform aligned with
      ⟨boot, later, booted, named⟩
    have onXpi : later.OnXpi := by
      have kept := sound.run platform reboot
      rw [booted] at kept
      exact kept.disk
    exact
      ⟨boot, later, booted, fun _ works =>
        canSwitch_of_named platform named onXpi works⟩

end Repair

/-- A command, or a part of one, on an aligned device. -/
theorem aligned_step_ab_iff (platform : Platform) (onXpi : disk.OnXpi)
    (aligned : disk.Aligned) (boot : LinuxBoot) (linux : LinuxCommand)
    (ctx : Ctx) (cut : Option Nat) :
    (step platform ⟨disk, .linux boot⟩ (.ab linux ctx cut)).disk.Aligned ↔
      SettlesBoth ⟨disk, .linux boot⟩ (.ab linux ctx cut) := by
  rw [disk_step_ab, SettlesBoth]
  cases ends : settles ctx boot disk linux.command with
  | none =>
      have harmless : ∀ write ∈ (runAb platform disk boot linux ctx).2.writes,
          write.Harmless disk :=
        ends_harmless linux onXpi ends
      refine iff_of_true ?_ ?_
      · exact aligned.replay (.inr rfl) fun write member =>
          harmless write (List.mem_of_mem_take member)
      · intro name named
        cases ends.symm.trans named
  | some name =>
      rcases exists_of_settles onXpi ends with ⟨trial, slot, rfl⟩
      have log : (runAb platform disk boot linux ctx).2.writes =
          settleLog ctx disk slot :=
        ends_settles ends
      rw [log, Disk.aligned_replay_settleLog trial onXpi]
      simp only [ends, Option.mem_some_iff, forall_eq']
      cases cut with
      | some taken => simp only [Option.getD_some, Option.some_inj, ne_eq]
      | none =>
          rw [Option.getD_none, settleLog]
          split_ifs with already writable
          · simp [already]
          · simp [writable]
          · simp [already, writable]

/-- A step leaves an aligned device aligned exactly if it settles both. -/
theorem aligned_step_iff (platform : Platform) (sound : xpi.Sound)
    (aligned : xpi.disk.Aligned) (act : XpiAct) :
    (xpi.step platform act).disk.Aligned ↔ xpi.SettlesBoth act := by
  rcases xpi with ⟨disk, phase⟩
  have onXpi : disk.OnXpi := sound.disk
  cases act with
  | reset => exact iff_of_true aligned trivial
  | start => cases phase <;> exact iff_of_true aligned trivial
  | bootcountInc =>
      rcases phase with _ | ⟨_ | _, ram⟩ | boot
      case proper.false =>
        have same : ram.SameButCount disk.env := sound.ram _ _ rfl
        have counted := Env.sameButCount_bootcountInc ram
        refine iff_of_true ?_ trivial
        simp only [Xpi.step, KmmYocto.bootcountInc, envSave_stored]
        split_ifs
        · exact aligned.of_sameButCount fun name notCount =>
            (counted name notCount).trans (same name notCount)
        · exact aligned
      all_goals exact iff_of_true aligned trivial
  | bootCommand =>
      rcases phase with _ | ⟨_ | _, ram⟩ | boot
      case proper.true =>
        simp only [Xpi.step, KmmYocto.bootCommand, envSave_stored,
          SettlesBoth]
        split_ifs with exceeded
        · simp [Disk.Aligned, Env.altbootcmd, exceeded]
        · exact iff_of_true aligned fun exceeds => absurd exceeds exceeded
      all_goals exact iff_of_true aligned trivial
  | ab linux ctx cut =>
      cases phase with
      | linux boot =>
          exact aligned_step_ab_iff platform onXpi aligned boot linux ctx cut
      | _ => exact iff_of_true aligned trivial

/--
Every state of a run can be repaired exactly if every step that ends a trial
settles both records.
-/
theorem repairable_along_iff (platform : Platform) {disk : Disk}
    (flagged : disk.mbr.Boots .a) (acts : List XpiAct) :
    Repairable platform (shipped disk) ∧
      (Trace.Along (step platform)
          (fun xpi act => (xpi.step platform act).Repairable platform)
          (shipped disk) acts ↔
        Trace.Along (step platform) SettlesBoth (shipped disk) acts) := by
  have sound : (shipped disk).Sound :=
    ⟨⟨Env.onXpi_shipped, .a, flagged⟩, fun _ _ inProper => by cases inProper⟩
  have aligned : (shipped disk).disk.Aligned := .inr flagged.mbrBootable
  refine ⟨(repairable_iff platform sound).mpr aligned, ?_⟩
  refine
    @Trace.along_iff_guarded _ _ (step platform)
      (fun xpi => xpi.Sound ∧ xpi.disk.Aligned) SettlesBoth _ ?_ ?_ _ _
      ⟨sound, aligned⟩
  · rintro xpi act ⟨sound, aligned⟩ settles
    exact
      ⟨sound.step platform act,
        (aligned_step_iff platform sound aligned act).mpr settles⟩
  · rintro xpi act ⟨sound, aligned⟩
    rw [repairable_iff platform (sound.step platform act),
      aligned_step_iff platform sound aligned act]

end Xpi

namespace Bench

theorem mbr_boots (slot : Slot) : (mbr slot).Boots slot := by
  refine ⟨mbr_onlyFlagged slot, ?_⟩
  intro each
  cases slot <;> cases each <;> decide +kernel

/-- Slot b is tried and runs; its `commit` is cut after so many writes. -/
def cutCommit (taken : Nat) : List XpiAct :=
  [.ab ⟨.linuxTryBegin, rfl⟩ ctx none,
    .ab ⟨.linuxTryArm false, rfl⟩ ctx none] ++ Xpi.reboot ++
    [.ab ⟨.linuxCommit true, rfl⟩ ctx (some taken)]

end Bench

/-- Cut between its two records, the `commit` cannot be repaired. -/
theorem Xpi.cutCommit_not_repairable :
    ¬ ∀ (platform : Platform) (disk : Disk), disk.mbr.Boots .a →
      ∀ acts, Repairable platform
        (after platform (shipped disk) acts) := by
  intro repairs
  have stuck :=
    repairs Bench.platform Bench.disk (Bench.mbr_boots .a)
      (Bench.cutCommit 1)
  have sound : (shipped Bench.disk).Sound :=
    ⟨⟨Env.onXpi_shipped, .a, Bench.mbr_boots .a⟩,
      fun _ _ inProper => by cases inProper⟩
  have aligned :=
    (repairable_iff Bench.platform (sound.run Bench.platform _)).mp stuck
  exact absurd aligned (by decide +kernel)

/-- Cut after both, it can be repaired all along. -/
theorem Xpi.cutCommit_repairable :
    Trace.Along (step Bench.platform)
      (fun xpi act =>
        (xpi.step Bench.platform act).Repairable Bench.platform)
      (shipped Bench.disk) (Bench.cutCommit 2) :=
  (repairable_along_iff Bench.platform (Bench.mbr_boots .a)
    (Bench.cutCommit 2)).2.mpr (by decide +kernel)

end KmmYocto
