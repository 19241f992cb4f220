import KmmYocto.TrialWrites

/-!
# The 8MM

On the 8MM the slot is recorded in two places.  Outside a trial the SPL takes
the falcon path and boots the partition the MBR flags; during a trial it hands
over to U-Boot proper, which counts the boot and boots `ab_slot`.  The `ab`
command is the one of the 8MP.

A step is a reset, a part of a boot, or one `ab linux` command, which runs to
its end or is stopped by a power cut after some of its writes.  Saving the
environment works.
-/

namespace KmmYocto

/-- `spl_start_uboot` of the 8MM: 0 is falcon, 1 is U-Boot proper. -/
def xpiSplStartUboot (envInit : Bool) (env : Env) : Int :=
  if ¬ envInit then 1
  else if env.getYesno .upgradeAvailable = 1 then 1
  else if env.getYesno .bootOs = 0 then 1
  else 0

/-- The running program of an 8MM. -/
inductive XpiPhase where
  | spl
  /-- U-Boot proper with its copy of the environment. -/
  | proper (counted : Bool) (ram : Env)
  | linux (boot : LinuxBoot)

/-- An 8MM. -/
structure Xpi where
  disk : Disk
  phase : XpiPhase

/-- A command of `ab linux`. -/
structure LinuxCommand where
  command : AbCommand
  ofLinux : command.isMcore = false

/-- One step of an 8MM. -/
inductive XpiAct where
  | reset
  /-- The SPL loads and starts what `spl_start_uboot` asks for. -/
  | start
  | bootcountInc
  | bootCommand
  /-- A command; `cut` is the number of writes it gets to before a power cut. -/
  | ab (linux : LinuxCommand) (ctx : Ctx) (cut : Option Nat)

namespace Xpi

/-- The program the SPL starts; without a bootable partition there is none. -/
def afterSpl (platform : Platform) (disk : Disk) : XpiPhase :=
  let partition := disk.mbr.splMmcFirstBootablePartition platform.logical
  if partition < 0 then .spl
  else if xpiSplStartUboot true disk.env = 0 then
    .linux ⟨slotOfPart partition, Chosen.proper⟩
  else .proper false disk.env

/-- A command run on the device: its result and the session it ends in. -/
def runAb (platform : Platform) (disk : Disk) (boot : LinuxBoot)
    (linux : LinuxCommand) (ctx : Ctx) :
    Except String PUnit × Session Disk Write :=
  Script.exec (linux.command.script platform ctx boot) disk

/-- The next state of the device. -/
def step (platform : Platform) (xpi : Xpi) : XpiAct → Xpi
  | .reset => { xpi with phase := .spl }
  | .start =>
      match xpi.phase with
      | .spl => { xpi with phase := afterSpl platform xpi.disk }
      | _ => xpi
  | .bootcountInc =>
      match xpi.phase with
      | .proper false ram =>
          let result := KmmYocto.bootcountInc .stored ram xpi.disk.env
          ⟨{ xpi.disk with env := result.2 }, .proper true result.1⟩
      | _ => xpi
  | .bootCommand =>
      match xpi.phase with
      | .proper true ram =>
          let result := KmmYocto.bootCommand .stored ram xpi.disk.env
          ⟨{ xpi.disk with env := result.2 },
            .linux ⟨result.1, Chosen.proper⟩⟩
      | _ => xpi
  | .ab linux ctx cut =>
      match xpi.phase with
      | .linux boot =>
          let session := (runAb platform xpi.disk boot linux ctx).2
          match cut with
          | some taken =>
              ⟨Script.replay xpi.disk (session.writes.take taken), .spl⟩
          | none =>
              ⟨session.store,
                if session.rebooting then .spl else .linux boot⟩
      | _ => xpi

/-- The device after a run. -/
abbrev after (platform : Platform) (xpi : Xpi) (acts : List XpiAct) : Xpi :=
  Trace.run (step platform) xpi acts

/-- A reboot, up to Linux.  Parts that a boot does not come to do nothing. -/
def reboot : List XpiAct :=
  [.reset, .start, .bootcountInc, .bootCommand]

/-- A device as shipped, with slot a running. -/
def shipped (disk : Disk) : Xpi where
  disk := { disk with env := shippedEnv, linuxTry := none }
  phase := .linux ⟨.a, Chosen.proper⟩

end Xpi

/-! ## What the MBR flags -/

namespace Mbr

/-- Both BOOT entries are there, and only the slot's one is flagged. -/
structure Boots (mbr : Mbr) (slot : Slot) : Prop where
  only : mbr.OnlyFlagged slot
  present : ∀ each : Slot, mbr.systemType each.bootpart ≠ 0

variable {mbr : Mbr} {slot : Slot}

theorem Boots.mbrBootable (boots : mbr.Boots slot) :
    Ab.mbrBootable mbr = slot.name := by
  have flagged := boots.only.flagged.1
  have other := boots.only.other
  cases slot with
  | a => exact if_pos flagged
  | b =>
      have notA : ¬ mbr.byte 446 = 0x80 := other
      have isB : mbr.byte 462 = 0x80 := flagged
      rw [Ab.mbrBootable, if_neg notA, if_pos isB]
      rfl

section Flagged

variable (mbr : Mbr) (slot : String)

/-- The sector that `mbr_set` writes. -/
def flagged : Mbr :=
  ⟨Ab.mbrFlagged mbr slot, Ab.mbrFlagged_length mbr slot⟩

theorem byte_flagged_446 :
    (mbr.flagged slot).byte 446 = if slot = "a" then 0x80 else 0 := by
  simp [flagged, byte, Ab.mbrFlagged, mbr.size]

theorem byte_flagged_462 :
    (mbr.flagged slot).byte 462 = if slot = "a" then 0 else 0x80 := by
  simp [flagged, byte, Ab.mbrFlagged, mbr.size]

theorem byte_flagged_450 : (mbr.flagged slot).byte 450 = mbr.byte 450 := by
  simp [flagged, byte, Ab.mbrFlagged, mbr.size]

theorem byte_flagged_466 : (mbr.flagged slot).byte 466 = mbr.byte 466 := by
  simp [flagged, byte, Ab.mbrFlagged, mbr.size]

end Flagged

/-- `mbr_set` keeps both entries, whatever it is asked to flag. -/
theorem present_flagged {name : String}
    (present : ∀ each : Slot, mbr.systemType each.bootpart ≠ 0)
    (each : Slot) : (mbr.flagged name).systemType each.bootpart ≠ 0 := by
  cases each with
  | a =>
      show (mbr.flagged name).byte 450 ≠ 0
      rw [byte_flagged_450]
      exact present .a
  | b =>
      show (mbr.flagged name).byte 466 ≠ 0
      rw [byte_flagged_466]
      exact present .b

/-- `mbr_set` flags the slot and keeps both entries. -/
theorem boots_flagged
    (present : ∀ each : Slot, mbr.systemType each.bootpart ≠ 0) :
    (mbr.flagged slot.name).Boots slot := by
  have kept : ∀ each : Slot,
      (mbr.flagged slot.name).systemType each.bootpart ≠ 0 :=
    present_flagged present
  have first := byte_flagged_446 mbr slot.name
  have second := byte_flagged_462 mbr slot.name
  refine ⟨⟨⟨?_, kept slot⟩, ?_⟩, kept⟩
  · cases slot with
    | a => exact first
    | b => exact second
  · cases slot with
    | a =>
        show (mbr.flagged Slot.a.name).byte 462 ≠ 0x80
        rw [second]
        decide
    | b =>
        show (mbr.flagged Slot.b.name).byte 446 ≠ 0x80
        rw [first]
        decide

end Mbr

namespace Ab

/-- What `mbr_set` does, in each of its four cases. -/
theorem ends_mbrSet_iff {ctx : Ctx} {session : Session Disk Write}
    (slot : String)
    (post : Except String PUnit → Session Disk Write → Prop) :
    Script.Ends (mbrSet ctx slot) session post ↔
      if mbrBootable session.store.mbr = slot then
        post (.ok PUnit.unit) session
      else if ctx.mbrWriteOk = true then
        post (.ok PUnit.unit)
          { session with
            store :=
              { session.store with mbr := session.store.mbr.flagged slot }
            writes :=
              session.writes ++ [.mbr (session.store.mbr.flagged slot)] }
      else if session.store.mbr.bytes =
          (session.store.mbr.flagged slot).bytes then
        post (.ok PUnit.unit) session
      else
        post (.error "ab: MBR の bootable フラグの読み戻しが一致しない")
          session := by
  simp only [mbrSet, Script.ends_bind, Script.ends_read, Script.ends_ite,
    Script.ends_pure, Script.ends_require]
  split_ifs with already writable same
  · simp [already]
  · simp only [already, writable, false_implies, true_implies, true_and,
      not_true_eq_false, not_false_eq_true, and_true, Script.ends_persist]
    exact
      ⟨fun both => both.1 rfl,
        fun written => ⟨fun _ => written, fun differs => absurd rfl differs⟩⟩
  · simp only [already, writable, Bool.false_eq_true, false_implies,
      true_implies, true_and, not_false_eq_true]
    exact
      ⟨fun both => both.1 same,
        fun kept => ⟨fun _ => kept, fun differs => absurd same differs⟩⟩
  · simp only [already, writable, Bool.false_eq_true, false_implies,
      true_implies, true_and, not_false_eq_true]
    exact
      ⟨fun both => both.2 same,
        fun refused => ⟨fun equal => absurd equal same, fun _ => refused⟩⟩

end Ab

end KmmYocto
