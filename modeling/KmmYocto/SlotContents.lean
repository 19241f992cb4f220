import KmmYocto.BootEffects
import KmmYocto.ConfirmedSlot
import KmmYocto.RunningSlot

/-!
# What the slots hold

The steps of the device let every boot end in Linux.  Here the files of the
slot have their say: the SPL goes the falcon way only with an `args` file and a
`falcon.itb` that loads, takes `u-boot.itb` of the same partition otherwise and
hangs without it, U-Boot proper starts what `extlinux.conf` names, and the
system comes up or does not.  `ab` takes the running slot from the kernel
parameters and dies without its device; what does not run leaves only a reset.

What the loader, `sysboot` and the kernel make of a file is a parameter.
-/

namespace KmmYocto

/-- What becomes of the files of a slot. -/
structure Payloads where
  /-- The kernel parameters in the device tree of a `falcon.itb` that loads. -/
  bootargs : List Char → Option CommandLine
  /-- Whether a `u-boot.itb` loads. -/
  loadsUboot : List Char → Bool
  /-- The parameters of the kernel that `sysboot` starts. -/
  sysboot : BootTree → Option CommandLine
  /-- Whether the system with these parameters comes up from the roots. -/
  comesUp : CommandLine → (Slot → List UInt8) → Bool

namespace Payloads

variable
    (payloads : Payloads)

/-- The kernel of the falcon way, which asks for `args` before `falcon.itb`. -/
def falcon (tree : BootTree) : Option CommandLine := do
  let args ← BootFiles.file tree "args"
  let itb ← BootFiles.file tree "falcon.itb"
  if args = [] then none else payloads.bootargs itb

/-- U-Boot proper can be loaded. -/
def uboot (tree : BootTree) : Bool :=
  (BootFiles.file tree "u-boot.itb").any payloads.loadsUboot

/-- The kernel of the falcon way, if `boot_os` asks for it. -/
def armedFalcon (tree : BootTree) (armed : Bool) : Option CommandLine :=
  if armed then payloads.falcon tree else none

theorem isSome_armedFalcon (tree : BootTree) (armed : Bool) :
    (payloads.armedFalcon tree armed).isSome =
      (armed && (payloads.falcon tree).isSome) := by
  cases armed <;> rfl

/-- The kernel that a boot of the partition starts. -/
def kernel (tree : BootTree) (armed : Bool) : Option CommandLine :=
  (payloads.armedFalcon tree armed).or
    (if payloads.uboot tree then payloads.sysboot tree else none)

/-- The slot has a system that comes up and is the slot's own to `ab`. -/
structure Starts (roots : Slot → List UInt8) (slot : Slot)
    (cmdline : CommandLine) : Prop where
  comesUp : payloads.comesUp cmdline roots = true
  running : cmdline.running = slot
  baseDev : cmdline.baseDev.isSome = true

/-- A boot of the slot on this way leads to such a system. -/
def Boots (disk : Disk) (slot : Slot) (armed : Bool) : Prop :=
  ∃ cmdline ∈ payloads.kernel (disk.boot slot) armed,
    payloads.Starts disk.root slot cmdline

end Payloads

namespace Machine

/-- The partition that the SPL loads from. -/
def splTree (machine : Machine) : BootTree :=
  match machine.phase with
  | .spl _ spl => machine.disk.boot (slotOfPart spl.abPart)
  | _ => []

/-- A kernel has been started. -/
def inLinux (machine : Machine) : Bool :=
  match machine.phase with
  | .linux _ => true
  | _ => false

/-- The same device, but for the slot that is taken to run. -/
def SameButRunning (machine other : Machine) : Prop :=
  machine.disk = other.disk ∧
    (machine.phase = other.phase ∨
      (machine.inLinux = true ∧ other.inLinux = true))

end Machine

/--
A device and the system that is up, by its kernel parameters.  There is none
before Linux, in a kernel that hangs and in front of U-Boot's prompt.
-/
structure Deployed where
  machine : Machine
  system : Option CommandLine

namespace Deployed

/-- The kernel of the chosen slot is started, if the slot has one. -/
def start (payloads : Payloads) (read : BootTree → Option CommandLine)
    (machine : Machine) : Deployed :=
  match machine.phase with
  | .linux boot =>
      match read (machine.disk.boot boot.running) with
      | some cmdline =>
          ⟨{ machine with phase := .linux ⟨cmdline.running, boot.chosen⟩ },
            if payloads.comesUp cmdline machine.disk.root then some cmdline
            else none⟩
      | none => ⟨machine, none⟩
  | _ => ⟨machine, none⟩

/-- `ab` gets past its `BASE_DEV`, which is taken to be the eMMC. -/
def findsDev (device : Deployed) : Bool :=
  device.system.any fun cmdline => cmdline.baseDev.isSome

/-- The device takes a step in which no kernel is started. -/
def move (device : Deployed) (machine : Machine) : Deployed :=
  ⟨machine, if machine.inLinux then device.system else none⟩

/-- The next state of the device. -/
def step (platform : Platform) (payloads : Payloads) (device : Deployed)
    (act : Act) : Deployed :=
  let next := device.machine.step platform act
  match act with
  | .loadOs read =>
      -- The file may be unreadable as well.
      let loads := (payloads.falcon device.machine.splTree).isSome
      device.move (device.machine.step platform (.loadOs (read && loads)))
  | .loadUboot =>
      if payloads.uboot device.machine.splTree then device.move next
      else device
  | .leaveSpl =>
      if device.machine.inLinux then device
      else start payloads payloads.falcon next
  | .bootCommand _ =>
      if device.machine.inLinux then device
      else start payloads payloads.sysboot next
  | .ab _ _ => if device.findsDev then device.move next else device
  | .falconRearm _ => if device.system.isSome then device.move next else device
  | _ => device.move next

/-- The device after a run. -/
abbrev after (platform : Platform) (payloads : Payloads) (device : Deployed)
    (acts : List Act) : Deployed :=
  Trace.run (step platform payloads) device acts

/-- A new device, whose system runs from slot a. -/
def shipped (disk : Disk) (chosen : Chosen) (cmdline : CommandLine) :
    Deployed where
  machine := Machine.shipped disk chosen
  system := some cmdline

/--
The system of the slot that `ab_slot` names is up, `ab` takes the slot for the
running one, and no trial is pending.
-/
structure Settled (device : Deployed) (running : Slot) : Prop where
  inLinux : ∃ chosen, device.machine.phase = .linux ⟨running, chosen⟩
  up : ∃ cmdline ∈ device.system,
    cmdline.running = running ∧ cmdline.baseDev.isSome = true
  slot : device.machine.disk.env.envget .abSlot = running.name
  noTrial : device.machine.disk.env.envget .upgradeAvailable ≠ "1"
  limit : device.machine.disk.env.get .bootlimit = some "1"

/-! ## Every step is one of the device -/

section Steps

variable
    {platform : Platform} {payloads : Payloads} {device : Deployed}

theorem sameButRunning_refl (machine : Machine) :
    machine.SameButRunning machine :=
  ⟨rfl, .inl rfl⟩

/-- A slot with a kernel. -/
theorem start_some {read : BootTree → Option CommandLine} {disk : Disk}
    {boot : LinuxBoot} {cmdline : CommandLine}
    (found : read (disk.boot boot.running) = some cmdline) :
    start payloads read ⟨disk, .linux boot⟩ =
      ⟨⟨disk, .linux ⟨cmdline.running, boot.chosen⟩⟩,
        if payloads.comesUp cmdline disk.root then some cmdline else none⟩ := by
  simp only [start, found]

/-- A slot without one. -/
theorem start_none {read : BootTree → Option CommandLine} {disk : Disk}
    {boot : LinuxBoot} (missing : read (disk.boot boot.running) = none) :
    start payloads read ⟨disk, .linux boot⟩ =
      ⟨⟨disk, .linux boot⟩, none⟩ := by
  simp only [start, missing]

/-- U-Boot proper has no part in what Linux does. -/
theorem step_start_bootcountInc (read : BootTree → Option CommandLine)
    (disk : Disk) (boot : LinuxBoot) (save : Save) :
    step platform payloads (start payloads read ⟨disk, .linux boot⟩)
        (.bootcountInc save) =
      start payloads read ⟨disk, .linux boot⟩ := by
  cases found : read (disk.boot boot.running) with
  | none =>
      rw [start_none found]
      rfl
  | some cmdline =>
      rw [start_some found]
      rfl

theorem step_start_bootCommand (read : BootTree → Option CommandLine)
    (disk : Disk) (boot : LinuxBoot) (save : Save) :
    step platform payloads (start payloads read ⟨disk, .linux boot⟩)
        (.bootCommand save) =
      start payloads read ⟨disk, .linux boot⟩ := by
  cases found : read (disk.boot boot.running) with
  | none =>
      rw [start_none found]
      rfl
  | some cmdline =>
      rw [start_some found]
      rfl

theorem machine_start (read : BootTree → Option CommandLine)
    (machine : Machine) :
    (start payloads read machine).machine.SameButRunning machine := by
  obtain ⟨disk, ⟨pc, spl⟩ | ⟨counted, ram⟩ | boot⟩ := machine
  · exact sameButRunning_refl _
  · exact sameButRunning_refl _
  · cases found : read (disk.boot boot.running) with
    | none =>
        rw [start_none found]
        exact sameButRunning_refl _
    | some cmdline =>
        rw [start_some found]
        exact ⟨rfl, .inr ⟨rfl, rfl⟩⟩

/-- `fw_setenv` that does not complete is a step that changes nothing. -/
theorem step_nothing (platform : Platform) (machine : Machine) :
    machine.step platform (.falconRearm false) = machine := by
  obtain ⟨disk, ⟨pc, spl⟩ | ⟨counted, ram⟩ | boot⟩ := machine <;> rfl

/-- What the slots hold decides which step it is, and which slot runs. -/
theorem machine_step (platform : Platform) (payloads : Payloads)
    (device : Deployed) (act : Act) :
    ∃ taken : Act,
      (device.step platform payloads act).machine.SameButRunning
        (device.machine.step platform taken) := by
  have takes (taken : Act) :
      ∃ taken' : Act,
        (device.move (device.machine.step platform taken)).machine.SameButRunning
          (device.machine.step platform taken') :=
    ⟨taken, sameButRunning_refl _⟩
  have stays :
      ∃ taken : Act,
        device.machine.SameButRunning
          (device.machine.step platform taken) := by
    refine ⟨.falconRearm false, ?_⟩
    rw [step_nothing]
    exact sameButRunning_refl _
  cases act with
  | reset => exact takes _
  | fsBootPartition save => exact takes _
  | startUboot save => exact takes _
  | loadOs read => exact takes _
  | loadUboot =>
      simp only [step]
      split_ifs
      · exact takes _
      · exact stays
  | mcoreStage save => exact takes _
  | leaveSpl =>
      simp only [step]
      split_ifs
      · exact stays
      · exact ⟨.leaveSpl, machine_start _ _⟩
  | bootcountInc save => exact takes _
  | bootCommand save =>
      simp only [step]
      split_ifs
      · exact stays
      · exact ⟨.bootCommand save, machine_start _ _⟩
  | ab command ctx =>
      simp only [step]
      split_ifs
      · exact takes _
      · exact stays
  | falconRearm completed =>
      simp only [step]
      split_ifs
      · exact takes _
      · exact stays

/--
What every step of the device keeps, whatever slot runs, holds in every state
that a run leads to; it may grow with the number of steps.
-/
theorem machine_after {holds : Machine → Nat → Prop}
    (renamed : ∀ {machine other : Machine} {steps : Nat},
      machine.SameButRunning other → holds other steps → holds machine steps)
    (kept : ∀ {machine : Machine} {steps : Nat} (act : Act),
      holds machine steps → holds (machine.step platform act) (steps + 1))
    {steps : Nat} (first : holds device.machine steps) (acts : List Act) :
    holds (device.after platform payloads acts).machine
      (steps + acts.length) := by
  induction acts generalizing device steps with
  | nil => exact first
  | cons act rest induction =>
      obtain ⟨taken, same⟩ := machine_step platform payloads device act
      have later := induction (renamed same (kept taken first))
      rwa [List.length_cons, Nat.add_comm rest.length, ← Nat.add_assoc]

theorem live_of_sameButRunning {machine other : Machine}
    (same : machine.SameButRunning other) (live : other.Live) :
    machine.Live := by
  obtain ⟨-, equal | ⟨inLinux, -⟩⟩ := same
  · rwa [Machine.Live, equal]
  · obtain ⟨disk, ⟨pc, spl⟩ | ⟨counted, ram⟩ | boot⟩ := machine
    · cases inLinux
    · cases inLinux
    · trivial

theorem workEnv_of_sameButRunning {machine other : Machine}
    (same : machine.SameButRunning other) :
    machine.workEnv = other.workEnv := by
  obtain ⟨disk, phase⟩ := machine
  obtain ⟨otherDisk, otherPhase⟩ := other
  obtain ⟨equal, equalPhase | ⟨inLinux, inLinuxToo⟩⟩ := same
  · obtain rfl : disk = otherDisk := equal
    obtain rfl : phase = otherPhase := equalPhase
    rfl
  · obtain rfl : disk = otherDisk := equal
    cases phase with
    | spl pc spl => cases inLinux
    | proper counted ram => cases inLinux
    | linux boot =>
        cases otherPhase with
        | spl pc spl => cases inLinuxToo
        | proper counted ram => cases inLinuxToo
        | linux otherBoot => rfl

/-! ## The slot that `ab` takes for the running one -/

/-- A system that is up is in Linux, and `ab` reads its parameters. -/
def Reads (device : Deployed) : Prop :=
  ∀ cmdline ∈ device.system,
    ∃ chosen, device.machine.phase = .linux ⟨cmdline.running, chosen⟩

theorem reads_start (read : BootTree → Option CommandLine)
    (machine : Machine) : (start payloads read machine).Reads := by
  obtain ⟨disk, ⟨pc, spl⟩ | ⟨counted, ram⟩ | boot⟩ := machine
  · rintro cmdline ⟨⟩
  · rintro cmdline ⟨⟩
  · cases found : read (disk.boot boot.running) with
    | none =>
        rw [start_none found]
        rintro cmdline ⟨⟩
    | some cmdline =>
        rw [start_some found]
        intro other up
        simp only at up
        split_ifs at up
        · obtain rfl := Option.some.inj up
          exact ⟨boot.chosen, rfl⟩
        · cases up

/-- A system stays the one that it is until the next boot. -/
theorem reads_move {machine : Machine} (reads : device.Reads)
    (same : ∀ boot, device.machine.phase = .linux boot →
      machine.inLinux = true → machine.phase = .linux boot) :
    (device.move machine).Reads := by
  intro cmdline up
  simp only [move] at up
  split_ifs at up with inLinux
  · obtain ⟨chosen, runs⟩ := reads cmdline up
    exact ⟨chosen, same _ runs inLinux⟩
  · cases up

/-- Linux does not turn into another one. -/
theorem phase_step {machine : Machine} {boot : LinuxBoot}
    (runs : machine.phase = .linux boot) (act : Act)
    (inLinux : (machine.step platform act).inLinux = true) :
    (machine.step platform act).phase = .linux boot := by
  obtain ⟨disk, phase⟩ := machine
  obtain rfl : phase = .linux boot := runs
  cases act with
  | reset => cases inLinux
  | ab command ctx =>
      simp only [Machine.step] at inLinux ⊢
      split_ifs at inLinux ⊢
      · cases inLinux
      · rfl
  | falconRearm completed => cases completed <;> rfl
  | _ => rfl

theorem Reads.step (reads : device.Reads) (act : Act) :
    (device.step platform payloads act).Reads := by
  have moves (taken : Act) :
      (device.move (device.machine.step platform taken)).Reads :=
    reads_move reads fun boot runs inLinux => phase_step runs taken inLinux
  cases act with
  | reset => exact moves _
  | fsBootPartition save => exact moves _
  | startUboot save => exact moves _
  | loadOs read => exact moves _
  | loadUboot =>
      simp only [Deployed.step]
      split_ifs
      · exact moves _
      · exact reads
  | mcoreStage save => exact moves _
  | leaveSpl =>
      simp only [Deployed.step]
      split_ifs
      · exact reads
      · exact reads_start _ _
  | bootcountInc save => exact moves _
  | bootCommand save =>
      simp only [Deployed.step]
      split_ifs
      · exact reads
      · exact reads_start _ _
  | ab command ctx =>
      simp only [Deployed.step]
      split_ifs
      · exact moves _
      · exact reads
  | falconRearm completed =>
      simp only [Deployed.step]
      split_ifs
      · exact moves _
      · exact reads

theorem Reads.after (reads : device.Reads) (acts : List Act) :
    (device.after platform payloads acts).Reads := by
  induction acts generalizing device with
  | nil => exact reads
  | cons act rest induction => exact induction (reads.step act)

theorem reads_shipped (disk : Disk) (chosen : Chosen) {cmdline : CommandLine}
    (runs : cmdline.running = .a) : (shipped disk chosen cmdline).Reads := by
  rintro other ⟨⟩
  exact ⟨chosen, by rw [runs]; rfl⟩

end Steps

end Deployed

/-! ## A boot whose saves are stored -/

/-- The SPL goes the falcon way. -/
def Env.falconArmed (env : Env) : Bool :=
  decide (env.getYesno .bootOs = 1)

namespace Machine

/-- Everything between a reset and Linux, on either way. -/
def boot : List Act :=
  [.reset, .fsBootPartition .stored, .startUboot .stored, .loadOs true,
    .loadUboot, .mcoreStage .stored, .leaveSpl, .bootcountInc .stored,
    .bootCommand .stored]

/-- The slot that the SPL loads from. -/
def pickedSlot (machine : Machine) : Slot :=
  slotChar (machine.disk.env.picked.get .abSlot)

section

variable
    {platform : Platform} {disk : Disk}

theorem step_pick_stored :
    step platform ⟨disk, .spl .start Spl.start⟩ (.fsBootPartition .stored) =
      ⟨{ disk with env := disk.env.picked },
        .spl .picked (Spl.start.afterPick disk.env)⟩ := by
  have started : (0 : Int) < (Spl.start.afterPick disk.env).abPart :=
    Spl.abPart_afterPick_pos _ _
  rw [step_picks platform rfl Spl.live_start rfl, Spl.env_start,
    SplPc.start_afterAnswer started, store]
  congr 2
  show _ = disk.env.picked
  rw [Env.picked]
  split_ifs <;> rfl

theorem step_disarm_stored {spl : Spl} (live : spl.Live)
    (same : spl.env disk.env = disk.env) :
    step platform ⟨disk, .spl .picked spl⟩ (.startUboot .stored) =
      ⟨{ disk with env := disk.env.disarmed },
        .spl (.decided disk.env.falconArmed) (spl.afterDisarm disk.env)⟩ := by
  rw [step_disarms platform rfl live, same, store]
  congr 2
  show _ = disk.env.disarmed
  rw [Env.disarmed]
  split_ifs <;> rfl

theorem step_loadOs (armed read : Bool) (spl : Spl) :
    step platform ⟨disk, .spl (.decided armed) spl⟩ (.loadOs read) =
      ⟨disk,
        .spl (if armed && read then .loaded true else .decided false) spl⟩ := by
  cases armed <;> cases read <;> rfl

theorem step_stage_stored {falcon : Bool} {spl : Spl} (live : spl.Live)
    (same : spl.env disk.env = disk.env) (first : spl.mcoreDone = false) :
    step platform ⟨disk, .spl (.loaded falcon) spl⟩ (.mcoreStage .stored) =
      ⟨{ disk with env := disk.env.untried },
        .spl (.loaded falcon)
          (spl.afterStage
            (board platform ⟨disk, .spl (.loaded falcon) spl⟩) disk.env)⟩ := by
  rw [step_stages platform rfl live first, same, store]
  congr 2
  show _ = disk.env.untried
  rw [Env.untried]
  split_ifs <;> rfl

end

end Machine

namespace Deployed

section Boots

variable
    (platform : Platform) {payloads : Payloads} {device : Deployed}

/-- The boot partition that the SPL loads from. -/
def pickedTree (device : Deployed) : BootTree :=
  device.machine.disk.boot device.machine.pickedSlot

/-- The kernel of the falcon way in it, if `boot_os` asks for it. -/
def pickedFalcon (payloads : Payloads) (device : Deployed) :
    Option CommandLine :=
  payloads.armedFalcon device.pickedTree
    device.machine.disk.env.picked.falconArmed

/-- The environment that the SPL hands on. -/
def handedEnv (device : Deployed) : Env :=
  device.machine.disk.env.picked.disarmed.untried

/-- The SPL of a boot once the slot and the way are decided. -/
def decided (device : Deployed) : Deployed where
  machine :=
    ⟨{ device.machine.disk with
        env := device.machine.disk.env.picked.disarmed },
      .spl (.decided device.machine.disk.env.picked.falconArmed)
        ((Spl.start.afterPick device.machine.disk.env).afterDisarm
          device.machine.disk.env.picked)⟩
  system := none

theorem after_boot_eq :
    device.after platform payloads Machine.boot =
      device.decided.after platform payloads
        [.loadOs true, .loadUboot, .mcoreStage .stored, .leaveSpl,
          .bootcountInc .stored, .bootCommand .stored] := by
  obtain ⟨⟨disk, phase⟩, system⟩ := device
  have disarms :=
    @Machine.step_disarm_stored platform { disk with env := disk.env.picked }
      (Spl.start.afterPick disk.env) (Spl.live_afterPick _ _) rfl
  have resets :
      step platform payloads ⟨⟨disk, phase⟩, system⟩ .reset =
        ⟨⟨disk, .spl .start Spl.start⟩, none⟩ :=
    rfl
  have picks :
      step platform payloads ⟨⟨disk, .spl .start Spl.start⟩, none⟩
          (.fsBootPartition .stored) =
        ⟨⟨{ disk with env := disk.env.picked },
          .spl .picked (Spl.start.afterPick disk.env)⟩, none⟩ := by
    simp only [step, Machine.step_pick_stored]
    rfl
  have decides :
      step platform payloads
          ⟨⟨{ disk with env := disk.env.picked },
            .spl .picked (Spl.start.afterPick disk.env)⟩, none⟩
          (.startUboot .stored) =
        decided ⟨⟨disk, phase⟩, system⟩ := by
    simp only [step, disarms]
    rfl
  simp only [after, Machine.boot, Trace.run_cons, resets, picks, decides]

@[simp]
theorem splTree_decided :
    device.decided.machine.splTree = device.pickedTree := by
  show device.machine.disk.boot (slotOfPart (Slot.bootpart _)) = _
  rw [slotOfPart_bootpart]
  rfl

/-- The phase of `decided` with another program counter. -/
def decidedAt (device : Deployed) (pc : SplPc) : Deployed where
  machine :=
    ⟨device.decided.machine.disk,
      .spl pc
        ((Spl.start.afterPick device.machine.disk.env).afterDisarm
          device.machine.disk.env.picked)⟩
  system := none

/-- What the SPL finds decides which of its two payloads is loaded. -/
theorem after_loads :
    device.decided.after platform payloads [.loadOs true, .loadUboot] =
      device.decidedAt
        (if (device.pickedFalcon payloads).isSome then .loaded true
        else if payloads.uboot device.pickedTree then .loaded false
        else .decided false) := by
  have finds (pc : SplPc) :
      (device.decidedAt pc).machine.splTree = device.pickedTree :=
    splTree_decided
  have loadsOs :
      step platform payloads device.decided (.loadOs true) =
        device.decidedAt
          (if (device.pickedFalcon payloads).isSome then .loaded true
          else .decided false) := by
    rw [pickedFalcon, Payloads.isSome_armedFalcon]
    simp only [step, splTree_decided, Bool.true_and]
    rw [decided, Machine.step_loadOs]
    rfl
  have loadsUboot (pc : SplPc) :
      step platform payloads (device.decidedAt pc) .loadUboot =
        if payloads.uboot device.pickedTree then
          (device.decidedAt pc).move
            ((device.decidedAt pc).machine.step platform .loadUboot)
        else device.decidedAt pc := by
    simp only [step, finds]
  simp only [after, Trace.run_cons, Trace.run_nil, loadsOs, loadsUboot]
  split_ifs <;> rfl

theorem after_boot_loaded {pc : SplPc}
    (loads : device.decided.after platform payloads [.loadOs true, .loadUboot] =
      device.decidedAt pc) :
    device.after platform payloads Machine.boot =
      (device.decidedAt pc).after platform payloads
        [.mcoreStage .stored, .leaveSpl, .bootcountInc .stored,
          .bootCommand .stored] := by
  rw [after_boot_eq, ← loads]
  rfl

/-- The SPL finds nothing to load. -/
theorem after_boot_hangs
    (missing : device.pickedFalcon payloads = none)
    (noUboot : payloads.uboot device.pickedTree = false) :
    device.after platform payloads Machine.boot =
      device.decidedAt (.decided false) := by
  have loads :=
    @after_loads platform payloads device
  rw [missing, noUboot] at loads
  rw [after_boot_loaded platform loads]
  rfl

/-- From `falcon.itb` to the kernel. -/
theorem after_loaded_falcon {disk : Disk} {spl : Spl} (live : spl.Live)
    (same : spl.env disk.env = disk.env) (first : spl.mcoreDone = false) :
    let staged :=
      spl.afterStage (Machine.board platform ⟨disk, .spl (.loaded true) spl⟩)
        disk.env
    after platform payloads ⟨⟨disk, .spl (.loaded true) spl⟩, none⟩
        [.mcoreStage .stored, .leaveSpl, .bootcountInc .stored,
          .bootCommand .stored] =
      start payloads payloads.falcon
        ⟨{ disk with env := disk.env.untried },
          .linux ⟨slotOfPart spl.abPart, abFixupFdt staged⟩⟩ := by
  intro staged
  have stages :
      step platform payloads ⟨⟨disk, .spl (.loaded true) spl⟩, none⟩
          (.mcoreStage .stored) =
        ⟨⟨{ disk with env := disk.env.untried },
          .spl (.loaded true) staged⟩, none⟩ := by
    simp only [step, Machine.step_stage_stored live same first]
    rfl
  have leaves :
      step platform payloads
          ⟨⟨{ disk with env := disk.env.untried },
            .spl (.loaded true) staged⟩, none⟩ .leaveSpl =
        start payloads payloads.falcon
          ⟨{ disk with env := disk.env.untried },
            .linux ⟨slotOfPart spl.abPart, abFixupFdt staged⟩⟩ :=
    rfl
  simp only [after, Trace.run_cons, Trace.run_nil]
  rw [stages, leaves, step_start_bootcountInc, step_start_bootCommand]

/-- From `u-boot.itb` to the kernel. -/
theorem after_loaded_proper {disk : Disk} {spl : Spl} (live : spl.Live)
    (same : spl.env disk.env = disk.env) (first : spl.mcoreDone = false) :
    let ram := disk.env.untried
    after platform payloads ⟨⟨disk, .spl (.loaded false) spl⟩, none⟩
        [.mcoreStage .stored, .leaveSpl, .bootcountInc .stored,
          .bootCommand .stored] =
      if ram.bootcountInc.BootcountError then
        start payloads payloads.sysboot
          ⟨{ disk with env := ram.bootcountInc.altbootcmd },
            .linux ⟨ram.bootcountInc.altbootcmd.abBoot, .proper⟩⟩
      else
        start payloads payloads.sysboot
          ⟨{ disk with
              env := if ram.Upgrading then ram.bootcountInc else ram },
            .linux ⟨ram.bootcountInc.abBoot, .proper⟩⟩ := by
  intro ram
  have stages :
      step platform payloads ⟨⟨disk, .spl (.loaded false) spl⟩, none⟩
          (.mcoreStage .stored) =
        ⟨⟨{ disk with env := ram },
          .spl (.loaded false)
            (spl.afterStage
              (Machine.board platform ⟨disk, .spl (.loaded false) spl⟩)
              disk.env)⟩, none⟩ := by
    simp only [step, Machine.step_stage_stored live same first]
    rfl
  have leaves (disk : Disk) (board : Board) (env : Env) :
      step platform payloads
          ⟨⟨disk, .spl (.loaded false) (spl.afterStage board env)⟩, none⟩
          .leaveSpl =
        ⟨⟨disk, .proper false disk.env⟩, none⟩ :=
    rfl
  have counts (disk : Disk) (ram : Env) :
      step platform payloads ⟨⟨disk, .proper false ram⟩, none⟩
          (.bootcountInc .stored) =
        ⟨⟨{ disk with
            env := if ram.Upgrading then ram.bootcountInc else disk.env },
          .proper true ram.bootcountInc⟩, none⟩ :=
    rfl
  have ends (disk : Disk) (ram : Env) :
      step platform payloads ⟨⟨disk, .proper true ram⟩, none⟩
          (.bootCommand .stored) =
        if ram.BootcountError then
          start payloads payloads.sysboot
            ⟨{ disk with env := ram.altbootcmd },
              .linux ⟨ram.altbootcmd.abBoot, .proper⟩⟩
        else
          start payloads payloads.sysboot
            ⟨disk, .linux ⟨ram.abBoot, .proper⟩⟩ := by
    show
      start payloads payloads.sysboot
          (Machine.step platform ⟨disk, .proper true ram⟩
            (.bootCommand .stored)) =
        _
    simp only [Machine.step, KmmYocto.bootCommand, Machine.store,
      envSave_stored]
    split_ifs <;> rfl
  simp only [after, Trace.run_cons, Trace.run_nil]
  rw [stages, leaves, counts, ends]

/-- The SPL starts the kernel of `falcon.itb`. -/
theorem after_boot_falcon
    (found : (device.pickedFalcon payloads).isSome = true) :
    ∃ chosen : Chosen,
      chosen.falcon = true ∧
        chosen.abSlot = some device.machine.pickedSlot ∧
          device.after platform payloads Machine.boot =
            start payloads payloads.falcon
              ⟨{ device.machine.disk with env := device.handedEnv },
                .linux ⟨device.machine.pickedSlot, chosen⟩⟩ := by
  have loads :=
    @after_loads platform payloads device
  rw [if_pos found] at loads
  have slot :
      slotOfPart
          ((Spl.start.afterPick device.machine.disk.env).afterDisarm
            device.machine.disk.env.picked).abPart =
        device.machine.pickedSlot :=
    slotOfPart_bootpart _
  rw [after_boot_loaded platform loads, ← slot]
  exact
    ⟨_, rfl, congrArg some slot.symm,
      after_loaded_falcon platform (Spl.live_afterDisarm _ _) rfl rfl⟩

/-- The SPL starts U-Boot proper. -/
theorem after_boot_proper
    (missing : device.pickedFalcon payloads = none)
    (loaded : payloads.uboot device.pickedTree = true) :
    let disk := device.machine.disk
    let ram := device.handedEnv
    device.after platform payloads Machine.boot =
      if ram.bootcountInc.BootcountError then
        start payloads payloads.sysboot
          ⟨{ disk with env := ram.bootcountInc.altbootcmd },
            .linux ⟨ram.bootcountInc.altbootcmd.abBoot, .proper⟩⟩
      else
        start payloads payloads.sysboot
          ⟨{ disk with
              env := if ram.Upgrading then ram.bootcountInc else ram },
            .linux ⟨ram.bootcountInc.abBoot, .proper⟩⟩ := by
  have loads :=
    @after_loads platform payloads device
  rw [missing, loaded] at loads
  rw [after_boot_loaded platform loads]
  exact
    after_loaded_proper platform (Spl.live_afterDisarm _ _) rfl rfl

end Boots

end Deployed

/-! ## Slots on the bench -/

namespace Bench

/-- The kernel parameters in a text. -/
def words (text : List Char) : Option CommandLine :=
  if single : ∀ param ∈ text.splitOn ' ', ' ' ∉ param ∧ '\n' ∉ param then
    some ⟨text.splitOn ' ', single⟩
  else none

/-- Files that hold the parameters as they are; an empty root stays down. -/
def payloads : Payloads where
  bootargs := words
  loadsUboot itb := itb ≠ []
  sysboot tree := do
    let conf ← BootFiles.file tree "extlinux/extlinux.conf"
    let append ← conf.dropPrefix? "append ".toList
    words append
  comesUp cmdline roots := roots cmdline.running ≠ []

/-- The parameters of falcon-itb.bb. -/
def bootargs (slot : Slot) : List Char :=
  match slot with
  | .a => "root=/dev/mmcblk2p5 rootwait rw console=ttymxc1,115200".toList
  | .b => "root=/dev/mmcblk2p6 rootwait rw console=ttymxc1,115200".toList

def slotLine (slot : Slot) : CommandLine where
  params :=
    [CommandLine.rootParam CommandLine.mmcblk2 slot, "rootwait".toList,
      "rw".toList, "console=ttymxc1,115200".toList]
  single := by cases slot <;> decide +kernel

/-- A boot image. -/
def slotImage : BootTree :=
  [("args", ['0']), ("falcon.itb", bootargs .a), ("falcon-a.itb", bootargs .a),
    ("falcon-b.itb", bootargs .b), ("u-boot.itb", "proper".toList),
    ("extlinux/extlinux.conf", "append ".toList ++ bootargs .a)]

/-- A new eMMC with a system in slot a. -/
def filledDisk : Disk :=
  { disk with
    boot := fun slot => if slot = .a then slotImage else []
    root := fun slot => if slot = .a then rootImage 0 else [] }

/-- A new device. -/
def deployed : Deployed :=
  Deployed.shipped filledDisk Chosen.proper (slotLine .a)

theorem running_slotLine (slot : Slot) : (slotLine slot).running = slot := by
  cases slot <;> decide +kernel

theorem words_bootargs (slot : Slot) :
    words (bootargs slot) = some (slotLine slot) := by
  cases slot <;> rfl

/-- A device whose slot a is empty hangs in the SPL. -/
example :
    payloads.kernel [] true = none ∧
      payloads.kernel slotImage true = some (slotLine .a) :=
  ⟨rfl, words_bootargs .a⟩

end Bench

end KmmYocto
