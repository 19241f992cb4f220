import KmmYocto.AbLinux
import KmmYocto.AbMcore
import KmmYocto.UBootProper
import KmmYocto.Sha256
import KmmYocto.Trace

/-!
# The device as a state machine

A device is its persistent state and the program that is running: the SPL,
U-Boot proper or a booted Linux.  A step is one call of the SPL, one part of
U-Boot proper, one `ab` command under its lock, one run of falcon-rearm, or a
reset, which stands for a reboot, a crash and a power cut and is possible at
any point.  A power cut during an `env_save` keeps the old block, so it is a
reset in place of the call.

The SPL calls `spl_mmc_fs_boot_partition`, then `spl_start_uboot`, then loads
falcon.itb or u-boot.itb from the chosen partition, stages the M-core firmware
and jumps; the partition may be asked for any number of times.  Steps that
are not possible change nothing.

What the slots hold is not looked at: the payload of the chosen slot is taken
to load, and Linux to run from it.  `SlotContents` puts that right where it
matters.
-/

namespace KmmYocto

/-- How far the SPL has come with loading a payload. -/
inductive SplPc where
  | start
  | picked
  /-- `spl_start_uboot` has answered; `falcon` is its answer 0. -/
  | decided (falcon : Bool)
  /-- falcon.itb, or else u-boot.itb, is loaded. -/
  | loaded (falcon : Bool)
deriving DecidableEq, Repr

/-- A first answer that is a partition lets the SPL go on. -/
def SplPc.afterAnswer (pc : SplPc) (answer : Int) : SplPc :=
  if pc = .start ∧ 0 < answer then .picked else pc

theorem SplPc.start_afterAnswer {answer : Int} (partition : 0 < answer) :
    SplPc.start.afterAnswer answer = .picked :=
  if_pos ⟨rfl, partition⟩

theorem SplPc.afterAnswer_of_ne {pc : SplPc} (started : pc ≠ .start)
    (answer : Int) : pc.afterAnswer answer = pc :=
  if_neg fun both => started both.1

/-- The running program. -/
inductive Phase where
  | spl (pc : SplPc) (spl : Spl)
  /-- U-Boot proper with its copy of the environment. -/
  | proper (counted : Bool) (ram : Env)
  | linux (boot : LinuxBoot)

/-- A device. -/
structure Machine where
  disk : Disk
  phase : Phase

/-- The `ab` commands that touch the environment, the slots or p3. -/
inductive AbCommand where
  | linuxTryBegin
  | linuxTryRoot (arguments : Option (Nat × String)) (stream : Ab.Stream)
  | linuxTryBoot (image : Option BootTree) (key : Option (List Char))
  | linuxTryArm (noReboot : Bool)
  | linuxCommit (force : Bool)
  | linuxRollback (noReboot : Bool)
  | mcoreUpdate (file : Option (List UInt8)) (noReboot : Bool)
  | mcoreRollback (noReboot : Bool)
  | mcoreConfirm (healthy : Bool)

/-- One step of the device. -/
inductive Act where
  | reset
  | fsBootPartition (save : Save)
  | startUboot (save : Save)
  /-- Load falcon.itb, if it is there. -/
  | loadOs (found : Bool)
  | loadUboot
  | mcoreStage (save : Save)
  | leaveSpl
  | bootcountInc (save : Save)
  | bootCommand (save : Save)
  | ab (command : AbCommand) (ctx : Ctx)
  /-- `fw_setenv boot_os yes`, completed or not. -/
  | falconRearm (completed : Bool)

/-- The slot of a BOOT partition number. -/
def slotOfPart (part : Int) : Slot :=
  if part = 2 then .b else .a

@[simp]
theorem slotOfPart_bootpart (slot : Slot) :
    slotOfPart slot.bootpart = slot := by
  cases slot <;> rfl

/-- The script a command runs. -/
def AbCommand.script (platform : Platform) (ctx : Ctx) (boot : LinuxBoot) :
    AbCommand → Ab PUnit
  | .linuxTryBegin => do
      let _ ← Ab.linuxTryBegin platform ctx boot
  | .linuxTryRoot arguments stream =>
      Ab.linuxTryRoot platform ctx arguments stream
  | .linuxTryBoot image key => Ab.linuxTryBoot platform ctx image key
  | .linuxTryArm noReboot => Ab.linuxTryArm ctx boot noReboot
  | .linuxCommit force => Ab.linuxCommit ctx boot force
  | .linuxRollback noReboot => Ab.linuxRollback ctx boot noReboot
  | .mcoreUpdate file noReboot => Ab.mcoreUpdate platform ctx file noReboot
  | .mcoreRollback noReboot => Ab.mcoreRollback platform ctx noReboot
  | .mcoreConfirm healthy => Ab.mcoreConfirm ctx boot healthy

namespace Machine

/-- The board as the SPL finds it; the environment store works. -/
def board (platform : Platform) (machine : Machine) : Board where
  envInit := true
  envValid := true
  defaultEnv := platform.defaultEnv
  mbr := machine.disk.mbr
  logical := platform.logical
  mcorePart := platform.mcorePart
  mcoreFile := machine.disk.mcore
  crc32 := platform.crc32

@[simp]
theorem board_loaded (platform : Platform) (machine : Machine)
    (stored : Env) : (machine.board platform).loaded stored = stored :=
  rfl

/-- Store an environment block. -/
def store (machine : Machine) (env : Env) : Disk :=
  { machine.disk with env }

/-- A command run on the device: its result and the session it ends in. -/
def runAb (platform : Platform) (machine : Machine) (boot : LinuxBoot)
    (command : AbCommand) (ctx : Ctx) :
    Except String PUnit × Session Disk Write :=
  Script.exec (command.script platform ctx boot) machine.disk

/-- The next state of the device. -/
def step (platform : Platform) (machine : Machine) : Act → Machine
  | .reset => { machine with phase := .spl .start Spl.start }
  | .fsBootPartition save =>
      match machine.phase with
      | .spl pc spl =>
          let result :=
            splMmcFsBootPartition (machine.board platform) save
              machine.disk.env spl
          ⟨machine.store result.stored,
            .spl (pc.afterAnswer result.value) result.spl⟩
      | _ => machine
  | .startUboot save =>
      match machine.phase with
      | .spl .picked spl =>
          let result :=
            splStartUboot (machine.board platform) save machine.disk.env spl
          ⟨machine.store result.stored,
            .spl (.decided (result.value = 0)) result.spl⟩
      | _ => machine
  | .loadOs found =>
      match machine.phase with
      | .spl (.decided true) spl =>
          let pc := if found then SplPc.loaded true else .decided false
          { machine with phase := .spl pc spl }
      | _ => machine
  | .loadUboot =>
      match machine.phase with
      | .spl (.decided false) spl =>
          { machine with phase := .spl (.loaded false) spl }
      | _ => machine
  | .mcoreStage save =>
      match machine.phase with
      | .spl (.loaded falcon) spl =>
          let result :=
            splMcoreStage (machine.board platform) save machine.disk.env spl
          ⟨machine.store result.stored, .spl (.loaded falcon) result.spl⟩
      | _ => machine
  | .leaveSpl =>
      match machine.phase with
      | .spl (.loaded falcon) spl =>
          if spl.mcoreDone then
            if falcon then
              let boot : LinuxBoot := ⟨slotOfPart spl.abPart, abFixupFdt spl⟩
              { machine with phase := .linux boot }
            else { machine with phase := .proper false machine.disk.env }
          else machine
      | _ => machine
  | .bootcountInc save =>
      match machine.phase with
      | .proper false ram =>
          let result := KmmYocto.bootcountInc save ram machine.disk.env
          ⟨machine.store result.2, .proper true result.1⟩
      | _ => machine
  | .bootCommand save =>
      match machine.phase with
      | .proper true ram =>
          let result := KmmYocto.bootCommand save ram machine.disk.env
          ⟨machine.store result.2, .linux ⟨result.1, Chosen.proper⟩⟩
      | _ => machine
  | .ab command ctx =>
      match machine.phase with
      | .linux boot =>
          let session := (machine.runAb platform boot command ctx).2
          ⟨session.store,
            if session.rebooting then .spl .start Spl.start else .linux boot⟩
      | _ => machine
  | .falconRearm completed =>
      match machine.phase with
      | .linux boot =>
          if completed then
            ⟨machine.store (machine.disk.env.set .bootOs "yes"), .linux boot⟩
          else machine
      | _ => machine

/-- The device after a run. -/
abbrev after (platform : Platform) (machine : Machine) (acts : List Act) :
    Machine :=
  Trace.run (step platform) machine acts

/-- The environment the running program works on. -/
def workEnv (machine : Machine) : Env :=
  match machine.phase with
  | .spl _ spl => spl.env machine.disk.env
  | .proper _ ram => ram
  | .linux _ => machine.disk.env

end Machine

/-! ## A device on the bench -/

namespace Bench

/-- An MBR with two BOOT entries, the slot's one flagged bootable. -/
def mbr (slot : Slot) : Mbr where
  bytes :=
    List.replicate 446 0 ++
      [if slot = .a then 0x80 else 0, 0, 0, 0, 0x0c] ++
      List.replicate 11 0 ++
      [if slot = .a then 0 else 0x80, 0, 0, 0, 0x0c] ++
      List.replicate 43 0 ++ [0x55, 0xaa]
  size := by
    simp only [List.length_append, List.length_replicate, List.length_cons,
      List.length_nil]

theorem mbr_onlyFlagged (slot : Slot) : (mbr slot).OnlyFlagged slot := by
  cases slot <;> exact ⟨⟨by decide, by decide⟩, by decide⟩

/-- A new eMMC. -/
def disk : Disk where
  env := shippedEnv
  mbr := mbr .a
  linuxTry := none
  boot _ := []
  root _ := []
  mcore _ := none

def health : Health where
  systemState := "running"
  rearmUnit := true
  rearmResult := "success"
  failedUnits := 0
  orderingCycles := 0
  westonActive := true
  kmmActive := true
  dataReady := true
  bootReady := true

/-- The next `bits` steps of a reflected CRC with the polynomial of CRC32. -/
def crcBits (crc : Nat) : Nat → Nat
  | 0 => crc
  | bits + 1 =>
      crcBits (if crc % 2 = 1 then crc / 2 ^^^ 0xedb88320 else crc / 2) bits

/-- CRC32, bit by bit. -/
def crc32 (bytes : List UInt8) : Nat :=
  bytes.foldl (fun crc byte => crcBits (crc ^^^ byte.toNat) 8) 0xffffffff ^^^
    0xffffffff

example : crc32 [0x31, 0x32, 0x33] = 0x884863d2 := by decide +kernel

theorem crcBits_lt {crc : Nat} (fits : crc < 2 ^ 32) (bits : Nat) :
    crcBits crc bits < 2 ^ 32 := by
  induction bits generalizing crc with
  | zero => exact fits
  | succ bits induction =>
      rw [crcBits]
      apply induction
      have half : crc / 2 < 2 ^ 32 := by omega
      split_ifs
      · exact Nat.xor_lt_two_pow half (by decide)
      · exact half

/-- The checksum has 32 bits. -/
theorem crc32_lt (bytes : List UInt8) : crc32 bytes < 2 ^ 32 := by
  have folded : ∀ crc < 2 ^ 32,
      bytes.foldl (fun crc byte => crcBits (crc ^^^ byte.toNat) 8) crc <
        2 ^ 32 := by
    induction bytes with
    | nil => exact fun crc fits => fits
    | cons byte rest induction =>
        intro crc fits
        have small : byte.toNat < 2 ^ 32 :=
          byte.toNat_lt.trans (by decide)
        exact induction _ (crcBits_lt (Nat.xor_lt_two_pow fits small) 8)
  exact Nat.xor_lt_two_pow (folded _ (by decide)) (by decide)

/-- An M-core file of version 1 with four bytes of payload. -/
def firmware (payload : UInt8) : List UInt8 :=
  let bytes := List.replicate 4 payload
  let crc := crc32 bytes
  [0x4d, 0x37, 0x46, 0x57, 4, 0, 0, 0,
    (crc % 2 ^ 8).toUInt8, (crc / 2 ^ 8 % 2 ^ 8).toUInt8,
    (crc / 2 ^ 16 % 2 ^ 8).toUInt8, (crc / 2 ^ 24).toUInt8,
    1, 0, 0, 0] ++ bytes

/-- A root image of one sector; byte 1080 is past its end. -/
def rootImage (byte : UInt8) : List UInt8 :=
  List.replicate 512 byte

def platform : Platform where
  baseDev := "/dev/mmcblk2"
  defaultEnv := ⟨fun _ => none⟩
  logical _ := none
  mcorePart := true
  crc32 := crc32
  sha256 := Sha256.hexDigest
  mcoreMagic := McoreImage.m7Magic
  rootCapacity _ := 4096

/-- A running system in which everything works. -/
def ctx : Ctx where
  lockFree := true
  fwSetenvOk := true
  mbrWriteOk := true
  mounted _ := false
  mountable _ := true
  tailscaleState := "running"
  splIsAb := true
  health := health
  readRoot := id
  readBoot := id
  readMcore := id

/-- One boot by falcon, every save stored. -/
def falconBoot : List Act :=
  [.reset, .fsBootPartition .stored, .startUboot .stored, .loadOs true,
    .mcoreStage .stored, .leaveSpl]

end Bench

end KmmYocto
