import KmmYocto.SplBoot
import KmmYocto.Script

/-!
# What the `ab` command reads and writes

The persistent state of the device as the `ab` command sees it: the U-Boot
environment, the MBR, the file `/data/ab/linux-try` on the data partition
that both slots share, the BOOT and root partitions, and the M-core files on
p3.  A command is a `Script` on this state.

`Ctx` holds what a command finds in the running system, among it whether the
lock is free, and whether the writes to the environment and to the MBR take
effect.  The lines MCORE and DATE of `linux-try` are left out: no command
reads them.
-/

namespace KmmYocto

/-- `/data/ab/linux-try`. -/
structure LinuxTry where
  fromSlot : Slot
  toSlot : Slot
  tailscale : String
deriving DecidableEq, Repr

/-- The files of a BOOT partition, path and content. -/
abbrev BootTree := List (String × List Char)

/-- The persistent state of the device. -/
structure Disk where
  env : Env
  mbr : Mbr
  linuxTry : Option LinuxTry
  boot : Slot → BootTree
  root : Slot → List UInt8
  /-- `mcore-a.img` and `mcore-b.img`. -/
  mcore : Slot → Option (List UInt8)

/-- One persistent write. -/
inductive Write where
  | env (env : Env)
  | mbr (mbr : Mbr)
  | linuxTry (file : Option LinuxTry)
  | boot (slot : Slot) (tree : BootTree)
  | root (slot : Slot) (bytes : List UInt8)
  | mcore (slot : Slot) (file : List UInt8)

/-- The effect of one persistent write. -/
def Disk.apply (disk : Disk) : Write → Disk
  | .env env => { disk with env }
  | .mbr mbr => { disk with mbr }
  | .linuxTry file => { disk with linuxTry := file }
  | .boot slot tree =>
      { disk with boot := Function.update disk.boot slot tree }
  | .root slot bytes =>
      { disk with root := Function.update disk.root slot bytes }
  | .mcore slot file =>
      { disk with mcore := Function.update disk.mcore slot (some file) }

instance : Medium Disk Write where
  apply := Disk.apply

/-- A command, or a part of one, of the `ab` script. -/
abbrev Ab (α : Type) := Script Disk Write α

/-- What is the same on every boot of one device. -/
structure Platform where
  /-- `BASE_DEV`. -/
  baseDev : String
  /-- What `env_load()` installs when neither copy is valid. -/
  defaultEnv : Env
  /-- Logical partitions, as U-Boot's `part_get_info` reports them. -/
  logical : Nat → Option Bool
  /-- The M-core partition p3 exists. -/
  mcorePart : Bool
  crc32 : List UInt8 → Nat
  sha256 : List UInt8 → String
  /-- `MCORE_MAGIC`. -/
  mcoreMagic : Nat
  /-- Size of a root partition in bytes. -/
  rootCapacity : Slot → Nat

/-- A booted Linux: the slot `RUNNING` and what the kernel was told. -/
structure LinuxBoot where
  running : Slot
  chosen : Chosen

/-- What `linux_checks` looks at, apart from `/chosen` and the environment. -/
structure Health where
  /-- `systemctl is-system-running`, after waiting. -/
  systemState : String
  /-- `falcon-rearm.service` is installed. -/
  rearmUnit : Bool
  rearmResult : String
  failedUnits : Nat
  orderingCycles : Nat
  westonActive : Bool
  kmmActive : Bool
  /-- `/data` is mounted and holds `kmm.env`. -/
  dataReady : Bool
  /-- `/boot` is mounted and the running kernel's modules are there. -/
  bootReady : Bool

/-- What a command finds in the running system. -/
structure Ctx where
  /-- `flock -n` gets the lock. -/
  lockFree : Bool
  /-- `fw_setenv` stores what it is given; otherwise it fails and stores nothing. -/
  fwSetenvOk : Bool
  /-- The MBR sector can be written; otherwise it keeps its content. -/
  mbrWriteOk : Bool
  /-- `/proc/mounts` has a line for the partition. -/
  mounted : Nat → Bool
  /-- The slot's BOOT partition can be mounted. -/
  mountable : Slot → Bool
  tailscaleState : String
  /-- The running SPL carries `SPL_MARKER`. -/
  splIsAb : Bool
  health : Health
  /-- What the medium gives back for what was written. -/
  readRoot : List UInt8 → List UInt8
  readBoot : BootTree → BootTree
  readMcore : List UInt8 → List UInt8

namespace Ab

/-- `lock`. -/
def lock (ctx : Ctx) : Ab PUnit :=
  Script.require (ctx.lockFree = true) "ab: 別の ab の操作が実行中"

/-- `envget`. -/
def envget (name : EnvVar) : Ab String := do
  let disk ← Script.read
  return disk.env.envget name

/-- The read-back of `envset`. -/
def envVerify : List (EnvVar × String) → Ab PUnit
  | [] => pure PUnit.unit
  | (name, value) :: rest => do
      let stored ← envget name
      let key := name.key
      Script.require (stored = value) s!"ab: env の読み戻しが一致しない ({key})"
      envVerify rest

/-- `envset`: write several variables at once and read them back. -/
def envset (ctx : Ctx) (assignments : List (EnvVar × String)) :
    Ab PUnit := do
  Script.require (ctx.fwSetenvOk = true) "ab: fw_setenv に失敗"
  let disk ← Script.read
  Script.persist (.env (disk.env.setAll assignments))
  envVerify assignments

/-- `mbr_bootable`. -/
def mbrBootable (mbr : Mbr) : String :=
  if mbr.byte 446 = 0x80 then "a"
  else if mbr.byte 462 = 0x80 then "b"
  else "none"

/-- The sector `mbr_set` puts together from the pieces it cuts with `dd`. -/
def mbrFlagged (mbr : Mbr) (slot : String) : List UInt8 :=
  let pre := mbr.bytes.take 446
  let mid := (mbr.bytes.drop 447).take 15
  let post := (mbr.bytes.drop 463).take 49
  let flag1 : UInt8 := if slot = "a" then 0x80 else 0
  let flag2 : UInt8 := if slot = "a" then 0 else 0x80
  pre ++ [flag1] ++ mid ++ [flag2] ++ post

theorem mbrFlagged_length (mbr : Mbr) (slot : String) :
    (mbrFlagged mbr slot).length = 512 := by
  simp [mbrFlagged, mbr.size]

/-- `mbr_set`.  The assembled sector always has 512 bytes. -/
def mbrSet (ctx : Ctx) (slot : String) : Ab PUnit := do
  let disk ← Script.read
  if mbrBootable disk.mbr = slot then
    pure PUnit.unit
  else do
    let new : Mbr := ⟨mbrFlagged disk.mbr slot, mbrFlagged_length _ _⟩
    if ctx.mbrWriteOk = true then
      Script.persist (.mbr new)
    else
      pure PUnit.unit
    let after ← Script.read
    Script.require (after.mbr.bytes = new.bytes)
      "ab: MBR の bootable フラグの読み戻しが一致しない"

/-- `maybe_reboot`. -/
def maybeReboot (noReboot : Bool) : Ab PUnit :=
  if noReboot = true then pure PUnit.unit else Script.reboot

/-- `try_target`. -/
def tryTarget : Ab (Option Slot) := do
  let disk ← Script.read
  return disk.linuxTry.map LinuxTry.toSlot

end Ab

end KmmYocto
