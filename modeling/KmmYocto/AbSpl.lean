import KmmYocto.Script
import Mathlib

/-!
# `ab spl`

The eMMC holds two raw copies of the SPL.  The boot ROM boots copy A if its
first sector holds a valid IVT and copy B otherwise.  A copy is written so
that its IVT is invalid until the body is in place.

The medium is the eMMC by sectors, and a write is one sector, in program
order.  `devmem` is what the ROM left in memory for `spl_active_copy`.
-/

namespace KmmYocto

/-- A sector of 512 bytes. -/
abbrev Sector := Vector UInt8 512

/-- `d1????41`: the tag and the version of an IVT. -/
def Sector.IvtValid (sector : Sector) : Prop :=
  sector[0] = 0xd1 ∧ sector[3] = 0x41

instance (sector : Sector) : Decidable sector.IvtValid :=
  inferInstanceAs (Decidable (_ ∧ _))

def Sector.zero : Sector :=
  Vector.replicate 512 0

theorem Sector.not_ivtValid_zero : ¬ zero.IvtValid := by
  simp [zero, IvtValid]

/-- The eMMC by sectors. -/
abbrev Emmc := Nat → Sector

instance : Medium Emmc (Nat × Sector) where
  apply emmc write := Function.update emmc write.1 write.2

/-- A command, or a part of one, of `ab spl`. -/
abbrev AbSpl (α : Type) := Script Emmc (Nat × Sector) α

inductive SplCopy where
  | a
  | b
deriving DecidableEq, Repr

def SplCopy.other : SplCopy → SplCopy
  | .a => .b
  | .b => .a

/-- `A_SECTOR`, `B_SECTOR` and `AREA_SECTORS`; the recipe fills them in. -/
structure SplLayout where
  aSector : Nat
  bSector : Nat
  areaSectors : Nat
  nonempty : 0 < areaSectors
  disjoint : aSector + areaSectors ≤ bSector

namespace SplLayout

def imx8mpDebix : SplLayout :=
  ⟨64, 8192, 6144, by decide, by decide⟩

def mx8mmGenericBsp : SplLayout :=
  ⟨66, 4162, 4030, by decide, by decide⟩

/-- `spl_sector`. -/
def sector (layout : SplLayout) : SplCopy → Nat
  | .a => layout.aSector
  | .b => layout.bSector

end SplLayout

namespace AbSpl

/-! ## Which copy the ROM booted -/

/-- The event log of the ROM, from entry `i`, as far as 128 entries. -/
def scanLog (devmem : Nat → Nat) (ptr : Nat) :
    Nat → Nat → Option SplCopy → Option SplCopy
  | 0, _, active => active
  | left + 1, i, active =>
      let value := devmem (ptr + i * 4)
      let kind := value / 2 ^ 24
      if ¬ i < 128 ∨ value = 0 then active
      else if kind ∈ [0x80, 0x81, 0x82, 0x8f, 0x90, 0x91, 0x9f] then
        scanLog devmem ptr left (i + 2) active
      else if kind ∈ [0xa0, 0xc0] then
        scanLog devmem ptr left (i + 3) active
      else if kind = 0x50 then scanLog devmem ptr left (i + 1) (some .a)
      else if kind = 0x51 then scanLog devmem ptr left (i + 1) (some .b)
      else scanLog devmem ptr left (i + 1) active

/-- `spl_active_copy`. -/
def splActiveCopy (devmem : Nat → Nat) : SplCopy :=
  let ptr := devmem 0x9e0
  let active :=
    if 0x00900000 ≤ ptr ∧ ptr < 0x00b00000 ∧ ptr % 4 = 0 then
      scanLog devmem ptr 128 0 none
    else none
  match active with
  | some copy => copy
  | none => if devmem 0x30390098 &&& 0x40000000 ≠ 0 then .b else .a

/-! ## Reading and writing sectors -/

/-- `dd` from the eMMC. -/
def readSectors (emmc : Emmc) : Nat → Nat → List Sector
  | _, 0 => []
  | start, count + 1 => emmc start :: readSectors emmc (start + 1) count

/-- `dd` to the eMMC. -/
def writeSectors : Nat → List Sector → AbSpl PUnit
  | _, [] => pure PUnit.unit
  | start, sector :: rest => do
      Script.persist (start, sector)
      writeSectors (start + 1) rest

/-- Sector `i` of a file that is padded with zeros. -/
def sectorAt (file : List UInt8) (i : Nat) : Sector :=
  Vector.ofFn fun offset => file.getD (512 * i + offset.val) 0

/-- Sectors of a padded file. -/
def sectorsFrom (file : List UInt8) : Nat → Nat → List Sector
  | _, 0 => []
  | i, count + 1 => sectorAt file i :: sectorsFrom file (i + 1) count

/-- How many sectors a file takes. -/
def sectorCount (file : List UInt8) : Nat :=
  (file.length + 511) / 512

/-- `spl_copy`. -/
def splCopy (layout : SplLayout) (copy : SplCopy) (emmc : Emmc) :
    List Sector :=
  readSectors emmc (layout.sector copy) layout.areaSectors

/-- The first sector of what was read holds a valid IVT. -/
def StartsWithIvt : List Sector → Prop
  | [] => False
  | header :: _ => header.IvtValid

instance (sectors : List Sector) : Decidable (StartsWithIvt sectors) :=
  match sectors with
  | [] => .isFalse not_false
  | header :: _ => inferInstanceAs (Decidable header.IvtValid)

/-- A file that starts with a valid IVT. -/
def FileIvtValid (file : List UInt8) : Prop :=
  file.getD 0 0 = 0xd1 ∧ file.getD 3 0 = 0x41

instance (file : List UInt8) : Decidable (FileIvtValid file) :=
  inferInstanceAs (Decidable (_ ∧ _))

/-! ## The commands -/

/-- `spl_write_header_last`. -/
def splWriteHeaderLast (dst : Nat) (src : List Sector) (cnt : Nat) :
    AbSpl PUnit := do
  Script.persist (dst, Sector.zero)
  writeSectors (dst + 1) ((src.drop 1).take (cnt - 1))
  writeSectors dst (src.take 1)
  let emmc ← Script.read
  Script.require (readSectors emmc dst cnt = src)
    s!"ab: セクタ {dst} からの読み戻しが一致しない"

/-- `maybe_reboot`. -/
def maybeReboot (noReboot : Bool) : AbSpl PUnit :=
  if noReboot = true then pure PUnit.unit else Script.reboot

/-- Step 1/2 of `spl_update`: the copy A that was read goes to B. -/
def keepRunning (layout : SplLayout) (src : List Sector) : AbSpl PUnit :=
  if StartsWithIvt src then
    splWriteHeaderLast layout.bSector src layout.areaSectors
  else
    -- A is broken: B stays as it is
    pure PUnit.unit

/-- `spl_update <flash.bin>`; there may be no such file. -/
def splUpdate (layout : SplLayout) (devmem : Nat → Nat) (lockFree : Bool)
    (path : String) (file : Option (List UInt8)) (noReboot : Bool) :
    AbSpl PUnit := do
  match file with
  | none => Script.die "ab: 使い方: ab spl update <flash.bin>"
  | some new => do
      let size := new.length
      Script.require (size ≤ layout.areaSectors * 512)
        s!"ab: {path} ({size}B) がコピー領域より大きい"
      Script.require (FileIvtValid new) s!"ab: {path} の先頭に正しい IVT が無い"
      Script.require (splActiveCopy devmem = .a)
        "ab: B コピーで起動中 (A が壊れて ROM が切り替えた)。起動時の自動修復の後に再起動してから実行する"
      Script.require (lockFree = true) "ab: 別の ab の操作が実行中"
      let emmc ← Script.read
      keepRunning layout (splCopy layout .a emmc)
      splWriteHeaderLast layout.aSector (sectorsFrom new 0 (sectorCount new))
        (sectorCount new)
      maybeReboot noReboot

/-- `spl_rollback`. -/
def splRollback (layout : SplLayout) (lockFree noReboot : Bool) :
    AbSpl PUnit := do
  Script.require (lockFree = true) "ab: 別の ab の操作が実行中"
  let emmc ← Script.read
  let src := splCopy layout .b emmc
  Script.require (StartsWithIvt src) "ab: B に正しい IVT が無く、戻す先が無い"
  if splCopy layout .a emmc = src then
    pure PUnit.unit
  else do
    splWriteHeaderLast layout.aSector src layout.areaSectors
    maybeReboot noReboot

/-- `spl_selfheal`. -/
def splSelfheal (layout : SplLayout) (devmem : Nat → Nat)
    (lockFree : Bool) : AbSpl PUnit :=
  if splActiveCopy devmem = .b then splRollback layout lockFree true
  else pure PUnit.unit

end AbSpl

end KmmYocto
