import KmmYocto.Env

/-!
# The MBR and its boot flags

The A/B flag of the MBR is the boot indicator byte of the entries p1 (byte
446) and p2 (byte 462).  The `ab` command reads and rewrites these two bytes
in the raw sector; the SPL reads them through U-Boot's MS-DOS partition code,
which lists an entry only when its type is set and its indicator is 0x00 or
0x80.
-/

namespace KmmYocto

/-- The first sector of the eMMC. -/
structure Mbr where
  bytes : List UInt8
  size : bytes.length = 512

namespace Mbr

/-- One byte of the sector. -/
def byte (mbr : Mbr) (offset : Nat) : UInt8 :=
  mbr.bytes.getD offset 0

/-- Boot indicator of primary entry `part` (1 to 4). -/
def bootIndicator (mbr : Mbr) (part : Nat) : UInt8 :=
  mbr.byte (446 + 16 * (part - 1))

/-- Type of primary entry `part` (1 to 4). -/
def systemType (mbr : Mbr) (part : Nat) : UInt8 :=
  mbr.byte (446 + 16 * (part - 1) + 4)

/--
`part_get_info` for a primary entry: `none` when U-Boot reports no such
partition, otherwise whether the entry is bootable.
-/
def primaryInfo (mbr : Mbr) (part : Nat) : Option Bool :=
  if mbr.bootIndicator part &&& 0x7f = 0 ∧ mbr.systemType part ≠ 0 then
    some (mbr.bootIndicator part = 0x80)
  else none

/-- `part_get_info`: p1 to p4 from the sector, the rest from the logical chain. -/
def partGetInfo (mbr : Mbr) (logical : Nat → Option Bool)
    (part : Nat) : Option Bool :=
  if part ≤ 4 then mbr.primaryInfo part else logical part

/-- `DOS_ENTRY_NUMBERS` of U-Boot. -/
def dosEntryNumbers : Nat := 8

/-- `-ENOENT`. -/
def enoent : Int := -2

/-- `spl_mmc_first_bootable_partition`: the first entry flagged bootable. -/
def splMmcFirstBootablePartition (mbr : Mbr)
    (logical : Nat → Option Bool) : Int :=
  match (List.range' 1 dosEntryNumbers).find?
      (fun part => mbr.partGetInfo logical part = some true) with
  | some part => part
  | none => enoent

/-- The slot's BOOT entry exists and carries the boot flag. -/
def Flagged (mbr : Mbr) (slot : Slot) : Prop :=
  mbr.bootIndicator slot.bootpart = 0x80 ∧
    mbr.systemType slot.bootpart ≠ 0

/-- Exactly one of p1 and p2 is flagged: the slot's entry, not the other. -/
structure OnlyFlagged (mbr : Mbr) (slot : Slot) : Prop where
  flagged : mbr.Flagged slot
  other : mbr.bootIndicator slot.other.bootpart ≠ 0x80

theorem primaryInfo_of_flagged {mbr : Mbr} {slot : Slot}
    (flagged : mbr.Flagged slot) :
    mbr.primaryInfo slot.bootpart = some true := by
  obtain ⟨indicator, type⟩ := flagged
  simp only [primaryInfo, indicator, decide_true]
  exact if_pos ⟨by decide, type⟩

theorem primaryInfo_of_not_flag {mbr : Mbr} {part : Nat}
    (indicator : mbr.bootIndicator part ≠ 0x80) :
    mbr.primaryInfo part ≠ some true := by
  simp only [primaryInfo]
  split <;> simp [indicator]

/-- With exactly one BOOT entry flagged, the scan stops at that entry. -/
theorem splMmcFirstBootablePartition_of_onlyFlagged
    {mbr : Mbr} {slot : Slot} (only : mbr.OnlyFlagged slot)
    (logical : Nat → Option Bool) :
    mbr.splMmcFirstBootablePartition logical = slot.bootpart := by
  have chosen := primaryInfo_of_flagged only.flagged
  have skipped := primaryInfo_of_not_flag only.other
  cases slot with
  | a =>
      simp_all [splMmcFirstBootablePartition, dosEntryNumbers, partGetInfo,
        Slot.bootpart, List.range']
  | b =>
      simp_all [splMmcFirstBootablePartition, dosEntryNumbers, partGetInfo,
        Slot.bootpart, Slot.other, List.range']

end Mbr

end KmmYocto
