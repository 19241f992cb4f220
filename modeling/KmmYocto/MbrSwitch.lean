import KmmYocto.SwitchOutcome

/-!
# The flag alone

`mbr_set` cuts the first sector into pieces and puts it together again around
two new bytes, unless the slot is flagged already.  Either way the rest of
the sector, with the partition table in it, stays as it was.
-/

namespace KmmYocto

namespace Mbr

/-- The pieces put together are the sector with two bytes replaced. -/
theorem bytes_flagged (mbr : Mbr) (slot : String) :
    (mbr.flagged slot).bytes =
      (mbr.bytes.set 462 (if slot = "a" then 0 else 0x80)).set 446
        (if slot = "a" then 0x80 else 0) := by
  have post : (mbr.bytes.drop 463).take 49 = mbr.bytes.drop 463 := by
    rw [List.take_of_length_le]
    simp [mbr.size]
  have mid : ∀ flag : UInt8,
      (mbr.bytes.set 462 flag).drop 447 =
        (mbr.bytes.drop 447).take 15 ++ flag :: mbr.bytes.drop 463 := by
    intro flag
    rw [List.drop_set, if_neg (by decide), List.set_eq_take_append_cons_drop,
      if_pos (by simp [mbr.size]), List.drop_drop]
  rw [List.set_eq_take_append_cons_drop, if_pos (by simp [mbr.size]), mid,
    List.take_set_of_le (by decide)]
  simp only [flagged, Ab.mbrFlagged, post, List.append_assoc,
    List.cons_append, List.nil_append]

/-- No other byte changes. -/
theorem byte_flagged_of_ne (mbr : Mbr) (slot : String) {offset : Nat}
    (first : offset ≠ 446) (second : offset ≠ 462) :
    (mbr.flagged slot).byte offset = mbr.byte offset := by
  rw [byte, bytes_flagged, List.getD_eq_getElem?_getD,
    List.getElem?_set_ne first.symm, List.getElem?_set_ne second.symm,
    ← List.getD_eq_getElem?_getD, byte]

end Mbr

namespace Ab

/-- What a successful `mbr_set` leaves, for both readers of the flag. -/
structure MbrSwitched (slot : Slot) (disk : Disk)
    (ended : Session Disk Write) : Prop where
  /-- Nothing but the sector was written, and it at most once. -/
  writes : ended.writes = [] ∨ ended.writes = [.mbr ended.store.mbr]
  store : ended.store = { disk with mbr := ended.store.mbr }
  bytes :
    ∀ offset, offset ≠ 446 → offset ≠ 462 →
      ended.store.mbr.byte offset = disk.mbr.byte offset
  script : mbrBootable ended.store.mbr = slot.name
  spl :
    ∀ logical,
      ended.store.mbr.splMmcFirstBootablePartition logical = slot.bootpart
  again :
    ∀ ctx : Ctx,
      Script.exec (mbrSet ctx slot.name) ended.store =
        (.ok PUnit.unit, ⟨ended.store, [], false⟩)

/-- A slot that is flagged is not flagged again. -/
theorem exec_mbrSet_of_mbrBootable {slot : String} {disk : Disk}
    (already : mbrBootable disk.mbr = slot) (ctx : Ctx) :
    Script.exec (mbrSet ctx slot) disk =
      (.ok PUnit.unit, ⟨disk, [], false⟩) := by
  have ends :
      Script.Ends (mbrSet ctx slot) ⟨disk, [], false⟩ fun result ended =>
        (result, ended) = (.ok PUnit.unit, ⟨disk, [], false⟩) := by
    rw [ends_mbrSet_iff, if_pos already]
  exact ends

/-- A successful `mbr_set` changes the flags and nothing else. -/
theorem mbrSwitched_mbrSet (ctx : Ctx) (slot : Slot) (disk : Disk)
    (present : ∀ each : Slot, disk.mbr.systemType each.bootpart ≠ 0)
    (succeeds :
      (Script.exec (mbrSet ctx slot.name) disk).1 = .ok PUnit.unit) :
    MbrSwitched slot disk (Script.exec (mbrSet ctx slot.name) disk).2 := by
  have ends :
      Script.Ends (mbrSet ctx slot.name) ⟨disk, [], false⟩
        fun result ended =>
          result = .ok PUnit.unit → MbrSwitched slot disk ended := by
    rw [ends_mbrSet_slot]
    split_ifs with already writable
    · intro _
      exact
        { writes := .inl rfl
          store := rfl
          bytes := fun _ _ _ => rfl
          script := already
          spl :=
            LinuxSwitch.splMmcFirstBootablePartition_of_mbrBootable present
              already
          again := exec_mbrSet_of_mbrBootable already }
    · intro _
      have boots : (disk.mbr.flagged slot.name).Boots slot :=
        Mbr.boots_flagged present
      exact
        { writes := .inr rfl
          store := rfl
          bytes := by
            intro offset first second
            exact Mbr.byte_flagged_of_ne _ _ first second
          script := boots.mbrBootable
          spl := Mbr.splMmcFirstBootablePartition_of_onlyFlagged boots.only
          again := exec_mbrSet_of_mbrBootable boots.mbrBootable }
    · intro failed
      cases failed
  exact ends succeeds

/-- On a new eMMC, which flags a, slot b is flagged. -/
theorem mbrSwitched_bench :
    MbrSwitched .b Bench.disk
      (Script.exec (mbrSet Bench.ctx Slot.b.name) Bench.disk).2 :=
  mbrSwitched_mbrSet Bench.ctx .b Bench.disk (by decide +kernel)
    (by decide +kernel)

end Ab

end KmmYocto
