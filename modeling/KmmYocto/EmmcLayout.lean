import KmmYocto.MediumParts
import KmmYocto.SplFaults
import KmmYocto.XpiBoot

/-!
# What lies where on the eMMC

`imx8mp-emmc-ab.wks` and `imx8mm-emmc-ab.wks` put the MBR, the table for the
secondary boot, the two copies of the SPL, the U-Boot environment and the
partitions on one eMMC, and the recipe of `ab` repeats the numbers.  The copies
end where the environment begins, to the sector.

The commands of `ab spl`, on any medium and cut anywhere, `mbr_set`, a save of
the environment and a write to a partition are taken in any order.  Each keeps
to its part and depends on nothing else, so every part holds what its own
commands leave in it.
-/

namespace KmmYocto

/-- What is stored on the eMMC. -/
inductive EmmcPart where
  | mbr
  /-- The table by which the ROM of the 8MM finds copy B. -/
  | sit
  | copies
  | env
  | partitions
deriving DecidableEq, Repr

/-- Where the parts begin, in sectors. -/
structure EmmcLayout where
  spl : SplLayout
  sitSector : Nat
  sitSectors : Nat
  envSector : Nat
  envSectors : Nat
  /-- The first partition. -/
  partSector : Nat
  afterMbr : 0 < sitSector
  afterSit : sitSector + sitSectors ≤ spl.aSector
  afterCopies : spl.bSector + spl.areaSectors ≤ envSector
  afterEnv : envSector + envSectors ≤ partSector

namespace EmmcLayout

/-- `imx8mp-emmc-ab.wks`: the fuses stand for the table. -/
def imx8mpDebix : EmmcLayout where
  spl := .imx8mpDebix
  sitSector := 32 * 2
  sitSectors := 0
  envSector := 7168 * 2
  envSectors := 2 * 0x4000 / 512
  partSector := 8192 * 2
  afterMbr := by decide
  afterSit := by decide
  afterCopies := by decide
  afterEnv := by decide

/-- `imx8mm-emmc-ab.wks`. -/
def mx8mmGenericBsp : EmmcLayout where
  spl := .mx8mmGenericBsp
  sitSector := 32 * 2
  sitSectors := 2
  envSector := 4096 * 2
  envSectors := 0x2000 / 512
  partSector := 8192 * 2
  afterMbr := by decide
  afterSit := by decide
  afterCopies := by decide
  afterEnv := by decide

/-- On both boards the environment follows copy B without a gap. -/
example :
    imx8mpDebix.spl.bSector + imx8mpDebix.spl.areaSectors =
        imx8mpDebix.envSector ∧
      mx8mmGenericBsp.spl.bSector + mx8mmGenericBsp.spl.areaSectors =
        mx8mmGenericBsp.envSector := by
  decide

variable
    (layout : EmmcLayout)

/-- The sector belongs to the part. -/
def Holds : EmmcPart → Nat → Prop
  | .mbr, i => i = 0
  | .sit, i => layout.sitSector ≤ i ∧ i < layout.sitSector + layout.sitSectors
  | .copies, i =>
      ∃ copy, layout.spl.sector copy ≤ i ∧
        i < layout.spl.sector copy + layout.spl.areaSectors
  | .env, i => layout.envSector ≤ i ∧ i < layout.envSector + layout.envSectors
  | .partitions, i => layout.partSector ≤ i

variable {layout}

theorem Holds.copies_bounds {i : Nat} (holds : layout.Holds .copies i) :
    layout.spl.aSector ≤ i ∧
      i < layout.spl.bSector + layout.spl.areaSectors := by
  obtain ⟨copy, lower, upper⟩ := holds
  have disjoint := layout.spl.disjoint
  cases copy <;> simp only [SplLayout.sector] at lower upper <;> omega

/-- No sector belongs to two parts. -/
theorem Holds.unique {part other : EmmcPart} {i : Nat}
    (holds : layout.Holds part i) (holds' : layout.Holds other i) :
    part = other := by
  have afterMbr := layout.afterMbr
  have afterSit := layout.afterSit
  have afterCopies := layout.afterCopies
  have afterEnv := layout.afterEnv
  have disjoint := layout.spl.disjoint
  have nonempty := layout.spl.nonempty
  cases part with
  | copies =>
      have bounds := holds.copies_bounds
      cases other with
      | copies => rfl
      | mbr | sit | env | partitions => simp only [Holds] at holds'; omega
  | mbr | sit | env | partitions =>
      cases other with
      | copies =>
          have bounds := holds'.copies_bounds
          simp only [Holds] at holds
          omega
      | mbr | sit | env | partitions =>
          simp only [Holds] at holds holds'
          first | rfl | omega

variable (layout)

/-- The eMMC in its parts. -/
def parts : MediumParts Emmc (Nat × Sector) EmmcPart where
  agree part left right := ∀ i, layout.Holds part i → left i = right i
  within part write := layout.Holds part write.1
  agree_rfl _ _ _ _ := rfl
  agree_trans first second i holds :=
    (first i holds).trans (second i holds)
  agree_apply write agrees i holds := by
    show Function.update _ _ _ i = Function.update _ _ _ i
    rw [Function.update_apply, Function.update_apply, agrees i holds]
  agree_other store write within other i holds := by
    refine Function.update_of_ne ?_ _ _
    rintro rfl
    exact other (holds.unique within)

variable {layout}

/-! ## The commands of `ab spl` -/

section Spl

variable
    {left right : Emmc} {copy : SplCopy} {faults : Faults}

/-- Two media that agree on the copies hold the same copy. -/
theorem splCopy_eq (agrees : layout.parts.agree .copies left right)
    (copy : SplCopy) :
    AbSpl.splCopy layout.spl copy left =
      AbSpl.splCopy layout.spl copy right :=
  AbSpl.readSectors_congr fun i lower upper => agrees i ⟨copy, lower, upper⟩

theorem writesOnly_writeSectors {part : EmmcPart}
    (stores : Nat → Sector → Sector) {start : Nat} {sectors : List Sector}
    (inside : ∀ i, start ≤ i → i < start + sectors.length →
      layout.Holds part i) :
    Script.WritesOnly (layout.parts.within part)
      (AbSpl.Faulty.writeSectors stores start sectors) := by
  induction sectors generalizing start with
  | nil => exact Script.writesOnly_pure _
  | cons sector rest induction =>
      rw [List.length_cons] at inside
      have first : layout.parts.within part (start, stores start sector) :=
        inside start le_rfl (by omega)
      refine (Script.writesOnly_persist first).bind fun _ => ?_
      exact induction fun i lower upper => inside i (by omega) (by omega)

theorem alike_writeSectors (stores : Nat → Sector → Sector) (start : Nat)
    (sectors : List Sector) :
    Script.Alike (layout.parts.agree .copies)
      (AbSpl.Faulty.writeSectors stores start sectors)
      (AbSpl.Faulty.writeSectors stores start sectors) := by
  induction sectors generalizing start with
  | nil => exact Script.alike_pure _
  | cons sector rest induction =>
      exact
        layout.parts.alike_bind (Script.alike_persist _) fun _ => induction _

/-- `spl_write_header_last` keeps to the copy. -/
theorem writesOnly_splWriteHeaderLast (faults : Faults) (copy : SplCopy)
    (src : List Sector) {cnt : Nat}
    (small : cnt ≤ layout.spl.areaSectors) :
    Script.WritesOnly (layout.parts.within .copies)
      (AbSpl.Faulty.splWriteHeaderLast faults (layout.spl.sector copy) src
        cnt) := by
  have nonempty := layout.spl.nonempty
  have body : ((src.drop 1).take (cnt - 1)).length ≤ cnt - 1 :=
    List.length_take_le _ _
  have head : (src.take 1).length ≤ 1 := List.length_take_le _ _
  have header :
      layout.parts.within .copies
        (layout.spl.sector copy, faults.zeroed Sector.zero) :=
    ⟨copy, le_rfl, Nat.lt_add_of_pos_right nonempty⟩
  refine (Script.writesOnly_persist header).bind fun _ => ?_
  refine Script.WritesOnly.bind ?_ fun _ => ?_
  · apply writesOnly_writeSectors
    intro i lower upper
    exact ⟨copy, by omega, by omega⟩
  refine Script.WritesOnly.bind ?_ fun _ => ?_
  · apply writesOnly_writeSectors
    intro i lower upper
    exact ⟨copy, by omega, by omega⟩
  exact Script.writesOnly_read.bind fun _ => Script.writesOnly_require _ _

/-- `spl_write_header_last` reads nothing but the copy. -/
theorem alike_splWriteHeaderLast (faults : Faults) (copy : SplCopy)
    (src : List Sector) {cnt : Nat}
    (small : cnt ≤ layout.spl.areaSectors) :
    Script.Alike (layout.parts.agree .copies)
      (AbSpl.Faulty.splWriteHeaderLast faults (layout.spl.sector copy) src
        cnt)
      (AbSpl.Faulty.splWriteHeaderLast faults (layout.spl.sector copy) src
        cnt) := by
  refine layout.parts.alike_bind (Script.alike_persist _) fun _ => ?_
  refine layout.parts.alike_bind (alike_writeSectors _ _ _) fun _ => ?_
  refine layout.parts.alike_bind (alike_writeSectors _ _ _) fun _ => ?_
  refine Script.alike_read_bind fun left right agrees => ?_
  apply Script.alike_require
  rw [AbSpl.readSectors_congr fun i lower upper =>
    agrees i ⟨copy, lower, by omega⟩]

theorem confined_maybeReboot (noReboot : Bool) :
    layout.parts.Confined .copies (AbSpl.maybeReboot noReboot) where
  writes :=
    Script.WritesOnly.ite (Script.writesOnly_pure _) Script.writesOnly_reboot
  alike :=
    Script.alike_ite Iff.rfl (Script.alike_pure _) Script.alike_reboot

theorem writesOnly_keepRunning (faults : Faults) (src : List Sector) :
    Script.WritesOnly (layout.parts.within .copies)
      (AbSpl.Faulty.keepRunning layout.spl faults src) :=
  Script.WritesOnly.ite
    (writesOnly_splWriteHeaderLast faults .b src le_rfl)
    (Script.writesOnly_pure _)

theorem alike_keepRunning (faults : Faults) (src : List Sector) :
    Script.Alike (layout.parts.agree .copies)
      (AbSpl.Faulty.keepRunning layout.spl faults src)
      (AbSpl.Faulty.keepRunning layout.spl faults src) :=
  Script.alike_ite Iff.rfl (alike_splWriteHeaderLast faults .b src le_rfl)
    (Script.alike_pure _)

theorem confined_splRollback (faults : SplCopy → Faults)
    (lockFree noReboot : Bool) :
    layout.parts.Confined .copies
      (AbSpl.Faulty.splRollback layout.spl faults lockFree noReboot) where
  writes := by
    refine (Script.writesOnly_require _ _).bind fun _ => ?_
    refine Script.writesOnly_read.bind fun emmc => ?_
    refine (Script.writesOnly_require _ _).bind fun _ => ?_
    refine Script.WritesOnly.ite (Script.writesOnly_pure _) ?_
    exact
      (writesOnly_splWriteHeaderLast _ .a _ le_rfl).bind
        fun _ => (confined_maybeReboot noReboot).writes
  alike := by
    refine
      layout.parts.alike_bind (Script.alike_require Iff.rfl _) fun _ => ?_
    refine Script.alike_read_bind fun left right agrees => ?_
    have sameA := splCopy_eq agrees .a
    have sameB := splCopy_eq agrees .b
    refine
      layout.parts.alike_bind (Script.alike_require (by rw [sameB]) _)
        fun _ => ?_
    refine Script.alike_ite (by rw [sameA, sameB]) (Script.alike_pure _) ?_
    rw [sameB]
    exact
      layout.parts.alike_bind (alike_splWriteHeaderLast _ .a _ le_rfl)
        fun _ => (confined_maybeReboot noReboot).alike

theorem confined_splUpdate (faults : SplCopy → Faults) (devmem : Nat → Nat)
    (lockFree : Bool) (path : String) (file : Option (List UInt8))
    (noReboot : Bool) :
    layout.parts.Confined .copies
      (AbSpl.Faulty.splUpdate layout.spl faults devmem lockFree path file
        noReboot) := by
  cases file with
  | none => exact ⟨Script.writesOnly_die _, Script.alike_die _⟩
  | some new =>
      by_cases fits : new.length ≤ layout.spl.areaSectors * 512
      · have small : AbSpl.sectorCount new ≤ layout.spl.areaSectors := by
          rw [AbSpl.sectorCount]
          omega
        constructor
        · refine (Script.writesOnly_require _ _).bind fun _ => ?_
          refine (Script.writesOnly_require _ _).bind fun _ => ?_
          refine (Script.writesOnly_require _ _).bind fun _ => ?_
          refine (Script.writesOnly_require _ _).bind fun _ => ?_
          refine Script.writesOnly_read.bind fun emmc => ?_
          refine (writesOnly_keepRunning _ _).bind fun _ => ?_
          exact
            (writesOnly_splWriteHeaderLast _ .a _ small).bind
              fun _ => (confined_maybeReboot noReboot).writes
        · refine
            layout.parts.alike_bind (Script.alike_require Iff.rfl _)
              fun _ => ?_
          refine
            layout.parts.alike_bind (Script.alike_require Iff.rfl _)
              fun _ => ?_
          refine
            layout.parts.alike_bind (Script.alike_require Iff.rfl _)
              fun _ => ?_
          refine
            layout.parts.alike_bind (Script.alike_require Iff.rfl _)
              fun _ => ?_
          refine Script.alike_read_bind fun left right agrees => ?_
          rw [splCopy_eq agrees]
          refine
            layout.parts.alike_bind (alike_keepRunning _ _) fun _ => ?_
          exact
            layout.parts.alike_bind (alike_splWriteHeaderLast _ .a _ small)
              fun _ => (confined_maybeReboot noReboot).alike
      · -- a file that is too large stops before anything is read
        obtain ⟨message, stops⟩ :
            ∃ message,
              AbSpl.Faulty.splUpdate layout.spl faults devmem lockFree path
                  (some new) noReboot =
                Script.die message := by
          simp only [AbSpl.Faulty.splUpdate, Script.require, if_neg fits]
          exact ⟨_, rfl⟩
        rw [stops]
        exact ⟨Script.writesOnly_die _, Script.alike_die _⟩

/-- Every command of `ab spl` keeps to the copies. -/
theorem confined_faultyScript (command : SplCommand)
    (faults : SplCopy → Faults) (devmem : Nat → Nat) (lockFree : Bool) :
    layout.parts.Confined .copies
      (command.faultyScript layout.spl faults devmem lockFree) := by
  cases command with
  | update path file noReboot => exact confined_splUpdate _ _ _ _ _ _
  | rollback noReboot => exact confined_splRollback _ _ _
  | selfheal =>
      have rollback : layout.parts.Confined .copies _ :=
        confined_splRollback faults lockFree true
      exact
        ⟨Script.WritesOnly.ite rollback.writes (Script.writesOnly_pure _),
          Script.alike_ite Iff.rfl rollback.alike (Script.alike_pure _)⟩

end Spl

end EmmcLayout

/-! ## The MBR -/

/-- The sector as the MBR. -/
def Sector.toMbr (sector : Sector) : Mbr :=
  ⟨sector.toList, sector.length_toList⟩

/-- The MBR as a sector. -/
def Mbr.toSector (mbr : Mbr) : Sector :=
  ⟨mbr.bytes.toArray, by simp [mbr.size]⟩

namespace AbSpl

/-- `mbr_set` on the first sector, with what the medium stores for it. -/
def mbrSet (stores : Sector → Sector) (slot : Slot) : AbSpl PUnit := do
  let emmc ← Script.read
  if Ab.mbrBootable (emmc 0).toMbr = slot.name then
    pure PUnit.unit
  else do
    let new := ((emmc 0).toMbr.flagged slot.name).toSector
    Script.persist (0, stores new)
    let after ← Script.read
    Script.require (after 0 = new)
      "ab: MBR の bootable フラグの読み戻しが一致しない"

/-- Sectors written one after the other, at these places of a part. -/
def writeAt (start : Nat) : List (Nat × Sector) → AbSpl PUnit
  | [] => pure PUnit.unit
  | (offset, sector) :: rest => do
      Script.persist (start + offset, sector)
      writeAt start rest

end AbSpl

namespace EmmcLayout

variable
    {layout : EmmcLayout}

theorem confined_mbrSet (stores : Sector → Sector) (slot : Slot) :
    layout.parts.Confined .mbr (AbSpl.mbrSet stores slot) where
  writes := by
    refine Script.writesOnly_read.bind fun emmc => ?_
    refine Script.WritesOnly.ite (Script.writesOnly_pure _) ?_
    refine
      (Script.writesOnly_persist
        (show layout.parts.within .mbr (0, _) from rfl)).bind fun _ => ?_
    exact Script.writesOnly_read.bind fun _ => Script.writesOnly_require _ _
  alike := by
    refine Script.alike_read_bind fun left right agrees => ?_
    have same : left 0 = right 0 := agrees 0 rfl
    rw [same]
    refine Script.alike_ite Iff.rfl (Script.alike_pure _) ?_
    refine layout.parts.alike_bind (Script.alike_persist _) fun _ => ?_
    refine Script.alike_read_bind fun left right agrees => ?_
    have same : left 0 = right 0 := agrees 0 rfl
    exact Script.alike_require (by rw [same]) _

theorem confined_writeAt {part : EmmcPart} (start : Nat)
    {writes : List (Nat × Sector)}
    (inside : ∀ write ∈ writes, layout.Holds part (start + write.1)) :
    layout.parts.Confined part (AbSpl.writeAt start writes) := by
  induction writes with
  | nil => exact ⟨Script.writesOnly_pure _, Script.alike_pure _⟩
  | cons write rest induction =>
      rw [List.forall_mem_cons] at inside
      have confined := induction inside.2
      have first :
          layout.parts.within part (start + write.1, write.2) :=
        inside.1
      exact
        ⟨(Script.writesOnly_persist first).bind fun _ => confined.writes,
          layout.parts.alike_bind (Script.alike_persist _)
            fun _ => confined.alike⟩

end EmmcLayout

/-! ## Every run -/

/-- What is done to the eMMC. -/
inductive EmmcCommand (layout : EmmcLayout) where
  /-- A command of `ab spl`, on a medium that stores what it likes. -/
  | spl (command : SplCommand) (faults : SplCopy → Faults)
      (devmem : Nat → Nat) (lockFree : Bool)
  | mbrSet (stores : Sector → Sector) (slot : Slot)
  /-- `saveenv` of U-Boot or `fw_setenv`, as sectors of the environment. -/
  | saveEnv (writes : List (Fin layout.envSectors × Sector))
  | writePartitions (writes : List (Nat × Sector))

namespace EmmcCommand

variable
    {layout : EmmcLayout}

def script : EmmcCommand layout → AbSpl PUnit
  | .spl command faults devmem lockFree =>
      command.faultyScript layout.spl faults devmem lockFree
  | .mbrSet stores slot => AbSpl.mbrSet stores slot
  | .saveEnv writes =>
      AbSpl.writeAt layout.envSector
        (writes.map fun write => (write.1.val, write.2))
  | .writePartitions writes => AbSpl.writeAt layout.partSector writes

/-- The part that the command is about. -/
def part : EmmcCommand layout → EmmcPart
  | .spl .. => .copies
  | .mbrSet .. => .mbr
  | .saveEnv .. => .env
  | .writePartitions .. => .partitions

/-- Every command keeps to its part. -/
theorem confined (command : EmmcCommand layout) :
    layout.parts.Confined command.part command.script := by
  cases command with
  | spl command faults devmem lockFree =>
      exact EmmcLayout.confined_faultyScript command faults devmem lockFree
  | mbrSet stores slot => exact EmmcLayout.confined_mbrSet stores slot
  | saveEnv writes =>
      apply EmmcLayout.confined_writeAt
      rintro write member
      obtain ⟨⟨offset, sector⟩, -, rfl⟩ := List.mem_map.mp member
      have bound := offset.isLt
      show layout.envSector ≤ _ ∧ _
      omega
  | writePartitions writes =>
      exact
        EmmcLayout.confined_writeAt layout.partSector
          fun write _ => Nat.le_add_right _ write.1

end EmmcCommand

namespace EmmcLayout

/-- One event: a command, run to its end or cut after so many sectors. -/
abbrev step (layout : EmmcLayout) :
    Emmc → EmmcCommand layout × Option Nat → Emmc :=
  MediumParts.cutStep EmmcCommand.script

/--
In every run, every sector of a part holds what the part's own commands alone
leave there; the table of the ROM, which no command is about, never changes.
-/
theorem partsApart (layout : EmmcLayout) (emmc : Emmc)
    (events : List (EmmcCommand layout × Option Nat)) :
    (∀ part i, layout.Holds part i →
      Trace.run layout.step emmc events i =
        Trace.run layout.step emmc
          (events.filter fun event => event.1.part = part) i) ∧
      ∀ i, layout.Holds .sit i →
        Trace.run layout.step emmc events i = emmc i := by
  have apart : ∀ part i, layout.Holds part i →
      Trace.run layout.step emmc events i =
        Trace.run layout.step emmc
          (events.filter fun event => event.1.part = part) i :=
    fun part =>
      layout.parts.agree_run EmmcCommand.confined part
        (layout.parts.agree_rfl part emmc) events
  refine ⟨apart, fun i holds => ?_⟩
  have nobody :
      (events.filter fun event => event.1.part = .sit) = [] := by
    rw [List.filter_eq_nil_iff]
    rintro ⟨command, -⟩ -
    cases command <;> simp [EmmcCommand.part]
  rw [apart .sit i holds, nobody]
  rfl

end EmmcLayout

namespace Bench

/-- An update on a bad medium, a save of the environment and a switch. -/
def emmcEvents : List (EmmcCommand .mx8mmGenericBsp × Option Nat) :=
  [(.spl (.rollback true) badSector (fun _ => 0) true, some 100),
    (.saveEnv [(⟨0, by decide⟩, Sector.zero)], none), (.mbrSet id .b, none),
    (.writePartitions [(7, Sector.zero)], some 0)]

theorem emmcEvents_apart :
    Trace.run EmmcLayout.mx8mmGenericBsp.step twoImages emmcEvents 8192 =
        Sector.zero ∧
      Trace.run EmmcLayout.mx8mmGenericBsp.step twoImages emmcEvents 65 =
        twoImages 65 := by
  have apart :=
    EmmcLayout.partsApart .mx8mmGenericBsp twoImages emmcEvents
  refine ⟨?_, apart.2 65 ⟨by decide, by decide⟩⟩
  rw [apart.1 .env 8192 ⟨by decide, by decide⟩]
  exact Function.update_self (8192 : Nat) Sector.zero twoImages

end Bench

end KmmYocto
