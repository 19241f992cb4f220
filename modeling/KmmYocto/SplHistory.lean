import KmmYocto.SplFaults

/-!
# Which SPL has proved to start

`ab spl update` saves copy A in B before it writes the new image, so that a
rollback finds a version that is known to start.  Whether the content of A was
ever booted is history that nothing on the device records; here it is kept
beside the eMMC, together with what the ROM left in memory for
`spl_active_copy`.

What an image is, the part of a copy that the ROM loads, is a parameter.
-/

namespace KmmYocto

universe u

/-- What the ROM leaves in memory when it boots a copy. -/
structure RomLog where
  devmem : SplCopy → Nat → Nat
  reports : ∀ copy, AbSpl.splActiveCopy (devmem copy) = copy

/-- The eMMC and the history of the boots. -/
structure SplHistory (Image : Type u) where
  emmc : Emmc
  devmem : Nat → Nat
  /-- The images the ROM has booted. -/
  booted : List Image
  /-- Copy A has changed since the last boot. -/
  changed : Bool
  /-- An update has saved a copy in B. -/
  saved : Bool

/-- An update that has completed has saved a copy in B. -/
def SplCommand.saves : SplCommand → Except String PUnit → Bool
  | .update _ _ _, .ok _ => true
  | _, _ => false

/-- A reboot, or a command that runs to its end. -/
inductive SplAct where
  | reboot
  | run (command : SplCommand) (lockFree : Bool)

namespace SplHistory

section

variable
    {Image : Type u} (layout : SplLayout) (rom : RomLog)
    (image : List Sector → Image)

/-- The image in a copy. -/
def imageIn (history : SplHistory Image) (copy : SplCopy) : Image :=
  image (AbSpl.splCopy layout copy history.emmc)

/-- The ROM boots the copy it prefers. -/
def boot (history : SplHistory Image) : SplHistory Image :=
  let copy := romCopy layout history.emmc
  { history with
    devmem := rom.devmem copy
    booted := history.imageIn layout image copy :: history.booted
    changed := false }

/-- The act is an update that is not refused. -/
def Updates (history : SplHistory Image) : SplAct → Prop
  | .run (.update _ (some new) _) lockFree =>
      new.length ≤ layout.areaSectors * 512 ∧ AbSpl.FileIvtValid new ∧
        AbSpl.splActiveCopy history.devmem = .a ∧ lockFree = true
  | _ => False

/-- The command on the eMMC: its result and the session it ends in. -/
def exec (history : SplHistory Image) (command : SplCommand)
    (lockFree : Bool) : Except String PUnit × Session Emmc (Nat × Sector) :=
  Script.exec (command.script layout history.devmem lockFree) history.emmc

/-- The history after a command, before the reboot it may ask for. -/
def ran (history : SplHistory Image) (command : SplCommand)
    (lockFree : Bool) : SplHistory Image :=
  let ended := history.exec layout command lockFree
  { history with
    emmc := ended.2.store
    changed :=
      history.changed ||
        decide
          (AbSpl.splCopy layout .a ended.2.store ≠
            AbSpl.splCopy layout .a history.emmc)
    saved := history.saved || command.saves ended.1 }

def step (history : SplHistory Image) : SplAct → SplHistory Image
  | .reboot => history.boot layout rom image
  | .run command lockFree =>
      if (history.exec layout command lockFree).2.rebooting = true then
        (history.ran layout command lockFree).boot layout rom image
      else history.ran layout command lockFree

/-- A device that was booted from A. -/
def start (emmc : Emmc) (devmem : Nat → Nat) : SplHistory Image where
  emmc
  devmem
  booted := [image (AbSpl.splCopy layout .a emmc)]
  changed := false
  saved := false

/-- Once an update has saved a copy in B, that copy was booted before. -/
def Proven (history : SplHistory Image) (act : SplAct) : Prop :=
  (history.step layout rom image act).saved = true →
    (history.step layout rom image act).imageIn layout image .b ∈
      history.booted

/-- An update finds A as it was booted, or changed to what was booted. -/
def FindsBooted (history : SplHistory Image) (act : SplAct) : Prop :=
  history.Updates layout act → history.changed = true →
    history.imageIn layout image .a ∈ history.booted

/-- The device runs on copy A, and the history is true. -/
structure Holds (history : SplHistory Image) : Prop where
  valid : (history.emmc layout.aSector).IvtValid
  active : AbSpl.splActiveCopy history.devmem = .a
  booted : history.changed = false →
    history.imageIn layout image .a ∈ history.booted
  saved : history.saved = true →
    history.imageIn layout image .b ∈ history.booted

end

end SplHistory

/-! ## What the commands leave -/

namespace AbSpl

section

variable
    {layout : SplLayout} {session : Session Emmc (Nat × Sector)}

/-- Without faults a copy is what was written to it, and nothing fails. -/
theorem ends_splWriteHeaderLast (copy : SplCopy) {src : List Sector}
    (nonempty : src ≠ []) (small : src.length ≤ layout.areaSectors) :
    Script.Ends
      (splWriteHeaderLast (layout.sector copy) src src.length) session
      fun result later =>
        result = .ok PUnit.unit ∧
          AgreeOutside layout copy session.store later.store ∧
            readSectors later.store (layout.sector copy) src.length = src ∧
              later.rebooting = session.rebooting := by
  obtain ⟨later, ran, store, rebooting⟩ :=
    Faulty.exists_splWriteHeaderLast .none (layout.sector copy) nonempty
      session
  rw [Faulty.splWriteHeaderLast_none, Faults.stored_none, if_pos rfl] at ran
  rw [Faults.stored_none] at store
  rw [Script.ends_iff, ran, store]
  exact
    ⟨rfl, agreeOutside_putSectors small, readSectors_putSectors _ _ _,
      rebooting⟩

/-- A copy that was written starts with the IVT of what was written. -/
theorem ivtValid_of_readSectors {emmc : Emmc} {dst : Nat}
    {src : List Sector} (read : readSectors emmc dst src.length = src)
    (starts : StartsWithIvt src) : (emmc dst).IvtValid := by
  cases src with
  | nil => exact starts.elim
  | cons header body =>
      rw [List.length_cons, readSectors, List.cons.injEq] at read
      rw [read.1]
      exact starts

/-- A rollback leaves B as it is and a valid copy in A. -/
theorem ends_splRollback (lockFree noReboot : Bool)
    (valid : (session.store layout.aSector).IvtValid) :
    Script.Ends (splRollback layout lockFree noReboot) session
      fun _ later =>
        splCopy layout .b later.store = splCopy layout .b session.store ∧
          (later.store layout.aSector).IvtValid := by
  simp only [splRollback, Script.ends_bind, Script.ends_require,
    Script.ends_read, Script.ends_ite, Script.ends_pure]
  refine ⟨fun _ => ⟨fun starts => ⟨fun _ => ⟨trivial, valid⟩, fun _ => ?_⟩,
    fun _ => ⟨trivial, valid⟩⟩, fun _ => ⟨trivial, valid⟩⟩
  have size :
      (splCopy layout .b session.store).length = layout.areaSectors :=
    length_readSectors _ _ _
  have writes :=
    @ends_splWriteHeaderLast layout session .a _ (splCopy_ne_nil layout .b _)
      size.le
  rw [size] at writes
  refine writes.imp ?_
  rintro result later ⟨rfl, agree, read, -⟩
  have validNow : (later.store layout.aSector).IvtValid :=
    ivtValid_of_readSectors (size.symm ▸ read) starts
  exact
    (Faulty.ends_maybeReboot_iff noReboot fun _ emmc =>
      splCopy layout .b emmc = splCopy layout .b session.store ∧
        (emmc layout.aSector).IvtValid).mpr ⟨agree.splCopy_other, validNow⟩

/-- An update that is not refused saves a valid A in B. -/
theorem ends_splUpdate {devmem : Nat → Nat} {lockFree noReboot : Bool}
    {path : String} {new : List UInt8} (fits : new.length ≤ layout.areaSectors * 512)
    (image : FileIvtValid new) (active : splActiveCopy devmem = .a)
    (free : lockFree = true)
    (valid : (session.store layout.aSector).IvtValid) :
    Script.Ends
      (splUpdate layout devmem lockFree path (some new) noReboot) session
      fun result later =>
        result = .ok PUnit.unit ∧
          splCopy layout .b later.store = splCopy layout .a session.store ∧
            (later.store layout.aSector).IvtValid ∧
              readSectors later.store layout.aSector (sectorCount new) =
                  sectorsFrom new 0 (sectorCount new) ∧
                later.rebooting = (session.rebooting || !noReboot) := by
  have runs : StartsWithIvt (splCopy layout .a session.store) :=
    startsWithIvt_splCopy.mpr valid
  simp only [splUpdate, keepRunning, Script.ends_bind, Script.ends_require,
    Script.ends_read, Script.ends_ite, Script.ends_pure]
  refine ⟨fun _ => ⟨fun _ => ⟨fun _ => ⟨fun _ => ⟨fun _ => ?_,
    fun broken => absurd runs broken⟩, fun taken => absurd free taken⟩,
    fun other => absurd active other⟩, fun none => absurd image none⟩,
    fun large => absurd fits large⟩
  have size :
      (splCopy layout .a session.store).length = layout.areaSectors :=
    length_readSectors _ _ _
  have saves :=
    @ends_splWriteHeaderLast layout session .b _ (splCopy_ne_nil layout .a _)
      size.le
  rw [size] at saves
  refine saves.imp ?_
  rintro result middle ⟨rfl, -, saved, before⟩
  have given := sectors_imageOfFile image
  have newSize :
      (sectorsFrom new 0 (sectorCount new)).length = sectorCount new :=
    length_sectorsFrom new 0 _
  have small : (sectorsFrom new 0 (sectorCount new)).length ≤
      layout.areaSectors := by
    rw [newSize, sectorCount]
    omega
  have writes :=
    @ends_splWriteHeaderLast layout middle .a
      (sectorsFrom new 0 (sectorCount new))
      (given ▸ List.cons_ne_nil _ _) small
  rw [newSize] at writes
  refine writes.imp ?_
  rintro result later ⟨rfl, agree, read, after⟩
  have starts : StartsWithIvt (sectorsFrom new 0 (sectorCount new)) := by
    rw [← given]
    exact (imageOfFile new image).valid
  have validNow : (later.store layout.aSector).IvtValid :=
    ivtValid_of_readSectors (newSize.symm ▸ read) starts
  have copied := agree.splCopy_other.trans saved
  have stays : later.rebooting = session.rebooting := after.trans before
  cases noReboot with
  | false => exact ⟨rfl, copied, validNow, read, (Bool.or_true _).symm⟩
  | true =>
      exact
        ⟨rfl, copied, validNow, read, stays.trans (Bool.or_false _).symm⟩

/-- An update that is refused writes nothing. -/
theorem ends_splUpdate_refused {devmem : Nat → Nat} {lockFree noReboot : Bool}
    {path : String} {file : Option (List UInt8)}
    (refused : ∀ new ∈ file,
      ¬ (new.length ≤ layout.areaSectors * 512 ∧ FileIvtValid new ∧
        splActiveCopy devmem = .a ∧ lockFree = true)) :
    Script.Ends (splUpdate layout devmem lockFree path file noReboot) session
      fun result later =>
        result ≠ .ok PUnit.unit ∧ later.store = session.store := by
  cases file with
  | none =>
      refine ⟨fun succeeds => ?_, rfl⟩
      cases succeeds
  | some new =>
      simp only [splUpdate, Script.ends_bind, Script.ends_require]
      refine ⟨fun fits => ⟨fun image => ⟨fun active => ⟨fun free => ?_, ?_⟩,
        ?_⟩, ?_⟩, ?_⟩
      · exact absurd ⟨fits, image, active, free⟩ (refused new rfl)
      all_goals exact fun _ => ⟨by simp, trivial⟩

end

end AbSpl

namespace SplHistory

section

variable
    {Image : Type u} {layout : SplLayout} {rom : RomLog}
    {image : List Sector → Image} {history : SplHistory Image}

@[simp]
theorem emmc_step_run (command : SplCommand) (lockFree : Bool) :
    (history.step layout rom image (.run command lockFree)).emmc =
      (history.ran layout command lockFree).emmc := by
  rw [step]
  split_ifs <;> rfl

@[simp]
theorem saved_step_run (command : SplCommand) (lockFree : Bool) :
    (history.step layout rom image (.run command lockFree)).saved =
      (history.ran layout command lockFree).saved := by
  rw [step]
  split_ifs <;> rfl

/-- What a command leaves that is no update, or is refused. -/
theorem ran_of_not_updates (holds : history.Holds layout image)
    {command : SplCommand} {lockFree : Bool}
    (other : ¬ history.Updates layout (.run command lockFree)) :
    AbSpl.splCopy layout .b (history.ran layout command lockFree).emmc =
        AbSpl.splCopy layout .b history.emmc ∧
      ((history.ran layout command lockFree).emmc layout.aSector).IvtValid ∧
        (history.ran layout command lockFree).saved = history.saved := by
  cases command with
  | update path file noReboot =>
      have refused :
          (history.exec layout (.update path file noReboot) lockFree).1 ≠
              .ok PUnit.unit ∧
            (history.exec layout (.update path file noReboot) lockFree).2.store =
              history.emmc := by
        refine @AbSpl.ends_splUpdate_refused layout ⟨history.emmc, [], false⟩
          history.devmem lockFree noReboot path file ?_
        rintro new isNew
        cases isNew
        exact other
      refine ⟨congrArg _ refused.2, ?_, ?_⟩
      · show ((history.exec layout _ lockFree).2.store layout.aSector).IvtValid
        rw [refused.2]
        exact holds.valid
      · show (history.saved || SplCommand.saves _ _) = _
        cases ended :
            (history.exec layout (.update path file noReboot) lockFree).1 with
        | ok value => exact absurd ended refused.1
        | error message => exact Bool.or_false _
  | rollback noReboot =>
      have left :=
        @AbSpl.ends_splRollback layout ⟨history.emmc, [], false⟩ lockFree
          noReboot holds.valid
      exact ⟨left.1, left.2, Bool.or_false _⟩
  | selfheal =>
      have idle :
          (history.exec layout .selfheal lockFree).2.store = history.emmc := by
        rw [exec, SplCommand.script, AbSpl.splSelfheal, holds.active]
        rfl
      refine ⟨congrArg _ idle, ?_, Bool.or_false _⟩
      show ((history.exec layout _ lockFree).2.store layout.aSector).IvtValid
      rw [idle]
      exact holds.valid

/-- What an update leaves that is not refused. -/
theorem ran_of_updates (holds : history.Holds layout image)
    {command : SplCommand} {lockFree : Bool}
    (updates : history.Updates layout (.run command lockFree)) :
    AbSpl.splCopy layout .b (history.ran layout command lockFree).emmc =
        AbSpl.splCopy layout .a history.emmc ∧
      ((history.ran layout command lockFree).emmc layout.aSector).IvtValid ∧
        (history.ran layout command lockFree).saved = true := by
  rcases command with ⟨path, _ | new, noReboot⟩ | noReboot | _
  case update.some =>
    obtain ⟨fits, valid, active, free⟩ := updates
    obtain ⟨done, saved, header, -⟩ :=
      @AbSpl.ends_splUpdate layout ⟨history.emmc, [], false⟩ history.devmem
        lockFree noReboot path new fits valid active free holds.valid
    refine ⟨saved, header, ?_⟩
    have ended :
        (history.exec layout (.update path (some new) noReboot) lockFree).1 =
          .ok PUnit.unit :=
      done
    show (history.saved || SplCommand.saves _ _) = true
    rw [ended]
    exact Bool.or_true _
  all_goals exact updates.elim

/-- The saved copy was booted exactly if the update found a booted one. -/
theorem saved_ran_iff (holds : history.Holds layout image)
    (command : SplCommand) (lockFree : Bool) :
    ((history.ran layout command lockFree).saved = true →
        (history.ran layout command lockFree).imageIn layout image .b ∈
          history.booted) ↔
      history.FindsBooted layout image (.run command lockFree) := by
  rw [FindsBooted, imageIn]
  by_cases updates : history.Updates layout (.run command lockFree)
  · obtain ⟨copied, -, saved⟩ := ran_of_updates holds updates
    rw [copied, imp_iff_right saved, imp_iff_right updates]
    constructor
    · intro booted _
      exact booted
    · intro booted
      cases changed : history.changed with
      | false => exact holds.booted changed
      | true => exact booted changed
  · obtain ⟨kept, -, saved⟩ := ran_of_not_updates holds updates
    rw [kept, saved]
    exact iff_of_true holds.saved fun runs => absurd runs updates

theorem proven_iff (holds : history.Holds layout image) (act : SplAct) :
    history.Proven layout rom image act ↔
      history.FindsBooted layout image act := by
  cases act with
  | reboot => exact iff_of_true holds.saved nofun
  | run command lockFree =>
      rw [Proven, saved_step_run, imageIn, emmc_step_run]
      exact saved_ran_iff holds command lockFree

theorem Holds.boot (holds : history.Holds layout image) :
    (history.boot layout rom image).Holds layout image := by
  have prefers : romCopy layout history.emmc = .a := if_pos holds.valid
  refine ⟨holds.valid, ?_, fun _ => ?_, fun saved => ?_⟩
  · exact (rom.reports _).trans prefers
  · rw [SplHistory.boot, prefers]
    exact List.mem_cons_self
  · exact List.mem_cons_of_mem _ (holds.saved saved)

theorem Holds.ran (holds : history.Holds layout image)
    {command : SplCommand} {lockFree : Bool}
    (found : history.FindsBooted layout image (.run command lockFree)) :
    (history.ran layout command lockFree).Holds layout image := by
  have valid :
      ((history.ran layout command lockFree).emmc
        layout.aSector).IvtValid := by
    by_cases updates : history.Updates layout (.run command lockFree)
    · exact (ran_of_updates holds updates).2.1
    · exact (ran_of_not_updates holds updates).2.1
  refine ⟨valid, holds.active, fun unchanged => ?_,
    (saved_ran_iff holds command lockFree).mpr found⟩
  simp only [SplHistory.ran, Bool.or_eq_false_iff,
    decide_eq_false_iff_not, ne_eq, not_not] at unchanged
  have same :
      (history.ran layout command lockFree).imageIn layout image .a =
        history.imageIn layout image .a :=
    congrArg image unchanged.2
  rw [same]
  exact holds.booted unchanged.1

theorem Holds.step (holds : history.Holds layout image) {act : SplAct}
    (found : history.FindsBooted layout image act) :
    (history.step layout rom image act).Holds layout image := by
  cases act with
  | reboot => exact holds.boot
  | run command lockFree =>
      rw [SplHistory.step]
      split_ifs
      · exact (holds.ran found).boot
      · exact holds.ran found

theorem holds_start {emmc : Emmc} {devmem : Nat → Nat}
    (valid : (emmc layout.aSector).IvtValid)
    (active : AbSpl.splActiveCopy devmem = .a) :
    (start layout image emmc devmem).Holds layout image where
  valid := valid
  active := active
  booted _ := List.mem_cons_self
  saved := nofun

end

/--
From a device that was booted from A, every image an update saves in B was
booted before exactly if every update finds in A what was booted there.
-/
theorem proven_along_iff {Image : Type u} (layout : SplLayout)
    (rom : RomLog) (image : List Sector → Image) {emmc : Emmc}
    {devmem : Nat → Nat} (valid : (emmc layout.aSector).IvtValid)
    (active : AbSpl.splActiveCopy devmem = .a) (acts : List SplAct) :
    Trace.Along (step layout rom image) (Proven layout rom image)
        (start layout image emmc devmem) acts ↔
      Trace.Along (step layout rom image) (FindsBooted layout image)
        (start layout image emmc devmem) acts :=
  Trace.along_iff_guarded
    (fun _ _ holds found => holds.step found)
    (fun _ act holds => proven_iff holds act)
    (holds_start valid active)

end SplHistory

namespace Bench

def romLog : RomLog where
  devmem
    | .a => fun _ => 0
    | .b => fun _ => 0x40000000
  reports copy := by cases copy <;> decide

/-- A file of one sector, another image than the one of the bench eMMC. -/
def newImage : List UInt8 :=
  [0xd1, 0, 0x20, 0x41]

/-- An eMMC with the same header in both copies. -/
def ivtEmmc : Emmc :=
  fun _ => ivtSector

theorem sectorAt_newImage_ne : AbSpl.sectorAt newImage 0 ≠ ivtSector := by
  intro same
  have byte := congrArg (fun sector : Sector => sector[2]) same
  simp [AbSpl.sectorAt, ivtSector, newImage] at byte

end Bench

namespace SplHistory

section

variable
    {Image : Type u} {layout : SplLayout} {rom : RomLog}
    {image : List Sector → Image} {history : SplHistory Image}

theorem findsBooted_start (layout : SplLayout) (image : List Sector → Image)
    (emmc : Emmc) (devmem : Nat → Nat) (act : SplAct) :
    (start layout image emmc devmem).FindsBooted layout image act :=
  fun _ changed => absurd changed Bool.false_ne_true

/-- An update that does not reboot leaves a new header in A. -/
theorem step_noReboot (holds : history.Holds layout image)
    {path : String} {new : List UInt8}
    (updates :
      history.Updates layout (.run (.update path (some new) true) true)) :
    history.step layout rom image (.run (.update path (some new) true) true) =
        history.ran layout (.update path (some new) true) true ∧
      (history.ran layout (.update path (some new) true) true).emmc
          layout.aSector = AbSpl.sectorAt new 0 := by
  obtain ⟨fits, valid, active, free⟩ := updates
  obtain ⟨-, -, -, read, stays⟩ :=
    @AbSpl.ends_splUpdate layout ⟨history.emmc, [], false⟩ history.devmem
      true true path new fits valid active free holds.valid
  have stays :
      (history.exec layout (.update path (some new) true) true).2.rebooting =
        false :=
    stays
  refine ⟨?_, ?_⟩
  · rw [step, if_neg (by rw [stays]; exact Bool.false_ne_true)]
  · cases count : AbSpl.sectorCount new with
    | zero =>
        have empty : new = [] := by
          rw [AbSpl.sectorCount] at count
          exact List.length_eq_zero_iff.mp (by omega)
        rw [empty] at valid
        exact absurd valid (by decide)
    | succ rest =>
        rw [count] at read
        exact (List.cons.inj read).1

/-- The next update then saves a copy that no boot has proved. -/
theorem not_findsBooted_again {history : SplHistory (List Sector)}
    (holds : history.Holds layout id) {path : String} {new : List UInt8}
    (updates : history.Updates layout (.run (.update path (some new) true) true))
    (unknown : ∀ copy ∈ history.booted,
      copy.head? ≠ some (AbSpl.sectorAt new 0)) :
    ¬ (history.step layout rom id
        (.run (.update path (some new) true) true)).FindsBooted layout id
          (.run (.update path (some new) true) true) := by
  obtain ⟨stepped, header⟩ := @step_noReboot _ _ rom _ _ holds path new updates
  rw [stepped]
  intro found
  have head :
      (AbSpl.splCopy layout .a
        (history.ran layout (.update path (some new) true) true).emmc).head? =
          some (AbSpl.sectorAt new 0) := by
    obtain ⟨rest, equal⟩ := AbSpl.splCopy_eq_cons layout .a
      (history.ran layout (.update path (some new) true) true).emmc
    rw [equal, ← header]
    rfl
  have changed :
      (history.ran layout (.update path (some new) true) true).changed = true := by
    cases before : history.changed with
    | true => exact Bool.or_eq_true_iff.mpr (.inl before)
    | false =>
        refine Bool.or_eq_true_iff.mpr (.inr (decide_eq_true ?_))
        intro same
        have booted := unknown _ (holds.booted before)
        rw [imageIn, id, ← same] at booted
        exact booted head
  exact unknown _ (found updates changed) head

end

/-- One update on a device that runs on A. -/
theorem proven_along_update :
    Trace.Along (step .imx8mpDebix Bench.romLog id)
      (Proven .imx8mpDebix Bench.romLog id)
      (start .imx8mpDebix id Bench.ivtEmmc fun _ => 0)
      [.run (.update "new.bin" (some Bench.newImage) false) true] := by
  have valid : (Bench.ivtEmmc SplLayout.imx8mpDebix.aSector).IvtValid :=
    Bench.ivtValid_ivtSector
  have active : AbSpl.splActiveCopy (fun _ => 0) = .a := by decide
  apply (proven_along_iff .imx8mpDebix Bench.romLog id valid active _).mpr
  exact ⟨findsBooted_start _ _ _ _ _, trivial⟩

/-- Of two updates without a reboot, the second saves what the first wrote. -/
theorem not_proven_along :
    ¬ ∀ (Image : Type) (layout : SplLayout) (rom : RomLog)
      (image : List Sector → Image) (emmc : Emmc) (devmem : Nat → Nat),
      (emmc layout.aSector).IvtValid → AbSpl.splActiveCopy devmem = .a →
        ∀ acts : List SplAct,
          Trace.Along (step layout rom image) (Proven layout rom image)
            (start layout image emmc devmem) acts := by
  intro proven
  have valid : (Bench.ivtEmmc SplLayout.imx8mpDebix.aSector).IvtValid :=
    Bench.ivtValid_ivtSector
  have active : AbSpl.splActiveCopy (fun _ => 0) = .a := by decide
  have holds :=
    @holds_start _ _ (id : List Sector → List Sector) _ _ valid active
  have along :=
    proven (List Sector) .imx8mpDebix Bench.romLog id Bench.ivtEmmc
      (fun _ => 0) valid active
      [.run (.update "new.bin" (some Bench.newImage) true) true,
        .run (.update "new.bin" (some Bench.newImage) true) true]
  have later := (proven_iff (holds.step (findsBooted_start _ _ _ _ _)) _).mp
    along.2.1
  refine not_findsBooted_again holds ?_ ?_ later
  · exact ⟨by decide, by decide, active, rfl⟩
  · intro copy booted
    rw [List.mem_singleton.mp booted]
    exact fun same => Bench.sectorAt_newImage_ne (Option.some.inj same).symm

end SplHistory

end KmmYocto
