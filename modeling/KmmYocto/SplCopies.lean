import KmmYocto.AbSpl
import KmmYocto.PowerCut
import KmmYocto.Trace

/-!
# The SPL copies survive power cuts

Two facts hold after every sector that is written: a copy whose IVT is valid
is a complete image, and at least one copy has a valid IVT.  The first one is
kept because a copy is invalid from its first write to its last one, the
second one because a copy is only written while the other one is valid.
-/

namespace KmmYocto

/-- An image of the SPL; a file without a valid IVT is none. -/
structure SplImage where
  header : Sector
  body : List Sector
  valid : header.IvtValid

/-- The sectors of the image. -/
def SplImage.sectors (image : SplImage) : List Sector :=
  image.header :: image.body

namespace AbSpl

/-! ## Sectors -/

section Sectors

variable
    {emmc other : Emmc}

@[simp]
theorem length_readSectors (emmc : Emmc) (start count : Nat) :
    (readSectors emmc start count).length = count := by
  induction count generalizing start with
  | zero => rfl
  | succ count induction => simp [readSectors, induction]

/-- What is read depends on the sectors of the range only. -/
theorem readSectors_congr {start count : Nat}
    (agree : ∀ i, start ≤ i → i < start + count → other i = emmc i) :
    readSectors other start count = readSectors emmc start count := by
  induction count generalizing start with
  | zero => rfl
  | succ count induction =>
      have later :
          ∀ i, start + 1 ≤ i → i < start + 1 + count → other i = emmc i :=
        fun i above below => agree i (by omega) (by omega)
      rw [readSectors, readSectors, induction later,
        agree start (by omega) (by omega)]

/-- A shorter range is a prefix. -/
theorem readSectors_prefix (emmc : Emmc) (start : Nat) {fewer count : Nat}
    (shorter : fewer ≤ count) :
    readSectors emmc start fewer <+: readSectors emmc start count := by
  induction fewer generalizing start count with
  | zero => exact List.nil_prefix
  | succ fewer induction =>
      cases count with
      | zero => omega
      | succ count =>
          exact
            (List.cons_prefix_cons).mpr
              ⟨rfl, induction (start + 1) (by omega)⟩

/--
Writing a range survives if the invariant depends on the sectors outside of
it only.
-/
theorem survives_writeSectors {inv : Emmc → Prop} {start : Nat}
    {sectors : List Sector} {session : Session Emmc (Nat × Sector)}
    (stable : ∀ emmc : Emmc,
      (∀ i, i < start ∨ start + sectors.length ≤ i →
        emmc i = session.store i) → inv emmc) :
    Script.Survives inv (writeSectors start sectors) session
      fun result later =>
        result = .ok PUnit.unit ∧
          (∀ i, i < start ∨ start + sectors.length ≤ i →
            later.store i = session.store i) ∧
            readSectors later.store start sectors.length = sectors := by
  induction sectors generalizing start session with
  | nil =>
      exact
        Script.survives_pure (stable _ fun _ _ => rfl)
          ⟨rfl, fun _ _ => rfl, rfl⟩
  | cons sector rest induction =>
      rw [writeSectors]
      apply Script.survives_bind
      have written :
          ∀ i, i < start ∨ start + (sector :: rest).length ≤ i →
            Function.update session.store start sector i =
              session.store i := by
        intro i outside
        apply Function.update_of_ne
        simp only [List.length_cons] at outside
        omega
      apply
        Script.survives_persist (stable _ fun _ _ => rfl) (stable _ written)
      rw [Script.ends_persist]
      refine (induction ?_).imp ?_
      · intro emmc agree
        refine stable emmc fun i outside => ?_
        rw [← written i outside]
        simp only [List.length_cons] at outside
        exact agree i (by omega)
      · rintro result later ⟨done, kept, read⟩
        refine ⟨done, ?_, ?_⟩
        · intro i outside
          rw [← written i outside]
          simp only [List.length_cons] at outside
          exact kept i (by omega)
        · have first : later.store start = sector := by
            rw [kept start (by omega)]
            exact Function.update_self _ _ _
          rw [List.length_cons, readSectors, read, first]

end Sectors

end AbSpl

/-! ## The invariant -/

/-- The copy starts with all sectors of one of the images. -/
def CompleteCopy (layout : SplLayout) (images : List SplImage) (emmc : Emmc)
    (copy : SplCopy) : Prop :=
  ∃ image ∈ images, image.sectors <+: AbSpl.splCopy layout copy emmc

/-- The copy the ROM boots: A if its IVT is valid, and B otherwise. -/
def romCopy (layout : SplLayout) (emmc : Emmc) : SplCopy :=
  if (emmc layout.aSector).IvtValid then .a else .b

/-- A valid copy is complete, and there is a valid copy. -/
structure Bootable (layout : SplLayout) (images : List SplImage)
    (emmc : Emmc) : Prop where
  complete : ∀ copy, (emmc (layout.sector copy)).IvtValid →
    CompleteCopy layout images emmc copy
  some : ∃ copy, (emmc (layout.sector copy)).IvtValid

namespace Bootable

variable
    {layout : SplLayout} {images : List SplImage} {emmc : Emmc}

/-- The copy the ROM boots is a complete image. -/
theorem complete_romCopy (bootable : Bootable layout images emmc) :
    CompleteCopy layout images emmc (romCopy layout emmc) := by
  rw [romCopy]
  split_ifs with valid
  · exact bootable.complete .a valid
  · obtain ⟨copy, someValid⟩ := bootable.some
    cases copy with
    | a => exact absurd someValid valid
    | b => exact bootable.complete .b someValid

/-- With more images, no copy becomes incomplete. -/
theorem mono {more : List SplImage} (bootable : Bootable layout images emmc)
    (subset : images ⊆ more) : Bootable layout more emmc where
  complete copy valid := by
    obtain ⟨image, member, starts⟩ := bootable.complete copy valid
    exact ⟨image, subset member, starts⟩
  some := bootable.some

end Bootable

namespace AbSpl

section Copies

variable
    {layout : SplLayout} {images : List SplImage} {emmc other : Emmc}
    {copy : SplCopy}

/-- No sector lies in both areas. -/
theorem outside_other {i : Nat} (above : layout.sector copy.other ≤ i)
    (below : i < layout.sector copy.other + layout.areaSectors) :
    i < layout.sector copy ∨
      layout.sector copy + layout.areaSectors ≤ i := by
  have disjoint := layout.disjoint
  cases copy with
  | a =>
      simp only [SplCopy.other, SplLayout.sector] at above below ⊢
      omega
  | b =>
      simp only [SplCopy.other, SplLayout.sector] at above below ⊢
      omega

theorem splCopy_eq_cons (layout : SplLayout) (copy : SplCopy) (emmc : Emmc) :
    ∃ rest, splCopy layout copy emmc = emmc (layout.sector copy) :: rest := by
  have nonempty := layout.nonempty
  rw [splCopy]
  cases area : layout.areaSectors with
  | zero => omega
  | succ count => exact ⟨_, rfl⟩

theorem splCopy_ne_nil (layout : SplLayout) (copy : SplCopy) (emmc : Emmc) :
    splCopy layout copy emmc ≠ [] := by
  obtain ⟨rest, equal⟩ := splCopy_eq_cons layout copy emmc
  rw [equal]
  exact List.cons_ne_nil _ _

/-- The script looks at the IVT that the ROM looks at. -/
theorem startsWithIvt_splCopy :
    StartsWithIvt (splCopy layout copy emmc) ↔
      (emmc (layout.sector copy)).IvtValid := by
  obtain ⟨rest, equal⟩ := splCopy_eq_cons layout copy emmc
  rw [equal]
  rfl

/-- The two media differ in the area of one copy only. -/
def AgreeOutside (layout : SplLayout) (copy : SplCopy)
    (emmc other : Emmc) : Prop :=
  ∀ i, i < layout.sector copy ∨ layout.sector copy + layout.areaSectors ≤ i →
    other i = emmc i

theorem AgreeOutside.splCopy_other
    (agree : AgreeOutside layout copy emmc other) :
    splCopy layout copy.other other = splCopy layout copy.other emmc :=
  readSectors_congr fun i above below => agree i (outside_other above below)

theorem AgreeOutside.header_other
    (agree : AgreeOutside layout copy emmc other) :
    other (layout.sector copy.other) = emmc (layout.sector copy.other) := by
  have nonempty := layout.nonempty
  exact agree _ (outside_other (Nat.le_refl _) (by omega))

/--
While one copy is written the other one stays valid; the written one must be
invalid or complete.
-/
theorem bootable_of_agree
    (bootable : Bootable layout images emmc)
    (otherValid : (emmc (layout.sector copy.other)).IvtValid)
    (agree : AgreeOutside layout copy emmc other)
    (written : (other (layout.sector copy)).IvtValid →
      CompleteCopy layout images other copy) :
    Bootable layout images other where
  complete queried valid := by
    by_cases same : queried = copy
    · subst same
      exact written valid
    · have isOther : queried = copy.other := by
        cases queried <;> cases copy <;> first | rfl | exact absurd rfl same
      subst isOther
      rw [agree.header_other] at valid
      obtain ⟨image, member, starts⟩ := bootable.complete _ valid
      refine ⟨image, member, ?_⟩
      rwa [agree.splCopy_other]
  some := ⟨copy.other, by rwa [agree.header_other]⟩

end Copies

/-! ## The commands -/

section Commands

variable
    {layout : SplLayout} {images : List SplImage} {copy : SplCopy}
    {session : Session Emmc (Nat × Sector)}

/-- Header last, a complete image replaces a copy while the other one is valid. -/
theorem survives_splWriteHeaderLast
    (bootable : Bootable layout images session.store)
    (otherValid : (session.store (layout.sector copy.other)).IvtValid)
    {src : List Sector} (small : src.length ≤ layout.areaSectors)
    {image : SplImage} (member : image ∈ images)
    (starts : image.sectors <+: src) :
    Script.Survives (Bootable layout images)
      (splWriteHeaderLast (layout.sector copy) src src.length) session
      fun result later =>
        result = .ok PUnit.unit ∧
          AgreeOutside layout copy session.store later.store ∧
            readSectors later.store (layout.sector copy) src.length = src := by
  obtain ⟨rest, rfl⟩ := starts
  simp only [SplImage.sectors, List.cons_append, List.length_cons] at small ⊢
  generalize bodyEqual : image.body ++ rest = body at small ⊢
  have invalid :
      ∀ emmc : Emmc,
        (∀ i, i < layout.sector copy + 1 ∨
            layout.sector copy + 1 + body.length ≤ i →
          emmc i =
            Function.update session.store (layout.sector copy) Sector.zero i) →
          AgreeOutside layout copy session.store emmc ∧
            Bootable layout images emmc := by
    intro emmc agree
    have outside : AgreeOutside layout copy session.store emmc := by
      intro i away
      rw [agree i (by omega)]
      have nonempty := layout.nonempty
      exact Function.update_of_ne (by omega) _ _
    refine ⟨outside, bootable_of_agree bootable otherValid outside ?_⟩
    rw [agree _ (by omega), Function.update_self]
    exact fun valid => absurd valid Sector.not_ivtValid_zero
  have written :
      ∀ emmc : Emmc, AgreeOutside layout copy session.store emmc →
        readSectors emmc (layout.sector copy) (body.length + 1) =
            image.header :: body →
          Bootable layout images emmc := by
    intro emmc outside read
    refine bootable_of_agree bootable otherValid outside fun _ => ?_
    refine ⟨image, member, ?_⟩
    have whole := readSectors_prefix emmc (layout.sector copy) small
    rw [read] at whole
    refine List.IsPrefix.trans ?_ whole
    rw [SplImage.sectors, ← bodyEqual]
    exact ⟨rest, rfl⟩
  rw [splWriteHeaderLast]
  simp only [List.drop_succ_cons, List.drop_zero, Nat.add_sub_cancel,
    List.take_length, List.take_succ_cons, List.take_zero]
  -- the header is zeroed
  apply Script.survives_bind
  apply Script.survives_persist bootable (invalid _ fun _ _ => rfl).2
  rw [Script.ends_persist]
  -- the body is written behind an invalid header
  apply Script.survives_bind
  refine (survives_writeSectors fun emmc agree => (invalid emmc agree).2).imp ?_
  rintro result later ⟨rfl, kept, read⟩
  obtain ⟨outside, stillBootable⟩ := invalid later.store kept
  -- the header makes the copy complete
  have outsideHeader :
      AgreeOutside layout copy session.store
        (Function.update later.store (layout.sector copy) image.header) := by
    intro i away
    rw [← outside i away]
    have nonempty := layout.nonempty
    exact Function.update_of_ne (by omega) _ _
  have readHeader :
      readSectors
          (Function.update later.store (layout.sector copy) image.header)
          (layout.sector copy) (body.length + 1) =
        image.header :: body := by
    have behind :
        readSectors
            (Function.update later.store (layout.sector copy) image.header)
            (layout.sector copy + 1) body.length =
          body := by
      refine (readSectors_congr fun i above _ => ?_).trans read
      exact Function.update_of_ne (by omega) _ _
    rw [readSectors, Function.update_self, behind]
  have complete := written _ outsideHeader readHeader
  apply Script.survives_bind
  show Script.Survives _
    (Script.persist (layout.sector copy, image.header) >>= fun _ =>
      pure PUnit.unit) later _
  apply Script.survives_bind
  apply Script.survives_persist stillBootable complete
  rw [Script.ends_persist]
  apply Script.survives_pure complete
  apply Script.survives_bind
  apply Script.survives_read complete
  apply Script.survives_require complete
  · intro _
    exact ⟨rfl, outsideHeader, readHeader⟩
  · intro differs
    exact absurd readHeader differs

theorem survives_maybeReboot (noReboot : Bool)
    (bootable : Bootable layout images session.store) :
    Script.Survives (Bootable layout images) (maybeReboot noReboot) session
      fun _ _ => True := by
  rw [maybeReboot]
  exact
    Script.survives_ite (fun _ => Script.survives_pure bootable trivial)
      (fun _ => Script.survives_reboot bootable trivial)

/-- The image of a file with a valid IVT, padded to sectors. -/
def imageOfFile (file : List UInt8) (valid : FileIvtValid file) :
    SplImage where
  header := sectorAt file 0
  body := sectorsFrom file 1 (sectorCount file - 1)
  valid := by
    simpa [Sector.IvtValid, sectorAt, FileIvtValid] using valid

theorem length_sectorsFrom (file : List UInt8) (i count : Nat) :
    (sectorsFrom file i count).length = count := by
  induction count generalizing i with
  | zero => rfl
  | succ count induction => simp [sectorsFrom, induction]

/-- What `update` writes is the image of the file. -/
theorem sectors_imageOfFile {file : List UInt8} (valid : FileIvtValid file) :
    (imageOfFile file valid).sectors =
      sectorsFrom file 0 (sectorCount file) := by
  have nonempty : 0 < file.length := by
    by_contra empty
    have nil : file = [] := List.length_eq_zero_iff.mp (by omega)
    rw [FileIvtValid, nil] at valid
    exact absurd valid.1 (by decide)
  obtain ⟨count, equal⟩ :
      ∃ count, sectorCount file = count + 1 :=
    Nat.exists_eq_succ_of_ne_zero (by rw [sectorCount]; omega)
  rw [SplImage.sectors, imageOfFile, equal]
  rfl

/-- `spl_rollback` survives power cuts. -/
theorem survives_splRollback (lockFree noReboot : Bool)
    (bootable : Bootable layout images session.store) :
    Script.Survives (Bootable layout images)
      (splRollback layout lockFree noReboot) session fun _ _ => True := by
  rw [splRollback]
  refine
    Script.survives_bind
      (Script.survives_require bootable (fun _ => ?_) fun _ => trivial)
  refine Script.survives_bind (Script.survives_read bootable ?_)
  refine
    Script.survives_bind
      (Script.survives_require bootable (fun valid => ?_) fun _ => trivial)
  refine
    Script.survives_ite (fun _ => Script.survives_pure bootable trivial)
      (fun _ => ?_)
  have otherValid :
      (session.store (layout.sector SplCopy.a.other)).IvtValid :=
    startsWithIvt_splCopy.mp valid
  obtain ⟨image, member, starts⟩ := bootable.complete _ otherValid
  have size :
      (splCopy layout .b session.store).length = layout.areaSectors :=
    length_readSectors _ _ _
  have writes :=
    survives_splWriteHeaderLast bootable otherValid size.le member starts
  rw [size] at writes
  refine Script.survives_bind (writes.kept.imp ?_)
  rintro result later ⟨after, rfl, -⟩
  exact survives_maybeReboot noReboot after

/-- Keeping the running version leaves copy B valid. -/
theorem survives_keepRunning
    (bootable : Bootable layout images session.store) :
    Script.Survives (Bootable layout images)
      (keepRunning layout (splCopy layout .a session.store)) session
      fun result later =>
        result = .ok PUnit.unit ∧
          Bootable layout images later.store ∧
            (later.store layout.bSector).IvtValid := by
  apply Script.survives_ite
  · intro valid
    have otherValid :
        (session.store (layout.sector SplCopy.b.other)).IvtValid :=
      startsWithIvt_splCopy.mp valid
    obtain ⟨image, member, starts⟩ := bootable.complete _ otherValid
    have size :
        (splCopy layout .a session.store).length = layout.areaSectors :=
      length_readSectors _ _ _
    have writes :=
      survives_splWriteHeaderLast bootable otherValid size.le member starts
    rw [size] at writes
    refine writes.kept.imp ?_
    rintro result later ⟨after, done, -, read⟩
    refine ⟨done, after, ?_⟩
    have copied :
        splCopy layout .b later.store = splCopy layout .a session.store :=
      read
    have validB : StartsWithIvt (splCopy layout .b later.store) := by
      rw [copied]
      exact valid
    exact startsWithIvt_splCopy.mp validB
  · intro invalid
    refine Script.survives_pure bootable ⟨rfl, bootable, ?_⟩
    obtain ⟨copy, valid⟩ := bootable.some
    cases copy with
    | a => exact absurd (startsWithIvt_splCopy.mpr valid) invalid
    | b => exact valid

/-- `spl_update` survives power cuts. -/
theorem survives_splUpdate (devmem : Nat → Nat) (lockFree noReboot : Bool)
    (bootable : Bootable layout images session.store)
    (path : String) (file : Option (List UInt8))
    (given : ∀ new ∈ file, ∀ valid : FileIvtValid new,
      imageOfFile new valid ∈ images) :
    Script.Survives (Bootable layout images)
      (splUpdate layout devmem lockFree path file noReboot) session
      fun _ _ => True := by
  cases file with
  | none => exact Script.survives_die bootable trivial
  | some new =>
      rw [splUpdate]
      refine
        Script.survives_bind
          (Script.survives_require bootable (fun fits => ?_) fun _ => trivial)
      refine
        Script.survives_bind
          (Script.survives_require bootable (fun valid => ?_) fun _ => trivial)
      refine
        Script.survives_bind
          (Script.survives_require bootable (fun _ => ?_) fun _ => trivial)
      refine
        Script.survives_bind
          (Script.survives_require bootable (fun _ => ?_) fun _ => trivial)
      refine Script.survives_bind (Script.survives_read bootable ?_)
      refine
        Script.survives_bind ((survives_keepRunning bootable).imp ?_)
      rintro result later ⟨rfl, after, otherValid⟩
      have size :
          (sectorsFrom new 0 (sectorCount new)).length = sectorCount new :=
        length_sectorsFrom new 0 _
      have small : sectorCount new ≤ layout.areaSectors := by
        rw [sectorCount]
        omega
      have writes :=
        survives_splWriteHeaderLast after
          (show (later.store (layout.sector SplCopy.a.other)).IvtValid from
            otherValid)
          (size.trans_le small) (given new rfl valid)
          (sectors_imageOfFile valid ▸ List.prefix_refl _)
      rw [size] at writes
      refine Script.survives_bind (writes.kept.imp ?_)
      rintro last final ⟨atLast, rfl, -⟩
      exact survives_maybeReboot noReboot atLast

end Commands

end AbSpl

/-! ## Every run -/

/-- A command of `ab spl`. -/
inductive SplCommand where
  | update (path : String) (file : Option (List UInt8)) (noReboot : Bool)
  | rollback (noReboot : Bool)
  | selfheal

namespace SplCommand

def script (layout : SplLayout) (devmem : Nat → Nat) (lockFree : Bool) :
    SplCommand → AbSpl PUnit
  | .update path file noReboot =>
      AbSpl.splUpdate layout devmem lockFree path file noReboot
  | .rollback noReboot => AbSpl.splRollback layout lockFree noReboot
  | .selfheal => AbSpl.splSelfheal layout devmem lockFree

/-- The image the command is given. -/
def given : SplCommand → List SplImage
  | .update _ (some file) _ =>
      if valid : AbSpl.FileIvtValid file then [AbSpl.imageOfFile file valid]
      else []
  | _ => []

/-- Every command survives power cuts, whatever the ROM has left in memory. -/
theorem survives {layout : SplLayout} {images : List SplImage}
    {session : Session Emmc (Nat × Sector)} (command : SplCommand)
    (devmem : Nat → Nat) (lockFree : Bool)
    (bootable : Bootable layout images session.store)
    (given : command.given ⊆ images) :
    Script.Survives (Bootable layout images)
      (command.script layout devmem lockFree) session fun _ _ => True := by
  cases command with
  | update path file noReboot =>
      apply AbSpl.survives_splUpdate devmem lockFree noReboot bootable
      intro new isNew valid
      cases isNew
      apply given
      simp [SplCommand.given, valid]
  | rollback noReboot =>
      exact AbSpl.survives_splRollback lockFree noReboot bootable
  | selfheal =>
      exact
        Script.survives_ite
          (fun _ => AbSpl.survives_splRollback lockFree true bootable)
          (fun _ => Script.survives_pure bootable trivial)

end SplCommand

/-- A command runs to its end or to a power cut, or the device reboots. -/
inductive SplEvent where
  | reboot
  | runs (command : SplCommand) (devmem : Nat → Nat) (lockFree : Bool)
  /-- The power is cut after so many sectors. -/
  | cut (command : SplCommand) (devmem : Nat → Nat) (lockFree : Bool)
      (sectors : Nat)

/-- The eMMC and the images that were there or were given to `update`. -/
structure SplState where
  emmc : Emmc
  images : List SplImage

namespace SplState

/-- The state when a command has written so many sectors. -/
def moment (layout : SplLayout) (state : SplState) (command : SplCommand)
    (devmem : Nat → Nat) (lockFree : Bool) (sectors : Nat) : SplState where
  emmc :=
    Script.replay state.emmc
      ((Script.exec (command.script layout devmem lockFree)
        state.emmc).2.writes.take sectors)
  images := command.given ++ state.images

/-- The next state. -/
def step (layout : SplLayout) (state : SplState) : SplEvent → SplState
  | .reboot => state
  | .runs command devmem lockFree =>
      { emmc :=
          (Script.exec (command.script layout devmem lockFree)
            state.emmc).2.store
        images := command.given ++ state.images }
  | .cut command devmem lockFree sectors =>
      state.moment layout command devmem lockFree sectors

/-- The copy the ROM would boot is a complete image. -/
def BootsComplete (layout : SplLayout) (state : SplState) : Prop :=
  CompleteCopy layout state.images state.emmc (romCopy layout state.emmc)

/-- At every moment of the event, the ROM would boot a complete image. -/
def BootsThroughout (layout : SplLayout) (state : SplState) :
    SplEvent → Prop
  | .reboot => state.BootsComplete layout
  | .runs command devmem lockFree =>
      (∀ sectors,
        (state.moment layout command devmem lockFree sectors).BootsComplete
          layout) ∧
        (state.step layout
          (.runs command devmem lockFree)).BootsComplete layout
  | .cut command devmem lockFree sectors =>
      ∀ earlier ≤ sectors,
        (state.moment layout command devmem lockFree earlier).BootsComplete
          layout

/-- A bootable eMMC survives every command. -/
theorem survives {layout : SplLayout} {state : SplState}
    (bootable : Bootable layout state.images state.emmc)
    (command : SplCommand) (devmem : Nat → Nat) (lockFree : Bool) :
    Script.Survives
      (Bootable layout (command.given ++ state.images))
      (command.script layout devmem lockFree) ⟨state.emmc, [], false⟩
      fun _ _ => True :=
  command.survives devmem lockFree
    (bootable.mono (List.subset_append_right _ _))
    (List.subset_append_left _ _)

/-- Every event keeps the eMMC bootable. -/
theorem bootable_step {layout : SplLayout} {state : SplState}
    (bootable : Bootable layout state.images state.emmc) (event : SplEvent) :
    Bootable layout (state.step layout event).images
      (state.step layout event).emmc := by
  cases event with
  | reboot => exact bootable
  | runs command devmem lockFree =>
      exact (survives bootable command devmem lockFree).kept.2.1
  | cut command devmem lockFree sectors =>
      exact (survives bootable command devmem lockFree).cut sectors

/-- At every moment of an event, a complete image is there to boot. -/
theorem bootsThroughout {layout : SplLayout} {state : SplState}
    (bootable : Bootable layout state.images state.emmc) (event : SplEvent) :
    state.BootsThroughout layout event := by
  cases event with
  | reboot => exact bootable.complete_romCopy
  | runs command devmem lockFree =>
      refine ⟨fun sectors => ?_, (bootable_step bootable _).complete_romCopy⟩
      have kept := (survives bootable command devmem lockFree).cut sectors
      exact kept.complete_romCopy
  | cut command devmem lockFree sectors =>
      intro earlier _
      have kept := (survives bootable command devmem lockFree).cut earlier
      exact kept.complete_romCopy

/-- Two complete copies are bootable. -/
theorem bootable_of_complete {layout : SplLayout} {images : List SplImage}
    {emmc : Emmc}
    (complete : ∀ copy, CompleteCopy layout images emmc copy) :
    Bootable layout images emmc where
  complete copy _ := complete copy
  some := by
    obtain ⟨image, -, starts⟩ := complete .a
    obtain ⟨rest, equal⟩ := AbSpl.splCopy_eq_cons layout .a emmc
    rw [equal, SplImage.sectors, List.cons_prefix_cons] at starts
    exact ⟨.a, starts.1 ▸ image.valid⟩

/--
From two complete copies, at every moment of every run of updates, rollbacks,
repairs, power cuts and reboots, the ROM would boot a complete image.
-/
theorem bootsThroughout_along (layout : SplLayout) {state : SplState}
    (complete : ∀ copy,
      CompleteCopy layout state.images state.emmc copy)
    (events : List SplEvent) :
    Trace.Along (step layout) (BootsThroughout layout) state events := by
  have unguarded :
      Trace.Along (step layout) (fun _ _ => True) state events :=
    (Trace.along_event _ _ _ _).mpr fun _ _ => trivial
  refine
    @Trace.along_of_invariant _ _ _
      (fun state => Bootable layout state.images state.emmc) _ _ ?_ ?_ _ _
      (bootable_of_complete complete) unguarded
  · intro state event bootable _
    exact bootable_step bootable event
  · intro state event bootable _
    exact bootsThroughout bootable event

end SplState

namespace Bench

/-- A sector with the IVT of the i.MX 8M and nothing else. -/
def ivtSector : Sector :=
  Vector.ofFn fun i => if i = 0 then 0xd1 else if i = 3 then 0x41 else 0

theorem ivtValid_ivtSector : ivtSector.IvtValid := by
  simp [ivtSector, Sector.IvtValid]

/-- An image of one sector. -/
def splImage : SplImage where
  header := ivtSector
  body := []
  valid := ivtValid_ivtSector

/-- An eMMC that holds the image in both areas. -/
def splState : SplState where
  emmc _ := ivtSector
  images := [splImage]

/-- An update is cut, the device reboots and repairs itself. -/
def cutUpdate : List SplEvent :=
  [.cut (.update "/tmp/ab-spl.img"
      (some (0xd1 :: 0 :: 0x20 :: 0x41 :: List.replicate 600 1)) false)
      (fun _ => 0) true 6145,
    .reboot, .runs .selfheal (fun _ => 0x40000000) true]

theorem splState_bootsThroughout :
    Trace.Along (SplState.step .imx8mpDebix)
      (SplState.BootsThroughout .imx8mpDebix) splState cutUpdate := by
  apply SplState.bootsThroughout_along
  intro copy
  obtain ⟨rest, equal⟩ :=
    AbSpl.splCopy_eq_cons .imx8mpDebix copy splState.emmc
  refine ⟨splImage, List.mem_singleton_self _, ?_⟩
  rw [equal]
  exact ⟨rest, rfl⟩

end Bench

end KmmYocto
