import KmmYocto.SplCopies

/-!
# A medium that stores something else

A marginal eMMC takes a write and stores other bytes.  `spl_write_header_last`
compares what it reads back with what it wrote and stops with an error when
they differ, but by then the header is written.  The commands are modelled
again with what the medium stores for each sector as an argument; a medium
that stores what it is given makes them the commands of `AbSpl`.

What is left behind is bootable exactly if the sector that holds the IVT of
copy A did not get a valid one.
-/

namespace KmmYocto

/-- What the medium stores for the sectors of one copy. -/
structure Faults where
  /-- For the zeros that invalidate the header. -/
  zeroed : Sector → Sector
  /-- For a sector of the body, by its number. -/
  body : Nat → Sector → Sector
  header : Sector → Sector

namespace Faults

/-- The medium stores what it is given. -/
def none : Faults where
  zeroed := id
  body _ := id
  header := id

/-- The sectors of a body as they are stored. -/
def storedBody (faults : Faults) : Nat → List Sector → List Sector
  | _, [] => []
  | start, sector :: rest =>
      faults.body start sector :: faults.storedBody (start + 1) rest

/-- The sectors of a copy as they are stored. -/
def stored (faults : Faults) (dst : Nat) : List Sector → List Sector
  | [] => []
  | header :: body => faults.header header :: faults.storedBody (dst + 1) body

@[simp]
theorem length_storedBody (faults : Faults) (start : Nat)
    (body : List Sector) : (faults.storedBody start body).length = body.length := by
  induction body generalizing start with
  | nil => rfl
  | cons sector rest induction => simp [storedBody, induction]

@[simp]
theorem length_stored (faults : Faults) (dst : Nat) (src : List Sector) :
    (faults.stored dst src).length = src.length := by
  cases src with
  | nil => rfl
  | cons header body => simp [stored]

@[simp]
theorem storedBody_none (start : Nat) (body : List Sector) :
    none.storedBody start body = body := by
  induction body generalizing start with
  | nil => rfl
  | cons sector rest induction =>
      rw [storedBody, induction]
      rfl

@[simp]
theorem stored_none (dst : Nat) (src : List Sector) :
    none.stored dst src = src := by
  cases src with
  | nil => rfl
  | cons header body =>
      rw [stored, storedBody_none]
      rfl

end Faults

namespace AbSpl

/-! ## Sectors put over others -/

/-- The medium with the sectors over its content. -/
def putSectors (emmc : Emmc) : Nat → List Sector → Emmc
  | _, [] => emmc
  | start, sector :: rest =>
      putSectors (Function.update emmc start sector) (start + 1) rest

theorem putSectors_of_outside {emmc : Emmc} {start : Nat}
    {sectors : List Sector} {i : Nat}
    (outside : i < start ∨ start + sectors.length ≤ i) :
    putSectors emmc start sectors i = emmc i := by
  induction sectors generalizing emmc start with
  | nil => rfl
  | cons sector rest induction =>
      rw [List.length_cons] at outside
      rw [putSectors, induction (by omega)]
      exact Function.update_of_ne (by omega) _ _

/-- The first sector is the first of those that are put there. -/
theorem putSectors_start (emmc : Emmc) (start : Nat) (sector : Sector)
    (rest : List Sector) :
    putSectors emmc start (sector :: rest) start = sector := by
  rw [putSectors, putSectors_of_outside (.inl (Nat.lt_succ_self _))]
  exact Function.update_self _ _ _

theorem readSectors_putSectors (emmc : Emmc) (start : Nat)
    (sectors : List Sector) :
    readSectors (putSectors emmc start sectors) start sectors.length =
      sectors := by
  induction sectors generalizing emmc start with
  | nil => rfl
  | cons sector rest induction =>
      rw [List.length_cons, readSectors, putSectors_start, putSectors,
        induction]

/-- Sectors put behind a sector do not touch it. -/
theorem putSectors_update {i start : Nat} (before : i < start) (emmc : Emmc)
    (sector : Sector) (sectors : List Sector) :
    putSectors (Function.update emmc i sector) start sectors =
      Function.update (putSectors emmc start sectors) i sector := by
  induction sectors generalizing emmc start with
  | nil => rfl
  | cons first rest induction =>
      rw [putSectors, putSectors, Function.update_comm (by omega),
        induction (by omega)]

/-- A header put over a body that is in place. -/
theorem update_putSectors (emmc : Emmc) (dst : Nat) (zeroed header : Sector)
    (body : List Sector) :
    Function.update
        (putSectors (Function.update emmc dst zeroed) (dst + 1) body) dst
        header =
      putSectors emmc dst (header :: body) := by
  rw [putSectors, putSectors_update (Nat.lt_succ_self _),
    putSectors_update (Nat.lt_succ_self _), Function.update_idem]

/-! ## The commands on such a medium -/

namespace Faulty

/-- `dd` to the eMMC. -/
def writeSectors (stores : Nat → Sector → Sector) :
    Nat → List Sector → AbSpl PUnit
  | _, [] => pure PUnit.unit
  | start, sector :: rest => do
      Script.persist (start, stores start sector)
      writeSectors stores (start + 1) rest

/-- `spl_write_header_last`. -/
def splWriteHeaderLast (faults : Faults) (dst : Nat) (src : List Sector)
    (cnt : Nat) : AbSpl PUnit := do
  Script.persist (dst, faults.zeroed Sector.zero)
  writeSectors faults.body (dst + 1) ((src.drop 1).take (cnt - 1))
  writeSectors (fun _ => faults.header) dst (src.take 1)
  let emmc ← Script.read
  Script.require (readSectors emmc dst cnt = src)
    s!"ab: セクタ {dst} からの読み戻しが一致しない"

/-- Step 1/2 of `spl_update`. -/
def keepRunning (layout : SplLayout) (faults : Faults) (src : List Sector) :
    AbSpl PUnit :=
  if StartsWithIvt src then
    splWriteHeaderLast faults layout.bSector src layout.areaSectors
  else pure PUnit.unit

/-- `spl_update <flash.bin>`. -/
def splUpdate (layout : SplLayout) (faults : SplCopy → Faults)
    (devmem : Nat → Nat) (lockFree : Bool) (path : String)
    (file : Option (List UInt8)) (noReboot : Bool) : AbSpl PUnit := do
  match file with
  | none => Script.die "ab: 使い方: ab spl update <flash.bin>"
  | some new => do
      let size := new.length
      Script.require (size ≤ layout.areaSectors * 512)
        s!"ab: {path} ({size}B) がコピー領域より大きい"
      Script.require (FileIvtValid new) s!"ab: {path} の先頭に正しい IVT が無い"
      Script.require (splActiveCopy devmem = .a)
        "ab: B コピーで起動中 (A が壊れて ROM が切り替えた)。起動時の自動修復の後に再起動してから実行する"
      Script.require (lockFree = true) "ab: 別の ab の操作が実行中"
      let emmc ← Script.read
      keepRunning layout (faults .b) (splCopy layout .a emmc)
      splWriteHeaderLast (faults .a) layout.aSector
        (sectorsFrom new 0 (sectorCount new)) (sectorCount new)
      maybeReboot noReboot

/-- `spl_rollback`. -/
def splRollback (layout : SplLayout) (faults : SplCopy → Faults)
    (lockFree noReboot : Bool) : AbSpl PUnit := do
  Script.require (lockFree = true) "ab: 別の ab の操作が実行中"
  let emmc ← Script.read
  let src := splCopy layout .b emmc
  Script.require (StartsWithIvt src) "ab: B に正しい IVT が無く、戻す先が無い"
  if splCopy layout .a emmc = src then
    pure PUnit.unit
  else do
    splWriteHeaderLast (faults .a) layout.aSector src layout.areaSectors
    maybeReboot noReboot

/-- `spl_selfheal`. -/
def splSelfheal (layout : SplLayout) (faults : SplCopy → Faults)
    (devmem : Nat → Nat) (lockFree : Bool) : AbSpl PUnit :=
  if splActiveCopy devmem = .b then splRollback layout faults lockFree true
  else pure PUnit.unit

/-! ## A medium without faults -/

theorem writeSectors_none (start : Nat) (sectors : List Sector) :
    writeSectors (fun _ sector => sector) start sectors =
      AbSpl.writeSectors start sectors := by
  induction sectors generalizing start with
  | nil => rfl
  | cons sector rest induction =>
      rw [writeSectors, AbSpl.writeSectors, induction]

theorem splWriteHeaderLast_none (dst : Nat) (src : List Sector) (cnt : Nat) :
    splWriteHeaderLast .none dst src cnt =
      AbSpl.splWriteHeaderLast dst src cnt := by
  rw [splWriteHeaderLast, AbSpl.splWriteHeaderLast, ← writeSectors_none,
    ← writeSectors_none]
  rfl

theorem keepRunning_none (layout : SplLayout) (src : List Sector) :
    keepRunning layout .none src = AbSpl.keepRunning layout src := by
  rw [keepRunning, AbSpl.keepRunning, splWriteHeaderLast_none]

theorem splUpdate_none (layout : SplLayout) (devmem : Nat → Nat)
    (lockFree : Bool) (path : String) (file : Option (List UInt8))
    (noReboot : Bool) :
    splUpdate layout (fun _ => .none) devmem lockFree path file noReboot =
      AbSpl.splUpdate layout devmem lockFree path file noReboot := by
  cases file with
  | none => rfl
  | some new =>
      simp only [splUpdate, AbSpl.splUpdate, keepRunning_none,
        splWriteHeaderLast_none]

theorem splRollback_none (layout : SplLayout) (lockFree noReboot : Bool) :
    splRollback layout (fun _ => .none) lockFree noReboot =
      AbSpl.splRollback layout lockFree noReboot := by
  simp only [splRollback, AbSpl.splRollback, splWriteHeaderLast_none]

theorem splSelfheal_none (layout : SplLayout) (devmem : Nat → Nat)
    (lockFree : Bool) :
    splSelfheal layout (fun _ => .none) devmem lockFree =
      AbSpl.splSelfheal layout devmem lockFree := by
  rw [splSelfheal, AbSpl.splSelfheal, splRollback_none]

/-! ## Where the commands end -/

section Ends

variable
    {layout : SplLayout} {session : Session Emmc (Nat × Sector)}

/-- The error of `spl_write_header_last`. -/
def readBackError (dst : Nat) : String :=
  s!"ab: セクタ {dst} からの読み戻しが一致しない"

theorem exists_writeSectors (faults : Faults) (start : Nat)
    (sectors : List Sector) (session : Session Emmc (Nat × Sector)) :
    ∃ later,
      writeSectors faults.body start sectors session =
          (.ok PUnit.unit, later) ∧
        later.store =
            putSectors session.store start (faults.storedBody start sectors) ∧
          later.rebooting = session.rebooting := by
  induction sectors generalizing start session with
  | nil => exact ⟨session, rfl, rfl, rfl⟩
  | cons sector rest induction =>
      obtain ⟨later, ran, store, rebooting⟩ :=
        induction (start + 1)
          { session with
            store :=
              Function.update session.store start (faults.body start sector)
            writes :=
              session.writes ++ [(start, faults.body start sector)] }
      exact ⟨later, ran, store, rebooting⟩

/-- The copy is stored as the medium does, and compared with what it was. -/
theorem exists_splWriteHeaderLast (faults : Faults) (dst : Nat)
    {src : List Sector} (nonempty : src ≠ [])
    (session : Session Emmc (Nat × Sector)) :
    ∃ later,
      splWriteHeaderLast faults dst src src.length session =
          (if faults.stored dst src = src then .ok PUnit.unit
            else .error (readBackError dst), later) ∧
        later.store = putSectors session.store dst (faults.stored dst src) ∧
          later.rebooting = session.rebooting := by
  cases src with
  | nil => exact absurd rfl nonempty
  | cons header body =>
      obtain ⟨middle, ran, store, rebooting⟩ :=
        exists_writeSectors faults (dst + 1) body
          { session with
            store :=
              Function.update session.store dst (faults.zeroed Sector.zero)
            writes :=
              session.writes ++ [(dst, faults.zeroed Sector.zero)] }
      let later : Session Emmc (Nat × Sector) :=
        { middle with
          store := Function.update middle.store dst (faults.header header)
          writes := middle.writes ++ [(dst, faults.header header)] }
      have final :
          later.store =
            putSectors session.store dst (faults.stored dst (header :: body)) := by
        rw [Faults.stored, ← update_putSectors _ _ (faults.zeroed Sector.zero)]
        exact congrArg (Function.update · dst _) store
      have read :
          readSectors later.store dst (body.length + 1) =
            faults.stored dst (header :: body) := by
        have put :=
          readSectors_putSectors session.store dst
            (faults.stored dst (header :: body))
        rw [Faults.length_stored, List.length_cons] at put
        rw [final, put]
      refine ⟨later, ?_, final, rebooting⟩
      have wholeBody :
          ((header :: body).drop 1).take ((header :: body).length - 1) =
            body := by
        simp
      have zeroes :
          (Script.persist (dst, faults.zeroed Sector.zero) : AbSpl PUnit)
              session =
            (.ok PUnit.unit,
              { session with
                store :=
                  Function.update session.store dst
                    (faults.zeroed Sector.zero)
                writes :=
                  session.writes ++ [(dst, faults.zeroed Sector.zero)] }) :=
        rfl
      have heads :
          writeSectors (fun _ => faults.header) dst
              ((header :: body).take 1) middle =
            (.ok PUnit.unit, later) :=
        rfl
      rw [splWriteHeaderLast, wholeBody, Script.bind_apply, zeroes]
      simp only [Script.bind_apply, ran, heads, Script.read,
        List.length_cons, read, Script.require]
      split_ifs <;> rfl

theorem ends_maybeReboot_iff (noReboot : Bool)
    (post : Except String PUnit → Emmc → Prop) :
    Script.Ends (maybeReboot noReboot) session
        (fun result later => post result later.store) ↔
      post (.ok PUnit.unit) session.store := by
  rw [maybeReboot]
  split_ifs <;> rfl

end Ends

end Faulty

/-! ## The errors of a read-back -/

open Faulty (readBackError)

theorem toList_readBackError (dst : Nat) :
    (readBackError dst).toList =
      "ab: セクタ ".toList ++
        (dst.repr.toList ++ " からの読み戻しが一致しない".toList) := by
  have text :
      readBackError dst =
        "ab: セクタ " ++ dst.repr ++ " からの読み戻しが一致しない" :=
    rfl
  rw [text, String.toList_append, String.toList_append, List.append_assoc]

/-- The error names the copy that was written. -/
theorem readBackError_inj {layout : SplLayout} {copy other : SplCopy}
    (same :
      readBackError (layout.sector copy) =
        readBackError (layout.sector other)) : copy = other := by
  have digits : (layout.sector copy).repr = (layout.sector other).repr := by
    have chars := congrArg String.toList same
    rw [toList_readBackError, toList_readBackError,
      List.append_cancel_left_eq, List.append_cancel_right_eq] at chars
    exact String.toList_injective chars
  have sector : layout.sector copy = layout.sector other :=
    Nat.repr_injective digits
  have disjoint := layout.disjoint
  have nonempty := layout.nonempty
  cases copy <;> cases other <;>
    simp only [SplLayout.sector] at sector <;> first | rfl | omega

/-- An error with another ending is none of a read-back. -/
theorem ne_readBackError {message : String} (dst : Nat)
    (other : ¬ ['な', 'い'] <:+ message.toList) :
    message ≠ readBackError dst := by
  rintro rfl
  apply other
  have ending :
      ['な', 'い'] <:+ " からの読み戻しが一致しない".toList := by
    decide +kernel
  rw [toList_readBackError]
  exact (ending.trans (List.suffix_append _ _)).trans (List.suffix_append _ _)

/-- Names and sizes in front do not change the ending. -/
theorem not_suffix_append {front back : String}
    (long : 2 ≤ back.toList.length)
    (other : ¬ ['な', 'い'] <:+ back.toList) :
    ¬ ['な', 'い'] <:+ (front ++ back).toList := by
  rw [String.toList_append]
  intro ends
  exact other
    (List.suffix_of_suffix_length_le ends (List.suffix_append _ _) long)

/-! ## What a failed write leaves -/

/--
After the error of a read-back, the ROM boots a complete copy, and not the one
that failed.
-/
def FailureBoots (layout : SplLayout) (images : List SplImage)
    (result : Except String PUnit) (final : Emmc) : Prop :=
  ∀ copy, result = .error (readBackError (layout.sector copy)) →
    romCopy layout final ≠ copy ∧
      CompleteCopy layout images final (romCopy layout final)

section Failing

variable
    {layout : SplLayout} {images : List SplImage} {emmc final : Emmc}

theorem failureBoots_ok (value : PUnit) :
    FailureBoots layout images (.ok value) final := by
  intro copy failed
  cases failed

theorem failureBoots_of_other {message : String}
    (other : ¬ ['な', 'い'] <:+ message.toList) :
    FailureBoots layout images (.error message) final := by
  intro copy same
  exact absurd (Except.error.inj same) (ne_readBackError _ other)

theorem agreeOutside_putSectors {copy : SplCopy} {sectors : List Sector}
    (small : sectors.length ≤ layout.areaSectors) :
    AgreeOutside layout copy emmc
      (putSectors emmc (layout.sector copy) sectors) :=
  fun _ away => putSectors_of_outside (by omega)

theorem splCopy_putSectors (emmc : Emmc) {copy : SplCopy}
    {sectors : List Sector} (whole : sectors.length = layout.areaSectors) :
    splCopy layout copy (putSectors emmc (layout.sector copy) sectors) =
      sectors := by
  rw [splCopy, ← whole]
  exact readSectors_putSectors emmc _ sectors

theorem AgreeOutside.completeCopy_other {copy : SplCopy}
    (agree : AgreeOutside layout copy emmc final)
    (complete : CompleteCopy layout images emmc copy.other) :
    CompleteCopy layout images final copy.other := by
  rw [CompleteCopy, agree.splCopy_other]
  exact complete

/-- While B is written, the ROM boots the A that is saved to it. -/
theorem failureBoots_b (valid : (emmc layout.aSector).IvtValid)
    (complete : CompleteCopy layout images emmc .a) {sectors : List Sector}
    (small : sectors.length ≤ layout.areaSectors) :
    FailureBoots layout images (.error (readBackError layout.bSector))
      (putSectors emmc layout.bSector sectors) := by
  have agree :
      AgreeOutside layout .b emmc (putSectors emmc layout.bSector sectors) :=
    agreeOutside_putSectors small
  have boots : romCopy layout (putSectors emmc layout.bSector sectors) = .a := by
    have header :
        putSectors emmc layout.bSector sectors layout.aSector =
          emmc layout.aSector :=
      agree.header_other
    rw [romCopy, header, if_pos valid]
  intro copy same
  have failed : SplCopy.b = copy :=
    readBackError_inj (Except.error.inj same)
  rw [boots, ← failed]
  exact ⟨by simp, agree.completeCopy_other complete⟩

/-- While A is written, the ROM boots B unless A's header is valid. -/
theorem failureBoots_a_iff (complete : CompleteCopy layout images emmc .b)
    {header : Sector} {body : List Sector}
    (small : (header :: body).length ≤ layout.areaSectors) :
    FailureBoots layout images (.error (readBackError layout.aSector))
        (putSectors emmc layout.aSector (header :: body)) ↔
      ¬ header.IvtValid := by
  have agree :
      AgreeOutside layout .a emmc
        (putSectors emmc layout.aSector (header :: body)) :=
    agreeOutside_putSectors small
  have boots :
      romCopy layout (putSectors emmc layout.aSector (header :: body)) =
        if header.IvtValid then .a else .b := by
    rw [romCopy, putSectors_start]
  constructor
  · intro kept valid
    exact (kept .a rfl).1 (boots.trans (if_pos valid))
  · intro invalid copy same
    have failed : SplCopy.a = copy :=
      readBackError_inj (Except.error.inj same)
    rw [boots, if_neg invalid, ← failed]
    exact ⟨by simp, agree.completeCopy_other complete⟩

variable
    {session : Session Emmc (Nat × Sector)} {faults : Faults}
    {src : List Sector}

/-- The last part of a command that writes A. -/
theorem ends_writeA_iff (noReboot : Bool)
    (complete : CompleteCopy layout images session.store .b)
    (nonempty : src ≠ []) (small : src.length ≤ layout.areaSectors) :
    Script.Ends
        (Faulty.splWriteHeaderLast faults layout.aSector src src.length >>=
          fun _ => maybeReboot noReboot)
        session
        (fun result later => FailureBoots layout images result later.store) ↔
      (faults.stored layout.aSector src ≠ src →
        ¬ StartsWithIvt (faults.stored layout.aSector src)) := by
  obtain ⟨later, ran, store, -⟩ :=
    Faulty.exists_splWriteHeaderLast faults layout.aSector nonempty session
  rw [Script.ends_bind, Script.ends_iff, ran]
  by_cases same : faults.stored layout.aSector src = src
  · simp only [if_pos same]
    rw [Faulty.ends_maybeReboot_iff noReboot (FailureBoots layout images)]
    exact iff_of_true (failureBoots_ok _) fun differs => absurd same differs
  · simp only [if_neg same, store]
    rw [imp_iff_right same]
    cases src with
    | nil => exact absurd rfl nonempty
    | cons header body =>
        apply failureBoots_a_iff complete
        simpa using small

/-- The two writes of an update: the running A goes to B, the new one to A. -/
theorem ends_updateWrites_iff {faults : SplCopy → Faults} (noReboot : Bool)
    (bootable : Bootable layout images session.store)
    (nonempty : src ≠ []) (small : src.length ≤ layout.areaSectors) :
    Script.Ends
        (Faulty.keepRunning layout (faults .b)
            (splCopy layout .a session.store) >>=
          fun _ =>
            Faulty.splWriteHeaderLast (faults .a) layout.aSector src
                src.length >>=
              fun _ => maybeReboot noReboot)
        session
        (fun result later => FailureBoots layout images result later.store) ↔
      ((session.store layout.aSector).IvtValid →
        (faults .b).stored layout.bSector (splCopy layout .a session.store) =
          splCopy layout .a session.store) →
        (faults .a).stored layout.aSector src ≠ src →
          ¬ StartsWithIvt ((faults .a).stored layout.aSector src) := by
  have size :
      (splCopy layout .a session.store).length = layout.areaSectors :=
    length_readSectors _ _ _
  rw [Faulty.keepRunning]
  by_cases valid : (session.store layout.aSector).IvtValid
  · have runs : StartsWithIvt (splCopy layout .a session.store) :=
      startsWithIvt_splCopy.mpr valid
    obtain ⟨later, ran, store, -⟩ :=
      Faulty.exists_splWriteHeaderLast (faults .b) layout.bSector
        (splCopy_ne_nil layout .a session.store) session
    rw [size] at ran
    rw [if_pos runs, Script.ends_bind, Script.ends_iff, ran,
      imp_iff_right valid]
    by_cases same :
        (faults .b).stored layout.bSector
            (splCopy layout .a session.store) =
          splCopy layout .a session.store
    · have copied :
          splCopy layout .b later.store = splCopy layout .a session.store := by
        rw [same] at store
        rw [store]
        exact splCopy_putSectors session.store size
      have complete : CompleteCopy layout images later.store .b := by
        obtain ⟨image, member, starts⟩ := bootable.complete .a valid
        exact ⟨image, member, copied ▸ starts⟩
      simp only [if_pos same]
      rw [ends_writeA_iff noReboot complete nonempty small]
      exact ⟨fun fails _ => fails, fun fails => fails same⟩
    · simp only [if_neg same, store]
      refine iff_of_true
        (failureBoots_b valid (bootable.complete .a valid) ?_)
        fun copied => absurd copied same
      rw [Faults.length_stored, size]
  · have broken : ¬ StartsWithIvt (splCopy layout .a session.store) :=
      mt startsWithIvt_splCopy.mp valid
    have complete : CompleteCopy layout images session.store .b := by
      obtain ⟨copy, someValid⟩ := bootable.some
      cases copy with
      | a => exact absurd someValid valid
      | b => exact bootable.complete .b someValid
    rw [if_neg broken, pure_bind,
      ends_writeA_iff noReboot complete nonempty small,
      imp_iff_right fun isValid => absurd isValid valid]

/-- What is refused before anything is written is no error of a read-back. -/
theorem ends_require_iff {condition target : Prop} [Decidable condition]
    {message : String} (other : ¬ ['な', 'い'] <:+ message.toList)
    {rest : AbSpl PUnit}
    (passed : condition →
      (Script.Ends rest session
          (fun result later =>
            FailureBoots layout images result later.store) ↔
        target)) :
    Script.Ends (Script.require condition message >>= fun _ => rest) session
        (fun result later => FailureBoots layout images result later.store) ↔
      (condition → target) := by
  rw [Script.ends_bind, Script.ends_require]
  refine (and_iff_left fun _ => failureBoots_of_other other).trans ?_
  exact forall_congr' passed

/-- A rollback, up to the point where it has read what it restores. -/
theorem ends_splRollback_iff {faults : SplCopy → Faults}
    (lockFree noReboot : Bool)
    (bootable : Bootable layout images session.store) :
    Script.Ends (Faulty.splRollback layout faults lockFree noReboot) session
        (fun result later => FailureBoots layout images result later.store) ↔
      (lockFree = true → (session.store layout.bSector).IvtValid →
        splCopy layout .a session.store ≠ splCopy layout .b session.store →
          (faults .a).stored layout.aSector
                (splCopy layout .b session.store) ≠
              splCopy layout .b session.store →
            ¬ StartsWithIvt
              ((faults .a).stored layout.aSector
                (splCopy layout .b session.store))) := by
  have size :
      (splCopy layout .b session.store).length = layout.areaSectors :=
    length_readSectors _ _ _
  have header :
      StartsWithIvt (splCopy layout .b session.store) ↔
        (session.store layout.bSector).IvtValid :=
    startsWithIvt_splCopy
  rw [Faulty.splRollback]
  refine ends_require_iff (by decide +kernel) fun _ => ?_
  rw [Script.ends_bind, Script.ends_read]
  dsimp only
  rw [← header]
  refine ends_require_iff (by decide +kernel) fun valid => ?_
  rw [Script.ends_ite]
  refine (and_iff_right fun _ => failureBoots_ok _).trans ?_
  refine forall_congr' fun _ => ?_
  have writes :=
    @ends_writeA_iff layout images session (faults .a) _ noReboot
      (bootable.complete .b (header.mp valid)) (splCopy_ne_nil layout .b _)
      size.le
  rw [size] at writes
  exact writes

/-- An update, up to the point where it has read copy A. -/
theorem ends_splUpdate_iff {faults : SplCopy → Faults}
    (devmem : Nat → Nat) (lockFree noReboot : Bool)
    (bootable : Bootable layout images session.store) (path : String)
    (new : List UInt8) :
    Script.Ends
        (Faulty.splUpdate layout faults devmem lockFree path (some new)
          noReboot)
        session
        (fun result later => FailureBoots layout images result later.store) ↔
      (new.length ≤ layout.areaSectors * 512 → FileIvtValid new →
        splActiveCopy devmem = .a → lockFree = true →
          ((session.store layout.aSector).IvtValid →
            (faults .b).stored layout.bSector
                (splCopy layout .a session.store) =
              splCopy layout .a session.store) →
            (faults .a).stored layout.aSector
                  (sectorsFrom new 0 (sectorCount new)) ≠
                sectorsFrom new 0 (sectorCount new) →
              ¬ StartsWithIvt
                ((faults .a).stored layout.aSector
                  (sectorsFrom new 0 (sectorCount new)))) := by
  have size : (sectorsFrom new 0 (sectorCount new)).length = sectorCount new :=
    length_sectorsFrom new 0 _
  have large := fun front =>
    @not_suffix_append front "B) がコピー領域より大きい" (by decide +kernel)
      (by decide +kernel)
  have noIvt := fun front =>
    @not_suffix_append front " の先頭に正しい IVT が無い" (by decide +kernel)
      (by decide +kernel)
  rw [Faulty.splUpdate]
  refine ends_require_iff (large _) fun fits => ?_
  refine ends_require_iff (noIvt _) fun valid => ?_
  refine ends_require_iff (by decide +kernel) fun _ => ?_
  refine ends_require_iff (by decide +kernel) fun _ => ?_
  rw [Script.ends_bind, Script.ends_read]
  have nonempty : sectorsFrom new 0 (sectorCount new) ≠ [] := by
    rw [← sectors_imageOfFile valid]
    exact List.cons_ne_nil _ _
  have small :
      (sectorsFrom new 0 (sectorCount new)).length ≤ layout.areaSectors := by
    rw [size, sectorCount]
    omega
  have writes :=
    @ends_updateWrites_iff layout images session _ faults noReboot bootable
      nonempty small
  rw [size] at writes
  exact writes

end Failing

end AbSpl

namespace SplCommand

open AbSpl

/-- The command on a medium that stores what it likes. -/
def faultyScript (layout : SplLayout) (faults : SplCopy → Faults)
    (devmem : Nat → Nat) (lockFree : Bool) : SplCommand → AbSpl PUnit
  | .update path file noReboot =>
      Faulty.splUpdate layout faults devmem lockFree path file noReboot
  | .rollback noReboot => Faulty.splRollback layout faults lockFree noReboot
  | .selfheal => Faulty.splSelfheal layout faults devmem lockFree

theorem faultyScript_none (layout : SplLayout) (devmem : Nat → Nat)
    (lockFree : Bool) (command : SplCommand) :
    command.faultyScript layout (fun _ => .none) devmem lockFree =
      command.script layout devmem lockFree := by
  cases command with
  | update path file noReboot =>
      exact Faulty.splUpdate_none _ _ _ _ _ _
  | rollback noReboot => exact Faulty.splRollback_none _ _ _
  | selfheal => exact Faulty.splSelfheal_none _ _ _

/-- What a rollback writes to A, if it comes to that. -/
def restores (layout : SplLayout) (lockFree : Bool) (emmc : Emmc) :
    Option (List Sector) :=
  if lockFree = true ∧ (emmc layout.bSector).IvtValid ∧
      splCopy layout .a emmc ≠ splCopy layout .b emmc then
    some (splCopy layout .b emmc)
  else none

/-- What a command writes to A, if it comes to that. -/
def toA (layout : SplLayout) (faults : SplCopy → Faults)
    (devmem : Nat → Nat) (lockFree : Bool) (emmc : Emmc) :
    SplCommand → Option (List Sector)
  | .update _ none _ => none
  | .update _ (some new) _ =>
      if (new.length ≤ layout.areaSectors * 512 ∧ FileIvtValid new ∧
            splActiveCopy devmem = .a ∧ lockFree = true) ∧
          ((emmc layout.aSector).IvtValid →
            (faults .b).stored layout.bSector (splCopy layout .a emmc) =
              splCopy layout .a emmc) then
        some (sectorsFrom new 0 (sectorCount new))
      else none
  | .rollback _ => restores layout lockFree emmc
  | .selfheal =>
      if splActiveCopy devmem = .b then restores layout lockFree emmc
      else none

/-- A copy A that differs from what was written gets a valid IVT. -/
def HeaderLands (layout : SplLayout) (faults : SplCopy → Faults)
    (devmem : Nat → Nat) (lockFree : Bool) (emmc : Emmc)
    (command : SplCommand) : Prop :=
  ∃ src ∈ command.toA layout faults devmem lockFree emmc,
    (faults .a).stored layout.aSector src ≠ src ∧
      StartsWithIvt ((faults .a).stored layout.aSector src)

section

variable
    {layout : SplLayout} {images : List SplImage} {emmc : Emmc}
    {faults : SplCopy → Faults} {devmem : Nat → Nat} {lockFree : Bool}

theorem not_headerLands_restores_iff :
    (¬ ∃ src ∈ restores layout lockFree emmc,
        (faults .a).stored layout.aSector src ≠ src ∧
          StartsWithIvt ((faults .a).stored layout.aSector src)) ↔
      (lockFree = true → (emmc layout.bSector).IvtValid →
        splCopy layout .a emmc ≠ splCopy layout .b emmc →
          (faults .a).stored layout.aSector (splCopy layout .b emmc) ≠
              splCopy layout .b emmc →
            ¬ StartsWithIvt
              ((faults .a).stored layout.aSector
                (splCopy layout .b emmc))) := by
  rw [restores]
  split_ifs with comes
  · obtain ⟨free, valid, differ⟩ := comes
    simp only [Option.mem_def, Option.some.injEq, exists_eq_left', not_and]
    exact ⟨fun fails _ _ _ => fails, fun fails => fails free valid differ⟩
  · refine iff_of_true nofun fun free valid differ => ?_
    exact absurd ⟨free, valid, differ⟩ comes

theorem failureBoots_rollback_iff {noReboot : Bool}
    (bootable : Bootable layout images emmc) :
    FailureBoots layout images
        (Script.exec
          ((SplCommand.rollback noReboot).faultyScript layout faults devmem
            lockFree) emmc).1
        (Script.exec
          ((SplCommand.rollback noReboot).faultyScript layout faults devmem
            lockFree) emmc).2.store ↔
      (lockFree = true → (emmc layout.bSector).IvtValid →
        splCopy layout .a emmc ≠ splCopy layout .b emmc →
          (faults .a).stored layout.aSector (splCopy layout .b emmc) ≠
              splCopy layout .b emmc →
            ¬ StartsWithIvt
              ((faults .a).stored layout.aSector
                (splCopy layout .b emmc))) :=
  @ends_splRollback_iff layout images ⟨emmc, [], false⟩ faults lockFree
    noReboot bootable

/--
The error of a read-back leaves the device booting a complete copy exactly if
the header of a copy A that failed did not get a valid IVT.
-/
theorem failureBoots_iff (bootable : Bootable layout images emmc)
    (faults : SplCopy → Faults) (devmem : Nat → Nat) (lockFree : Bool)
    (command : SplCommand) :
    FailureBoots layout images
        (Script.exec (command.faultyScript layout faults devmem lockFree)
          emmc).1
        (Script.exec (command.faultyScript layout faults devmem lockFree)
          emmc).2.store ↔
      ¬ command.HeaderLands layout faults devmem lockFree emmc := by
  cases command with
  | update path file noReboot =>
      cases file with
      | none =>
          refine iff_of_true (failureBoots_of_other (by decide +kernel)) ?_
          rintro ⟨src, comes, -⟩
          cases comes
      | some new =>
          refine
            (@ends_splUpdate_iff layout images ⟨emmc, [], false⟩ faults devmem
              lockFree noReboot bootable path new).trans ?_
          rw [HeaderLands, toA]
          split_ifs with comes
          · obtain ⟨⟨fits, valid, active, free⟩, saved⟩ := comes
            simp only [Option.mem_def, Option.some.injEq, exists_eq_left',
              not_and]
            exact
              ⟨fun fails => fails fits valid active free saved,
                fun fails _ _ _ _ _ => fails⟩
          · refine iff_of_true (fun fits valid active free saved => ?_) nofun
            exact absurd ⟨⟨fits, valid, active, free⟩, saved⟩ comes
  | rollback noReboot =>
      exact
        (failureBoots_rollback_iff bootable).trans
          not_headerLands_restores_iff.symm
  | selfheal =>
      rw [HeaderLands, toA]
      by_cases heals : splActiveCopy devmem = .b
      · rw [if_pos heals, faultyScript, Faulty.splSelfheal, if_pos heals]
        exact
          (@ends_splRollback_iff layout images ⟨emmc, [], false⟩ faults
            lockFree true bootable).trans not_headerLands_restores_iff.symm
      · rw [if_neg heals, faultyScript, Faulty.splSelfheal, if_neg heals]
        exact iff_of_true (failureBoots_ok _) nofun

end

end SplCommand

namespace Bench

/-- Images of two sectors, which differ in their body. -/
def splImageOf (body : Sector) : SplImage where
  header := ivtSector
  body := [body]
  valid := ivtValid_ivtSector

def otherSector : Sector :=
  Vector.replicate 512 1

/-- An eMMC with another image in copy A than in copy B. -/
def twoImages : Emmc :=
  Function.update (fun _ => ivtSector) 65 otherSector

/-- Every body sector of copy A reads as zeros, whatever is written there. -/
def badSector : SplCopy → Faults
  | .a => { Faults.none with body := fun _ _ => Sector.zero }
  | .b => .none

section

open AbSpl

theorem splCopy_a_twoImages :
    ∃ rest,
      splCopy .imx8mpDebix .a twoImages = ivtSector :: otherSector :: rest :=
  ⟨readSectors twoImages 66 6142, rfl⟩

theorem splCopy_b_twoImages :
    ∃ rest,
      splCopy .imx8mpDebix .b twoImages = ivtSector :: ivtSector :: rest :=
  ⟨readSectors twoImages 8194 6142, rfl⟩

theorem bootable_twoImages :
    Bootable .imx8mpDebix [splImageOf otherSector, splImageOf ivtSector]
      twoImages where
  complete copy _ := by
    cases copy with
    | a =>
        obtain ⟨rest, equal⟩ := splCopy_a_twoImages
        refine ⟨splImageOf otherSector, by simp, ?_⟩
        rw [equal]
        exact ⟨rest, rfl⟩
    | b =>
        obtain ⟨rest, equal⟩ := splCopy_b_twoImages
        refine ⟨splImageOf ivtSector, by simp, ?_⟩
        rw [equal]
        exact ⟨rest, rfl⟩
  some := ⟨.b, ivtValid_ivtSector⟩

end

end Bench

namespace SplCommand

/-- A rollback whose copy of B reads back wrong. -/
theorem failureBoots_badSector :
    AbSpl.FailureBoots .imx8mpDebix
        [Bench.splImageOf Bench.otherSector,
          Bench.splImageOf Bench.ivtSector]
        (Script.exec
          ((SplCommand.rollback true).faultyScript .imx8mpDebix
            Bench.badSector (fun _ => 0) true) Bench.twoImages).1
        (Script.exec
          ((SplCommand.rollback true).faultyScript .imx8mpDebix
            Bench.badSector (fun _ => 0) true) Bench.twoImages).2.store ↔
      ¬ (SplCommand.rollback true).HeaderLands .imx8mpDebix Bench.badSector
          (fun _ => 0) true Bench.twoImages :=
  failureBoots_iff Bench.bootable_twoImages Bench.badSector (fun _ => 0) true
    (.rollback true)

/-- It leaves a valid IVT in front of a body that is none. -/
theorem not_failureBoots :
    ¬ ∀ (layout : SplLayout) (images : List SplImage) (emmc : Emmc),
      Bootable layout images emmc →
        ∀ (faults : SplCopy → Faults) (devmem : Nat → Nat) (lockFree : Bool)
          (command : SplCommand),
          AbSpl.FailureBoots layout images
            (Script.exec
              (command.faultyScript layout faults devmem lockFree) emmc).1
            (Script.exec
              (command.faultyScript layout faults devmem lockFree)
              emmc).2.store := by
  intro boots
  have kept :=
    boots .imx8mpDebix _ _ Bench.bootable_twoImages Bench.badSector
      (fun _ => 0) true (.rollback true)
  obtain ⟨restA, copyA⟩ := Bench.splCopy_a_twoImages
  obtain ⟨restB, copyB⟩ := Bench.splCopy_b_twoImages
  have differ : Bench.otherSector ≠ Bench.ivtSector := by
    intro same
    have byte := congrArg (fun sector : Sector => sector[0]) same
    simp [Bench.otherSector, Bench.ivtSector] at byte
  have zeros : Sector.zero ≠ Bench.ivtSector := by
    intro same
    exact Sector.not_ivtValid_zero
      (same ▸ Bench.ivtValid_ivtSector)
  have validB : (Bench.twoImages 8192).IvtValid :=
    Bench.ivtValid_ivtSector
  have lands :=
    (failureBoots_rollback_iff Bench.bootable_twoImages).mp kept rfl validB
  have starts : ∀ rest, AbSpl.StartsWithIvt (Bench.ivtSector :: rest) :=
    fun _ => Bench.ivtValid_ivtSector
  simp only [copyA, copyB, Faults.stored, Faults.storedBody,
    Bench.badSector, Faults.none, id_eq] at lands
  refine lands ?_ ?_ (starts _)
  · intro same
    exact differ (List.cons.inj (List.cons.inj same).2).1
  · intro same
    exact zeros (List.cons.inj (List.cons.inj same).2).1

end SplCommand

end KmmYocto
