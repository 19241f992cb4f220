import KmmYocto.ByteMemory
import KmmYocto.BootEffects

/-!
# Staging the M-core firmware in DDR

`splMcoreStage` keeps what is staged as an optional payload.  In the code it
lies at `M7_STAGING`: the function clears the first two words, reads the file
to `M7_SCRATCH`, checks it there and copies the payload.  This module models
the function on the memory and relates it to `splMcoreStage`.

DDR is not cleared at power-on or by a reset, so the memory an SPL run starts
from holds anything.
-/

namespace KmmYocto

/-- `M7_STAGING` of the SPL and of BL31. -/
def m7Staging : Nat := 0x46000000

/-- `M7_SCRATCH`. -/
def m7Scratch : Nat := 0x45f00000

/-- An SPL run with the stored environment and DDR. -/
structure SplDdr where
  spl : Spl
  stored : Env
  mem : Memory

/-- `spl_mcore_stage` on DDR. -/
def splMcoreStageDdr (board : Board) (save : Save) (run : SplDdr) : SplDdr :=
  if run.spl.mcoreDone then run
  else
    let mem := (run.mem.write32 m7Staging 0).write32 (m7Staging + 4) 0
    let picked :=
      mcorePick board save run.stored { run.spl with mcoreDone := true }
    let spl := picked.spl
    match picked.value with
    | none => ⟨spl, picked.stored, mem⟩
    | some sel =>
        if ¬ board.mcorePart then ⟨spl, picked.stored, mem⟩
        else
          match board.mcoreFile sel with
          | none => ⟨spl, picked.stored, mem⟩
          | some file =>
              let read := file.take (0x10 + McoreImage.maxPayload)
              let mem := mem.writeBytes m7Scratch read
              let size := mem.read32 (m7Scratch + 4)
              let crc := mem.read32 (m7Scratch + 8)
              if read.length < 0x10 then ⟨spl, picked.stored, mem⟩
              else if mem.read32 m7Scratch ≠ McoreImage.m7Magic ∨
                  size > McoreImage.maxPayload ∨
                  0x10 + size > read.length ∨
                  board.crc32 (mem.readBytes (m7Scratch + 0x10) size) ≠ crc
              then ⟨spl, picked.stored, mem⟩
              else
                ⟨{ spl with
                    mcoreLoaded := some sel
                    mcoreVer := mem.read32 (m7Scratch + 12) },
                  picked.stored,
                  mem.copy m7Staging (m7Scratch + 0x10) size⟩

/--
What is staged, as the memory shows it: the payload, and zeroes up to the end
of the two words that BL31 looks at.
-/
def Memory.Stages (mem : Memory) (staged : Option (List UInt8)) : Prop :=
  ∀ offset < max 8 (staged.getD []).length,
    mem.byte (m7Staging + offset) = (staged.getD []).getD offset 0

/-- A word of the bytes that were written to memory. -/
theorem Memory.read32_writeBytes (mem : Memory) (address : Nat)
    {bytes : List UInt8} {offset : Nat}
    (inside : offset + 4 ≤ bytes.length) :
    (mem.writeBytes address bytes).read32 (address + offset) =
      McoreImage.le32 bytes offset := by
  have byte : ∀ index < 4,
      (mem.writeBytes address bytes).byte (address + (offset + index)) =
        bytes.getD (offset + index) 0 :=
    fun index early => byte_writeBytes_inside (by omega)
  have first := byte 0 (by decide)
  have second := byte 1 (by decide)
  have third := byte 2 (by decide)
  have fourth := byte 3 (by decide)
  simp only [← Nat.add_assoc, Nat.add_zero] at first second third fourth
  simp only [read32, first, second, third, fourth, word, McoreImage.le32]

/-- A part of the bytes that were written to memory. -/
theorem Memory.readBytes_writeBytes (mem : Memory) (address : Nat)
    {bytes : List UInt8} {offset length : Nat}
    (inside : offset + length ≤ bytes.length) :
    (mem.writeBytes address bytes).readBytes (address + offset) length =
      (bytes.drop offset).take length := by
  have whole : ((bytes.drop offset).take length).length = length := by
    rw [List.length_take, List.length_drop]
    omega
  have read :
      (mem.writeBytes address bytes).readBytes (address + offset)
          ((bytes.drop offset).take length).length =
        (bytes.drop offset).take length := by
    apply readBytes_eq
    intro index early
    rw [whole] at early
    rw [Nat.add_assoc, byte_writeBytes_inside (by omega),
      List.getD_eq_getElem?_getD, List.getD_eq_getElem?_getD,
      List.getElem?_take_of_lt early, List.getElem?_drop]
  rwa [whole] at read

/-- The two words are cleared. -/
theorem Memory.stages_cleared (mem : Memory) :
    ((mem.write32 m7Staging 0).write32 (m7Staging + 4) 0).Stages none := by
  intro offset inside
  have bound : offset < 8 := inside
  by_cases early : offset < 4
  · rw [byte_write32_outside (by omega), byte_write32_zero _ early]
    rfl
  · obtain ⟨rest, rfl⟩ : ∃ rest, offset = 4 + rest :=
      ⟨offset - 4, by omega⟩
    rw [← Nat.add_assoc, byte_write32_zero _ (by omega)]
    simp

/-- Writing elsewhere leaves what is staged. -/
theorem Memory.Stages.writeBytes {mem : Memory} {staged : Option (List UInt8)}
    (stages : mem.Stages staged) {address : Nat} {bytes : List UInt8}
    (fits : (staged.getD []).length ≤ McoreImage.maxPayload)
    (spares : address + bytes.length ≤ m7Staging ∨
      m7Staging + McoreImage.maxPayload ≤ address) :
    (mem.writeBytes address bytes).Stages staged := by
  intro offset inside
  have payload : McoreImage.maxPayload = 0x20000 := rfl
  rw [byte_writeBytes_outside (by omega)]
  exact stages offset inside

/-- A payload that is copied over the cleared words is staged. -/
theorem Memory.Stages.copy {mem : Memory} (cleared : mem.Stages none)
    {source : Nat} {payload : List UInt8}
    (holds : mem.readBytes source payload.length = payload) :
    (mem.copy m7Staging source payload.length).Stages (some payload) := by
  intro offset inside
  rw [Memory.copy, holds, Option.getD_some]
  rw [Option.getD_some] at inside
  by_cases covered : offset < payload.length
  · exact byte_writeBytes_inside covered
  · rw [byte_writeBytes_outside (by omega),
      cleared offset (by simp only [Option.getD_none, List.length_nil]; omega),
      List.getD_eq_default payload 0 (by omega)]
    rfl

/-! ## The DDR holds what the SPL has staged -/

/-- `mcore_pick` neither looks at what is staged nor changes it. -/
theorem mcorePick_staged (board : Board) (save : Save) (stored : Env)
    (spl : Spl) (staged : Option (List UInt8)) :
    mcorePick board save stored { spl with staged } =
      ⟨(mcorePick board save stored spl).value,
        { (mcorePick board save stored spl).spl with staged },
        (mcorePick board save stored spl).stored⟩ := by
  cases spl with
  | mk ram abEnvState =>
      cases abEnvState with
      | unread =>
          cases init : board.envInit with
          | false => simp [mcorePick, splAbEnvReady, init]
          | true =>
              simp only [mcorePick, splAbEnvReady, init, if_true,
                not_true_eq_false, if_false]
              generalize
                (if board.envValid then stored else board.defaultEnv) = loaded
              cases slotLetter (loaded.get .mcoreTry) <;> rfl
      | ready =>
          simp only [mcorePick, splAbEnvReady, not_true_eq_false, if_false]
          cases slotLetter (ram.get .mcoreTry) <;> rfl
      | unusable => rfl

/-- The file at `M7_SCRATCH` is checked as `splCheck` checks it. -/
theorem splCheck_of_scratch (board : Board) (mem : Memory) (file : List UInt8) :
    let read := file.take (0x10 + McoreImage.maxPayload)
    let scratch := mem.writeBytes m7Scratch read
    let size := scratch.read32 (m7Scratch + 4)
    McoreImage.splCheck board.crc32 file =
      if read.length < 0x10 then none
      else if scratch.read32 m7Scratch ≠ McoreImage.m7Magic ∨
          size > McoreImage.maxPayload ∨
          0x10 + size > read.length ∨
          board.crc32 (scratch.readBytes (m7Scratch + 0x10) size) ≠
            scratch.read32 (m7Scratch + 8) then none
      else
        some
          { payload := scratch.readBytes (m7Scratch + 0x10) size
            version := scratch.read32 (m7Scratch + 12) } := by
  intro read scratch size
  by_cases short : read.length < 0x10
  · rw [if_pos short, McoreImage.splCheck, if_pos short]
  · have word : ∀ offset, offset + 4 ≤ 0x10 →
        scratch.read32 (m7Scratch + offset) = McoreImage.le32 read offset :=
      fun offset inside => mem.read32_writeBytes m7Scratch (by omega)
    have magic : scratch.read32 m7Scratch = McoreImage.le32 read 0 :=
      word 0 (by decide)
    have sizeEq : size = McoreImage.le32 read 4 := word 4 (by decide)
    rw [if_neg short, McoreImage.splCheck, if_neg short, magic, sizeEq,
      word 8 (by decide), word 12 (by decide)]
    by_cases contained : 0x10 + McoreImage.le32 read 4 > read.length
    · rw [if_pos (.inr (.inr (.inl contained))),
        if_pos (.inr (.inr (.inl contained)))]
    · rw [mem.readBytes_writeBytes m7Scratch (by omega)]

/-- `spl_mcore_stage` on DDR does what `splMcoreStage` does. -/
theorem splMcoreStageDdr_refines (board : Board) (save : Save) (run : SplDdr)
    (first : run.spl.mcoreDone = false) :
    let high := splMcoreStage board save run.stored run.spl
    let low := splMcoreStageDdr board save run
    low.spl = { high.spl with staged := run.spl.staged } ∧
      low.stored = high.stored ∧ low.mem.Stages high.spl.staged := by
  intro high low
  obtain ⟨spl, stored, mem⟩ := run
  change spl.mcoreDone = false at first
  have pickHigh :=
    mcorePick_staged board save stored { spl with mcoreDone := true } none
  have pickLow :=
    mcorePick_staged board save stored { spl with mcoreDone := true } spl.staged
  have cleared := mem.stages_cleared
  simp only [high, low, splMcoreStage, splMcoreStageDdr, first,
    Bool.false_eq_true, if_false, pickHigh]
  generalize (mem.write32 m7Staging 0).write32 (m7Staging + 4) 0 = zeroed
    at cleared ⊢
  have same :
      (mcorePick board save stored { spl with mcoreDone := true }).spl =
        { (mcorePick board save stored { spl with mcoreDone := true }).spl with
          staged := spl.staged } :=
    congrArg SplResult.spl pickLow
  generalize mcorePick board save stored { spl with mcoreDone := true } =
    picked at same ⊢
  obtain ⟨value, pickedSpl, pickedStored⟩ := picked
  simp only at same ⊢
  cases value with
  | none => exact ⟨same, rfl, cleared⟩
  | some sel =>
      simp only
      cases present : board.mcorePart with
      | false => exact ⟨same, rfl, cleared⟩
      | true =>
          cases found : board.mcoreFile sel with
          | none => exact ⟨same, rfl, cleared⟩
          | some file =>
              have check := splCheck_of_scratch board zeroed file
              have length :
                  (file.take (0x10 + McoreImage.maxPayload)).length ≤
                    0x10 + McoreImage.maxPayload := List.length_take_le _ _
              have kept :
                  (zeroed.writeBytes m7Scratch
                    (file.take (0x10 + McoreImage.maxPayload))).Stages none :=
                cleared.writeBytes (by decide)
                  (.inl (by
                    have scratch : m7Scratch + 0x100000 = m7Staging := rfl
                    have payload : McoreImage.maxPayload = 0x20000 := rfl
                    omega))
              simp only [not_true_eq_false, if_false, Option.bind_some]
              simp only at check
              generalize zeroed.writeBytes m7Scratch
                (file.take (0x10 + McoreImage.maxPayload)) = scratch at *
              rw [check]
              split_ifs with short bad
              · exact ⟨same, rfl, kept⟩
              · exact ⟨same, rfl, kept⟩
              · refine ⟨?_, rfl, ?_⟩
                · rw [same]
                · have copied :=
                    @Memory.Stages.copy scratch kept (m7Scratch + 0x10)
                      (scratch.readBytes (m7Scratch + 0x10)
                        (scratch.read32 (m7Scratch + 4)))
                      (by rw [Memory.length_readBytes])
                  rwa [Memory.length_readBytes] at copied

/-- A call that picks a slot with a good file stages its payload. -/
theorem splMcoreStage_of_pick {board : Board} {save : Save} {stored : Env}
    {spl : Spl} {sel : Slot} {file : List UInt8}
    {firmware : McoreImage.Firmware} (first : spl.mcoreDone = false)
    (picks :
      (mcorePick board save stored { spl with mcoreDone := true }).value =
        some sel)
    (present : board.mcorePart = true)
    (found : board.mcoreFile sel = some file)
    (accepted : McoreImage.splCheck board.crc32 file = some firmware) :
    (splMcoreStage board save stored spl).spl =
      { (mcorePick board save stored { spl with mcoreDone := true }).spl with
        staged := some firmware.payload
        mcoreLoaded := some sel
        mcoreVer := firmware.version } := by
  have pick :=
    mcorePick_staged board save stored { spl with mcoreDone := true } none
  simp only [splMcoreStage, first, Bool.false_eq_true, if_false, pick, picks,
    present, not_true_eq_false, found, Option.bind_some, accepted]

/-- What is staged was picked, found and accepted by that call. -/
theorem exists_of_staged {board : Board} {save : Save} {stored : Env}
    {spl : Spl} {payload : List UInt8} (first : spl.mcoreDone = false)
    (staged :
      (splMcoreStage board save stored spl).spl.staged = some payload) :
    ∃ sel file firmware,
      (mcorePick board save stored { spl with mcoreDone := true }).value =
          some sel ∧
        board.mcorePart = true ∧ board.mcoreFile sel = some file ∧
          McoreImage.Valid board.crc32 file firmware ∧
            firmware.payload = payload := by
  have pick :=
    mcorePick_staged board save stored { spl with mcoreDone := true } none
  simp only [splMcoreStage, first, Bool.false_eq_true, if_false, pick]
    at staged
  cases picks :
      (mcorePick board save stored { spl with mcoreDone := true }).value with
  | none =>
      rw [picks] at staged
      cases staged
  | some sel =>
      simp only [picks] at staged
      cases present : board.mcorePart with
      | false =>
          rw [present] at staged
          cases staged
      | true =>
          cases accepted :
              (board.mcoreFile sel).bind
                (McoreImage.splCheck board.crc32) with
          | none =>
              rw [present, accepted] at staged
              cases staged
          | some firmware =>
              rw [present, accepted] at staged
              obtain ⟨file, found, checked⟩ :=
                Option.bind_eq_some_iff.mp accepted
              exact
                ⟨sel, file, firmware, rfl, rfl, found,
                  McoreImage.splCheck_eq_some_iff.mp checked,
                  Option.some.inj staged⟩

end KmmYocto
