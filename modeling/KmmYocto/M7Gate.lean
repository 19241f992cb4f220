import KmmYocto.McoreFormat

/-!
# The gate between the SPL and the M7

BL31 starts the M7 only if the two words at `M7_STAGING` look like a stack
pointer and an entry point, and it has no other sign that the SPL has staged
anything.  DDR keeps its content over a reset, so everything rests on the SPL
clearing the two words before its first early return.

An SPL run is any list of calls of the board code, mixed with other writes to
DDR: loaders, the device tree, the shim.  `spl_board_prepare_for_boot` is
called before every jump, on the falcon path after `spl_perform_fixups`.
-/

namespace KmmYocto

/-! ## The SPL run -/

/-- What can happen in an SPL run, and between it and BL31. -/
inductive SplCall where
  | fsBootPartition (save : Save)
  | startUboot (save : Save)
  /-- `spl_perform_fixups`: the image is U-Boot, and it has a device tree. -/
  | performFixups (uboot fdt : Bool) (save : Save)
  | prepareForBoot (save : Save)
  /-- Any other write to DDR. -/
  | store (address : Nat) (bytes : List UInt8)

namespace SplDdr

/-- The state an SPL run starts from. -/
def start (stored : Env) (mem : Memory) : SplDdr where
  spl := Spl.start
  stored
  mem

/-- `spl_perform_fixups`, up to its writes to the device tree and the shim. -/
def splPerformFixups (board : Board) (uboot fdt : Bool) (save : Save)
    (run : SplDdr) : SplDdr :=
  if uboot ∨ ¬ fdt then run
  else splMcoreStageDdr board save run

/-- `spl_board_prepare_for_boot`. -/
def splBoardPrepareForBoot (board : Board) (save : Save) (run : SplDdr) :
    SplDdr :=
  splMcoreStageDdr board save run

def step (board : Board) (run : SplDdr) : SplCall → SplDdr
  | .fsBootPartition save =>
      let result := splMmcFsBootPartition board save run.stored run.spl
      ⟨result.spl, result.stored, run.mem⟩
  | .startUboot save =>
      let result := splStartUboot board save run.stored run.spl
      ⟨result.spl, result.stored, run.mem⟩
  | .performFixups uboot fdt save => run.splPerformFixups board uboot fdt save
  | .prepareForBoot save => run.splBoardPrepareForBoot board save
  | .store address bytes =>
      { run with mem := run.mem.writeBytes address bytes }

end SplDdr

/-- The call is one of `spl_mcore_stage`. -/
def SplCall.stages : SplCall → Option Save
  | .performFixups uboot fdt save => if uboot ∨ ¬ fdt then none else some save
  | .prepareForBoot save => some save
  | _ => none

/-- Once the SPL has staged, nothing else writes the staging area. -/
def SparesStaging (run : SplDdr) : SplCall → Prop
  | .store address bytes =>
      run.spl.mcoreDone = true →
        address + bytes.length ≤ m7Staging ∨
          m7Staging + McoreImage.maxPayload ≤ address
  | _ => True

instance (run : SplDdr) : ∀ call, Decidable (SparesStaging run call)
  | .store _ _ => inferInstanceAs (Decidable (_ → _))
  | .fsBootPartition _ => .isTrue trivial
  | .startUboot _ => .isTrue trivial
  | .performFixups _ _ _ => .isTrue trivial
  | .prepareForBoot _ => .isTrue trivial

/-! ## BL31 -/

/-- `M7_ITCM`. -/
def m7Itcm : Nat := 0x7e0000

/-- `M7_ITCM_SZ`. -/
def m7ItcmSz : Nat := 0x20000

/-- `M7_RSC_TABLE`. -/
def m7RscTable : Nat := 0x550ff000

/-- `M7_CLK_ON`. -/
def m7ClkOn : Nat := 0x11000000

/-- What BL31 sees: DDR and the TCM, the clock root of the M7, and CPUWAIT. -/
structure Soc where
  mem : Memory
  m7Clk : Nat
  cpuWait : Bool

/-- The words look like the vectors of an M7 image. -/
def VectorsOk (sp pc : Nat) : Prop :=
  (0x20000000 ≤ sp ∧ sp ≤ 0x20020000) ∧ pc < 0x20000 ∧ pc % 2 = 1

instance (sp pc : Nat) : Decidable (VectorsOk sp pc) :=
  inferInstanceAs (Decidable (_ ∧ _))

/-- `start_m7`. -/
def startM7 (soc : Soc) : Soc :=
  let sp := soc.mem.read32 m7Staging
  let pc := soc.mem.read32 (m7Staging + 4)
  if ¬ VectorsOk sp pc then soc
  else
    let copied := soc.mem.copyWords m7Itcm m7Staging (m7ItcmSz / 4)
    { mem := copied.clearWords m7RscTable (0x100 / 4)
      m7Clk := m7ClkOn
      cpuWait := false }

/-- The part of `bl31_platform_setup` that concerns the M7. -/
def bl31PlatformSetup (soc : Soc) : Soc :=
  startM7 { soc with cpuWait := true }

/-! ## Staging happens once -/

section Done

variable
    (board : Board) (save : Save) (stored : Env) (spl : Spl)

theorem mcoreDone_splAbEnvReady :
    (splAbEnvReady board stored spl).spl.mcoreDone = spl.mcoreDone := by
  rw [splAbEnvReady]
  cases spl.abEnvState with
  | unread =>
      simp only
      split_ifs <;> rfl
  | ready => rfl
  | unusable => rfl

theorem mcoreDone_splMmcFsBootPartition :
    (splMmcFsBootPartition board save stored spl).spl.mcoreDone =
      spl.mcoreDone := by
  have ready := mcoreDone_splAbEnvReady board stored spl
  simp only [splMmcFsBootPartition]
  split_ifs
  · rfl
  all_goals exact ready

theorem mcoreDone_splStartUboot :
    (splStartUboot board save stored spl).spl.mcoreDone = spl.mcoreDone := by
  have ready := mcoreDone_splAbEnvReady board stored spl
  simp only [splStartUboot]
  split_ifs <;> exact ready

theorem mcoreDone_mcorePick :
    (mcorePick board save stored spl).spl.mcoreDone = spl.mcoreDone := by
  have ready := mcoreDone_splAbEnvReady board stored spl
  rw [mcorePick]
  generalize splAbEnvReady board stored spl = read at ready ⊢
  obtain ⟨value, readSpl, readStored⟩ := read
  cases value with
  | false => exact ready
  | true =>
      simp only [not_true_eq_false, if_false]
      cases slotLetter (readSpl.ram.get .mcoreTry) with
      | none => exact ready
      | some tried => exact ready

theorem mcoreDone_splMcoreStageDdr (run : SplDdr) :
    (splMcoreStageDdr board save run).spl.mcoreDone = true := by
  obtain ⟨spl, stored, mem⟩ := run
  have picked :=
    mcoreDone_mcorePick board save stored { spl with mcoreDone := true }
  cases done : spl.mcoreDone with
  | true => simp only [splMcoreStageDdr, done, if_true]
  | false =>
      simp only [splMcoreStageDdr, done, Bool.false_eq_true, if_false]
      generalize mcorePick board save stored { spl with mcoreDone := true } =
        result at picked ⊢
      obtain ⟨value, spl, stored⟩ := result
      cases value with
      | none => exact picked
      | some sel =>
          simp only
          cases present : board.mcorePart with
          | false => exact picked
          | true =>
              simp only [not_true_eq_false, if_false]
              cases board.mcoreFile sel with
              | none => exact picked
              | some file =>
                  simp only
                  split_ifs <;> exact picked

end Done

namespace SplDdr

variable
    (board : Board) {run : SplDdr}

/-- A call stages, or it leaves the SPL's mark and perhaps writes elsewhere. -/
theorem step_cases (run : SplDdr) (call : SplCall) :
    (∃ save, call.stages = some save ∧
        run.step board call = splMcoreStageDdr board save run) ∨
      (call.stages = none ∧
        (run.step board call).spl.mcoreDone = run.spl.mcoreDone ∧
        ((run.step board call).mem = run.mem ∨
          ∃ address bytes, call = .store address bytes ∧
            (run.step board call).mem = run.mem.writeBytes address bytes)) := by
  cases call with
  | fsBootPartition save =>
      exact
        .inr ⟨rfl, mcoreDone_splMmcFsBootPartition board save _ _, .inl rfl⟩
  | startUboot save =>
      exact .inr ⟨rfl, mcoreDone_splStartUboot board save _ _, .inl rfl⟩
  | performFixups uboot fdt save =>
      simp only [SplCall.stages, step, splPerformFixups]
      split_ifs
      · exact .inr ⟨rfl, rfl, .inl rfl⟩
      · exact .inl ⟨save, rfl, rfl⟩
  | prepareForBoot save => exact .inl ⟨save, rfl, rfl⟩
  | store address bytes =>
      exact .inr ⟨rfl, rfl, .inr ⟨address, bytes, rfl, rfl⟩⟩

/-- The SPL has staged, and DDR still holds it. -/
structure Staged (staged : Option (List UInt8)) (run : SplDdr) : Prop where
  done : run.spl.mcoreDone = true
  stages : run.mem.Stages staged
  fits : (staged.getD []).length ≤ McoreImage.maxPayload

theorem Staged.step {staged : Option (List UInt8)} (held : run.Staged staged)
    {call : SplCall} (spares : SparesStaging run call) :
    (run.step board call).Staged staged := by
  rcases step_cases board run call with
    ⟨save, -, equal⟩ | ⟨-, done, same | ⟨address, bytes, rfl, written⟩⟩
  · have again : splMcoreStageDdr board save run = run := if_pos held.done
    rw [equal, again]
    exact held
  · refine ⟨done.trans held.done, ?_, held.fits⟩
    rw [same]
    exact held.stages
  · refine ⟨done.trans held.done, ?_, held.fits⟩
    rw [written]
    exact held.stages.writeBytes held.fits (spares held.done)

/--
In this state of the run the call is the first one that stages, `mcore_pick`
chooses a slot, and the image in its file is valid.
-/
structure Validates (board : Board) (run : SplDdr) (call : SplCall)
    (save : Save) (sel : Slot) (file : List UInt8)
    (firmware : McoreImage.Firmware) : Prop where
  stages : call.stages = some save
  first : run.spl.mcoreDone = false
  picks :
    (mcorePick board save run.stored { run.spl with mcoreDone := true }).value =
      some sel
  present : board.mcorePart = true
  found : board.mcoreFile sel = some file
  valid : McoreImage.Valid board.crc32 file firmware

/-- The first call that stages leaves the area closed, or a valid payload. -/
theorem staged_of_first {call : SplCall} (first : run.spl.mcoreDone = false)
    (comes : (run.step board call).spl.mcoreDone = true) :
    (run.step board call).Staged none ∨
      ∃ save sel file firmware,
        run.Validates board call save sel file firmware ∧
          (run.step board call).Staged (some firmware.payload) := by
  rcases step_cases board run call with ⟨save, stages, equal⟩ | ⟨-, done, -⟩
  · obtain ⟨-, -, held⟩ := splMcoreStageDdr_refines board save run first
    have done := mcoreDone_splMcoreStageDdr board save run
    rw [equal]
    cases staged : (splMcoreStage board save run.stored run.spl).spl.staged with
    | none =>
        rw [staged] at held
        exact .inl ⟨done, held, Nat.zero_le _⟩
    | some payload =>
        rw [staged] at held
        obtain ⟨sel, file, firmware, picks, present, found, valid, rfl⟩ :=
          exists_of_staged first staged
        exact
          .inr
            ⟨save, sel, file, firmware,
              ⟨stages, first, picks, present, found, valid⟩,
              ⟨done, held, valid.bound⟩⟩
  · rw [done, first] at comes
    cases comes

end SplDdr

/-! ## The gate -/

/-- The two words BL31 checks are the head of what is staged. -/
theorem Memory.Stages.words {mem : Memory} {staged : Option (List UInt8)}
    (stages : mem.Stages staged) :
    mem.read32 m7Staging = McoreImage.le32 (staged.getD []) 0 ∧
      mem.read32 (m7Staging + 4) = McoreImage.le32 (staged.getD []) 4 := by
  have byte : ∀ offset < 8,
      mem.byte (m7Staging + offset) = (staged.getD []).getD offset 0 :=
    fun offset early => stages offset (lt_max_of_lt_left early)
  constructor
  · rw [read32, ← Nat.add_zero m7Staging]
    simp only [Nat.add_assoc, Nat.reduceAdd]
    rw [byte 0 (by decide), byte 1 (by decide), byte 2 (by decide),
      byte 3 (by decide)]
    rfl
  · rw [read32]
    simp only [Nat.add_assoc, Nat.reduceAdd]
    rw [byte 4 (by decide), byte 5 (by decide), byte 6 (by decide),
      byte 7 (by decide)]
    rfl

/-- A closed staging area keeps the gate closed. -/
theorem not_vectorsOk_of_none {mem : Memory} (stages : mem.Stages none) :
    ¬ VectorsOk (mem.read32 m7Staging) (mem.read32 (m7Staging + 4)) := by
  rw [stages.words.1]
  rintro ⟨⟨low, -⟩, -⟩
  exact absurd low (by decide)

/-- A released M7 has passed the gate, and its ITCM is the staging area. -/
theorem of_released {soc : Soc}
    (released : (bl31PlatformSetup soc).cpuWait = false) :
    VectorsOk (soc.mem.read32 m7Staging) (soc.mem.read32 (m7Staging + 4)) ∧
      ∀ offset < m7ItcmSz,
        (bl31PlatformSetup soc).mem.byte (m7Itcm + offset) =
          soc.mem.byte (m7Staging + offset) := by
  simp only [bl31PlatformSetup, startM7] at released ⊢
  split_ifs at released ⊢ with passes
  · refine ⟨passes, ?_⟩
    intro offset inside
    have size : m7ItcmSz = 4 * (m7ItcmSz / 4) := by decide
    have table : m7Itcm + m7ItcmSz ≤ m7RscTable := by decide
    have apart : m7Itcm + m7ItcmSz ≤ m7Staging := by decide
    rw [Memory.byte_clearWords_outside _ (by omega),
      Memory.byte_copyWords_inside _ (by omega) (by omega)]

/-- Once the SPL has staged, it does not stage again. -/
theorem SplDdr.done_step (board : Board) {run : SplDdr}
    (done : run.spl.mcoreDone = true) (call : SplCall) :
    (run.step board call).spl.mcoreDone = true := by
  rcases run.step_cases board call with ⟨save, -, equal⟩ | ⟨-, kept, -⟩
  · rw [equal]
    exact mcoreDone_splMcoreStageDdr board save run
  · exact kept.trans done

/--
Whatever DDR, the environment and p3 hold, and on either boot path, the M7 is
released only if this boot has validated the image of the slot it picked; BL31
then checks the vectors of its payload and copies the payload to ITCM.
-/
theorem m7Gate (board : Board) (stored : Env) (mem : Memory)
    (calls later : List SplCall) (save : Save) (m7Clk : Nat) (cpuWait : Bool)
    (spares : Trace.Along (SplDdr.step board) SparesStaging
      (SplDdr.start stored mem) (calls ++ .prepareForBoot save :: later))
    (released :
      (bl31PlatformSetup
        ⟨(Trace.run (SplDdr.step board) (SplDdr.start stored mem)
            (calls ++ .prepareForBoot save :: later)).mem,
          m7Clk, cpuWait⟩).cpuWait = false) :
    ∃ front call back stageSave sel file firmware,
      calls ++ .prepareForBoot save :: later = front ++ call :: back ∧
        (Trace.run (SplDdr.step board) (SplDdr.start stored mem)
          front).Validates board call stageSave sel file firmware ∧
          (Trace.run (SplDdr.step board) (SplDdr.start stored mem)
              (calls ++ .prepareForBoot save :: later)).mem.read32 m7Staging =
            McoreImage.le32 firmware.payload 0 ∧
          (Trace.run (SplDdr.step board) (SplDdr.start stored mem)
              (calls ++ .prepareForBoot save :: later)).mem.read32
                (m7Staging + 4) =
            McoreImage.le32 firmware.payload 4 ∧
          (bl31PlatformSetup
            ⟨(Trace.run (SplDdr.step board) (SplDdr.start stored mem)
                (calls ++ .prepareForBoot save :: later)).mem,
              m7Clk, cpuWait⟩).mem.readBytes m7Itcm firmware.payload.length =
            firmware.payload := by
  have done :
      (Trace.run (SplDdr.step board) (SplDdr.start stored mem)
        (calls ++ .prepareForBoot save :: later)).spl.mcoreDone = true := by
    have staged :=
      mcoreDone_splMcoreStageDdr board save
        (Trace.run (SplDdr.step board) (SplDdr.start stored mem) calls)
    rw [Trace.run_append, Trace.run_cons]
    exact
      @Trace.run_of_step _ _ (SplDdr.step board)
        (fun run => run.spl.mcoreDone = true)
        (fun _ call held => SplDdr.done_step board held call) _ staged later
  have notYet : ¬ (SplDdr.start stored mem).spl.mcoreDone = true := nofun
  obtain ⟨front, call, back, split, first, comes⟩ :=
    Trace.exists_step_of_run (fun run : SplDdr => run.spl.mcoreDone = true) notYet done
  rw [split] at spares released ⊢
  simp only [Trace.along_append, Trace.along_cons] at spares
  -- what the first call leaves is there until BL31 reads it
  have stays : ∀ {staged : Option (List UInt8)},
      ((Trace.run (SplDdr.step board) (SplDdr.start stored mem) front).step
        board call).Staged staged →
        (Trace.run (SplDdr.step board) (SplDdr.start stored mem)
          (front ++ call :: back)).Staged staged := by
    intro staged held
    rw [Trace.run_append, Trace.run_cons]
    exact
      Trace.run_invariant (fun _ _ kept spared => kept.step board spared) held
        spares.2.2
  obtain ⟨vectors, copied⟩ := of_released released
  rcases SplDdr.staged_of_first board (Bool.eq_false_iff.mpr first) comes with
    closed | ⟨stageSave, sel, file, firmware, validates, held⟩
  · exact absurd vectors (not_vectorsOk_of_none (stays closed).stages)
  · have stages := (stays held).stages
    refine
      ⟨front, call, back, stageSave, sel, file, firmware, rfl, validates,
        stages.words.1, stages.words.2, ?_⟩
    apply Memory.readBytes_eq
    intro offset inside
    have fits : firmware.payload.length ≤ m7ItcmSz := validates.valid.bound
    rw [copied offset (by omega)]
    exact stages offset (lt_max_of_lt_right inside)

/-! ## A boot of an image on the bench -/

namespace Bench

/-- Vectors in DTCM and ITCM, and a byte of code. -/
def m7Payload : List UInt8 :=
  Memory.wordBytes 0x20020000 ++ Memory.wordBytes 0x401 ++ [0x70]

/-- A board with the image in slot a. -/
def m7Board : Board where
  envInit := true
  envValid := true
  defaultEnv := ⟨fun _ => none⟩
  mbr := mbr .a
  logical _ := none
  mcorePart := true
  mcoreFile
    | .a => McoreImage.m7FwImg crc32 1 m7Payload
    | .b => none
  crc32 := crc32

/-- The falcon path, with a kernel loaded before and a shim written after. -/
def m7Boot : List SplCall :=
  [.fsBootPartition .stored, .startUboot .stored,
    .store 0x40400000 [0x4d, 0x5a], .performFixups false true .stored,
    .store 0x48000000 [0, 0, 0x80, 0xd2]]

end Bench

/-- From DDR full of ones, the image of slot a is released. -/
theorem m7Gate_released :
    ∃ front call back stageSave sel file firmware,
      Bench.m7Boot ++ .prepareForBoot .stored :: [] = front ++ call :: back ∧
        (Trace.run (SplDdr.step Bench.m7Board)
          (SplDdr.start (shippedEnv.set .mcoreSlot "a") ⟨fun _ => 0xff⟩)
          front).Validates Bench.m7Board call stageSave sel file firmware := by
  obtain ⟨front, call, back, stageSave, sel, file, firmware, split, valid, -⟩ :=
    m7Gate Bench.m7Board (shippedEnv.set .mcoreSlot "a") ⟨fun _ => 0xff⟩
      Bench.m7Boot [] .stored 0 false (by decide +kernel) (by decide +kernel)
  exact ⟨front, call, back, stageSave, sel, file, firmware, split, valid⟩

end KmmYocto
