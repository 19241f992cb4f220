import KmmYocto.McoreFormat
import KmmYocto.M7Gate

/-!
# From `m4-fw.img` to the Cortex-M4 of the 8MM

`spl_board_prepare_for_boot` of the 8MM reads the firmware as a plain file of
the boot partition: the first one whose MBR flag is set.  It clears the two
words at `M4_STAGING`, checks the file in `M4_SCRATCH` and copies the payload;
`start_m4` of BL31 looks at the two words and starts the core.

The file has no slots and no environment.  The SPL and BL31 share nothing but
DDR, which keeps its content over a reset.
-/

namespace KmmYocto

/-- `M4_STAGING` of the SPL and of BL31. -/
def m4Staging : Nat := 0x46000000

/-- The 8MM stages where the 8MP does. -/
theorem m4Staging_eq : m4Staging = m7Staging :=
  rfl

/-- `M4_SCRATCH`. -/
def m4Scratch : Nat := 0x45f00000

/-- `M4_MAGIC`: "M4FW" read as a little-endian word. -/
def m4Magic : Nat := 0x5746344d

/-- `M4_MAX_PAYLOAD`. -/
def m4MaxPayload : Nat := 0x20000

/-! ## The SPL -/

/-- The outcome of `file_fat_read`: what reaches the buffer, and an error. -/
structure FatRead where
  bytes : List UInt8
  failed : Bool

/-- What the 8MM finds on its eMMC. -/
structure M4Board where
  /-- `find_mmc_device` and `mmc_get_blk_desc` succeed. -/
  mmc : Bool
  mbr : Mbr
  /-- `fat_register_device` succeeds on this partition. -/
  fatRegister : Nat → Bool
  /-- `m4-fw.img` of this partition; a missing file is an error. -/
  m4Img : Nat → FatRead
  crc32 : List UInt8 → Nat

namespace M4Board

/-- The first of p1 to p4 that carries the boot flag. -/
def flaggedPart (board : M4Board) : Option Nat :=
  (List.range' 1 4).find? fun part => board.mbr.primaryInfo part = some true

/-- `spl_board_prepare_for_boot`, from the file in the scratch area on. -/
def stageM4 (board : M4Board) (len : Nat) (mem : Memory) : Memory :=
  let size := mem.read32 (m4Scratch + 4)
  let crc := mem.read32 (m4Scratch + 8)
  if mem.read32 m4Scratch ≠ m4Magic ∨ size > m4MaxPayload ∨
      0x10 + size > len ∨
      board.crc32 (mem.readBytes (m4Scratch + 0x10) size) ≠ crc then mem
  else mem.copy m4Staging (m4Scratch + 0x10) size

/-- `spl_board_prepare_for_boot`. -/
def splBoardPrepareForBoot (board : M4Board) (mem : Memory) : Memory :=
  let mem := (mem.write32 m4Staging 0).write32 (m4Staging + 4) 0
  if ¬ board.mmc then mem
  else
    match board.flaggedPart with
    | none => mem
    | some part =>
        if ¬ board.fatRegister part then mem
        else
          let read := (board.m4Img part).bytes.take (0x10 + m4MaxPayload)
          let mem := mem.writeBytes m4Scratch read
          if (board.m4Img part).failed ∨ read.length < 0x10 then mem
          else board.stageM4 read.length mem

end M4Board

/-! ## BL31 -/

/-- `M4_TCML`, as the A53 sees it. -/
def m4Tcml : Nat := 0x7e0000

/-- `M4_TCML_SZ`. -/
def m4TcmlSz : Nat := 0x20000

/-- The resource table of the M4 in DDR. -/
def m4RscTable : Nat := 0xb80ff000

/-- DDR with the TCM, and the two bits of `SRC_M4RCR` that hold the core. -/
structure M4Soc where
  mem : Memory
  m4cNonSclrRst : Bool
  m4Enable : Bool

/-- The core runs. -/
def M4Soc.Released (soc : M4Soc) : Prop :=
  soc.m4Enable = true ∧ soc.m4cNonSclrRst = false

instance (soc : M4Soc) : Decidable soc.Released :=
  inferInstanceAs (Decidable (_ ∧ _))

/-- Stack pointer in TCMU, entry point in TCML with the Thumb bit. -/
def M4VectorsOk (sp pc : Nat) : Prop :=
  (0x20000000 ≤ sp ∧ sp < 0x20020000) ∧
    (0x1ffe0000 ≤ pc ∧ pc < 0x20000000) ∧ pc % 2 = 1

instance (sp pc : Nat) : Decidable (M4VectorsOk sp pc) :=
  inferInstanceAs (Decidable (_ ∧ _))

/-- `start_m4`. -/
def startM4 (soc : M4Soc) : M4Soc :=
  let sp := soc.mem.read32 m4Staging
  let pc := soc.mem.read32 (m4Staging + 4)
  if ¬ M4VectorsOk sp pc then soc
  else
    let copied := soc.mem.copyWords m4Tcml m4Staging (m4TcmlSz / 4)
    { mem := copied.clearWords m4RscTable (0x100 / 4)
      m4cNonSclrRst := false
      m4Enable := true }

/-! ## What the SPL stages -/

/-- The file is a header that fits its payload, and perhaps some more bytes. -/
structure M4Valid (crc32 : List UInt8 → Nat) (file payload : List UInt8) :
    Prop where
  magic : McoreImage.le32 file 0 = m4Magic
  size : McoreImage.le32 file 4 = payload.length
  bound : payload.length ≤ m4MaxPayload
  contained : 0x10 + payload.length ≤ file.length
  holds : (file.drop 0x10).take payload.length = payload
  crc : crc32 payload = McoreImage.le32 file 8

/-- The partition that is flagged offers this payload to the SPL. -/
structure M4Board.Offers (board : M4Board) (payload : List UInt8) : Prop where
  mmc : board.mmc = true
  image : ∃ part, board.flaggedPart = some part ∧
    board.fatRegister part = true ∧ (board.m4Img part).failed = false ∧
      M4Valid board.crc32 (board.m4Img part).bytes payload

/-- A payload is determined by its file. -/
theorem M4Valid.unique {crc32 : List UInt8 → Nat}
    {file left right : List UInt8} (first : M4Valid crc32 file left)
    (second : M4Valid crc32 file right) : left = right := by
  have length : left.length = right.length := first.size.symm.trans second.size
  rw [← first.holds, ← second.holds, length]

theorem M4Board.Offers.unique {board : M4Board} {left right : List UInt8}
    (first : board.Offers left) (second : board.Offers right) :
    left = right := by
  obtain ⟨-, part, found, -, -, valid⟩ := first
  obtain ⟨-, other, otherFound, -, -, otherValid⟩ := second
  obtain rfl : part = other := Option.some.inj (found.symm.trans otherFound)
  exact valid.unique otherValid

section Stage

variable
    (board : M4Board) {mem : Memory}

/-- The check of the scratch area is a check of the file. -/
theorem stageM4_stages (file : List UInt8) (cleared : mem.Stages none)
    (whole : 0x10 ≤ (file.take (0x10 + m4MaxPayload)).length) :
    let read := file.take (0x10 + m4MaxPayload)
    let after := board.stageM4 read.length (mem.writeBytes m4Scratch read)
    (∀ payload, M4Valid board.crc32 file payload →
        after.Stages (some payload)) ∧
      ((¬ ∃ payload, M4Valid board.crc32 file payload) →
        after.Stages none) := by
  intro read after
  have staged :
      after = board.stageM4 read.length (mem.writeBytes m4Scratch read) := rfl
  have bound : read.length ≤ 0x10 + m4MaxPayload := List.length_take_le _ _
  have most : m4MaxPayload = 0x20000 := rfl
  have apart : m4Scratch + 0x100000 = m7Staging := rfl
  have capacity : McoreImage.maxPayload = 0x20000 := rfl
  have short : read.length = min (0x10 + m4MaxPayload) file.length :=
    List.length_take
  have closed : (mem.writeBytes m4Scratch read).Stages none :=
    cleared.writeBytes (by decide) (.inl (by omega))
  -- the words in the scratch area are those of the file
  have word : ∀ offset, offset + 4 ≤ 0x10 →
      (mem.writeBytes m4Scratch read).read32 (m4Scratch + offset) =
        McoreImage.le32 file offset := by
    intro offset inside
    rw [mem.read32_writeBytes m4Scratch (inside.trans whole)]
    exact McoreImage.le32_take file (by omega)
  have magic := word 0 (by decide)
  have size := word 4 (by decide)
  have crc := word 8 (by decide)
  rw [Nat.add_zero] at magic
  have bytes : ∀ length, 0x10 + length ≤ read.length → length ≤ m4MaxPayload →
      (mem.writeBytes m4Scratch read).readBytes (m4Scratch + 0x10) length =
        (file.drop 0x10).take length := by
    intro length inside fits
    rw [mem.readBytes_writeBytes m4Scratch inside, List.drop_take,
      List.take_take, Nat.add_sub_cancel_left, Nat.min_eq_left fits]
  clear_value after
  generalize mem.writeBytes m4Scratch read = scratch at *
  simp only [M4Board.stageM4, magic, size, crc] at staged
  constructor
  · intro payload valid
    have contained := valid.contained
    have fits := valid.bound
    rw [valid.size, bytes payload.length (by omega) fits, valid.holds,
      if_neg] at staged
    · rw [staged]
      exact closed.copy
        ((bytes payload.length (by omega) fits).trans valid.holds)
    · simp only [valid.magic, valid.crc, ne_eq, not_true_eq_false, or_false,
        false_or, not_or]
      omega
  · intro invalid
    rw [staged, if_pos]
    · exact closed
    · by_contra passes
      push Not at passes
      obtain ⟨sameMagic, sameSize, contained, sameCrc⟩ := passes
      rw [bytes _ contained sameSize] at sameCrc
      have room : 0x10 + McoreImage.le32 file 4 ≤ file.length :=
        contained.trans (List.length_take_le' _ _)
      have length :
          ((file.drop 0x10).take (McoreImage.le32 file 4)).length =
            McoreImage.le32 file 4 := by
        rw [List.length_take, List.length_drop,
          Nat.min_eq_left (Nat.le_sub_of_add_le' room)]
      refine invalid ⟨(file.drop 0x10).take (McoreImage.le32 file 4), ?_⟩
      constructor
      case magic => exact sameMagic
      case crc => exact sameCrc
      all_goals rw [length]
      case bound => exact sameSize
      case contained => exact room

/-- The SPL stages what the board offers, or closes the area. -/
theorem splBoardPrepareForBoot_stages (mem : Memory) :
    (∀ payload, board.Offers payload →
        (board.splBoardPrepareForBoot mem).Stages (some payload)) ∧
      ((¬ ∃ payload, board.Offers payload) →
        (board.splBoardPrepareForBoot mem).Stages none) := by
  have cleared : ((mem.write32 m4Staging 0).write32 (m4Staging + 4) 0).Stages
      none := by
    rw [m4Staging_eq]
    exact mem.stages_cleared
  simp only [M4Board.splBoardPrepareForBoot]
  generalize (mem.write32 m4Staging 0).write32 (m4Staging + 4) 0 = zeroed
    at cleared ⊢
  by_cases mmc : board.mmc = true
  case neg =>
    rw [if_pos mmc]
    exact ⟨fun payload offers => absurd offers.mmc mmc, fun _ => cleared⟩
  rw [if_neg (not_not.mpr mmc)]
  cases found : board.flaggedPart with
  | none =>
      refine ⟨?_, fun _ => cleared⟩
      rintro payload ⟨-, part, flagged, -⟩
      rw [found] at flagged
      cases flagged
  | some part =>
      have offers_iff : ∀ payload, board.Offers payload ↔
          board.fatRegister part = true ∧ (board.m4Img part).failed = false ∧
            M4Valid board.crc32 (board.m4Img part).bytes payload := by
        intro payload
        constructor
        · rintro ⟨-, other, flagged, rest⟩
          rw [found] at flagged
          cases flagged
          exact rest
        · exact fun rest => ⟨mmc, part, found, rest⟩
      simp only [offers_iff]
      by_cases registers : board.fatRegister part = true
      case neg =>
        rw [if_pos registers]
        exact
          ⟨fun _ offers => absurd offers.1 registers, fun _ => cleared⟩
      rw [if_neg (not_not.mpr registers)]
      simp only [registers, true_and]
      generalize board.m4Img part = image
      obtain ⟨file, failed⟩ := image
      simp only
      by_cases readable :
          failed = true ∨ (file.take (0x10 + m4MaxPayload)).length < 0x10
      · have kept :
            (zeroed.writeBytes m4Scratch
              (file.take (0x10 + m4MaxPayload))).Stages none := by
          have length :
              (file.take (0x10 + m4MaxPayload)).length ≤ 0x10 + m4MaxPayload :=
            List.length_take_le _ _
          have most : m4MaxPayload = 0x20000 := rfl
          have apart : m4Scratch + 0x100000 = m7Staging := rfl
          exact cleared.writeBytes (by decide) (.inl (by omega))
        rw [if_pos readable]
        refine ⟨?_, fun _ => kept⟩
        rintro payload ⟨succeeds, valid⟩
        have contained := valid.contained
        rcases readable with fails | short
        · rw [fails] at succeeds
          cases succeeds
        · rw [List.length_take] at short
          omega
      · rw [if_neg readable]
        push Not at readable
        obtain ⟨succeeds, whole⟩ := readable
        have stages := stageM4_stages board file cleared whole
        refine
          ⟨fun payload offers => stages.1 payload offers.2, fun none => ?_⟩
        exact stages.2 fun ⟨payload, valid⟩ =>
          none ⟨payload, Bool.eq_false_iff.mpr succeeds, valid⟩

end Stage

/-! ## From the SPL to the core -/

/-- Writes between the SPL and BL31. -/
def writeAll (mem : Memory) (stores : List (Nat × List UInt8)) : Memory :=
  stores.foldl (fun mem store => mem.writeBytes store.1 store.2) mem

/-- The write stays outside the staging area. -/
def SparesM4 (store : Nat × List UInt8) : Prop :=
  store.1 + store.2.length ≤ m4Staging ∨ m4Staging + m4MaxPayload ≤ store.1

theorem Memory.Stages.writeAll {mem : Memory} {staged : Option (List UInt8)}
    (stages : mem.Stages staged)
    (fits : (staged.getD []).length ≤ m4MaxPayload)
    {stores : List (Nat × List UInt8)}
    (spare : ∀ store ∈ stores, SparesM4 store) :
    (KmmYocto.writeAll mem stores).Stages staged := by
  induction stores generalizing mem with
  | nil => exact stages
  | cons store rest induction =>
      rw [List.forall_mem_cons] at spare
      exact induction (stages.writeBytes fits spare.1) spare.2

/-- What `start_m4` leaves when the gate is open. -/
theorem startM4_of_vectors {soc : M4Soc}
    (opens : M4VectorsOk (soc.mem.read32 m4Staging)
      (soc.mem.read32 (m4Staging + 4))) :
    (startM4 soc).Released ∧
      (∀ offset < m4TcmlSz,
        (startM4 soc).mem.byte (m4Tcml + offset) =
          soc.mem.byte (m4Staging + offset)) ∧
      ∀ offset < 0x100, (startM4 soc).mem.byte (m4RscTable + offset) = 0 := by
  have size : m4TcmlSz = 4 * (m4TcmlSz / 4) := by decide
  have table : m4Tcml + m4TcmlSz ≤ m4RscTable := by decide
  have apart : m4Tcml + m4TcmlSz ≤ m4Staging := by decide
  simp only [startM4, opens, not_true_eq_false, if_false]
  refine ⟨⟨rfl, rfl⟩, ?_, ?_⟩
  · intro offset inside
    rw [Memory.byte_clearWords_outside _ (by omega),
      Memory.byte_copyWords_inside _ (by omega) (by omega)]
  · intro offset inside
    exact Memory.byte_clearWords_inside _ (by omega)

/-- The gate starts a core that is held exactly when the vectors are good. -/
theorem startM4_released_iff (soc : M4Soc) (held : ¬ soc.Released) :
    (startM4 soc).Released ↔
      M4VectorsOk (soc.mem.read32 m4Staging)
        (soc.mem.read32 (m4Staging + 4)) := by
  by_cases opens :
      M4VectorsOk (soc.mem.read32 m4Staging) (soc.mem.read32 (m4Staging + 4))
  · exact iff_of_true (startM4_of_vectors opens).1 opens
  · refine iff_of_false (fun released => held ?_) opens
    rwa [startM4, if_pos opens] at released

/-- The words that BL31 checks, of a payload. -/
def PayloadOk (payload : List UInt8) : Prop :=
  M4VectorsOk (McoreImage.le32 payload 0) (McoreImage.le32 payload 4)

instance (payload : List UInt8) : Decidable (PayloadOk payload) :=
  inferInstanceAs (Decidable (M4VectorsOk _ _))

/-- A boot up to `start_m4`: the SPL, other writes, BL31. -/
def bootM4 (board : M4Board) (stores : List (Nat × List UInt8)) (soc : M4Soc) :
    M4Soc :=
  startM4
    { soc with
      mem := writeAll (board.splBoardPrepareForBoot soc.mem) stores }

section Gate

variable
    {board : M4Board} {stores : List (Nat × List UInt8)}

/-- BL31 finds the payload that the board offers. -/
theorem M4Board.Offers.stages {payload : List UInt8}
    (offers : board.Offers payload) (mem : Memory)
    (spare : ∀ store ∈ stores, SparesM4 store) :
    (writeAll (board.splBoardPrepareForBoot mem) stores).Stages
      (some payload) := by
  obtain ⟨-, part, -, -, -, valid⟩ := id offers
  have staged := (splBoardPrepareForBoot_stages board mem).1 payload offers
  exact staged.writeAll valid.bound spare

/-- The words that BL31 checks are those of the payload. -/
theorem M4Board.Offers.vectorsOk_iff {payload : List UInt8}
    (offers : board.Offers payload) (mem : Memory)
    (spare : ∀ store ∈ stores, SparesM4 store) :
    M4VectorsOk
        ((writeAll (board.splBoardPrepareForBoot mem) stores).read32 m4Staging)
        ((writeAll (board.splBoardPrepareForBoot mem) stores).read32
          (m4Staging + 4)) ↔
      PayloadOk payload := by
  have words := (offers.stages mem spare).words
  rw [m4Staging_eq, words.1, words.2]
  exact Iff.rfl

/-- The vectors are good exactly when an offered payload has good ones. -/
theorem M4Board.vectorsOk_iff (mem : Memory)
    (spare : ∀ store ∈ stores, SparesM4 store) :
    M4VectorsOk
        ((writeAll (board.splBoardPrepareForBoot mem) stores).read32 m4Staging)
        ((writeAll (board.splBoardPrepareForBoot mem) stores).read32
          (m4Staging + 4)) ↔
      ∃ payload, board.Offers payload ∧ PayloadOk payload := by
  constructor
  · intro opens
    by_cases offer : ∃ payload, board.Offers payload
    · obtain ⟨payload, offers⟩ := offer
      exact ⟨payload, offers, (offers.vectorsOk_iff mem spare).mp opens⟩
    · have closed := (splBoardPrepareForBoot_stages board mem).2 offer
      have sp : (writeAll (board.splBoardPrepareForBoot mem) stores).read32
          m4Staging = 0 := (closed.writeAll (by decide) spare).words.1
      rw [sp] at opens
      exact absurd opens.1.1 (by decide)
  · rintro ⟨payload, offers, good⟩
    exact (offers.vectorsOk_iff mem spare).mpr good

end Gate

/--
Whatever DDR held before, a core in reset is started exactly when the flagged
partition has a valid `m4-fw.img` with good vectors.  Then TCML starts with its
payload and the resource table is clear; otherwise BL31 changes neither memory
nor the core.
-/
theorem bootM4_released_iff (board : M4Board)
    (stores : List (Nat × List UInt8)) (soc : M4Soc) (held : ¬ soc.Released)
    (spare : ∀ store ∈ stores, SparesM4 store) :
    ((bootM4 board stores soc).Released ↔
        ∃ payload, board.Offers payload ∧ PayloadOk payload) ∧
      (∀ payload, board.Offers payload → PayloadOk payload →
        (bootM4 board stores soc).mem.readBytes m4Tcml payload.length =
            payload ∧
          ∀ offset < 0x100,
            (bootM4 board stores soc).mem.byte (m4RscTable + offset) = 0) ∧
      ((¬ ∃ payload, board.Offers payload ∧ PayloadOk payload) →
        bootM4 board stores soc =
          { soc with
            mem :=
              writeAll (board.splBoardPrepareForBoot soc.mem) stores }) := by
  have opens_iff := board.vectorsOk_iff soc.mem spare
  have released_iff :=
    startM4_released_iff
      { soc with
        mem := writeAll (board.splBoardPrepareForBoot soc.mem) stores } held
  refine ⟨released_iff.trans opens_iff, ?_, ?_⟩
  · intro payload offers good
    obtain ⟨-, copied, clear⟩ :=
      @startM4_of_vectors
        { soc with
          mem := writeAll (board.splBoardPrepareForBoot soc.mem) stores }
        (opens_iff.mpr ⟨payload, offers, good⟩)
    refine ⟨?_, clear⟩
    obtain ⟨-, part, -, -, -, valid⟩ := id offers
    have fits : payload.length ≤ m4TcmlSz := valid.bound
    apply Memory.readBytes_eq
    intro offset inside
    refine (copied offset (by omega)).trans ?_
    exact offers.stages soc.mem spare offset (lt_max_of_lt_right inside)
  · intro bad
    exact if_pos fun opens => bad (opens_iff.mp opens)

/-! ## Images of the build -/

/-- `m4-fw.img`; `struct.pack` refuses a number that has more than 32 bits. -/
def m4FwImg (crc32 : List UInt8 → Nat) (version : Nat)
    (payload : List UInt8) : Option (List UInt8) :=
  if payload.length < 2 ^ 32 ∧ version < 2 ^ 32 then
    some
      ([0x4d, 0x34, 0x46, 0x57] ++ Memory.wordBytes payload.length ++
        Memory.wordBytes (crc32 payload % 2 ^ 32) ++
          Memory.wordBytes version ++ payload)
  else none

/-- `_estack` of the linker scripts under m4/: the end of TCMU. -/
def m4Estack : Nat := 0x20000000 + 128 * 1024

/-- The build's image of a payload that fits TCML is valid. -/
theorem m4Valid_of_m4FwImg {crc32 : List UInt8 → Nat}
    (fits : ∀ bytes, crc32 bytes < 2 ^ 32) {version : Nat}
    {payload file : List UInt8} (bound : payload.length ≤ m4MaxPayload)
    (written : m4FwImg crc32 version payload = some file) :
    M4Valid crc32 file payload := by
  rw [m4FwImg] at written
  split_ifs at written with small
  obtain rfl := Option.some.inj written
  have magic : Memory.word 0x4d 0x34 0x46 0x57 = m4Magic := by decide
  constructor
  case magic => exact magic
  case size => exact Memory.word_wordBytes small.1
  case bound => exact bound
  case contained =>
    simp only [List.length_append, List.length_cons, List.length_nil,
      Memory.length_wordBytes]
    omega
  case holds => exact List.take_length
  case crc =>
    have read := Memory.word_wordBytes (Nat.mod_lt (crc32 payload)
      (Nat.two_pow_pos 32))
    rw [Nat.mod_eq_of_lt (fits payload)] at read
    rw [Nat.mod_eq_of_lt (fits payload)]
    exact read.symm

/-- The board boots a partition with the build's image of this payload. -/
structure M4Board.Built (board : M4Board) (version : Nat)
    (payload : List UInt8) : Prop where
  mmc : board.mmc = true
  crc : ∀ bytes, board.crc32 bytes < 2 ^ 32
  bound : payload.length ≤ m4MaxPayload
  image : ∃ part, board.flaggedPart = some part ∧
    board.fatRegister part = true ∧ (board.m4Img part).failed = false ∧
      m4FwImg board.crc32 version payload = some (board.m4Img part).bytes

theorem M4Board.Built.offers {board : M4Board} {version : Nat}
    {payload : List UInt8} (built : board.Built version payload) :
    board.Offers payload := by
  obtain ⟨part, found, registers, succeeds, written⟩ := built.image
  exact
    ⟨built.mmc, part, found, registers, succeeds,
      m4Valid_of_m4FwImg built.crc built.bound written⟩

/--
An image of the build starts the core exactly when its vectors are good.  The
gate wants the stack below the end of TCMU, so a firmware that is linked with
`_estack` for its stack pointer never starts.
-/
theorem bootM4_built {board : M4Board} {version : Nat} {payload : List UInt8}
    (built : board.Built version payload) (stores : List (Nat × List UInt8))
    (soc : M4Soc) (held : ¬ soc.Released)
    (spare : ∀ store ∈ stores, SparesM4 store) :
    ((bootM4 board stores soc).Released ↔ PayloadOk payload) ∧
      (McoreImage.le32 payload 0 = m4Estack →
        ¬ (bootM4 board stores soc).Released) := by
  have gate : (bootM4 board stores soc).Released ↔ PayloadOk payload :=
    (startM4_released_iff
      { soc with
        mem := writeAll (board.splBoardPrepareForBoot soc.mem) stores }
      held).trans (built.offers.vectorsOk_iff soc.mem spare)
  refine ⟨gate, fun estack released => ?_⟩
  have good := (gate.mp released).1.2
  rw [estack] at good
  exact absurd good (by decide)

/-! ## A boot on the bench -/

namespace Bench

/-- Vectors in TCMU and TCML, and a byte of code. -/
def m4Payload : List UInt8 :=
  Memory.wordBytes 0x20002470 ++ Memory.wordBytes 0x1ffe1a29 ++ [0x70]

/-- A board that boots p1 with the build's image. -/
def m4Board : M4Board where
  mmc := true
  mbr := mbr .a
  fatRegister _ := true
  m4Img _ := ⟨(m4FwImg crc32 1 m4Payload).getD [], false⟩
  crc32 := crc32

theorem m4Board_built : m4Board.Built 1 m4Payload where
  mmc := rfl
  crc := crc32_lt
  bound := by decide
  image := ⟨1, by decide +kernel, rfl, rfl, by decide +kernel⟩

/-- From DDR full of ones, TCML starts with the payload. -/
theorem m4Board_tcml :
    (bootM4 m4Board [] ⟨⟨fun _ => 0xff⟩, true, false⟩).mem.readBytes m4Tcml 9 =
      m4Payload :=
  ((bootM4_released_iff m4Board [] ⟨⟨fun _ => 0xff⟩, true, false⟩
    (by decide) (by simp)).2.1 m4Payload m4Board_built.offers
      (by decide)).1

/-- The core is started. -/
theorem m4Board_released :
    (bootM4 m4Board [] ⟨⟨fun _ => 0xff⟩, true, false⟩).Released :=
  (bootM4_built m4Board_built [] ⟨⟨fun _ => 0xff⟩, true, false⟩ (by decide)
    (by simp)).1.mpr (by decide)

end Bench

end KmmYocto
