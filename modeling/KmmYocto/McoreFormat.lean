import KmmYocto.M7Stage

/-!
# One writer and two readers of the M-core file

falcon-itb.bb writes `m7-fw.img` in Python, `mcore_check` reads it with
`hexdump`, `tail`, `gzip` and `dd`, comparing decimal strings, and the SPL
reads it in C.  The three agree on which files are images.

The checksum is one parameter, `crc32`: zlib, the trailer of gzip and U-Boot
compute the same 32-bit value.
-/

namespace KmmYocto.McoreImage

open Memory

/-! ## The writer -/

/-- `m7-fw.img`; `struct.pack` refuses a number that has more than 32 bits. -/
def m7FwImg (crc32 : List UInt8 → Nat) (version : Nat)
    (payload : List UInt8) : Option (List UInt8) :=
  if payload.length < 2 ^ 32 ∧ version < 2 ^ 32 then
    some
      ([0x4d, 0x37, 0x46, 0x57] ++ wordBytes payload.length ++
        wordBytes (crc32 payload % 2 ^ 32) ++ wordBytes version ++ payload)
  else none

/-! ## The shell reader -/

/-- `hexdump -n 4 -e '4/1 "%02x"'`: blanks stand for bytes that are missing. -/
def hexdumpMagic (file : List UInt8) : String :=
  String.ofList
    ((List.range 4).flatMap fun index =>
      match file[index]? with
      | some byte =>
          [Nat.digitChar (byte.toNat / 16), Nat.digitChar (byte.toNat % 16)]
      | none => [' ', ' '])

/-- `hexdump -s offset -n 4 -e '1/4 "%u"'`: nothing if the file ends before. -/
def hexdumpWord (file : List UInt8) (offset : Nat) : String :=
  if offset < file.length then (le32 file offset).repr else ""

/-- The last eight bytes of what gzip makes of the bytes. -/
def gzipTrailer (crc32 : List UInt8 → Nat) (bytes : List UInt8) :
    List UInt8 :=
  wordBytes (crc32 bytes) ++ wordBytes (bytes.length % 2 ^ 32)

/-- `mcore_check`: the line it prints, or `return 1`. -/
def mcoreCheckLine (crc32 : List UInt8 → Nat) (magic : String)
    (file : List UInt8) : Option String :=
  if hexdumpMagic file ≠ magic then none
  else
    let size := hexdumpWord file 4
    let crc := hexdumpWord file 8
    let ver := hexdumpWord file 12
    match size.toNat? with
    | none => none
    | some number =>
        if ¬ (0 < number ∧ number ≤ maxPayload) then none
        else if file.length ≠ 16 + number then none
        else
          let calculated :=
            hexdumpWord ((gzipTrailer crc32 (file.drop 16)).take 4) 0
          if calculated ≠ crc then none
          else some (ver ++ " " ++ crc ++ " " ++ size)

/-- `MCORE_MAGIC` of the 8MP. -/
def mcoreMagicHex : String := "4d374657"

/-- Version, checksum and length of a firmware, as `mcore_check` prints them. -/
def Firmware.line (crc32 : List UInt8 → Nat) (firmware : Firmware) : String :=
  firmware.version.repr ++ " " ++ (crc32 firmware.payload).repr ++ " " ++
    firmware.payload.length.repr

/-! ## Words of a file -/

/-- Four bytes of a file are the bytes of the word read there. -/
theorem take_drop_eq_wordBytes {file : List UInt8} {offset : Nat}
    (inside : offset + 4 ≤ file.length) :
    (file.drop offset).take 4 = wordBytes (le32 file offset) := by
  have byte : ∀ index < 4,
      ((file.drop offset).take 4)[index]? =
        some (file.getD (offset + index) 0) := by
    intro index early
    rw [List.getElem?_take_of_lt early, List.getElem?_drop,
      List.getD_eq_getElem _ _ (by omega : offset + index < file.length),
      List.getElem?_eq_getElem]
  have read :
      wordBytes (le32 file offset) =
        [file.getD offset 0, file.getD (offset + 1) 0,
          file.getD (offset + 2) 0, file.getD (offset + 3) 0] :=
    wordBytes_word _ _ _ _
  rw [read]
  apply List.ext_getElem?
  intro index
  by_cases early : index < 4
  · rw [byte index early]
    interval_cases index <;> rfl
  · have late : 4 ≤ index := Nat.le_of_not_lt early
    rw [List.getElem?_eq_none ((List.length_take_le _ _).trans late)]
    exact (List.getElem?_eq_none late).symm

/-- A word is read where it was put. -/
theorem le32_append_wordBytes {value : Nat} (fits : value < 2 ^ 32)
    (front rest : List UInt8) :
    le32 (front ++ (wordBytes value ++ rest))
        front.length = value := by
  have at_offset : ∀ offset < 4,
      (front ++ (wordBytes value ++ rest)).getD
          (front.length + offset) 0 =
        (wordBytes value).getD offset 0 := by
    intro offset inside
    rw [List.getD_append_right _ _ _ _ (Nat.le_add_right _ _),
      Nat.add_sub_cancel_left, List.getD_append _ _ _ _ inside]
  have first := at_offset 0 (by decide)
  have second := at_offset 1 (by decide)
  have third := at_offset 2 (by decide)
  have fourth := at_offset 3 (by decide)
  rw [Nat.add_zero] at first
  rw [le32, first, second, third, fourth]
  exact word_wordBytes fits

theorem le32_lt (file : List UInt8) (offset : Nat) :
    le32 file offset < 2 ^ 32 :=
  word_lt _ _ _ _

/-- A file with a whole header is its four words and the rest. -/
theorem eq_header_append {file : List UInt8} (whole : 16 ≤ file.length) :
    file =
      wordBytes (le32 file 0) ++ wordBytes (le32 file 4) ++
        wordBytes (le32 file 8) ++ wordBytes (le32 file 12) ++
          file.drop 16 := by
  have split : ∀ offset, offset + 4 ≤ file.length →
      file.drop offset =
        wordBytes (le32 file offset) ++ file.drop (offset + 4) := by
    intro offset inside
    rw [← take_drop_eq_wordBytes inside, ← List.drop_drop,
      List.take_append_drop]
  have first := split 0 (by omega)
  rw [List.drop_zero, split 4 (by omega), split 8 (by omega),
    split 12 (by omega)] at first
  simpa only [List.append_assoc] using first

/-! ## What the shell reader accepts -/

theorem hexByte_inj {left right : UInt8}
    (equal :
      [Nat.digitChar (left.toNat / 16), Nat.digitChar (left.toNat % 16)] =
        [Nat.digitChar (right.toNat / 16),
          Nat.digitChar (right.toNat % 16)]) : left = right := by
  have digit : ∀ first < 16, ∀ second < 16,
      Nat.digitChar first = Nat.digitChar second → first = second := by
    decide
  have leftBound := left.toNat_lt
  have rightBound := right.toNat_lt
  simp only [List.cons.injEq, and_true] at equal
  have high := digit _ (by omega) _ (by omega) equal.1
  have low := digit _ (by omega) _ (by omega) equal.2
  apply UInt8.toNat_inj.mp
  omega

/-- The magic is compared as text; the SPL compares it as a number. -/
theorem hexdumpMagic_eq_iff (file : List UInt8) :
    hexdumpMagic file = mcoreMagicHex ↔
      4 ≤ file.length ∧ le32 file 0 = m7Magic := by
  have digits : mcoreMagicHex.toList =
      ['4', 'd'] ++ (['3', '7'] ++ (['4', '6'] ++ ['5', '7'])) := by
    decide
  rw [← String.toList_inj, digits, hexdumpMagic, String.toList_ofList]
  rcases file with _ | ⟨first, _ | ⟨second, _ | ⟨third, _ | ⟨fourth, rest⟩⟩⟩⟩
  case cons.cons.cons.cons =>
    have long : 4 ≤ (first :: second :: third :: fourth :: rest).length := by
      simp
    have read :
        le32 (first :: second :: third :: fourth :: rest) 0 =
          word first second third fourth := rfl
    rw [read]
    constructor
    · intro equal
      have bytes :
          first = 0x4d ∧ second = 0x37 ∧ third = 0x46 ∧ fourth = 0x57 := by
        simp only [List.range, List.range.loop, List.flatMap_cons,
          List.flatMap_nil, List.getElem?_cons_zero, List.getElem?_cons_succ,
          List.append_nil, List.cons_append, List.nil_append,
          List.cons.injEq, and_true] at equal
        obtain ⟨e0, e1, e2, e3, e4, e5, e6, e7⟩ := equal
        refine ⟨hexByte_inj ?_, hexByte_inj ?_, hexByte_inj ?_, hexByte_inj ?_⟩
        · rw [e0, e1]
          decide
        · rw [e2, e3]
          decide
        · rw [e4, e5]
          decide
        · rw [e6, e7]
          decide
      obtain ⟨rfl, rfl, rfl, rfl⟩ := bytes
      exact ⟨long, by decide⟩
    · rintro ⟨-, magic⟩
      have bytes := congrArg wordBytes magic
      rw [wordBytes_word] at bytes
      have known : wordBytes m7Magic = [0x4d, 0x37, 0x46, 0x57] := by decide
      rw [known] at bytes
      simp only [List.cons.injEq, and_true] at bytes
      obtain ⟨rfl, rfl, rfl, rfl⟩ := bytes
      rfl
  all_goals
    refine iff_of_false ?_ (fun long => absurd long.1 (by simp))
    intro equal
    have last := congrArg List.getLast? equal
    simp [List.range, List.range.loop] at last

/-- A word that is there prints as its value, and is read back. -/
theorem hexdumpWord_of_lt {file : List UInt8} {offset : Nat}
    (inside : offset < file.length) :
    hexdumpWord file offset = (le32 file offset).repr :=
  if_pos inside

/-- The checksum `mcore_check` gets out of gzip. -/
theorem hexdumpWord_gzipTrailer {crc32 : List UInt8 → Nat}
    {bytes : List UInt8} (fits : crc32 bytes < 2 ^ 32) :
    hexdumpWord ((gzipTrailer crc32 bytes).take 4) 0 = (crc32 bytes).repr := by
  have four : (gzipTrailer crc32 bytes).take 4 = wordBytes (crc32 bytes) := rfl
  rw [four, hexdumpWord_of_lt (by simp)]
  exact congrArg Nat.repr (word_wordBytes fits)

/-- The shell's checks are those of `mcoreCheck`, with the line it prints. -/
theorem mcoreCheckLine_eq {crc32 : List UInt8 → Nat}
    (fits : ∀ bytes, crc32 bytes < 2 ^ 32) (file : List UInt8) :
    mcoreCheckLine crc32 mcoreMagicHex file =
      (mcoreCheck crc32 m7Magic file).map fun firmware =>
        firmware.line crc32 := by
  rw [mcoreCheckLine, mcoreCheck]
  by_cases magic : hexdumpMagic file = mcoreMagicHex
  case neg =>
    have wrong : file.length < 4 ∨ le32 file 0 ≠ m7Magic := by
      by_contra right
      push Not at right
      exact magic ((hexdumpMagic_eq_iff file).mpr right)
    rw [if_pos magic, if_pos wrong]
    rfl
  have number := (hexdumpMagic_eq_iff file).mp magic
  have right : ¬ (file.length < 4 ∨ le32 file 0 ≠ m7Magic) := by
    push Not
    exact number
  rw [if_neg (not_not.mpr magic), if_neg right]
  by_cases sized : 4 < file.length
  case neg =>
    -- a file that ends with its magic has no length to print
    have four : file.length = 4 := by omega
    have missing : hexdumpWord file 4 = "" := if_neg sized
    have differs : file.length ≠ 16 + le32 file 4 := by omega
    have noNumber : "".toNat? = none := by
      rw [String.toNat?_eq_none_iff, ← Bool.not_eq_true, String.isNat_iff]
      simp
    simp only [missing, noNumber, if_pos differs]
    split_ifs <;> rfl
  simp only [hexdumpWord_of_lt sized, Nat.toNat?_repr,
    hexdumpWord_gzipTrailer (fits _)]
  by_cases bound : 0 < le32 file 4 ∧ le32 file 4 ≤ maxPayload
  case neg =>
    rw [if_pos bound, if_pos bound]
    rfl
  rw [if_neg (not_not.mpr bound), if_neg (not_not.mpr bound)]
  by_cases length : file.length = 16 + le32 file 4
  case neg =>
    rw [if_pos length, if_pos length]
    rfl
  rw [if_neg (not_not.mpr length), if_neg (not_not.mpr length),
    hexdumpWord_of_lt (by omega : 8 < file.length),
    hexdumpWord_of_lt (by omega : 12 < file.length)]
  by_cases same : crc32 (file.drop 16) = le32 file 8
  case neg =>
    rw [if_pos fun equal => same (Nat.repr_inj.mp equal), if_pos same]
    rfl
  have payload : (file.drop 16).length = le32 file 4 := by
    rw [List.length_drop]
    omega
  rw [if_neg (not_not.mpr (congrArg Nat.repr same)),
    if_neg (not_not.mpr same), Option.map_some, Firmware.line, payload, same]

/-! ## The image of a payload and a version -/

section Image

variable
    {crc32 : List UInt8 → Nat} {version : Nat} {payload file : List UInt8}

theorem m7FwImg_eq_some_iff :
    m7FwImg crc32 version payload = some file ↔
      (payload.length < 2 ^ 32 ∧ version < 2 ^ 32) ∧
        [0x4d, 0x37, 0x46, 0x57] ++ wordBytes payload.length ++
          wordBytes (crc32 payload % 2 ^ 32) ++ wordBytes version ++
            payload = file := by
  rw [m7FwImg]
  split_ifs with fits
  · rw [Option.some.injEq]
    exact (and_iff_right fits).symm
  · exact iff_of_false (by simp) fun both => fits both.1

/-- What a reader finds in an image. -/
theorem read_m7FwImg (written : m7FwImg crc32 version payload = some file) :
    file.length = 16 + payload.length ∧ file.drop 16 = payload ∧
      le32 file 0 = m7Magic ∧ le32 file 4 = payload.length ∧
        le32 file 8 = crc32 payload % 2 ^ 32 ∧ le32 file 12 = version := by
  obtain ⟨fits, rfl⟩ := m7FwImg_eq_some_iff.mp written
  have magic : word 0x4d 0x37 0x46 0x57 = m7Magic := by decide
  refine ⟨?_, rfl, magic, word_wordBytes fits.1, ?_, word_wordBytes fits.2⟩
  · simp only [List.length_append, List.length_cons, List.length_nil,
      length_wordBytes]
  · exact word_wordBytes (Nat.mod_lt _ (Nat.two_pow_pos 32))

/-- Two images are equal only for one payload and one version. -/
theorem m7FwImg_inj {otherVersion : Nat} {otherPayload : List UInt8}
    (written : m7FwImg crc32 version payload = some file)
    (other : m7FwImg crc32 otherVersion otherPayload = some file) :
    otherPayload = payload ∧ otherVersion = version := by
  obtain ⟨-, ofPayload, -, -, -, ofVersion⟩ := read_m7FwImg written
  obtain ⟨-, otherOfPayload, -, -, -, otherOfVersion⟩ := read_m7FwImg other
  exact
    ⟨otherOfPayload.symm.trans ofPayload,
      otherOfVersion.symm.trans ofVersion⟩

/-- `mcore_check` accepts the images of payloads of 1 to 128 KiB. -/
theorem mcoreCheck_eq_some_iff (fits : ∀ bytes, crc32 bytes < 2 ^ 32)
    {firmware : Firmware} :
    mcoreCheck crc32 m7Magic file = some firmware ↔
      (0 < firmware.payload.length ∧
        firmware.payload.length ≤ maxPayload) ∧
        m7FwImg crc32 firmware.version firmware.payload = some file := by
  constructor
  · intro accepted
    simp only [mcoreCheck] at accepted
    split_ifs at accepted with short size length crc
    push Not at short crc
    obtain rfl := Option.some.inj accepted
    have payload : (file.drop 16).length = le32 file 4 := by
      rw [List.length_drop]
      omega
    simp only [payload]
    refine ⟨size, m7FwImg_eq_some_iff.mpr ⟨⟨?_, ?_⟩, ?_⟩⟩
    · rw [payload]
      exact le32_lt file 4
    · exact le32_lt file 12
    · have magic : [0x4d, 0x37, 0x46, 0x57] = wordBytes (le32 file 0) := by
        rw [short.2]
        decide
      rw [payload, crc, Nat.mod_eq_of_lt (le32_lt file 8), magic]
      exact (eq_header_append (by omega)).symm
  · rintro ⟨bound, written⟩
    obtain ⟨length, payload, magic, size, crc, version⟩ :=
      read_m7FwImg written
    rw [Nat.mod_eq_of_lt (fits _)] at crc
    simp only [mcoreCheck, payload, magic, size, crc, version, length]
    rw [if_neg (by simp; omega), if_neg (not_not.mpr bound),
      if_neg (by simp), if_neg (by simp)]

end Image

end KmmYocto.McoreImage

namespace KmmYocto

/-! ## The SPL -/

/--
Whatever the board and its environment are, an SPL that picks a slot with this
file stages the payload and records the version.
-/
def SplAccepts (crc32 : List UInt8 → Nat) (file payload : List UInt8)
    (version : Nat) : Prop :=
  ∀ (board : Board) (save : Save) (run : SplDdr) (sel : Slot),
    board.crc32 = crc32 → board.mcorePart = true →
      board.mcoreFile sel = some file → run.spl.mcoreDone = false →
        (mcorePick board save run.stored
          { run.spl with mcoreDone := true }).value = some sel →
          (splMcoreStageDdr board save run).mem.Stages (some payload) ∧
            (splMcoreStageDdr board save run).spl.mcoreLoaded = some sel ∧
              (splMcoreStageDdr board save run).spl.mcoreVer = version

theorem splAccepts_of_splCheck {crc32 : List UInt8 → Nat} {file : List UInt8}
    {firmware : McoreImage.Firmware}
    (accepted : McoreImage.splCheck crc32 file = some firmware) :
    SplAccepts crc32 file firmware.payload firmware.version := by
  rintro board save run sel rfl present found first picks
  obtain ⟨low, -, stages⟩ := splMcoreStageDdr_refines board save run first
  have high := splMcoreStage_of_pick first picks present found accepted
  rw [low]
  rw [high] at stages ⊢
  exact ⟨stages, rfl, rfl⟩

/--
For payloads of 1 byte to 128 KiB and 32-bit versions, what the build writes is
accepted by `mcore_check` and by the SPL; and what `mcore_check` accepts is such
a file of one payload and version, and the SPL accepts it.
-/
theorem mcoreFormat_agrees (crc32 : List UInt8 → Nat)
    (fits : ∀ bytes, crc32 bytes < 2 ^ 32) :
    (∀ payload version,
      1 ≤ payload.length → payload.length ≤ 131072 → version < 2 ^ 32 →
        ∃ file,
          McoreImage.m7FwImg crc32 version payload = some file ∧
            McoreImage.mcoreCheckLine crc32 McoreImage.mcoreMagicHex file =
              some
                (version.repr ++ " " ++ (crc32 payload).repr ++ " " ++
                  payload.length.repr) ∧
              SplAccepts crc32 file payload version) ∧
    ∀ file line,
      McoreImage.mcoreCheckLine crc32 McoreImage.mcoreMagicHex file =
          some line →
        ∃ payload version,
          (1 ≤ payload.length ∧ payload.length ≤ 131072) ∧
            McoreImage.m7FwImg crc32 version payload = some file ∧
              SplAccepts crc32 file payload version ∧
                ∀ otherPayload otherVersion,
                  McoreImage.m7FwImg crc32 otherVersion otherPayload =
                      some file →
                    otherPayload = payload ∧ otherVersion = version := by
  constructor
  · intro payload version nonempty bound version32
    have length32 : payload.length < 2 ^ 32 := by omega
    obtain ⟨file, written⟩ :
        ∃ file, McoreImage.m7FwImg crc32 version payload = some file :=
      ⟨_, if_pos ⟨length32, version32⟩⟩
    have checked :
        McoreImage.mcoreCheck crc32 McoreImage.m7Magic file =
          some ⟨payload, version⟩ :=
      (McoreImage.mcoreCheck_eq_some_iff fits).mpr
        ⟨⟨nonempty, bound⟩, written⟩
    refine ⟨file, written, ?_, ?_⟩
    · rw [McoreImage.mcoreCheckLine_eq fits, checked]
      rfl
    · exact
        splAccepts_of_splCheck (McoreImage.splCheck_of_mcoreCheck checked)
  · intro file line accepted
    rw [McoreImage.mcoreCheckLine_eq fits] at accepted
    obtain ⟨firmware, checked, -⟩ := Option.map_eq_some_iff.mp accepted
    obtain ⟨bound, written⟩ :=
      (McoreImage.mcoreCheck_eq_some_iff fits).mp checked
    exact
      ⟨firmware.payload, firmware.version, bound, written,
        splAccepts_of_splCheck (McoreImage.splCheck_of_mcoreCheck checked),
        fun _ _ other => McoreImage.m7FwImg_inj written other⟩

/-- The largest payload, with a checksum that has 32 bits. -/
theorem mcoreFormat_agrees_atLimit :
    ∃ file,
      McoreImage.m7FwImg Bench.crc32 1 (List.replicate 131072 0) =
          some file ∧
        SplAccepts Bench.crc32 file (List.replicate 131072 0) 1 := by
  have length : (List.replicate 131072 (0 : UInt8)).length = 131072 :=
    List.length_replicate
  obtain ⟨file, written, -, accepts⟩ :=
    (mcoreFormat_agrees Bench.crc32 Bench.crc32_lt).1
      (List.replicate 131072 0) 1 (by rw [length]; decide) (by rw [length])
      (by decide)
  exact ⟨file, written, accepts⟩

end KmmYocto
