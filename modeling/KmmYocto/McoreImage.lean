import Mathlib

/-!
# The M-core firmware file

`mcore-a.img` and `mcore-b.img` hold a 16-byte header (magic, payload length,
CRC32 of the payload, version, each little-endian) and the payload.  The SPL
and the `ab` command check the file separately: the SPL accepts trailing
bytes, the `ab` command does not.

`crc32` is the checksum of U-Boot and of the gzip trailer; it is a parameter.
-/

namespace KmmYocto.McoreImage

/-- Little-endian 32-bit word at an offset; bytes past the end read as zero. -/
def le32 (bytes : List UInt8) (offset : Nat) : Nat :=
  (bytes.getD offset 0).toNat +
    (bytes.getD (offset + 1) 0).toNat * 2 ^ 8 +
    (bytes.getD (offset + 2) 0).toNat * 2 ^ 16 +
    (bytes.getD (offset + 3) 0).toNat * 2 ^ 24

/-- `M7_MAGIC`: "M7FW" read as a little-endian word. -/
def m7Magic : Nat := 0x5746374d

/-- `M7_MAX_PAYLOAD` of the SPL and `MCORE_MAX` of the `ab` command. -/
def maxPayload : Nat := 0x20000

/-- A firmware that passed a check: its payload and its version word. -/
structure Firmware where
  payload : List UInt8
  version : Nat
deriving DecidableEq, Repr

/--
The header check of `spl_mcore_stage`.  `file_fat_read` reads at most one
header and one maximal payload.
-/
def splCheck (crc32 : List UInt8 → Nat) (file : List UInt8) :
    Option Firmware :=
  let scratch := file.take (0x10 + maxPayload)
  let size := le32 scratch 4
  let payload := (scratch.drop 0x10).take size
  if scratch.length < 0x10 then none
  else if le32 scratch 0 ≠ m7Magic ∨ size > maxPayload ∨
      0x10 + size > scratch.length ∨
      crc32 payload ≠ le32 scratch 8 then none
  else some { payload, version := le32 scratch 12 }

/-- `mcore_check` of the `ab` command; `magic` is the machine's `MCORE_MAGIC`. -/
def mcoreCheck (crc32 : List UInt8 → Nat) (magic : Nat)
    (file : List UInt8) : Option Firmware :=
  let size := le32 file 4
  if file.length < 4 ∨ le32 file 0 ≠ magic then none
  else if ¬ (0 < size ∧ size ≤ maxPayload) then none
  else if file.length ≠ 16 + size then none
  else if crc32 (file.drop 16) ≠ le32 file 8 then none
  else some { payload := file.drop 16, version := le32 file 12 }

/-- What the `ab` command accepts with the SPL's magic, the SPL accepts too. -/
theorem splCheck_of_mcoreCheck
    {crc32 : List UInt8 → Nat} {file : List UInt8} {firmware : Firmware}
    (accepted : mcoreCheck crc32 m7Magic file = some firmware) :
    splCheck crc32 file = some firmware := by
  simp only [mcoreCheck] at accepted
  split_ifs at accepted with short size length crc
  have bound : file.length ≤ 0x10 + maxPayload := by omega
  have whole : file.take (0x10 + maxPayload) = file :=
    List.take_of_length_le bound
  have payload : (file.drop 0x10).take (le32 file 4) = file.drop 16 :=
    List.take_of_length_le (by simp; omega)
  have enough : ¬ file.length < 0x10 := by omega
  have good :
      ¬ (le32 file 0 ≠ m7Magic ∨ le32 file 4 > maxPayload ∨
        0x10 + le32 file 4 > file.length ∨
        crc32 (file.drop 16) ≠ le32 file 8) := by
    push Not at short crc
    simp only [short.2, crc, ne_eq, not_true_eq_false, or_false, false_or]
    omega
  simp only [splCheck, whole, payload]
  rw [if_neg enough, if_neg good]
  exact accepted

/-! ## What the SPL accepts -/

/-- The file is a header that fits its payload, and perhaps some more bytes. -/
structure Valid (crc32 : List UInt8 → Nat) (file : List UInt8)
    (firmware : Firmware) : Prop where
  magic : le32 file 0 = m7Magic
  size : le32 file 4 = firmware.payload.length
  bound : firmware.payload.length ≤ maxPayload
  contained : 0x10 + firmware.payload.length ≤ file.length
  payload : (file.drop 0x10).take firmware.payload.length = firmware.payload
  crc : crc32 firmware.payload = le32 file 8
  version : firmware.version = le32 file 12

/-- A word of a file that is cut behind the word. -/
theorem le32_take (file : List UInt8) {cut offset : Nat}
    (inside : offset + 4 ≤ cut) :
    le32 (file.take cut) offset = le32 file offset := by
  have kept : ∀ index < cut, (file.take cut).getD index 0 = file.getD index 0 := by
    intro index early
    rw [List.getD_eq_getElem?_getD, List.getElem?_take_of_lt early,
      List.getD_eq_getElem?_getD]
  rw [le32, kept _ (by omega), kept _ (by omega), kept _ (by omega),
    kept _ (by omega), le32]

/-- The header check of the SPL accepts the valid files and no others. -/
theorem splCheck_eq_some_iff {crc32 : List UInt8 → Nat} {file : List UInt8}
    {firmware : Firmware} :
    splCheck crc32 file = some firmware ↔ Valid crc32 file firmware := by
  have word : ∀ {offset : Nat}, offset + 4 ≤ 0x10 + maxPayload →
      le32 (file.take (0x10 + maxPayload)) offset = le32 file offset :=
    fun inside => le32_take file inside
  -- the part of the file that is read holds every payload that is accepted
  have read : ∀ {size : Nat}, size ≤ maxPayload →
      ((file.take (0x10 + maxPayload)).drop 0x10).take size =
        (file.drop 0x10).take size := by
    intro size bound
    rw [List.drop_take, List.take_take, Nat.add_sub_cancel_left,
      Nat.min_eq_left bound]
  simp only [splCheck, word (by decide : 0 + 4 ≤ 0x10 + maxPayload),
    word (by decide : 4 + 4 ≤ 0x10 + maxPayload),
    word (by decide : 8 + 4 ≤ 0x10 + maxPayload),
    word (by decide : 12 + 4 ≤ 0x10 + maxPayload), List.length_take]
  constructor
  · intro accepted
    split_ifs at accepted with short bad
    push Not at bad
    obtain ⟨magic, bound, contained, crc⟩ := bad
    obtain rfl := Option.some.inj accepted
    rw [read bound] at crc
    have whole : ((file.drop 0x10).take (le32 file 4)).length = le32 file 4 := by
      rw [List.length_take, List.length_drop]
      omega
    constructor
    case magic => exact magic
    case version => rfl
    all_goals simp only [read bound, whole]
    case bound => exact bound
    case contained => omega
    case crc => exact crc
  · intro valid
    have size := valid.size
    have bound := valid.bound
    have contained := valid.contained
    have crc := valid.crc
    have payload := valid.payload
    rw [← size] at payload
    rw [if_neg (by omega), if_neg, read (by omega), payload, ← valid.version]
    rw [read (by omega), payload]
    push Not
    exact ⟨valid.magic, by omega, by omega, crc⟩

end KmmYocto.McoreImage
