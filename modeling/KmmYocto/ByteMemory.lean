import Mathlib

/-!
# Byte-addressed memory

A memory is a function from addresses to bytes, so it has a value everywhere
and nothing is known of one that was never written.  Programs read and write
runs of bytes and little-endian 32-bit words, and copy a region word by word.

Each write has a lemma for the addresses inside its range and one for those
outside; everything else follows from these.
-/

namespace KmmYocto

/-- The content of a byte-addressed memory. -/
structure Memory where
  byte : Nat → UInt8

namespace Memory

/-! ## Little-endian words -/

/-- The word of four bytes, lowest first. -/
def word (first second third fourth : UInt8) : Nat :=
  first.toNat + second.toNat * 2 ^ 8 + third.toNat * 2 ^ 16 +
    fourth.toNat * 2 ^ 24

/-- The four bytes of a word, lowest first. -/
def wordBytes (value : Nat) : List UInt8 :=
  [value.toUInt8, (value / 2 ^ 8).toUInt8, (value / 2 ^ 16).toUInt8,
    (value / 2 ^ 24).toUInt8]

@[simp]
theorem length_wordBytes (value : Nat) : (wordBytes value).length = 4 :=
  rfl

theorem wordBytes_word (first second third fourth : UInt8) :
    wordBytes (word first second third fourth) =
      [first, second, third, fourth] := by
  have bounds :
      first.toNat < 2 ^ 8 ∧ second.toNat < 2 ^ 8 ∧ third.toNat < 2 ^ 8 ∧
        fourth.toNat < 2 ^ 8 :=
    ⟨first.toNat_lt, second.toNat_lt, third.toNat_lt, fourth.toNat_lt⟩
  have byteEq : ∀ (value : Nat) (byte : UInt8),
      value % 2 ^ 8 = byte.toNat → value.toUInt8 = byte := by
    intro value byte equal
    apply UInt8.toNat_inj.mp
    rw [← equal]
    exact UInt8.toNat_ofNat'
  simp only [wordBytes, word, List.cons.injEq, and_true]
  refine ⟨?_, ?_, ?_, ?_⟩ <;> apply byteEq <;> omega

theorem word_wordBytes {value : Nat} (fits : value < 2 ^ 32) :
    word value.toUInt8 (value / 2 ^ 8).toUInt8 (value / 2 ^ 16).toUInt8
      (value / 2 ^ 24).toUInt8 = value := by
  have byteEq : ∀ part : Nat, part.toUInt8.toNat = part % 2 ^ 8 :=
    fun part => UInt8.toNat_ofNat'
  simp only [word, byteEq]
  omega

theorem word_lt (first second third fourth : UInt8) :
    word first second third fourth < 2 ^ 32 := by
  have bounds :
      first.toNat < 2 ^ 8 ∧ second.toNat < 2 ^ 8 ∧ third.toNat < 2 ^ 8 ∧
        fourth.toNat < 2 ^ 8 :=
    ⟨first.toNat_lt, second.toNat_lt, third.toNat_lt, fourth.toNat_lt⟩
  rw [word]
  omega

/-! ## Runs of bytes -/

/-- The bytes of a range. -/
def readBytes (mem : Memory) (address length : Nat) : List UInt8 :=
  (List.range length).map fun offset => mem.byte (address + offset)

/-- Write the bytes from an address on. -/
def writeBytes (mem : Memory) (address : Nat) (bytes : List UInt8) :
    Memory where
  byte queried :=
    if address ≤ queried ∧ queried < address + bytes.length then
      bytes.getD (queried - address) 0
    else mem.byte queried

/-- `memcpy` between ranges that do not overlap. -/
def copy (mem : Memory) (target source length : Nat) : Memory :=
  mem.writeBytes target (mem.readBytes source length)

@[simp]
theorem length_readBytes (mem : Memory) (address length : Nat) :
    (mem.readBytes address length).length = length := by
  simp [readBytes]

/-- A range that holds the bytes of a list reads as the list. -/
theorem readBytes_eq {mem : Memory} {address : Nat} {bytes : List UInt8}
    (holds : ∀ offset < bytes.length,
      mem.byte (address + offset) = bytes.getD offset 0) :
    mem.readBytes address bytes.length = bytes := by
  apply List.ext_getElem (by simp)
  intro offset _ inside
  simp [readBytes, holds offset inside, inside]

section Write

variable
    {mem : Memory} {address queried : Nat} {bytes : List UInt8}

theorem byte_writeBytes_inside {offset : Nat}
    (inside : offset < bytes.length) :
    (mem.writeBytes address bytes).byte (address + offset) =
      bytes.getD offset 0 := by
  have range :
      address ≤ address + offset ∧ address + offset < address + bytes.length :=
    ⟨Nat.le_add_right _ _, Nat.add_lt_add_left inside _⟩
  simp only [writeBytes, if_pos range, Nat.add_sub_cancel_left]

theorem byte_writeBytes_outside
    (outside : queried < address ∨ address + bytes.length ≤ queried) :
    (mem.writeBytes address bytes).byte queried = mem.byte queried := by
  apply if_neg
  omega

end Write

/-! ## Words in memory -/

/-- A 32-bit read. -/
def read32 (mem : Memory) (address : Nat) : Nat :=
  word (mem.byte address) (mem.byte (address + 1)) (mem.byte (address + 2))
    (mem.byte (address + 3))

/-- A 32-bit write. -/
def write32 (mem : Memory) (address value : Nat) : Memory :=
  mem.writeBytes address (wordBytes value)

/-- A word that was read writes the four bytes it was read from. -/
theorem byte_write32_read32 (mem source : Memory) {target address offset : Nat}
    (inside : offset < 4) :
    (mem.write32 target (source.read32 address)).byte (target + offset) =
      source.byte (address + offset) := by
  rw [write32, read32, wordBytes_word, byte_writeBytes_inside inside]
  interval_cases offset <;> rfl

theorem byte_write32_outside {mem : Memory} {address value queried : Nat}
    (outside : queried < address ∨ address + 4 ≤ queried) :
    (mem.write32 address value).byte queried = mem.byte queried :=
  byte_writeBytes_outside outside

theorem byte_write32_zero (mem : Memory) {address offset : Nat}
    (inside : offset < 4) :
    (mem.write32 address 0).byte (address + offset) = 0 := by
  rw [write32, byte_writeBytes_inside inside]
  interval_cases offset <;> rfl

theorem read32_write32 (mem : Memory) (address : Nat) {value : Nat}
    (fits : value < 2 ^ 32) :
    (mem.write32 address value).read32 address = value := by
  have byteEq : ∀ offset < 4,
      (mem.write32 address value).byte (address + offset) =
        (wordBytes value).getD offset 0 :=
    fun offset inside => byte_writeBytes_inside inside
  rw [read32, byteEq 1 (by decide), byteEq 2 (by decide),
    byteEq 3 (by decide)]
  have first := byteEq 0 (by decide)
  rw [Nat.add_zero] at first
  rw [first]
  exact word_wordBytes fits

/-! ## Loops over words -/

/-- Write the words of a list, lowest first. -/
def writeWords (mem : Memory) (address : Nat) : List Nat → Memory
  | [] => mem
  | value :: rest => (mem.write32 address value).writeWords (address + 4) rest

/-- Copy words, lowest first, each read when it is its turn. -/
def copyWords (mem : Memory) (target source : Nat) : Nat → Memory
  | 0 => mem
  | count + 1 =>
      let copied := copyWords mem target source count
      copied.write32 (target + 4 * count) (copied.read32 (source + 4 * count))

/-- Clear words, lowest first. -/
def clearWords (mem : Memory) (target : Nat) : Nat → Memory
  | 0 => mem
  | count + 1 =>
      (clearWords mem target count).write32 (target + 4 * count) 0

section Loops

variable
    {mem : Memory} {target source : Nat}

theorem byte_writeWords_outside {words : List Nat} {queried : Nat}
    (outside : queried < target ∨ target + 4 * words.length ≤ queried) :
    (mem.writeWords target words).byte queried = mem.byte queried := by
  induction words generalizing mem target with
  | nil => rfl
  | cons value rest induction =>
      rw [List.length_cons] at outside
      rw [writeWords, induction (by omega), byte_write32_outside (by omega)]

theorem read32_writeWords_before {words : List Nat} {queried : Nat}
    (before : queried + 4 ≤ target) :
    (mem.writeWords target words).read32 queried = mem.read32 queried := by
  simp only [read32]
  rw [byte_writeWords_outside (by omega), byte_writeWords_outside (by omega),
    byte_writeWords_outside (by omega), byte_writeWords_outside (by omega)]

theorem byte_copyWords_outside {queried : Nat} (count : Nat)
    (outside : queried < target ∨ target + 4 * count ≤ queried) :
    (mem.copyWords target source count).byte queried = mem.byte queried := by
  induction count with
  | zero => rfl
  | succ count induction =>
      rw [copyWords, byte_write32_outside (by omega)]
      exact induction (by omega)

/-- The target holds what the source held, if the two do not overlap. -/
theorem byte_copyWords_inside (count : Nat)
    (apart : source + 4 * count ≤ target ∨ target + 4 * count ≤ source)
    {offset : Nat} (inside : offset < 4 * count) :
    (mem.copyWords target source count).byte (target + offset) =
      mem.byte (source + offset) := by
  induction count with
  | zero => omega
  | succ count induction =>
      by_cases early : offset < 4 * count
      · rw [copyWords, byte_write32_outside (by omega)]
        exact induction (by omega) early
      · obtain ⟨last, rfl⟩ : ∃ last, offset = 4 * count + last :=
          ⟨offset - 4 * count, by omega⟩
        rw [copyWords, ← Nat.add_assoc,
          byte_write32_read32 _ _ (by omega), Nat.add_assoc,
          byte_copyWords_outside count (by omega)]

theorem byte_clearWords_outside {queried : Nat} (count : Nat)
    (outside : queried < target ∨ target + 4 * count ≤ queried) :
    (mem.clearWords target count).byte queried = mem.byte queried := by
  induction count with
  | zero => rfl
  | succ count induction =>
      rw [clearWords, byte_write32_outside (by omega)]
      exact induction (by omega)

/-- The cleared range reads as zero. -/
theorem byte_clearWords_inside (count : Nat) {offset : Nat}
    (inside : offset < 4 * count) :
    (mem.clearWords target count).byte (target + offset) = 0 := by
  induction count with
  | zero => omega
  | succ count induction =>
      by_cases early : offset < 4 * count
      · rw [clearWords, byte_write32_outside (by omega)]
        exact induction early
      · obtain ⟨last, rfl⟩ : ∃ last, offset = 4 * count + last :=
          ⟨offset - 4 * count, by omega⟩
        rw [clearWords, ← Nat.add_assoc, byte_write32_zero _ (by omega)]

end Loops

end Memory

end KmmYocto
