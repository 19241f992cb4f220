import KmmYocto.Binary64
import KmmYocto.Crc
import KmmYocto.Script

/-!
# The bench supply

`dp100.py` switches the supply of the bench.  A frame has a header with the
length, the payload and a CRC; an answer is looked for among whatever the
device sends.  The settings are read as volts and amperes and written as
milli-units, and a change is saved first and applied then.

The bytes of a read are a list, and the reads within the timeout a list of
these.  The values of a device are rational numbers after the rounding of the
floating-point operations.
-/

namespace KmmYocto

namespace Dp100

/-! ## The check sum -/

/-- One byte of `crc16_modbus`. -/
def crcByte (crc : BitVec 16) (b : UInt8) : BitVec 16 :=
  (Crc.shift 0xA001#16)^[8] (crc ^^^ b.toBitVec.setWidth 16)

/-- `crc16_modbus`. -/
def crc16Modbus (data : List UInt8) : BitVec 16 :=
  data.foldl crcByte 0xFFFF#16

/-- The bits of a byte, the lowest first. -/
def byteBits (b : UInt8) : List Bool :=
  (List.range 8).map b.toBitVec.getLsbD

/-- The bits of a message. -/
def bits (data : List UInt8) : List Bool :=
  data.flatMap byteBits

@[simp]
theorem length_byteBits (b : UInt8) : (byteBits b).length = 8 := by
  simp [byteBits]

@[simp]
theorem length_bits (data : List UInt8) : (bits data).length = 8 * data.length := by
  induction data with
  | nil => rfl
  | cons b rest induction =>
      rw [bits, List.flatMap_cons, List.length_append, length_byteBits,
        List.length_cons, ← bits, induction]
      ring

theorem getD_byteBits (b : UInt8) (i : Nat) :
    (byteBits b).getD i false = b.toBitVec.getLsbD i := by
  by_cases inside : i < 8
  · rw [List.getD_eq_getElem _ _ (by simpa using inside)]
    simp [byteBits]
  · rw [List.getD_eq_default _ _ (by simpa using inside),
      BitVec.getLsbD_of_ge _ _ (by omega)]

theorem word_byteBits (b : UInt8) :
    Crc.word 16 (byteBits b) = b.toBitVec.setWidth 16 := by
  apply BitVec.eq_of_getLsbD_eq
  intro i inside
  rw [Crc.getLsbD_word, getD_byteBits, BitVec.getLsbD_setWidth]

/-- A byte is fed bit by bit, the lowest first. -/
theorem crcByte_eq (crc : BitVec 16) (b : UInt8) :
    crcByte crc b = Crc.feedAll 0xA001#16 crc (byteBits b) := by
  rw [Crc.feedAll_eq_iterate (by simp), word_byteBits, length_byteBits,
    crcByte]

theorem foldl_crcByte (crc : BitVec 16) (data : List UInt8) :
    data.foldl crcByte crc = Crc.feedAll 0xA001#16 crc (bits data) := by
  induction data generalizing crc with
  | nil => rfl
  | cons b rest induction =>
      have parts : bits (b :: rest) = byteBits b ++ bits rest :=
        List.flatMap_cons
      rw [List.foldl_cons, induction, crcByte_eq, parts, Crc.feedAll_append]

/-- Two bytes as a little-endian word. -/
def le16 (low high : UInt8) : BitVec 16 :=
  low.toBitVec.setWidth 16 ||| high.toBitVec.setWidth 16 <<< 8

theorem word_bits_pair (low high : UInt8) :
    Crc.word 16 (bits [low, high]) = le16 low high := by
  apply BitVec.eq_of_getLsbD_eq
  intro i inside
  have pair : bits [low, high] = byteBits low ++ byteBits high := by
    simp [bits]
  rw [Crc.getLsbD_word, pair, le16, BitVec.getLsbD_or,
    BitVec.getLsbD_shiftLeft, BitVec.getLsbD_setWidth,
    BitVec.getLsbD_setWidth]
  by_cases first : i < 8
  · rw [List.getD_append _ _ _ _ (by simpa using first), getD_byteBits]
    simp [inside, first]
  · have above : low.toBitVec.getLsbD i = false :=
      BitVec.getLsbD_of_ge _ _ (by omega)
    have place : i - 8 < 16 := by omega
    rw [List.getD_append_right _ _ _ _ (by simpa using first),
      length_byteBits, getD_byteBits, above]
    simp [inside, first, place]

theorem highest : (0xA001#16).getLsbD (16 - 1) = true := by
  decide

/-- The check sum fits exactly if the register ends at zero behind it. -/
theorem crc_eq_iff (data : List UInt8) (low high : UInt8) :
    crc16Modbus data = le16 low high ↔
      Crc.feedAll 0xA001#16 0xFFFF#16 (bits (data ++ [low, high])) = 0#16 := by
  have split : bits (data ++ [low, high]) = bits data ++ bits [low, high] := by
    rw [bits, List.flatMap_append]
    rfl
  have register :
      Crc.feedAll 0xA001#16 0xFFFF#16 (bits data) = crc16Modbus data :=
    (foldl_crcByte _ data).symm
  rw [split, Crc.feedAll_append, register,
    Crc.feedAll_eq_iterate (by simp), word_bits_pair,
    Crc.iterate_shift_eq_zero_iff highest, BitVec.xor_eq_zero_iff]

/-! ## Frames -/

/-- The lower byte of the check sum. -/
def low (crc : BitVec 16) : UInt8 :=
  ⟨crc.setWidth 8⟩

/-- The upper byte of the check sum. -/
def high (crc : BitVec 16) : UInt8 :=
  ⟨(crc >>> 8).setWidth 8⟩

theorem le16_low_high (crc : BitVec 16) : le16 (low crc) (high crc) = crc := by
  apply BitVec.eq_of_getLsbD_eq
  intro i inside
  simp only [le16, low, high, BitVec.getLsbD_or, BitVec.getLsbD_shiftLeft,
    BitVec.getLsbD_setWidth, BitVec.getLsbD_ushiftRight]
  by_cases first : i < 8
  · simp [inside, first]
  · have place : i - 8 < 8 := by omega
    have place' : i - 8 < 16 := by omega
    have again : 8 + (i - 8) = i := by omega
    simp [inside, first, place, place', again]

/-- The bytes before the check sum; `first` is 0xFB to the device. -/
def head (first opcode : UInt8) (payload : List UInt8) : List UInt8 :=
  [first, opcode, 0, UInt8.ofNat payload.length] ++ payload

/-- The 64 bytes of a frame; a payload without room for the check sum fails. -/
def frame (first opcode : UInt8) (payload : List UInt8) :
    Option (List UInt8) :=
  if payload.length ≤ 58 then
    let crc := crc16Modbus (head first opcode payload)
    some
      (head first opcode payload ++ [low crc, high crc] ++
        List.replicate (58 - payload.length) 0)
  else none

/-- A number in hexadecimal, filled up with zeros. -/
def hex (width n : Nat) : String :=
  let digits := Nat.toDigits 16 n
  String.ofList (List.replicate (width - digits.length) '0' ++ digits)

/-- The payload of a read whose check sum fits. -/
def accept (buf : List UInt8) (dlen : Nat) : Except String (List UInt8) :=
  let expect := crc16Modbus (buf.take (4 + dlen))
  let got := le16 (buf.getD (4 + dlen) 0) (buf.getD (5 + dlen) 0)
  if expect ≠ got then
    .error
      ("CRC mismatch (calc=" ++ hex 4 expect.toNat ++ " recv=" ++
        hex 4 got.toNat ++ ")")
  else .ok ((buf.drop 4).take dlen)

/-- What `_txn` does with what it reads. -/
def receive (opcode : UInt8) : List (List UInt8) → Except String (List UInt8)
  | [] => .error ("no response for opcode 0x" ++ hex 2 opcode.toNat)
  | buf :: rest =>
      if buf.length < 6 ∨ buf.getD 0 0 ≠ 0xFA then receive opcode rest
      else if buf.getD 1 0 ≠ opcode then receive opcode rest
      else if 4 + (buf.getD 3 0).toNat + 2 > buf.length then
        receive opcode rest
      else accept buf (buf.getD 3 0).toNat

/-- A read that is taken for the answer. -/
structure Candidate (opcode : UInt8) (buf : List UInt8) : Prop where
  long : 6 ≤ buf.length
  first : buf.getD 0 0 = 0xFA
  code : buf.getD 1 0 = opcode
  whole : 6 + (buf.getD 3 0).toNat ≤ buf.length

instance (opcode : UInt8) (buf : List UInt8) :
    Decidable (Candidate opcode buf) :=
  decidable_of_iff
    (6 ≤ buf.length ∧ buf.getD 0 0 = 0xFA ∧ buf.getD 1 0 = opcode ∧
      6 + (buf.getD 3 0).toNat ≤ buf.length)
    ⟨fun ⟨long, first, code, whole⟩ => ⟨long, first, code, whole⟩,
      fun ⟨long, first, code, whole⟩ => ⟨long, first, code, whole⟩⟩

/-- The part of a candidate that the check sum covers, with the check sum. -/
def covered (buf : List UInt8) : List UInt8 :=
  buf.take (6 + (buf.getD 3 0).toNat)

theorem receive_of_not {opcode : UInt8} {buf : List UInt8}
    (other : ¬ Candidate opcode buf) (rest : List (List UInt8)) :
    receive opcode (buf :: rest) = receive opcode rest := by
  rw [receive]
  split_ifs with short code cut
  · rfl
  · rfl
  · rfl
  · rw [not_or, not_lt, ne_eq, not_not] at short
    exact absurd ⟨short.1, short.2, not_not.mp code, by omega⟩ other

theorem receive_of_candidate {opcode : UInt8} {buf : List UInt8}
    (candidate : Candidate opcode buf) (rest : List (List UInt8)) :
    receive opcode (buf :: rest) = accept buf (buf.getD 3 0).toNat := by
  have whole := candidate.whole
  rw [receive, if_neg, if_neg (not_not.mpr candidate.code),
    if_neg (by omega)]
  rw [not_or, not_lt, not_not]
  exact ⟨candidate.long, candidate.first⟩

/-- Reads that are no candidates are passed over. -/
theorem receive_skip {opcode : UInt8} {skipped : List (List UInt8)}
    (others : ∀ buf ∈ skipped, ¬ Candidate opcode buf)
    (rest : List (List UInt8)) :
    receive opcode (skipped ++ rest) = receive opcode rest := by
  induction skipped with
  | nil => rfl
  | cons buf skipped induction =>
      rw [List.forall_mem_cons] at others
      rw [List.cons_append, receive_of_not others.1, induction others.2]

theorem take_add_two {bytes : List UInt8} {count : Nat}
    (inside : count + 2 ≤ bytes.length) :
    bytes.take (count + 2) =
      bytes.take count ++ [bytes.getD count 0, bytes.getD (count + 1) 0] := by
  have first : bytes[count]? = some bytes[count] :=
    List.getElem?_eq_getElem (by omega)
  have second : bytes[count + 1]? = some bytes[count + 1] :=
    List.getElem?_eq_getElem (by omega)
  rw [List.getD_eq_getElem _ _ (by omega), List.getD_eq_getElem _ _ (by omega),
    show count + 2 = count + 1 + 1 from rfl, List.take_add_one,
    List.take_add_one, first, second, List.append_assoc]
  rfl

/-- The check sum is right exactly if what it covers leaves the register at zero. -/
theorem accept_eq_ok_iff {opcode : UInt8} {buf payload : List UInt8}
    (candidate : Candidate opcode buf) :
    accept buf (buf.getD 3 0).toNat = .ok payload ↔
      Crc.feedAll 0xA001#16 0xFFFF#16 (bits (covered buf)) = 0#16 ∧
        payload = (buf.drop 4).take (buf.getD 3 0).toNat := by
  have whole := candidate.whole
  rw [covered]
  generalize (buf.getD 3 0).toNat = dlen at whole ⊢
  have shape : 6 + dlen = 4 + dlen + 2 := by omega
  have next : 5 + dlen = 4 + dlen + 1 := by omega
  rw [shape, take_add_two (by omega), ← crc_eq_iff, accept, next]
  split_ifs with differs
  · exact iff_of_false nofun fun both => differs both.1
  · rw [not_ne_iff] at differs
    constructor
    · intro same
      exact ⟨differs, (Except.ok.inj same).symm⟩
    · rintro ⟨-, rfl⟩
      rfl

/-- `_txn` returns a payload exactly for the first candidate, if it checks. -/
theorem receive_eq_ok_iff (opcode : UInt8) (reads : List (List UInt8))
    (payload : List UInt8) :
    receive opcode reads = .ok payload ↔
      ∃ skipped buf rest,
        reads = skipped ++ buf :: rest ∧
          (∀ other ∈ skipped, ¬ Candidate opcode other) ∧
          Candidate opcode buf ∧
          Crc.feedAll 0xA001#16 0xFFFF#16 (bits (covered buf)) = 0#16 ∧
          payload = (buf.drop 4).take (buf.getD 3 0).toNat := by
  constructor
  · intro ok
    induction reads with
    | nil => cases ok
    | cons buf rest induction =>
        by_cases candidate : Candidate opcode buf
        · rw [receive_of_candidate candidate, accept_eq_ok_iff candidate] at ok
          exact ⟨[], buf, rest, rfl, nofun, candidate, ok⟩
        · rw [receive_of_not candidate] at ok
          obtain ⟨skipped, answer, later, rfl, others, checks⟩ := induction ok
          refine ⟨buf :: skipped, answer, later, rfl, ?_, checks⟩
          rw [List.forall_mem_cons]
          exact ⟨candidate, others⟩
  · rintro ⟨skipped, buf, rest, rfl, others, candidate, checks⟩
    rw [receive_skip others, receive_of_candidate candidate]
    exact (accept_eq_ok_iff candidate).mpr checks

/-! ## A frame is received as it was built -/

section Frame

variable
    {first opcode : UInt8} {payload buf : List UInt8}

theorem length_head : (head first opcode payload).length = 4 + payload.length := by
  simp [head]
  omega

/-- The parts of a frame that was built. -/
theorem frame_eq_some (built : frame first opcode payload = some buf) :
    payload.length ≤ 58 ∧
      buf =
        head first opcode payload ++
          ([low (crc16Modbus (head first opcode payload)),
              high (crc16Modbus (head first opcode payload))] ++
            List.replicate (58 - payload.length) 0) := by
  rw [frame] at built
  split_ifs at built with fits
  refine ⟨fits, ?_⟩
  rw [← Option.some.inj built, List.append_assoc]

theorem length_frame (built : frame first opcode payload = some buf) :
    buf.length = 64 := by
  obtain ⟨fits, rfl⟩ := frame_eq_some built
  simp only [List.length_append, length_head, List.length_cons,
    List.length_nil, List.length_replicate]
  omega

theorem getD_frame_three (built : frame first opcode payload = some buf) :
    (buf.getD 3 0).toNat = payload.length := by
  obtain ⟨fits, rfl⟩ := frame_eq_some built
  show (UInt8.ofNat payload.length).toNat = payload.length
  rw [UInt8.toNat_ofNat', Nat.mod_eq_of_lt (by omega)]

theorem covered_frame (built : frame first opcode payload = some buf) :
    covered buf =
      head first opcode payload ++
        [low (crc16Modbus (head first opcode payload)),
          high (crc16Modbus (head first opcode payload))] := by
  rw [covered, getD_frame_three built]
  obtain ⟨fits, rfl⟩ := frame_eq_some built
  rw [← List.append_assoc]
  apply List.take_left'
  rw [List.length_append, length_head]
  simp
  omega

/-- What a frame covers leaves the register at zero. -/
theorem feedAll_frame (built : frame first opcode payload = some buf) :
    Crc.feedAll 0xA001#16 0xFFFF#16 (bits (covered buf)) = 0#16 := by
  rw [covered_frame built, ← crc_eq_iff, le16_low_high]

theorem candidate_frame (built : frame 0xFA opcode payload = some buf) :
    Candidate opcode buf where
  long := by rw [length_frame built]; decide
  first := by
    obtain ⟨-, rfl⟩ := frame_eq_some built
    rfl
  code := by
    obtain ⟨-, rfl⟩ := frame_eq_some built
    rfl
  whole := by
    rw [getD_frame_three built, length_frame built]
    have fits := (frame_eq_some built).1
    omega

end Frame

/-! ## A frame that is corrupted -/

/-- The bits in which two messages differ. -/
def difference (sent received : List UInt8) : List Bool :=
  List.zipWith (· ^^ ·) (bits sent) (bits received)

/-- A burst of 16 bits, two bits, or an odd number of bits. -/
inductive Detectable : List Bool → Prop where
  | burst (front back : Nat) (burst : List Bool) (short : burst.length ≤ 16)
      (some : true ∈ burst) :
      Detectable
        (List.replicate front false ++ (burst ++ List.replicate back false))
  | pair (front distance back : Nat) (near : distance < 512) :
      Detectable
        (List.replicate front false ++
          (true :: (List.replicate distance false ++
            (true :: List.replicate back false))))
  | odd (error : List Bool) (flips : error.count true % 2 = 1) :
      Detectable error

/-- No place of the register comes back within so many moves. -/
def movesOn (poly goal : BitVec 16) : Nat → BitVec 16 → Bool
  | 0, _ => true
  | count + 1, crc =>
      Crc.shift poly crc != goal && movesOn poly goal count (Crc.shift poly crc)

theorem iterate_ne_of_movesOn {poly goal crc : BitVec 16} {count distance : Nat}
    (moves : movesOn poly goal count crc = true) (within : distance < count) :
    (Crc.shift poly)^[distance + 1] crc ≠ goal := by
  induction count generalizing crc distance with
  | zero => cases within
  | succ count induction =>
      rw [movesOn, Bool.and_eq_true, bne_iff_ne] at moves
      cases distance with
      | zero => exact moves.1
      | succ distance =>
          rw [Function.iterate_succ_apply]
          exact induction moves.2 (Nat.lt_of_succ_lt_succ within)

theorem movesOn_unit :
    movesOn 0xA001#16 (Crc.unit 16 true) 512 (Crc.unit 16 true) = true := by
  decide +kernel

theorem parity_poly : Crc.parity 0xA001#16 = 1 := by
  decide

theorem feedAll_of_detectable {error : List Bool}
    (detectable : Detectable error) :
    Crc.feedAll 0xA001#16 0#16 error ≠ 0#16 := by
  cases detectable with
  | burst front back burst short some =>
      exact Crc.feedAll_burst highest short some front back
  | pair front distance back near =>
      exact
        Crc.feedAll_pair highest (iterate_ne_of_movesOn movesOn_unit near)
          front back
  | odd error flips => exact Crc.feedAll_odd parity_poly (by decide) flips

/--
An answer whose length byte arrived and that has an error of one of these kinds
in the bytes the check sum covers is passed over or refused; no payload is ever
returned from it.  What is behind these bytes is filler.
-/
theorem receive_corrupted {opcode : UInt8} {payload buf received : List UInt8}
    (built : frame 0xFA opcode payload = some buf)
    (size : received.length = 64)
    (length : received.getD 3 0 = buf.getD 3 0)
    (error : Detectable (difference (covered buf) (covered received)))
    (rest : List (List UInt8)) :
    receive opcode (received :: rest) = receive opcode rest ∨
      ∃ message, receive opcode (received :: rest) = .error message := by
  by_cases candidate : Candidate opcode received
  · right
    rw [receive_of_candidate candidate]
    cases outcome : accept received (received.getD 3 0).toNat with
    | error message => exact ⟨message, rfl⟩
    | ok other =>
        exfalso
        have zero := ((accept_eq_ok_iff candidate).mp outcome).1
        have sizes :
            (bits (covered buf)).length = (bits (covered received)).length := by
          rw [length_bits, length_bits, covered, covered, length,
            List.length_take, List.length_take, size, length_frame built]
        have seen :
            Crc.feedAll 0xA001#16 0xFFFF#16 (bits (covered buf)) ^^^
                Crc.feedAll 0xA001#16 0xFFFF#16 (bits (covered received)) =
              Crc.feedAll 0xA001#16 (0xFFFF#16 ^^^ 0xFFFF#16)
                (difference (covered buf) (covered received)) :=
          Crc.feedAll_xor sizes _ _
        rw [feedAll_frame built, zero, BitVec.xor_self, BitVec.xor_self] at seen
        exact feedAll_of_detectable error seen.symm
  · exact .inl (receive_of_not candidate rest)

end Dp100

namespace Bench

/-- The device acknowledges. -/
def ackFrame : List UInt8 :=
  (Dp100.frame 0xFA 0x35 [1]).getD []

/-- One bit of the payload is lost. -/
def corruptedAck : List UInt8 :=
  ackFrame.set 4 0

theorem corruptedAck_refused :
    Dp100.receive 0x35 [corruptedAck] = Dp100.receive 0x35 [] ∨
      ∃ message, Dp100.receive 0x35 [corruptedAck] = .error message := by
  have built : Dp100.frame 0xFA 0x35 [1] = some ackFrame := rfl
  exact
    Dp100.receive_corrupted built (by decide) (by decide)
      (.odd _ (by decide +kernel)) []

end Bench

namespace Dp100

/-- An answer is received as it was built, behind anything that is none. -/
theorem receive_frame {opcode : UInt8} {payload buf : List UInt8}
    (built : frame 0xFA opcode payload = some buf)
    {skipped : List (List UInt8)}
    (others : ∀ other ∈ skipped, ¬ Candidate opcode other)
    (rest : List (List UInt8)) :
    receive opcode (skipped ++ buf :: rest) = .ok payload := by
  rw [receive_eq_ok_iff]
  refine
    ⟨skipped, buf, rest, rfl, others, candidate_frame built,
      feedAll_frame built, ?_⟩
  rw [getD_frame_three built]
  obtain ⟨-, rfl⟩ := frame_eq_some built
  show payload = ((payload ++ _).take payload.length)
  rw [List.take_left']
  rfl

end Dp100

namespace Bench

theorem ackFrame_received :
    Dp100.receive 0x35 [[0xFA, 0x35, 0, 0], ackFrame] = .ok [1] := by
  have built : Dp100.frame 0xFA 0x35 [1] = some ackFrame := rfl
  have others : ∀ other ∈ [[0xFA, 0x35, 0, 0]], ¬ Dp100.Candidate 0x35 other := by
    decide
  exact Dp100.receive_frame built others []

end Bench

end KmmYocto
