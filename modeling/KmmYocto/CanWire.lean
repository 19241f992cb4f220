import KmmYocto.RpmsgCan
import KmmYocto.ByteMemory

/-!
# CAN frames on the channel

A frame crosses the channel as the 16 bytes of `struct rpmsg_can_wire`: the id
little-endian, the length, padding and eight data bytes.  Linux writes them in
`rpmsg_can_xmit` and reads them in `rpmsg_can_cb`; the firmware `can-sim` has a
layout of its own and fills the data bytes with big-endian values.
-/

namespace KmmYocto

/-- The 16 bytes of a frame with eight data bytes. -/
def RpmsgCanWire.bytes (w : RpmsgCanWire) : List UInt8 :=
  Memory.wordBytes w.id.toNat ++ [w.dlc, 0, 0, 0] ++ w.data

/-- A classic frame as the CAN layer hands it over. -/
structure ClassicFrame extends CanFrame where
  short : len ≤ 8
  size : data.length = 8

/-- What a call of `rpmsg_can_xmit` sends and counts. -/
structure CanXmit where
  /-- The message given to `rpmsg_trysend`. -/
  message : Option (List UInt8)
  txDropped : Nat
  txPackets : Nat
  txBytes : Nat
deriving DecidableEq, Repr

/-- `rpmsg_can_xmit`; `invalid` is `can_dropped_invalid_skb`. -/
def rpmsgCanXmit (invalid queued : Bool) (cf : CanFrame) : CanXmit :=
  if invalid then
    { message := none, txDropped := 0, txPackets := 0, txBytes := 0 }
  else
    let w : RpmsgCanWire :=
      { id := cf.canId
        dlc := UInt8.ofNat cf.len
        -- the rest of `w.data` stays zero
        data := cf.data.take cf.len ++ List.replicate (8 - cf.len) 0 }
    if queued then
      { message := some w.bytes
        txDropped := 0
        txPackets := 1
        txBytes := cf.len }
    else
      { message := some w.bytes, txDropped := 1, txPackets := 0, txBytes := 0 }

/-! ## From Linux to Linux -/

/-- What is read is what was written. -/
theorem RpmsgCanWire.ofBytes_bytes (w : RpmsgCanWire) :
    RpmsgCanWire.ofBytes w.bytes = w := by
  have id : le32Word w.bytes 0 = w.id := by
    have read : McoreImage.le32 w.bytes 0 = w.id.toNat :=
      Memory.word_wordBytes w.id.toNat_lt
    rw [le32Word, read, UInt32.ofNat_toNat]
  rw [ofBytes, id]
  rfl

@[simp]
theorem RpmsgCanWire.length_bytes (w : RpmsgCanWire) :
    w.bytes.length = 8 + w.data.length := by
  simp [bytes]
  omega

/-- A whole frame on an interface that is up and has memory is delivered. -/
theorem rpmsgCanCb_bytes {w : RpmsgCanWire} {can : RpmsgCan}
    (size : w.data.length = 8) (up : can.running = true) :
    rpmsgCanCb true w.bytes can =
      (can,
        [.receive
          { canId := w.id
            len := min w.dlc.toNat 8
            data := w.data.take (min w.dlc.toNat 8) }]) := by
  have whole : w.bytes.length = 16 := by
    rw [w.length_bytes, size]
  rw [rpmsgCanCb, if_pos whole, w.ofBytes_bytes, rpmsgCanRxFrame]
  simp [up]

/-- A transmitted frame is delivered with its id, length and data. -/
theorem rpmsgCanCb_xmit (cf : ClassicFrame) (queued : Bool) {can : RpmsgCan}
    (up : can.running = true) :
    ∃ message,
      (rpmsgCanXmit false queued cf.toCanFrame).message = some message ∧
        message.length = 16 ∧
          rpmsgCanCb true message can =
            (can,
              [.receive
                { canId := cf.canId
                  len := cf.len
                  data := cf.data.take cf.len }]) := by
  let w : RpmsgCanWire :=
    { id := cf.canId
      dlc := UInt8.ofNat cf.len
      data := cf.data.take cf.len ++ List.replicate (8 - cf.len) 0 }
  have short := cf.short
  have taken : (cf.data.take cf.len).length = cf.len := by
    rw [List.length_take, cf.size, min_eq_left short]
  have size : w.data.length = 8 := by
    rw [List.length_append, taken, List.length_replicate]
    omega
  have len : min w.dlc.toNat 8 = cf.len := by
    rw [UInt8.toNat_ofNat', Nat.mod_eq_of_lt (by omega), min_eq_left short]
  have data : w.data.take cf.len = cf.data.take cf.len :=
    List.take_left' taken
  refine ⟨w.bytes, ?_, ?_, ?_⟩
  · cases queued <;> rfl
  · rw [w.length_bytes, size]
  · rw [rpmsgCanCb_bytes size up, len, data]

/-! ## Any bytes from the M-core -/

/-- What the driver takes a message for. -/
inductive CanTreatment where
  | frame
  | control
  | ignored
deriving DecidableEq, Repr

/-- The way a message takes through `rpmsg_can_cb` and `rpmsg_can_rx_ctrl`. -/
def canTreatment (data : List UInt8) : CanTreatment :=
  if data.length = 16 then .frame
  else if data.length = 8 then
    if (RpmsgCanCtrl.ofBytes data).magic = RpmsgCan.ctrlMagic then .control
    else .ignored
  else .ignored

/-- What `rpmsg_can_rx_ctrl` does with an event whose magic is right. -/
def RpmsgCan.event (c : RpmsgCanCtrl) (can : RpmsgCan) : RpmsgCan :=
  rpmsgCanRxCtrl { c with magic := RpmsgCan.ctrlMagic } can

/-- What the driver does with a message that it takes for something. -/
def CanTreatment.handle (allocated : Bool) (data : List UInt8)
    (can : RpmsgCan) : CanTreatment → RpmsgCan × List CanEffect
  | .frame => (can, rpmsgCanRxFrame allocated (.ofBytes data) can)
  | .control => (can.event (.ofBytes data), [])
  | .ignored => (can, [])

theorem canTreatment_eq_frame_iff (data : List UInt8) :
    canTreatment data = .frame ↔ data.length = 16 := by
  rw [canTreatment]
  split_ifs <;> simp_all

theorem canTreatment_eq_control_iff (data : List UInt8) :
    canTreatment data = .control ↔
      data.length = 8 ∧ data[0]? = some RpmsgCan.ctrlMagic := by
  have first : data.length = 8 →
      data[0]? = some (RpmsgCanCtrl.ofBytes data).magic := by
    intro whole
    have inside : 0 < data.length := by omega
    rw [List.getElem?_eq_getElem inside, RpmsgCanCtrl.ofBytes,
      List.getD_eq_getElem _ _ inside]
  rw [canTreatment]
  split_ifs with asFrame whole magic
  · simp [asFrame]
  · rw [first whole, magic]
    simp [whole]
  · rw [first whole, Option.some.injEq]
    simp [magic]
  · simp [whole]

theorem rpmsgCanCb_eq_handle (allocated : Bool) (data : List UInt8)
    (can : RpmsgCan) :
    rpmsgCanCb allocated data can =
      (canTreatment data).handle allocated data can := by
  rw [rpmsgCanCb, canTreatment]
  split_ifs with asFrame whole magic
  · rfl
  · rw [CanTreatment.handle, RpmsgCan.event, ← magic]
  · rw [CanTreatment.handle, rpmsgCanRxCtrl, if_pos magic]
  · rfl

/-- No message yields a frame that is longer than its eight bytes. -/
theorem len_le_of_receive {allocated : Bool} {data : List UInt8}
    {can : RpmsgCan} {frame : CanFrame}
    (delivered : .receive frame ∈ (rpmsgCanCb allocated data can).2) :
    frame.len ≤ 8 := by
  rw [rpmsgCanCb_eq_handle] at delivered
  cases taken : canTreatment data with
  | frame =>
      rw [taken, CanTreatment.handle, rpmsgCanRxFrame] at delivered
      split_ifs at delivered <;>
        simp only [List.mem_singleton, reduceCtorEq,
          CanEffect.receive.injEq] at delivered
      rw [delivered]
      exact Nat.min_le_right _ _
  | control =>
      rw [taken] at delivered
      cases delivered
  | ignored =>
      rw [taken] at delivered
      cases delivered

/-! ## From can-sim -/

namespace CanSim

/-- `struct wire`. -/
structure Wire where
  id : UInt32
  dlc : UInt8
  pad : Vector UInt8 3
  data : Vector UInt8 8

/-- The message `send_frame` sends. -/
def Wire.bytes (w : Wire) : List UInt8 :=
  Memory.wordBytes w.id.toNat ++ [w.dlc] ++ w.pad.toList ++ w.data.toList

/-- `put_u16be`. -/
def putU16be (w : Wire) (slot : Fin 4) (v : UInt32) : Wire :=
  { w with
    data :=
      (w.data.set (slot.val * 2) (v >>> 8).toUInt8).set (slot.val * 2 + 1)
        v.toUInt8 }

/-- The loop that clears the padding. -/
def clearPad (w : Wire) : Wire :=
  { w with
    pad :=
      (List.range 8).foldl
        (fun pad i => pad.set (i % 3) 0 (Nat.mod_lt i (by decide))) w.pad }

/-- The id of a frame and the four values it carries. -/
structure Signal where
  id : UInt32
  values : Vector UInt32 4

/-- One frame, built over the one before. -/
def build (w : Wire) (signal : Signal) : Wire :=
  let w := { w with id := signal.id, dlc := 8 }
  let w := putU16be w 0 signal.values[0]
  let w := putU16be w 1 signal.values[1]
  let w := putU16be w 2 signal.values[2]
  putU16be w 3 signal.values[3]

/-- What the loop of `main` sends at the time `t`. -/
def signals (t : UInt32) : List Signal :=
  [⟨0x5F0, #v[t % 10000, t % 1000, t % 1400, t % 1600]⟩,
    ⟨0x5F1, #v[t % 1200, t % 5000, (t % 13000) / 10, 700 + t % 600]⟩,
    ⟨0x5F2, #v[(t % 10000) / 10, t % 3000, t % 6000, 6000 - t % 6000]⟩,
    ⟨0x5F3,
      #v[if (t % 10000) / 5000 ≠ 0 then 1 else 0,
        if (t % 8000) / 4000 ≠ 0 then 2 else 1, t % 5000, t % 4500]⟩,
    ⟨0x5F4, #v[t % 1200, t % 1200, t % 1200, 0]⟩]

/-- The frames of the signals, each built over the one before. -/
def buildAll (w : Wire) : List Signal → List Wire
  | [] => []
  | signal :: rest => build w signal :: buildAll (build w signal) rest

/-- The five frames of one turn of the loop; `w` is not initialised. -/
def frames (w : Wire) (t : UInt32) : List Wire :=
  buildAll (clearPad w) (signals t)

/-- A big-endian 16-bit value of the data bytes. -/
def be16 (data : List UInt8) (offset : Nat) : Nat :=
  (data.getD offset 0).toNat * 2 ^ 8 + (data.getD (offset + 1) 0).toNat

/-- The frame on the receiving side says what the signal says. -/
structure Carries (frame : CanFrame) (signal : Signal) : Prop where
  canId : frame.canId = signal.id
  len : frame.len = 8
  size : frame.data.length = 8
  values : ∀ slot : Fin 4,
    be16 frame.data (slot.val * 2) = (signal.values[slot.val]).toNat

/-- Each value of the signal fits the two bytes it gets. -/
def Signal.Fits (signal : Signal) : Prop :=
  ∀ slot : Fin 4, (signal.values[slot.val]).toNat < 2 ^ 16

theorem pad_clearPad (w : Wire) : (clearPad w).pad = #v[0, 0, 0] := by
  obtain ⟨id, dlc, ⟨⟨pad⟩, size⟩, data⟩ := w
  simp only [List.size_toArray] at size
  match pad, size with
  | [_, _, _], _ => rfl

theorem pad_build (w : Wire) (signal : Signal) : (build w signal).pad = w.pad :=
  rfl

/-- The data bytes are those of the values, the upper one of each first. -/
theorem data_build (w : Wire) (signal : Signal) :
    (build w signal).data =
      #v[(signal.values[0] >>> 8).toUInt8, signal.values[0].toUInt8,
        (signal.values[1] >>> 8).toUInt8, signal.values[1].toUInt8,
        (signal.values[2] >>> 8).toUInt8, signal.values[2].toUInt8,
        (signal.values[3] >>> 8).toUInt8, signal.values[3].toUInt8] := by
  apply Vector.ext
  intro index inside
  interval_cases index <;> simp [build, putU16be]

theorem two_bytes {v : UInt32} (fits : v.toNat < 2 ^ 16) :
    (v >>> 8).toUInt8.toNat * 2 ^ 8 + v.toUInt8.toNat = v.toNat := by
  rw [UInt32.toNat_toUInt8, UInt32.toNat_toUInt8, UInt32.toNat_shiftRight,
    Nat.shiftRight_eq_div_pow]
  have shift : (8 : UInt32).toNat % 32 = 8 := rfl
  rw [shift]
  omega

/-- A frame that is built of a signal is received as this signal. -/
theorem rpmsgCanCb_build (w : Wire) {signal : Signal} (fits : signal.Fits)
    (cleared : w.pad = #v[0, 0, 0]) {can : RpmsgCan}
    (up : can.running = true) :
    ∃ frame,
      rpmsgCanCb true (build w signal).bytes can =
          (can, [.receive frame]) ∧ Carries frame signal := by
  let wire : RpmsgCanWire :=
    { id := signal.id, dlc := 8, data := (build w signal).data.toList }
  have bytes : (build w signal).bytes = wire.bytes := by
    rw [Wire.bytes, pad_build, cleared, RpmsgCanWire.bytes]
    simp only [List.append_assoc]
    rfl
  have size : wire.data.length = 8 := (build w signal).data.length_toList
  have all : wire.data.take 8 = wire.data :=
    List.take_of_length_le size.le
  refine ⟨_, bytes ▸ rpmsgCanCb_bytes size up, rfl, rfl, ?_, ?_⟩
  · show (wire.data.take 8).length = 8
    rw [all, size]
  · intro slot
    show be16 (wire.data.take 8) (slot.val * 2) = _
    rw [all, ← two_bytes (fits slot)]
    show be16 (build w signal).data.toList _ = _
    rw [data_build]
    fin_cases slot <;> rfl

theorem fits_iff (id first second third fourth : UInt32) :
    Signal.Fits ⟨id, #v[first, second, third, fourth]⟩ ↔
      first.toNat < 2 ^ 16 ∧ second.toNat < 2 ^ 16 ∧
        third.toNat < 2 ^ 16 ∧ fourth.toNat < 2 ^ 16 := by
  rw [Signal.Fits, Fin.forall_fin_succ, Fin.forall_fin_succ,
    Fin.forall_fin_succ, Fin.forall_fin_one]
  rfl

/-- Each value stays below its bound, also where it is put together. -/
theorem fits_signals (t : UInt32) : ∀ signal ∈ signals t, signal.Fits := by
  have small : ∀ v bound : UInt32, 0 < bound.toNat ∧ bound.toNat ≤ 2 ^ 16 →
      (v % bound).toNat < 2 ^ 16 := by
    intro v bound small
    rw [UInt32.toNat_mod]
    exact (Nat.mod_lt _ small.1).trans_le small.2
  have tenth : ∀ v : UInt32, v.toNat < 2 ^ 16 → (v / 10).toNat < 2 ^ 16 := by
    intro v fits
    rw [UInt32.toNat_div]
    exact (Nat.div_le_self _ _).trans_lt fits
  have lambda : (700 + t % 600).toNat < 2 ^ 16 := by
    rw [UInt32.toNat_add, UInt32.toNat_mod]
    show (700 + t.toNat % 600) % 2 ^ 32 < 2 ^ 16
    omega
  have brake : (6000 - t % 6000).toNat < 2 ^ 16 := by
    have less : t % 6000 ≤ 6000 := by
      rw [UInt32.le_iff_toNat_le, UInt32.toNat_mod]
      exact (Nat.mod_lt _ (by decide)).le
    rw [UInt32.toNat_sub_of_le _ _ less]
    exact (Nat.sub_le _ _).trans_lt (by decide)
  simp only [signals, List.forall_mem_cons, List.not_mem_nil, false_implies,
    implies_true, and_true, fits_iff]
  refine ⟨⟨?_, ?_, ?_, ?_⟩, ⟨?_, ?_, tenth _ ?_, lambda⟩,
    ⟨tenth _ ?_, ?_, ?_, brake⟩, ⟨?_, ?_, ?_, ?_⟩, ⟨?_, ?_, ?_, by decide⟩⟩
  case refine_11 => split_ifs <;> decide
  case refine_12 => split_ifs <;> decide
  all_goals
    apply small
    decide

/-- Every frame of a list of signals is received as its signal. -/
theorem rpmsgCanCb_buildAll {can : RpmsgCan} (up : can.running = true)
    (signals : List Signal) (w : Wire) (cleared : w.pad = #v[0, 0, 0])
    (fits : ∀ signal ∈ signals, signal.Fits) :
    List.Forall₂
      (fun signal wire =>
        signal.Fits ∧ ∃ frame,
          rpmsgCanCb true wire.bytes can = (can, [.receive frame]) ∧
            Carries frame signal)
      signals (buildAll w signals) := by
  induction signals generalizing w with
  | nil => exact .nil
  | cons signal rest induction =>
      rw [List.forall_mem_cons] at fits
      exact .cons ⟨fits.1, rpmsgCanCb_build w fits.1 cleared up⟩
        (induction (build w signal) cleared fits.2)

end CanSim

/-! ## The format of the channel -/

/--
A frame that Linux transmits is received as it was; of any bytes those of a
frame, and of a control event with the magic, are taken as such and all others
change nothing; and the five frames of can-sim are received as its signals.
-/
theorem canWire_roundTrip {can : RpmsgCan} (up : can.running = true) :
    (∀ (cf : ClassicFrame) (queued : Bool), ∃ message,
      (rpmsgCanXmit false queued cf.toCanFrame).message = some message ∧
        message.length = 16 ∧
          rpmsgCanCb true message can =
            (can,
              [.receive
                { canId := cf.canId
                  len := cf.len
                  data := cf.data.take cf.len }])) ∧
      (∀ (allocated : Bool) (data : List UInt8) (any : RpmsgCan),
        (canTreatment data = .frame ↔ data.length = 16) ∧
          (canTreatment data = .control ↔
            data.length = 8 ∧ data[0]? = some RpmsgCan.ctrlMagic) ∧
          rpmsgCanCb allocated data any =
            (canTreatment data).handle allocated data any ∧
          (∀ frame, .receive frame ∈ (rpmsgCanCb allocated data any).2 →
            frame.len ≤ 8) ∧
          (canTreatment data ≠ .control →
            (rpmsgCanCb allocated data any).1 = any)) ∧
      ∀ (w : CanSim.Wire) (t : UInt32),
        (CanSim.signals t).map CanSim.Signal.id =
            [0x5F0, 0x5F1, 0x5F2, 0x5F3, 0x5F4] ∧
          List.Forall₂
            (fun signal wire =>
              signal.Fits ∧ ∃ frame,
                rpmsgCanCb true wire.bytes can = (can, [.receive frame]) ∧
                  CanSim.Carries frame signal)
            (CanSim.signals t) (CanSim.frames w t) := by
  refine ⟨fun cf queued => rpmsgCanCb_xmit cf queued up,
    fun allocated data any => ⟨canTreatment_eq_frame_iff data,
      canTreatment_eq_control_iff data,
      rpmsgCanCb_eq_handle allocated data any,
      fun _ => len_le_of_receive, fun notControl => ?_⟩,
    fun w t => ⟨rfl, ?_⟩⟩
  · rw [rpmsgCanCb_eq_handle]
    cases taken : canTreatment data with
    | frame => rfl
    | control => exact absurd taken notControl
    | ignored => rfl
  · exact CanSim.rpmsgCanCb_buildAll up (CanSim.signals t)
      (CanSim.clearPad w) (CanSim.pad_clearPad w) (CanSim.fits_signals t)

/-- The device after a probe and an open, with a remote frame of an extended id. -/
theorem canWire_roundTrip_open :
    rpmsgCanCb true
        (Memory.wordBytes 0xC1234567 ++ [2, 0, 0, 0] ++
          [0xAB, 0xCD, 0, 0, 0, 0, 0, 0])
        { rpmsgCanInit with running := true } =
      ({ rpmsgCanInit with running := true },
        [.receive { canId := 0xC1234567, len := 2, data := [0xAB, 0xCD] }]) := by
  obtain ⟨message, sent, -, received⟩ :=
    (@canWire_roundTrip { rpmsgCanInit with running := true } rfl).1
      { canId := 0xC1234567
        len := 2
        data := [0xAB, 0xCD, 1, 2, 3, 4, 5, 6]
        short := by decide
        size := rfl } true
  cases sent
  exact received

end KmmYocto
