import KmmYocto.Dp100

/-!
# A change of the settings

`apply_set` reads the active preset, saves the changed one and applies what is
saved; in between it waits.  The settings are floating-point numbers on the way
from the one frame to the other, and what is not to be changed comes out as it
went in.

What the device does is a list with the reads of each transaction; a frame that
is sent and a pause are logged.
-/

namespace KmmYocto.Dp100

/-- What is done to the device. -/
inductive Action where
  | txn (opcode : UInt8) (payload : List UInt8)
  /-- A pause, in milliseconds. -/
  | sleep (duration : Nat)
deriving DecidableEq, Repr

/-- The reads of each transaction that is to come. -/
abbrev Reads := List (List (List UInt8))

/-- A transaction uses up its reads. -/
instance : Medium Reads Action where
  apply reads action :=
    match action with
    | .txn _ _ => reads.drop 1
    | .sleep _ => reads

abbrev Supply (α : Type) := Script Reads Action α

/-- `OP_BASIC_SET`. -/
def opBasicSet : UInt8 := 0x35

/-- `IDX_SAVE`. -/
def idxSave : UInt8 := 0x20

/-- `IDX_APPLY`. -/
def idxApply : UInt8 := 0xA0

/-- `IDX_ACTIVE`. -/
def idxActive : UInt8 := 0x80

/-- `_txn`. -/
def txn (opcode : UInt8) (payload : List UInt8) : Supply (List UInt8) := do
  let reads ← Script.read
  Script.persist (.txn opcode payload)
  match receive opcode (reads.headD []) with
  | .ok data => pure data
  | .error message => Script.die message

/-- A little-endian field of an answer. -/
def u16 (data : List UInt8) (offset : Nat) : Nat :=
  (data.getD offset 0).toNat + 256 * (data.getD (offset + 1) 0).toNat

/-- `n / 1000`. -/
def volts (n : Nat) : ℚ :=
  Binary64.round (n / (1000 : ℕ))

/-- `int(round(x * 1000))`. -/
def millis (x : ℚ) : ℤ :=
  Binary64.roundEven (Binary64.round (x * (1000 : ℕ)))

/-- What `get_active_set` returns. -/
structure ActiveSet where
  index : UInt8
  on : Bool
  voSet : ℚ
  ioSet : ℚ
  ovpSet : ℚ
  ocpSet : ℚ

def ActiveSet.ofData (data : List UInt8) : ActiveSet where
  index := data.getD 0 0 &&& 0x0F
  on := data.getD 1 0 ≠ 0
  voSet := volts (u16 data 2)
  ioSet := volts (u16 data 4)
  ovpSet := volts (u16 data 6)
  ocpSet := volts (u16 data 8)

/-- `get_active_set`. -/
def getActiveSet : Supply ActiveSet := do
  let data ← txn opBasicSet [idxActive]
  Script.require (10 ≤ data.length)
    ("short basic set (" ++ data.length.repr ++ "B)")
  pure (ActiveSet.ofData data)

/-- The bytes of a 16-bit number. -/
def u16Bytes (v : Nat) : List UInt8 :=
  [UInt8.ofNat v, UInt8.ofNat (v / 256)]

/-- `H` of `struct.pack`. -/
def packH (v : ℤ) : Option (List UInt8) :=
  if 0 ≤ v ∧ v ≤ 65535 then some (u16Bytes v.toNat) else none

/-- `struct.pack("<BBHHHH", ...)`. -/
def packSet (first state : UInt8) (vo io ovp ocp : ℤ) :
    Option (List UInt8) := do
  let vo ← packH vo
  let io ← packH io
  let ovp ← packH ovp
  let ocp ← packH ocp
  return [first, state] ++ vo ++ io ++ ovp ++ ocp

/-- One pass of the loop of `apply_set`. -/
def sendSet (mod : UInt8) (payload : Option (List UInt8)) :
    Supply PUnit := do
  match payload with
  | none => Script.die "struct.error"
  | some payload => do
      let data ← txn opBasicSet payload
      Script.require (data.head? = some 0x01)
        ("device rejected basic_set mod=0x" ++ hex 2 mod.toNat ++ " (resp=" ++
          (if data = [] then "empty"
            else String.join (data.map fun b => hex 2 b.toNat)) ++ ")")
      Script.persist (.sleep 500)

/-- The values that a caller gives; the others stay. -/
structure Wanted where
  vo : Option ℚ
  io : Option ℚ
  ovp : Option ℚ
  ocp : Option ℚ

/-- `apply_set`. -/
def applySet (on : Bool) (wanted : Wanted) : Supply ActiveSet := do
  let cur ← getActiveSet
  let vo := millis (wanted.vo.getD cur.voSet)
  let io := millis (wanted.io.getD cur.ioSet)
  let ovp := millis (wanted.ovp.getD cur.ovpSet)
  let ocp := millis (wanted.ocp.getD cur.ocpSet)
  let state : UInt8 := if on then 1 else 0
  sendSet idxSave (packSet (idxSave + cur.index) state vo io ovp ocp)
  sendSet idxApply (packSet (idxApply + cur.index) state vo io ovp ocp)
  getActiveSet

/-! ## Numbers -/

theorem u16_lt (data : List UInt8) (offset : Nat) : u16 data offset < 2 ^ 16 := by
  have first := (data.getD offset 0).toNat_lt
  have second := (data.getD (offset + 1) 0).toNat_lt
  rw [u16]
  omega

/-- A setting that is read and written again is the same number. -/
theorem millis_volts {n : Nat} (small : n < 2 ^ 16) : millis (volts n) = n := by
  rw [millis, volts]
  exact Binary64.roundEven_round_mul (by decide) (by omega)

/-- The bytes of a field that is read are the bytes of its number. -/
theorem u16Bytes_u16 {data : List UInt8} {offset : Nat}
    (inside : offset + 2 ≤ data.length) :
    u16Bytes (u16 data offset) = (data.drop offset).take 2 := by
  have first : offset < data.length := by omega
  have second : offset + 1 < data.length := by omega
  have bytes :
      (data.drop offset).take 2 = [data[offset], data[offset + 1]] := by
    rw [List.drop_eq_getElem_cons first, List.drop_eq_getElem_cons second]
    rfl
  rw [bytes, u16, List.getD_eq_getElem _ _ first,
    List.getD_eq_getElem _ _ second, u16Bytes]
  have low := data[offset].toNat_lt
  have high := data[offset + 1].toNat_lt
  congr 2
  · apply UInt8.toNat_inj.mp
    rw [UInt8.toNat_ofNat']
    omega
  · apply UInt8.toNat_inj.mp
    rw [UInt8.toNat_ofNat']
    omega

/-- The two bytes that are sent for a setting. -/
def sentField (data : List UInt8) (offset : Nat) : Option ℚ → List UInt8
  | none => (data.drop offset).take 2
  | some x => u16Bytes (millis x).toNat

theorem packH_eq {data : List UInt8} {offset : Nat} {given : Option ℚ}
    {bytes : List UInt8} (inside : offset + 2 ≤ data.length)
    (packed : packH (millis (given.getD (volts (u16 data offset)))) = some bytes) :
    bytes = sentField data offset given := by
  rw [packH] at packed
  split_ifs at packed
  rw [← Option.some.inj packed]
  cases given with
  | none =>
      rw [Option.getD_none, millis_volts (u16_lt data offset), Int.toNat_natCast]
      exact u16Bytes_u16 inside
  | some x => rfl

/-! ## What is sent -/

/-- The payload of a set frame, for what the device reported. -/
def setPayload (mod : UInt8) (data : List UInt8) (on : Bool) (wanted : Wanted) :
    List UInt8 :=
  [mod + (data.getD 0 0 &&& 0x0F), if on then 1 else 0] ++
    sentField data 2 wanted.vo ++ sentField data 4 wanted.io ++
    sentField data 6 wanted.ovp ++ sentField data 8 wanted.ocp

/-- What a change does, if nothing fails. -/
def plan (data : List UInt8) (on : Bool) (wanted : Wanted) : List Action :=
  [.txn opBasicSet [idxActive],
    .txn opBasicSet (setPayload idxSave data on wanted), .sleep 500,
    .txn opBasicSet (setPayload idxApply data on wanted), .sleep 500,
    .txn opBasicSet [idxActive]]

theorem packSet_eq {data : List UInt8} {mod : UInt8} {on : Bool}
    {wanted : Wanted} {payload : List UInt8} (long : 10 ≤ data.length)
    (packed :
      packSet (mod + (ActiveSet.ofData data).index) (if on then 1 else 0)
          (millis (wanted.vo.getD (volts (u16 data 2))))
          (millis (wanted.io.getD (volts (u16 data 4))))
          (millis (wanted.ovp.getD (volts (u16 data 6))))
          (millis (wanted.ocp.getD (volts (u16 data 8)))) =
        some payload) :
    payload = setPayload mod data on wanted := by
  simp only [packSet, Option.bind_eq_bind, Option.bind_eq_some_iff,
    Option.pure_def, Option.some.injEq] at packed
  obtain ⟨vo, packedVo, io, packedIo, ovp, packedOvp, ocp, packedOcp, rfl⟩ :=
    packed
  rw [packH_eq (by omega) packedVo, packH_eq (by omega) packedIo,
    packH_eq (by omega) packedOvp, packH_eq (by omega) packedOcp]
  rfl

/-- The device has acknowledged what it was sent. -/
def Acknowledged (reads : List (List UInt8)) : Prop :=
  ∃ data, receive opBasicSet reads = .ok data ∧ data.head? = some 0x01

/-- What the device reported, if it did. -/
def reported (reads : List (List UInt8)) : List UInt8 :=
  (receive opBasicSet reads).toOption.getD []

theorem error_ne_ok {α : Type} {message : String} {value : α} :
    (.error message : Except String α) ≠ .ok value := by
  intro same
  cases same

section Ends

variable
    {session : Session Reads Action}

theorem ends_txn (opcode : UInt8) (payload : List UInt8)
    (post : Except String (List UInt8) → Session Reads Action → Prop) :
    Script.Ends (txn opcode payload) session post ↔
      post (receive opcode (session.store.headD []))
        { session with
          store := session.store.drop 1
          writes := session.writes ++ [.txn opcode payload] } := by
  simp only [txn, Script.ends_bind, Script.ends_read, Script.ends_persist]
  cases receive opcode (session.store.headD []) with
  | ok data => rfl
  | error message => rfl

/-- What one transaction and its test leave behind. -/
structure Queried (session later : Session Reads Action)
    (payload : List UInt8) : Prop where
  store : later.store = session.store.drop 1
  writes : later.writes = session.writes ++ [.txn opBasicSet payload]

theorem ends_getActiveSet :
    Script.Ends getActiveSet session fun result later =>
      Queried session later [idxActive] ∧
        ∀ set, result = .ok set →
          10 ≤ (reported (session.store.headD [])).length ∧
            set = .ofData (reported (session.store.headD [])) := by
  simp only [getActiveSet, Script.ends_bind, ends_txn]
  cases answer : receive opBasicSet (session.store.headD []) with
  | error message => exact ⟨⟨rfl, rfl⟩, fun _ ok => absurd ok error_ne_ok⟩
  | ok data =>
      have same : reported (session.store.headD []) = data := by
        rw [reported, answer]
        rfl
      simp only [Script.ends_require, Script.ends_pure, same]
      constructor
      · intro long
        exact ⟨⟨rfl, rfl⟩, fun set ok => ⟨long, (Except.ok.inj ok).symm⟩⟩
      · intro short
        exact ⟨⟨rfl, rfl⟩, fun _ ok => absurd ok error_ne_ok⟩

/-- A stage ends before it has sent, behind what it sent, or acknowledged. -/
theorem ends_sendSet {mod : UInt8} {packed : Option (List UInt8)}
    {payload : List UInt8} (same : ∀ sent, packed = some sent → sent = payload) :
    Script.Ends (sendSet mod packed) session fun result later =>
      (result = .ok PUnit.unit →
        Acknowledged (session.store.headD []) ∧
          later.store = session.store.drop 1 ∧
            later.writes =
              session.writes ++ [.txn opBasicSet payload, .sleep 500]) ∧
        (result ≠ .ok PUnit.unit →
          ∃ sent,
            sent <+: [Action.txn opBasicSet payload] ∧
              later.writes = session.writes ++ sent) := by
  cases packed with
  | none =>
      refine ⟨fun ok => absurd ok error_ne_ok, fun _ => ⟨[], List.nil_prefix, ?_⟩⟩
      exact (List.append_nil _).symm
  | some sent =>
      rw [same sent rfl]
      simp only [sendSet, Script.ends_bind, ends_txn]
      cases answer : receive opBasicSet (session.store.headD []) with
      | error message =>
          exact
            ⟨fun ok => absurd ok error_ne_ok,
              fun _ => ⟨_, List.prefix_rfl, rfl⟩⟩
      | ok data =>
          simp only [Script.ends_require, Script.ends_persist]
          constructor
          · intro positive
            refine ⟨fun _ => ⟨⟨data, answer, positive⟩, rfl, ?_⟩, ?_⟩
            · exact List.append_assoc ..
            · exact fun failed => absurd rfl failed
          · intro refused
            exact
              ⟨fun ok => absurd ok error_ne_ok,
                fun _ => ⟨_, List.prefix_rfl, rfl⟩⟩

/-- The second stage and the query behind it. -/
theorem ends_applied {mod : UInt8} {packed : Option (List UInt8)}
    {payload : List UInt8} (same : ∀ sent, packed = some sent → sent = payload) :
    Script.Ends (sendSet mod packed >>= fun _ => getActiveSet) session
      fun result later =>
        (∃ sent,
          sent <+:
              [.txn opBasicSet payload, .sleep 500,
                .txn opBasicSet [idxActive]] ∧
            later.writes = session.writes ++ sent) ∧
          ∀ set, result = .ok set →
            later.writes =
                session.writes ++
                  [.txn opBasicSet payload, .sleep 500,
                    .txn opBasicSet [idxActive]] ∧
              Acknowledged (session.store.headD []) ∧
                set = .ofData (reported ((session.store.drop 1).headD [])) := by
  rw [Script.ends_bind]
  refine (ends_sendSet same).imp ?_
  rintro applied between ⟨applies, stops⟩
  cases applied with
  | error message =>
      obtain ⟨sent, started, more⟩ := stops nofun
      exact ⟨⟨sent, started.trans ⟨_, rfl⟩, more⟩, nofun⟩
  | ok done =>
      obtain ⟨acknowledged, store, writes⟩ := applies rfl
      refine ends_getActiveSet.imp ?_
      rintro result later ⟨⟨-, writes'⟩, known⟩
      rw [writes, List.append_assoc] at writes'
      rw [store] at known
      exact
        ⟨⟨_, List.prefix_rfl, writes'⟩,
          fun set ok => ⟨writes', acknowledged, (known set ok).2⟩⟩

end Ends

/--
A change follows its plan as far as it goes: the bytes of a setting that is not
given are those that the device reported, nothing is applied that has not been
acknowledged as saved, and what is returned is what the device reports last.
-/
theorem applySet_stages (on : Bool) (wanted : Wanted) (reads : Reads) :
    Script.Ends (applySet on wanted) ⟨reads, [], false⟩ fun result later =>
      later.writes <+: plan (reported (reads.getD 0 [])) on wanted ∧
        (4 ≤ later.writes.length → Acknowledged (reads.getD 1 [])) ∧
          ∀ set, result = .ok set →
            later.writes = plan (reported (reads.getD 0 [])) on wanted ∧
              Acknowledged (reads.getD 2 []) ∧
                set = .ofData (reported (reads.getD 3 [])) := by
  have place (n : Nat) : (reads.drop n).headD [] = reads.getD n [] := by
    rw [List.headD_eq_head?_getD, List.head?_drop, List.getD_eq_getElem?_getD]
  have front : reads.headD [] = reads.getD 0 [] := place 0
  rw [applySet, Script.ends_bind]
  refine ends_getActiveSet.imp ?_
  rintro queried first ⟨⟨store, start⟩, known⟩
  simp only [front, List.nil_append] at store start known
  cases queried with
  | error message =>
      show first.writes <+: _ ∧ _
      rw [start]
      exact ⟨⟨_, rfl⟩, nofun, nofun⟩
  | ok cur =>
      obtain ⟨long, rfl⟩ := known cur rfl
      show Script.Ends (sendSet _ _ >>= fun _ => _) first _
      rw [Script.ends_bind]
      -- the preset is saved
      refine (ends_sendSet fun sent => packSet_eq long).imp ?_
      rintro saved second ⟨saves, stops⟩
      rw [start, store, place] at saves
      rw [start] at stops
      cases saved with
      | error message =>
          obtain ⟨sent, started, more⟩ := stops nofun
          have short := started.length_le
          show second.writes <+: _ ∧ _
          rw [more]
          refine ⟨?_, fun long => ?_, nofun⟩
          · exact
              ((List.prefix_append_right_inj _).mpr started).trans ⟨_, rfl⟩
          · rw [List.length_append] at long
            simp at long short
            omega
      | ok done =>
          obtain ⟨acknowledged, store', writes⟩ := saves rfl
          -- and what is saved is applied
          refine (ends_applied fun sent => packSet_eq long).imp ?_
          rintro result later ⟨⟨sent, started, more⟩, known'⟩
          rw [store', writes] at known'
          rw [writes] at more
          refine ⟨?_, fun _ => acknowledged, fun set ok => ?_⟩
          · rw [more]
            exact (List.prefix_append_right_inj _).mpr started
          · obtain ⟨all, applied, rfl⟩ := known' set ok
            refine ⟨all, ?_, ?_⟩
            · rw [← place]
              simpa using applied
            · rw [← place]
              simp

end KmmYocto.Dp100
