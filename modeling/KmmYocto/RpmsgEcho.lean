import KmmYocto.Trace
import Mathlib

/-!
# The echo firmware

`rpmsg-echo` has one slot for a message.  The receive interrupt fills it, unless
it is full, and the main loop logs the message, sends it back and empties the
slot.  The interrupt comes between any two steps of the main loop.

What is sent back are the accepted messages, each once and in order; the log
shows them as far as their first zero.  The loop tests the flag and then
executes `wfi`: a message that arrives in between waits for another interrupt.
-/

namespace KmmYocto

/-- Where the main loop is. -/
inductive EchoPc where
  /-- Before the test of `msg_ready`. -/
  | checking
  /-- The test failed, and `wfi` comes next. -/
  | waiting
  /-- In `wfi`. -/
  | asleep
  | terminating
  /-- `uart4_puts(msg_buf)` reads this character next. -/
  | logging (i : Nat)
  | sending
  | clearing
deriving DecidableEq, Repr

/-- A call of `rpmsg_lite_send`. -/
structure EchoSend where
  dst : UInt32
  payload : List UInt8
  rc : UInt32
deriving DecidableEq, Repr

/-- The state of the firmware; the log begins with the loop. -/
structure RpmsgEcho where
  pc : EchoPc
  msgBuf : Vector UInt8 512
  msgLen : UInt32
  msgSrc : UInt32
  msgReady : Bool
  /-- `DBG[1]` to `DBG[3]`. -/
  rxCount : UInt32
  sendRc : UInt32
  echoed : UInt32
  uart : List UInt8
  sent : List EchoSend

namespace RpmsgEcho

/-! ## The code -/

/-- One character of `uart4_puts`. -/
def putChar (c : UInt8) : List UInt8 :=
  if c = 10 then [13, 10] else [c]

/-- `uart4_puts` of a text. -/
def puts (text : String) : List UInt8 :=
  text.toUTF8.data.toList.flatMap putChar

/-- The loop that copies the payload. -/
def copyLoop (buf : Vector UInt8 512) (payload : List UInt8) :
    Nat → Vector UInt8 512
  | 0 => buf
  | count + 1 =>
      (copyLoop buf payload count).setIfInBounds count (payload.getD count 0)

/-- `rx_cb`. -/
def rxCb (payload : List UInt8) (src : UInt32) (s : RpmsgEcho) : RpmsgEcho :=
  let payloadLen := if payload.length ≥ 512 then 512 - 1 else payload.length
  if s.msgReady = false then
    { s with
      msgBuf := copyLoop s.msgBuf payload payloadLen
      msgLen := UInt32.ofNat payloadLen
      msgSrc := src
      msgReady := true
      rxCount := s.rxCount + 1 }
  else s

/-- An interrupt ends `wfi`. -/
def wake (s : RpmsgEcho) : RpmsgEcho :=
  if s.pc = .asleep then { s with pc := .checking } else s

/-- One step of the loop of `main`; `rc` is what a send returns. -/
def mainStep (rc : UInt32) (s : RpmsgEcho) : RpmsgEcho :=
  match s.pc with
  | .checking =>
      if s.msgReady then { s with pc := .terminating }
      else { s with pc := .waiting }
  | .waiting => { s with pc := .asleep }
  | .asleep => s
  | .terminating =>
      { s with
        msgBuf := s.msgBuf.setIfInBounds s.msgLen.toNat 0
        uart := s.uart ++ puts "rx: "
        pc := .logging 0 }
  | .logging i =>
      let c := s.msgBuf.toList.getD i 0
      if c = 0 then { s with uart := s.uart ++ puts "\n", pc := .sending }
      else { s with uart := s.uart ++ putChar c, pc := .logging (i + 1) }
  | .sending =>
      { s with
        sent :=
          s.sent ++ [⟨s.msgSrc, s.msgBuf.toList.take s.msgLen.toNat, rc⟩]
        sendRc := 0x1000 + (0 - rc)
        echoed := s.echoed + 1
        uart := s.uart ++ puts (if rc = 0 then "echoed\n" else "send FAILED\n")
        pc := .clearing }
  | .clearing => { s with msgReady := false, pc := .checking }

/-- The state when the loop is reached; the buffer is not initialised here. -/
def start : RpmsgEcho where
  pc := .checking
  msgBuf := .replicate 512 0
  msgLen := 0
  msgSrc := 0
  msgReady := false
  rxCount := 0
  sendRc := 0
  echoed := 0
  uart := []
  sent := []

inductive Event where
  /-- The interrupt of a message. -/
  | message (payload : List UInt8) (src : UInt32)
  /-- Another interrupt. -/
  | interrupt
  | main (rc : UInt32)

def step (s : RpmsgEcho) : Event → RpmsgEcho
  | .message payload src => (s.rxCb payload src).wake
  | .interrupt => s.wake
  | .main rc => s.mainStep rc

/-- The messages that arrive in a run, with their senders. -/
def arrivals (events : List Event) : List (UInt32 × List UInt8) :=
  events.filterMap fun
    | .message payload src => some (src, payload)
    | .interrupt | .main _ => none

/-- What is kept of a message. -/
def truncated (message : UInt32 × List UInt8) : UInt32 × List UInt8 :=
  (message.1, message.2.take 511)

/-- The message in the buffer. -/
def payload (s : RpmsgEcho) : List UInt8 :=
  s.msgBuf.toList.take s.msgLen.toNat

/-- The message that waits to be sent back. -/
def slot (s : RpmsgEcho) : List (UInt32 × List UInt8) :=
  match s.pc with
  | .clearing => []
  | .checking | .waiting | .asleep | .terminating | .logging _ | .sending =>
      if s.msgReady then [(s.msgSrc, s.payload)] else []

/-- What a log entry shows of a message. -/
def shown (payload : List UInt8) : List UInt8 :=
  puts "rx: " ++ (payload.takeWhile (· ≠ 0)).flatMap putChar ++ puts "\n"

/-- The log entry of a message that is sent back. -/
def logEntry (send : EchoSend) : List UInt8 :=
  shown send.payload ++
    puts (if send.rc = 0 then "echoed\n" else "send FAILED\n")

/-! ## The buffer -/

theorem getElem_copyLoop (buf : Vector UInt8 512) (payload : List UInt8)
    (count : Nat) {i : Nat} (inside : i < 512) :
    (copyLoop buf payload count)[i] =
      if i < count then payload.getD i 0 else buf[i] := by
  induction count with
  | zero => rfl
  | succ count induction =>
      rw [copyLoop, Vector.getElem_setIfInBounds, induction]
      by_cases last : count = i
      · rw [if_pos last, if_pos (by omega), last]
      · rw [if_neg last]
        by_cases early : i < count
        · rw [if_pos early, if_pos (by omega)]
        · rw [if_neg early, if_neg (by omega)]

theorem take_copyLoop (buf : Vector UInt8 512) (payload : List UInt8)
    {count : Nat} (whole : count ≤ payload.length) (small : count ≤ 512) :
    (copyLoop buf payload count).toList.take count = payload.take count := by
  apply List.ext_getElem
  · simp only [List.length_take, Vector.length_toList]
    omega
  · intro i left right
    simp only [List.length_take, Vector.length_toList] at left right
    have inside : i < payload.length := by omega
    rw [List.getElem_take, List.getElem_take, Vector.getElem_toList,
      getElem_copyLoop buf payload count (by omega), if_pos (by omega),
      List.getD_eq_getElem _ _ inside]

/-- The zero behind the message is not part of it. -/
theorem take_setIfInBounds (buf : Vector UInt8 512) (i : Nat) (c : UInt8) :
    (buf.setIfInBounds i c).toList.take i = buf.toList.take i := by
  apply List.ext_getElem
  · simp only [List.length_take, Vector.length_toList]
  · intro j left right
    simp only [List.length_take, Vector.length_toList] at left
    rw [List.getElem_take, List.getElem_take, Vector.getElem_toList,
      Vector.getElem_toList,
      Vector.getElem_setIfInBounds_ne (by omega) (by omega)]

/-- The characters before the first zero. -/
theorem takeWhile_eq_take {bytes : List UInt8} {i : Nat}
    (before : ∀ c ∈ bytes.take i, c ≠ 0)
    (ends : ∀ c, bytes[i]? = some c → c = 0) :
    bytes.takeWhile (· ≠ 0) = bytes.take i := by
  have parts := List.take_append_drop i bytes
  have nothing : (bytes.drop i).takeWhile (· ≠ 0) = [] := by
    cases rest : bytes.drop i with
    | nil => rfl
    | cons c others =>
        have first : bytes[i]? = some c := by
          rw [← List.head?_drop, rest, List.head?_cons]
        rw [ends c first]
        rfl
  conv_lhs => rw [← parts]
  rw [List.takeWhile_append_of_pos (by simpa using before), nothing,
    List.append_nil]

/-! ## The invariant -/

/-- What is logged of the message so far. -/
def line (s : RpmsgEcho) : List UInt8 :=
  match s.pc with
  | .logging i => puts "rx: " ++ (s.payload.take i).flatMap putChar
  | .sending => shown s.payload
  | .checking | .waiting | .asleep | .terminating | .clearing => []

/-- The loop is at work on the slot. -/
def Busy : EchoPc → Prop
  | .checking | .waiting | .asleep => False
  | .terminating | .logging _ | .sending | .clearing => True

/-- What holds after these messages were accepted. -/
structure Keeps (s : RpmsgEcho) (accepted : List (UInt32 × List UInt8)) :
    Prop where
  bounded : s.msgLen.toNat < 512
  busy : Busy s.pc → s.msgReady = true
  logging : ∀ i, s.pc = .logging i →
    i ≤ s.msgLen.toNat ∧ (∀ c ∈ s.payload.take i, c ≠ 0) ∧
      s.msgBuf.toList.getD s.msgLen.toNat 0 = 0
  echoes :
    s.sent.map (fun send => (send.dst, send.payload)) ++ s.slot =
      accepted.map truncated
  log : s.uart = s.sent.flatMap logEntry ++ s.line
  rxCount : s.rxCount = UInt32.ofNat accepted.length
  echoed : s.echoed = UInt32.ofNat s.sent.length

theorem keeps_start : Keeps start [] where
  bounded := by decide
  busy := False.elim
  logging := nofun
  echoes := rfl
  log := rfl
  rxCount := rfl
  echoed := rfl

section Steps

variable
    {s : RpmsgEcho} {accepted : List (UInt32 × List UInt8)}

theorem Keeps.wake (keeps : Keeps s accepted) : Keeps s.wake accepted := by
  rw [RpmsgEcho.wake]
  split_ifs with sleeps
  · have echoes := keeps.echoes
    have log := keeps.log
    rw [slot, sleeps] at echoes
    rw [line, sleeps] at log
    exact
      { keeps with
        busy := False.elim
        logging := nofun
        echoes
        log }
  · exact keeps

/-- A message that finds the slot empty is kept, as far as 511 bytes. -/
theorem Keeps.rxCb (keeps : Keeps s accepted) (payload : List UInt8)
    (src : UInt32) :
    Keeps (s.rxCb payload src)
      (if s.msgReady = false then accepted ++ [(src, payload)]
        else accepted) := by
  rw [RpmsgEcho.rxCb]
  generalize length : (if payload.length ≥ 512 then 512 - 1 else payload.length) =
    payloadLen
  split_ifs with free
  · have small : payloadLen ≤ 511 := by
      rw [← length]
      split_ifs <;> omega
    have whole : payloadLen ≤ payload.length := by
      rw [← length]
      split_ifs <;> omega
    have kept : payload.take payloadLen = payload.take 511 := by
      rw [← length]
      split_ifs with long
      · rfl
      · rw [List.take_of_length_le le_rfl,
          List.take_of_length_le (by omega)]
    have size : (UInt32.ofNat payloadLen).toNat = payloadLen := by
      rw [UInt32.toNat_ofNat', Nat.mod_eq_of_lt (by omega)]
    have idle : ¬ Busy s.pc := by
      intro busy
      rw [keeps.busy busy] at free
      cases free
    have empty : s.slot = [] := by
      rw [slot, free]
      split <;> rfl
    have echoes := keeps.echoes
    rw [empty, List.append_nil] at echoes
    have log := keeps.log
    refine
      { bounded := by
          show (UInt32.ofNat payloadLen).toNat < 512
          omega
        busy := fun _ => rfl
        logging := fun i at_ => absurd (show Busy s.pc from at_ ▸ trivial) idle
        echoes := ?_
        log := ?_
        rxCount := ?_
        echoed := keeps.echoed }
    · have text :
          (copyLoop s.msgBuf payload payloadLen).toList.take
              (UInt32.ofNat payloadLen).toNat =
            payload.take 511 := by
        rw [size, take_copyLoop _ _ whole (by omega), kept]
      have filled :
          slot
              { s with
                msgBuf := copyLoop s.msgBuf payload payloadLen
                msgLen := UInt32.ofNat payloadLen
                msgSrc := src
                msgReady := true
                rxCount := s.rxCount + 1 } =
            [truncated (src, payload)] := by
        rw [slot]
        cases at_ : s.pc with
        | clearing => exact absurd (show Busy s.pc from at_ ▸ trivial) idle
        | checking | waiting | asleep | terminating | logging | sending =>
            exact congrArg (fun text => [(src, text)]) text
      rw [filled, List.map_append, ← echoes]
      rfl
    · rw [log]
      congr 1
      rw [line, line]
      cases at_ : s.pc with
      | logging i => exact absurd (show Busy s.pc from at_ ▸ trivial) idle
      | sending => exact absurd (show Busy s.pc from at_ ▸ trivial) idle
      | checking | waiting | asleep | terminating | clearing => rfl
    · show s.rxCount + 1 = _
      rw [keeps.rxCount, List.length_append, UInt32.ofNat_add]
      rfl
  · exact keeps

/-- The zero goes behind the message, and the log entry starts. -/
theorem Keeps.terminates (keeps : Keeps s accepted)
    (at_ : s.pc = .terminating) (rc : UInt32) :
    Keeps (s.mainStep rc) accepted := by
  have bounded := keeps.bounded
  have ready := keeps.busy (at_ ▸ trivial)
  have echoes := keeps.echoes
  have log := keeps.log
  rw [slot, at_] at echoes
  rw [line, at_] at log
  have same :
      (s.msgBuf.setIfInBounds s.msgLen.toNat 0).toList.take s.msgLen.toNat =
        s.payload :=
    take_setIfInBounds _ _ _
  have zero :
      (s.msgBuf.setIfInBounds s.msgLen.toNat 0).toList.getD
          s.msgLen.toNat 0 = 0 := by
    rw [List.getD_eq_getElem _ _ (by simpa using bounded),
      Vector.getElem_toList]
    exact Vector.getElem_setIfInBounds_self _
  rw [RpmsgEcho.mainStep, at_]
  exact
    { keeps with
      busy := fun _ => ready
      logging := by
        rintro i ⟨⟩
        exact ⟨Nat.zero_le _, by simp, zero⟩
      echoes := by
        rw [slot, RpmsgEcho.payload, same]
        exact echoes
      log := by
        rw [log, line, List.append_nil]
        simp }

/-- The log shows one more character, or it ends the entry at the first zero. -/
theorem Keeps.logs (keeps : Keeps s accepted) {i : Nat}
    (at_ : s.pc = .logging i) (rc : UInt32) :
    Keeps (s.mainStep rc) accepted := by
  have bounded := keeps.bounded
  have ready := keeps.busy (at_ ▸ trivial)
  have echoes := keeps.echoes
  have log := keeps.log
  rw [slot, at_] at echoes
  rw [line, at_] at log
  obtain ⟨inside, nonzero, zero⟩ := keeps.logging i at_
  have size : s.payload.length = s.msgLen.toNat := by
    rw [RpmsgEcho.payload, List.length_take, Vector.length_toList,
      Nat.min_eq_left bounded.le]
  have char : ∀ (small : i < s.payload.length),
      s.msgBuf.toList.getD i 0 = s.payload[i] := by
    intro small
    rw [List.getD_eq_getElem _ _ (by simp; omega)]
    exact List.getElem_take.symm
  rw [RpmsgEcho.mainStep, at_]
  simp only []
  split_ifs with ends
  · -- the first zero: the whole message is shown
    have text : s.payload.takeWhile (· ≠ 0) = s.payload.take i := by
      apply takeWhile_eq_take nonzero
      intro c at_c
      obtain ⟨small, rfl⟩ := List.getElem?_eq_some_iff.mp at_c
      rw [← char small, ends]
    exact
      { keeps with
        busy := fun _ => ready
        logging := nofun
        echoes
        log := by
          show s.uart ++ puts "\n" = s.sent.flatMap logEntry ++ shown s.payload
          rw [log, shown, text, List.append_assoc] }
  · have before : i < s.msgLen.toNat := by
      refine lt_of_le_of_ne inside ?_
      rintro rfl
      exact ends zero
    have within : i < s.payload.length := by omega
    have longer :
        s.payload.take (i + 1) =
          s.payload.take i ++ [s.msgBuf.toList.getD i 0] := by
      rw [char within]
      exact List.take_succ_eq_append_getElem within
    exact
      { keeps with
        busy := fun _ => ready
        logging := by
          rintro j ⟨⟩
          refine ⟨before, fun c member => ?_, zero⟩
          have parts : c ∈ s.payload.take (i + 1) := member
          rw [longer, List.mem_append, List.mem_singleton] at parts
          rcases parts with early | rfl
          · exact nonzero c early
          · exact ends
        echoes
        log := by
          show s.uart ++ putChar _ =
            s.sent.flatMap logEntry ++
              (puts "rx: " ++ (s.payload.take (i + 1)).flatMap putChar)
          rw [log, longer, List.flatMap_append, List.flatMap_singleton]
          simp only [List.append_assoc] }

/-- The message is sent back, and the log says what came of it. -/
theorem Keeps.sends (keeps : Keeps s accepted) (at_ : s.pc = .sending)
    (rc : UInt32) : Keeps (s.mainStep rc) accepted := by
  have ready := keeps.busy (at_ ▸ trivial)
  have echoes := keeps.echoes
  have log := keeps.log
  rw [slot, at_, ready] at echoes
  rw [line, at_] at log
  rw [RpmsgEcho.mainStep, at_]
  exact
    { keeps with
      busy := fun _ => ready
      logging := nofun
      echoes := by
        rw [slot, List.map_append, List.append_nil]
        exact echoes
      log := by
        show
          s.uart ++ puts (if rc = 0 then "echoed\n" else "send FAILED\n") =
            (s.sent ++ [EchoSend.mk s.msgSrc s.payload rc]).flatMap logEntry ++
              []
        rw [log, List.flatMap_append, List.flatMap_singleton,
          List.append_nil, logEntry]
        exact List.append_assoc _ _ _
      echoed := by
        show s.echoed + 1 = _
        rw [keeps.echoed, List.length_append, UInt32.ofNat_add]
        rfl }

/-- The loop sends the message of the slot back as it was accepted. -/
theorem Keeps.mainStep (keeps : Keeps s accepted) (rc : UInt32) :
    Keeps (s.mainStep rc) accepted := by
  have echoes := keeps.echoes
  have log := keeps.log
  rw [slot] at echoes
  rw [line] at log
  cases at_ : s.pc with
  | terminating => exact keeps.terminates at_ rc
  | logging i => exact keeps.logs at_ rc
  | sending => exact keeps.sends at_ rc
  | asleep =>
      rw [RpmsgEcho.mainStep, at_]
      exact keeps
  | checking =>
      rw [at_] at echoes log
      rw [RpmsgEcho.mainStep, at_]
      simp only []
      split_ifs with ready
      · exact
          { keeps with
            busy := fun _ => ready
            logging := nofun
            echoes
            log }
      · exact
          { keeps with
            busy := False.elim
            logging := nofun
            echoes
            log }
  | waiting | clearing =>
      rw [at_] at echoes log
      rw [RpmsgEcho.mainStep, at_]
      exact
        { keeps with
          busy := False.elim
          logging := nofun
          echoes
          log }

end Steps

/-! ## Every run -/

/-- Every event keeps what holds of the messages that are accepted. -/
theorem keeps_run (events : List Event) :
    ∃ accepted : List (UInt32 × List UInt8),
      accepted.Sublist (arrivals events) ∧
      Keeps (Trace.run step start events) accepted := by
  induction events using List.reverseRecOn with
  | nil => exact ⟨[], List.nil_sublist _, keeps_start⟩
  | append_singleton events event induction =>
      obtain ⟨accepted, order, keeps⟩ := induction
      rw [Trace.run_append, arrivals, List.filterMap_append, ← arrivals]
      cases event with
      | message payload src =>
          refine ⟨_, ?_, (keeps.rxCb payload src).wake⟩
          split_ifs
          · exact order.append_right _
          · exact order.trans (List.sublist_append_left _ _)
      | interrupt =>
          exact
            ⟨accepted, order.trans (List.sublist_append_left _ _), keeps.wake⟩
      | main rc =>
          exact
            ⟨accepted, order.trans (List.sublist_append_left _ _),
              keeps.mainStep rc⟩

section Wakes

variable
    {s : RpmsgEcho} {accepted : List (UInt32 × List UInt8)} (rc : UInt32)

/-- The loop alone comes to a state in which the slot is empty. -/
def Serves (s : RpmsgEcho) : Prop :=
  ∃ steps,
    ((mainStep rc)^[steps] s).msgReady = false ∧
      ((mainStep rc)^[steps] s).sent.map
          (fun send => (send.dst, send.payload)) =
        s.sent.map (fun send => (send.dst, send.payload)) ++ s.slot

theorem Serves.of_step
    (serves : Serves rc (s.mainStep rc))
    (same :
      (s.mainStep rc).sent.map (fun send => (send.dst, send.payload)) ++
          (s.mainStep rc).slot =
        s.sent.map (fun send => (send.dst, send.payload)) ++ s.slot) :
    Serves rc s := by
  obtain ⟨steps, free, sent⟩ := serves
  exact ⟨steps + 1, free, sent.trans same⟩

theorem serves_clearing (at_ : s.pc = .clearing) : Serves rc s := by
  refine ⟨1, ?_, ?_⟩
  · rw [Function.iterate_one, mainStep, at_]
  · rw [Function.iterate_one, mainStep, slot, at_, List.append_nil]

/-- A step keeps what is sent back together with what will be. -/
theorem Keeps.same (keeps : Keeps s accepted) :
    (s.mainStep rc).sent.map (fun send => (send.dst, send.payload)) ++
        (s.mainStep rc).slot =
      s.sent.map (fun send => (send.dst, send.payload)) ++ s.slot :=
  (keeps.mainStep rc).echoes.trans keeps.echoes.symm

theorem serves_sending (keeps : Keeps s accepted) (at_ : s.pc = .sending) :
    Serves rc s := by
  refine .of_step rc (serves_clearing rc ?_) (keeps.same rc)
  rw [mainStep, at_]

/-- Up to the end of the message, there is a zero to stop at. -/
theorem serves_logging {left i : Nat} (keeps : Keeps s accepted)
    (at_ : s.pc = .logging i) (distance : i + left = s.msgLen.toNat) :
    Serves rc s := by
  induction left generalizing s i with
  | zero =>
      obtain ⟨-, -, zero⟩ := keeps.logging i at_
      refine .of_step rc (serves_sending rc (keeps.mainStep rc) ?_) (keeps.same rc)
      rw [mainStep, at_]
      simp only []
      rw [show i = s.msgLen.toNat by omega, if_pos zero]
  | succ left induction =>
      refine .of_step rc ?_ (keeps.same rc)
      by_cases ends : s.msgBuf.toList.getD i 0 = 0
      · apply serves_sending rc (keeps.mainStep rc)
        rw [mainStep, at_]
        simp only []
        rw [if_pos ends]
      · refine induction (keeps.mainStep rc) (i := i + 1) ?_ ?_
        · rw [mainStep, at_]
          simp only []
          rw [if_neg ends]
        · have len : (s.mainStep rc).msgLen = s.msgLen := by
            rw [mainStep, at_]
            simp only []
            rw [if_neg ends]
          rw [len]
          omega

theorem serves_terminating (keeps : Keeps s accepted)
    (at_ : s.pc = .terminating) : Serves rc s := by
  have distance : 0 + (s.mainStep rc).msgLen.toNat = (s.mainStep rc).msgLen.toNat :=
    Nat.zero_add _
  refine .of_step rc (serves_logging rc (keeps.mainStep rc) ?_ distance)
    (keeps.same rc)
  rw [mainStep, at_]

theorem serves_checking (keeps : Keeps s accepted) (ready : s.msgReady = true)
    (at_ : s.pc = .checking) : Serves rc s := by
  refine .of_step rc ?_ (keeps.same rc)
  apply serves_terminating rc (keeps.mainStep rc)
  rw [mainStep, at_]
  simp only []
  rw [if_pos ready]

/-- An interrupt during `wfi` leads back to the test. -/
theorem serves_wake (keeps : Keeps s accepted) (ready : s.msgReady = true)
    (sleeps : s.pc = .asleep) : Serves rc s.wake := by
  have woken : s.wake = { s with pc := .checking } := if_pos sleeps
  exact serves_checking rc keeps.wake (woken ▸ ready) (by rw [woken])

/-- From `wfi` or just before it, the loop alone does not come further. -/
theorem stuck (ready : s.msgReady = true)
    (sleeps : s.pc = .waiting ∨ s.pc = .asleep) (steps : Nat) :
    ((mainStep rc)^[steps] s).msgReady = true := by
  induction steps generalizing s with
  | zero => exact ready
  | succ steps induction =>
      rw [Function.iterate_succ_apply]
      rcases sleeps with at_ | at_
      · exact induction (by rw [mainStep, at_]; exact ready)
          (.inr (by rw [mainStep, at_]))
      · exact induction (by rw [mainStep, at_]; exact ready)
          (.inr (by rw [mainStep, at_]; exact at_))

end Wakes

end RpmsgEcho

namespace Bench

open RpmsgEcho

/-- A message comes after the test and before `wfi`. -/
def lostWake : List RpmsgEcho.Event :=
  [.main 0, .message [104, 105] 1024, .main 0]

end Bench

end KmmYocto
