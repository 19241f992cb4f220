import KmmYocto.CanWire
import KmmYocto.SystemCounter
import KmmYocto.Trace

/-!
# The stream of can-sim

The main loop of `can-sim` sends five frames every 33 ms of the System Counter
to the address that last sent it anything.  The interrupt that notes this
address, the driver on the Linux side and the user's `ip link` come at any
moment; the two directions of the channel are queues.

Of a frame that is sent, one of four things becomes: it is delivered, it is on
its way, it is counted as dropped by one of the two sides, or it is addressed to
an endpoint that is gone.  What is delivered is, in order and without doubles,
a part of what the simulator generates, and all of it where nothing is lost.
-/

namespace KmmYocto

namespace CanSim

/-- `SCTR_HZ * 33 / 1000`. -/
def period : UInt64 :=
  (8000000 * 33 / 1000 : UInt32).toUInt64

/-- Where the main loop is. -/
inductive Pc where
  | waiting
  | sending (left : List Wire)

/-- The frames that this turn of the loop has still to send. -/
def Pc.left : Pc → List Wire
  | .waiting => []
  | .sending left => left

end CanSim

open CanSim

/-- The simulator, the channel and the driver. -/
structure CanStream where
  /-- The System Counter. -/
  counter : Nat
  pc : Pc
  next : UInt64
  t : UInt32
  peerAddr : UInt32
  peerKnown : Bool
  /-- `DBG[1]` to `DBG[4]`. -/
  hellos : UInt32
  sent : UInt32
  dropped : UInt32
  dbgT : UInt32
  /-- What is on its way to the M4, by its sender. -/
  toM4 : List UInt32
  /-- What is on its way to Linux, with the endpoint it is for. -/
  toLinux : List (UInt32 × List UInt8)
  endpoint : UInt32
  can : RpmsgCan
  received : List CanFrame
  /-- `stats.rx_dropped`. -/
  rxDropped : Nat
  /-- Messages for an endpoint that is gone. -/
  astray : Nat

namespace CanStream

/-- The counter at the reads of a poll; it moves on before each of them. -/
def readsFrom (counter : Nat) (ticks : Nat → Nat) : Nat → Nat
  | 0 => counter + ticks 0
  | i + 1 => readsFrom counter ticks i + ticks (i + 1)

/-! ## The M4 -/

/-- The counter has gone on. -/
def elapse (counter : Nat) (s : CanStream) : CanStream :=
  { s with counter }

/-- The head of the main loop. -/
def loopHead (s : CanStream) : CanStream :=
  { s with
    pc := .waiting
    next := s.next + period }

/-- The state in which the main loop is reached. -/
def booted (counter : Nat) (endpoint : UInt32) : CanStream :=
  loopHead
    { counter
      pc := .waiting
      next := UInt64.ofNat counter
      t := 0
      peerAddr := 0
      peerKnown := false
      hellos := 0
      sent := 0
      dropped := 0
      dbgT := 0
      toM4 := []
      toLinux := []
      endpoint
      can := rpmsgCanInit
      received := []
      rxDropped := 0
      astray := 0 }

/-- The 33 ms are over; `w` is whatever the stack holds. -/
def generate (w : Wire) (s : CanStream) : CanStream :=
  let s := { s with t := s.t + 33, dbgT := s.t + 33 }
  if s.peerKnown = false then s.loopHead
  else { s with pc := .sending (frames w s.t) }

/-- One pass of the loop that waits; a third turn of `sctr_now` is a new pass. -/
def poll (ticks : Nat → Nat) (w : Wire) (s : CanStream) : CanStream :=
  match s.pc with
  | .sending _ => s
  | .waiting =>
      let reads := readsFrom s.counter ticks
      match sctrNow reads 2 0 with
      | none => s.elapse (reads 5)
      | some (now, last) =>
          if now < s.next then s.elapse (reads (last - 1))
          else (s.elapse (reads (last - 1))).generate w

/-- `send_frame`; `queued` is whether the channel took the message. -/
def sendFrame (queued : Bool) (w : Wire) (s : CanStream) : CanStream :=
  if queued then
    { s with
      sent := s.sent + 1
      toLinux := s.toLinux ++ [(s.peerAddr, w.bytes)] }
  else { s with dropped := s.dropped + 1 }

/-- The next frame is sent, and the loop goes on. -/
def sendNext (ticks : Nat) (queued : Bool) (s : CanStream) : CanStream :=
  match s.pc with
  | .waiting => s
  | .sending [] => s.loopHead
  | .sending (w :: left) =>
      let s :=
        { (s.elapse (s.counter + ticks)).sendFrame queued w with
          pc := .sending left }
      if left = [] then s.loopHead else s

/-- `rx_cb`, in the interrupt. -/
def rxCb (s : CanStream) : CanStream :=
  match s.toM4 with
  | [] => s
  | src :: rest =>
      { s with
        toM4 := rest
        peerAddr := src
        peerKnown := true
        hellos := s.hellos + 1 }

/-! ## Linux -/

/-- What one effect of the driver does. -/
def effect (s : CanStream) : CanEffect → CanStream
  | .queued _ => { s with toM4 := s.toM4 ++ [s.endpoint] }
  | .receive frame => { s with received := s.received ++ [frame] }
  | .rxDropped => { s with rxDropped := s.rxDropped + 1 }
  | .startQueue | .stopQueue | .wakeQueue => s

/-- The driver after a call, and what the call did. -/
def driver (s : CanStream) (result : RpmsgCan × List CanEffect) : CanStream :=
  result.2.foldl effect { s with can := result.1 }

/-- The oldest message of the M4 arrives. -/
def deliver (allocated : Bool) (s : CanStream) : CanStream :=
  match s.toLinux with
  | [] => s
  | (dst, data) :: rest =>
      let s := { s with toLinux := rest }
      if dst = s.endpoint then s.driver (rpmsgCanCb allocated data s.can)
      else { s with astray := s.astray + 1 }

inductive Event where
  | poll (ticks : Nat → Nat) (w : Wire)
  | sendNext (ticks : Nat) (queued : Bool)
  /-- The interrupt of a message to the M4. -/
  | interrupt
  | deliver (allocated : Bool)
  | up (ready : Bool) (sends : OpenSends)
  | down (queued : Bool)
  | changelink (bitrate ctrlmode restartMs : UInt32)
  | restart (queued : Bool)
  | transmit (invalid queued : Bool) (cf : CanFrame)
  /-- The driver is removed and probed again, with another endpoint. -/
  | rebind (endpoint : UInt32)

def step (s : CanStream) : Event → CanStream
  | .poll ticks w => s.poll ticks w
  | .sendNext ticks queued => s.sendNext ticks queued
  | .interrupt => s.rxCb
  | .deliver allocated => s.deliver allocated
  | .up ready sends => s.driver (s.can.devOpen ready sends)
  | .down queued => s.driver (s.can.devClose queued)
  | .changelink bitrate ctrlmode restartMs =>
      { s with can := s.can.changelink bitrate ctrlmode restartMs }
  | .restart queued => s.driver (s.can.canRestartWork queued)
  | .transmit invalid queued cf =>
      if s.can.running = true ∧ queued = true ∧
          (rpmsgCanXmit invalid queued cf).message.isSome then
        { s with toM4 := s.toM4 ++ [s.endpoint] }
      else s
  | .rebind endpoint => { s with endpoint, can := rpmsgCanInit }

/-- The driver is bound again, and frames on their way may miss it. -/
def Event.rebinds : Event → Bool
  | .rebind _ => true
  | _ => false

/-- The counter stays a period away from its end. -/
def InTime (s : CanStream) (event : Event) : Prop :=
  (s.step event).counter + 264000 < 2 ^ 64

instance (s : CanStream) (event : Event) : Decidable (s.InTime event) :=
  inferInstanceAs (Decidable (_ < _))

/-! ## What is generated -/

/-- The signals of the turns after the skipped ones. -/
def stream (skipped turns : Nat) : List Signal :=
  (List.range' (skipped + 1) (turns - skipped)).flatMap
    fun turn => signals (UInt32.ofNat (33 * turn))

theorem stream_self (turns : Nat) : stream turns turns = [] := by
  rw [stream, Nat.sub_self]
  rfl

theorem stream_succ {skipped turns : Nat} (skips : skipped ≤ turns) :
    stream skipped (turns + 1) =
      stream skipped turns ++ signals (UInt32.ofNat (33 * (turns + 1))) := by
  have longer : turns + 1 - skipped = turns - skipped + 1 := by omega
  have last : skipped + 1 + 1 * (turns - skipped) = turns + 1 := by omega
  rw [stream, longer, List.range'_concat, List.flatMap_append, last,
    List.flatMap_singleton]
  rfl

theorem length_stream (skipped turns : Nat) :
    (stream skipped turns).length = 5 * (turns - skipped) := by
  rw [stream, List.length_flatMap]
  have five :
      (fun turn : Nat => (signals (UInt32.ofNat (33 * turn))).length) =
        fun _ => 5 :=
    rfl
  rw [five, List.map_const', List.sum_replicate, List.length_range',
    smul_eq_mul, Nat.mul_comm]

/-- The wire holds the signal, and reads as it. -/
def IsWire (signal : Signal) (w : Wire) : Prop :=
  signal.Fits ∧ ∃ before : Wire, before.pad = #v[0, 0, 0] ∧ w = build before signal

theorem isWire_buildAll {w : Wire} (cleared : w.pad = #v[0, 0, 0])
    {signals : List Signal} (fits : ∀ signal ∈ signals, signal.Fits) :
    List.Forall₂ IsWire signals (buildAll w signals) := by
  induction signals generalizing w with
  | nil => exact .nil
  | cons signal rest induction =>
      rw [List.forall_mem_cons] at fits
      exact .cons ⟨fits.1, w, cleared, rfl⟩ (induction cleared fits.2)

theorem isWire_frames (w : Wire) (t : UInt32) :
    List.Forall₂ IsWire (signals t) (frames w t) :=
  isWire_buildAll (pad_clearPad w) (fits_signals t)

/-! ## The invariant -/

/--
So many turns of the loop are over, the first ones without a peer; the signals
since then are delivered, in flight, pending or lost.
-/
structure Flow (start : Nat) (s : CanStream) (turns skipped drops : Nat)
    (delivered inFlight pending : List Signal) : Prop where
  time : s.t = UInt32.ofNat (33 * turns)
  waiting : s.pc = .waiting → s.next.toNat = start + 264000 * (turns + 1)
  sending : s.pc ≠ .waiting → s.next.toNat = start + 264000 * turns
  paced : start + 264000 * turns ≤ s.counter
  skips : skipped ≤ turns
  silent : s.peerKnown = false → s.pc = .waiting ∧ skipped = turns
  order :
    (delivered ++ (inFlight ++ pending)).Sublist (stream skipped turns)
  received : List.Forall₂ Carries s.received delivered
  flight :
    List.Forall₂ (fun signal message => ∃ w, IsWire signal w ∧ message.2 = w.bytes)
      inFlight s.toLinux
  left : List.Forall₂ IsWire pending s.pc.left
  refused : s.dropped = UInt32.ofNat drops
  queued :
    s.sent =
      UInt32.ofNat
        (s.received.length + s.toLinux.length + s.rxDropped + s.astray)
  total :
    s.received.length + s.toLinux.length + s.pc.left.length + drops +
        s.rxDropped + s.astray =
      5 * (turns - skipped)

/-- Some turns and some signals make up the state. -/
def Flows (start : Nat) (s : CanStream) : Prop :=
  ∃ turns skipped drops delivered inFlight pending,
    s.Flow start turns skipped drops delivered inFlight pending

/-! ## The M4 keeps it -/

theorem monotone_readsFrom (counter : Nat) (ticks : Nat → Nat) :
    Monotone (readsFrom counter ticks) :=
  monotone_nat_of_le_succ fun _ => Nat.le_add_right _ _

theorem le_readsFrom (counter : Nat) (ticks : Nat → Nat) (i : Nat) :
    counter ≤ readsFrom counter ticks i :=
  (Nat.le_add_right counter (ticks 0)).trans
    (monotone_readsFrom counter ticks (Nat.zero_le i))

/-- Time passes, and nothing else happens. -/
theorem Flows.elapse {start : Nat} {s : CanStream} (flows : s.Flows start)
    {counter : Nat} (later : s.counter ≤ counter) :
    Flows start (s.elapse counter) := by
  obtain ⟨turns, skipped, drops, delivered, inFlight, pending, flow⟩ := flows
  exact
    ⟨turns, skipped, drops, delivered, inFlight, pending,
      { flow with paced := flow.paced.trans later }⟩

theorem toNat_next_add_period {next : UInt64}
    (bounded : next.toNat + 264000 < 2 ^ 64) :
    (next + period).toNat = next.toNat + 264000 := by
  have value : period.toNat = 264000 := rfl
  rw [UInt64.toNat_add, value, Nat.mod_eq_of_lt bounded]

theorem ofNat_turn (turns : Nat) :
    UInt32.ofNat (33 * turns) + 33 = UInt32.ofNat (33 * (turns + 1)) := by
  rw [Nat.mul_succ, UInt32.ofNat_add]
  rfl

/-- The next turn begins when its time has come. -/
theorem Flows.generate {start : Nat} {s : CanStream} (flows : s.Flows start)
    (waits : s.pc = .waiting) (w : Wire)
    (due : s.next.toNat ≤ s.counter)
    (bounded : s.counter + 264000 < 2 ^ 64) :
    Flows start (s.generate w) := by
  obtain ⟨turns, skipped, drops, delivered, inFlight, pending, flow⟩ := flows
  have next := flow.waiting waits
  have time : s.t + 33 = UInt32.ofNat (33 * (turns + 1)) := by
    rw [flow.time, ofNat_turn]
  have empty : s.pc.left = [] := by rw [waits]; rfl
  have nothing : pending = [] := by
    have left := flow.left
    rw [empty, List.forall₂_nil_right_iff] at left
    exact left
  have total := flow.total
  have order := flow.order
  rw [empty] at total
  rw [nothing, List.append_nil] at order
  rw [CanStream.generate]
  split_ifs with unknown
  · -- nobody listens: the turn is skipped
    obtain ⟨-, same⟩ := flow.silent unknown
    subst same
    rw [stream_self, List.sublist_nil, List.append_eq_nil_iff] at order
    obtain ⟨rfl, rfl⟩ := order
    refine
      ⟨skipped + 1, skipped + 1, drops, [], [], [],
        { flow with
          time
          waiting := fun _ => ?_
          sending := fun other => absurd rfl other
          paced := by
            show _ ≤ s.counter
            omega
          skips := le_rfl
          silent := fun _ => ⟨rfl, rfl⟩
          order := List.nil_sublist _
          left := .nil
          total := ?_ }⟩
    · show (s.next + period).toNat = _
      rw [toNat_next_add_period (by omega), next]
      ring
    · rw [Nat.sub_self] at total ⊢
      exact total
  · refine
      ⟨turns + 1, skipped, drops, delivered, inFlight,
        signals (s.t + 33),
        { flow with
          time
          waiting := nofun
          sending := fun _ => next
          paced := by
            show _ ≤ s.counter
            omega
          skips := flow.skips.trans (Nat.le_succ _)
          silent := fun known => absurd known unknown
          order := ?_
          left := isWire_frames w _
          total := ?_ }⟩
    · rw [stream_succ flow.skips, ← List.append_assoc, time]
      exact order.append_right _
    · have five : (frames w (s.t + 33)).length = 5 := rfl
      have skips := flow.skips
      show s.received.length + s.toLinux.length +
          (frames w (s.t + 33)).length + drops + s.rxDropped + s.astray = _
      rw [five]
      simp only [List.length_nil] at total
      omega

@[simp]
theorem counter_generate (w : Wire) (s : CanStream) :
    (s.generate w).counter = s.counter := by
  rw [generate]
  split_ifs <;> rfl

theorem Flows.poll {start : Nat} {s : CanStream} (flows : s.Flows start)
    (ticks : Nat → Nat) (w : Wire)
    (bounded : (s.poll ticks w).counter + 264000 < 2 ^ 64) :
    Flows start (s.poll ticks w) := by
  rw [CanStream.poll] at bounded ⊢
  split at bounded
  case h_1 => exact flows
  case h_2 waits =>
    simp only [] at bounded ⊢
    have later := le_readsFrom s.counter ticks
    have monotone := monotone_readsFrom s.counter ticks
    cases read : sctrNow (readsFrom s.counter ticks) 2 0 with
    | none => exact flows.elapse (later 5)
    | some result =>
        obtain ⟨now, last⟩ := result
        simp only [read] at bounded ⊢
        split_ifs at bounded ⊢ with early
        · exact flows.elapse (later _)
        · rw [counter_generate] at bounded
          have below : readsFrom s.counter ticks (last - 1) + 264000 < 2 ^ 64 :=
            bounded
          obtain ⟨-, moment, -, before, value⟩ :=
            sctrNow_eq_some monotone read (by omega)
          refine (flows.elapse (later _)).generate waits w ?_ bounded
          rw [UInt64.lt_iff_toNat_lt, not_lt, value] at early
          exact early.trans (monotone (Nat.le_sub_one_of_lt before))

/-- The turn is over. -/
theorem Flows.loopHead {start : Nat} {s : CanStream} (flows : s.Flows start)
    (sends : s.pc ≠ .waiting) (empty : s.pc.left = [])
    (bounded : s.counter + 264000 < 2 ^ 64) : Flows start s.loopHead := by
  obtain ⟨turns, skipped, drops, delivered, inFlight, pending, flow⟩ := flows
  have next := flow.sending sends
  have paced := flow.paced
  have left := flow.left
  have total := flow.total
  rw [empty] at left total
  refine
    ⟨turns, skipped, drops, delivered, inFlight, pending,
      { flow with
        waiting := fun _ => ?_
        sending := fun other => absurd rfl other
        silent := fun unknown => absurd (flow.silent unknown).1 sends
        left
        total }⟩
  show (s.next + period).toNat = _
  rw [toNat_next_add_period (by omega), next]
  ring

/-- A frame goes from the pending ones to the channel, or is counted. -/
theorem Flows.send {start : Nat} {s : CanStream} {w : Wire} {left : List Wire}
    (flows : s.Flows start) (at_ : s.pc = .sending (w :: left))
    (queued : Bool) :
    Flows start { s.sendFrame queued w with pc := .sending left } := by
  obtain ⟨turns, skipped, drops, delivered, inFlight, pending, flow⟩ := flows
  have sends : s.pc ≠ .waiting := by rw [at_]; nofun
  have leftNow : List.Forall₂ IsWire pending (w :: left) := by
    have whole := flow.left
    rwa [at_] at whole
  obtain ⟨signal, rest, wire, others, rfl⟩ :=
    List.forall₂_cons_right_iff.mp leftNow
  have total := flow.total
  rw [at_] at total
  simp only [Pc.left, List.length_cons] at total
  have order := flow.order
  rw [CanStream.sendFrame]
  split_ifs
  · refine
      ⟨turns, skipped, drops, delivered, inFlight ++ [signal], rest,
        { flow with
          waiting := nofun
          sending := fun _ => flow.sending sends
          silent := fun unknown => absurd (flow.silent unknown).1 sends
          order := by rwa [List.append_assoc, List.singleton_append]
          flight :=
            List.rel_append flow.flight (.cons ⟨w, wire, rfl⟩ .nil)
          left := others
          queued := ?_
          total := ?_ }⟩
    · show s.sent + 1 = _
      rw [flow.queued, List.length_append, List.length_singleton]
      show UInt32.ofNat _ + UInt32.ofNat 1 = _
      rw [← UInt32.ofNat_add]
      congr 1
      ring
    · simp only [Pc.left, List.length_append, List.length_singleton]
      omega
  · refine
      ⟨turns, skipped, drops + 1, delivered, inFlight, rest,
        { flow with
          waiting := nofun
          sending := fun _ => flow.sending sends
          silent := fun unknown => absurd (flow.silent unknown).1 sends
          order := ?_
          left := others
          refused := ?_
          total := ?_ }⟩
    · exact
        (((List.sublist_cons_self signal rest).append_left _).append_left
          _).trans order
    · show s.dropped + 1 = _
      rw [flow.refused, UInt32.ofNat_add]
      rfl
    · simp only [Pc.left]
      omega

theorem Flows.sendNext {start : Nat} {s : CanStream} (flows : s.Flows start)
    (ticks : Nat) (queued : Bool)
    (bounded : (s.sendNext ticks queued).counter + 264000 < 2 ^ 64) :
    Flows start (s.sendNext ticks queued) := by
  rw [CanStream.sendNext] at bounded ⊢
  split at bounded
  case h_1 => exact flows
  case h_2 empty =>
    exact
      flows.loopHead (by rw [empty]; nofun) (by rw [empty]; rfl) bounded
  case h_3 w left at_ =>
    have waited := flows.elapse (Nat.le_add_right s.counter ticks)
    have sent := waited.send at_ queued
    simp only [] at bounded ⊢
    split_ifs at bounded ⊢ with last
    · exact sent.loopHead nofun last bounded
    · exact sent

theorem Flows.rxCb {start : Nat} {s : CanStream} (flows : s.Flows start) :
    Flows start s.rxCb := by
  obtain ⟨turns, skipped, drops, delivered, inFlight, pending, flow⟩ := flows
  rw [CanStream.rxCb]
  split
  · exact ⟨_, _, _, _, _, _, flow⟩
  · exact
      ⟨turns, skipped, drops, delivered, inFlight, pending,
        { flow with silent := nofun }⟩

/-! ## Linux keeps it -/

/-- A call of the driver that only talks to the M4 and to its queue. -/
def Quiet (effects : List CanEffect) : Prop :=
  ∀ effect ∈ effects, effect ≠ .rxDropped ∧ ∀ frame, effect ≠ .receive frame

theorem Quiet.append {first second : List CanEffect} (left : Quiet first)
    (right : Quiet second) : Quiet (first ++ second) := by
  intro effect member
  rcases List.mem_append.mp member with early | late
  · exact left effect early
  · exact right effect late

theorem quiet_nil : Quiet [] := nofun

theorem quiet_rpmsgCanCtrlSend (queued : Bool) (cmd flags : UInt8)
    (arg : UInt32) : Quiet (rpmsgCanCtrlSend queued cmd flags arg) := by
  rw [rpmsgCanCtrlSend]
  split_ifs
  · rintro effect member
    rw [List.mem_singleton.mp member]
    exact ⟨nofun, nofun⟩
  · exact quiet_nil

theorem quiet_queue {effect : CanEffect}
    (isQueue : effect = .startQueue ∨ effect = .stopQueue ∨
      effect = .wakeQueue) : Quiet [effect] := by
  intro other member
  rw [List.mem_singleton.mp member]
  rcases isQueue with rfl | rfl | rfl <;> exact ⟨nofun, nofun⟩

theorem quiet_devOpen (can : RpmsgCan) (ready : Bool) (sends : OpenSends) :
    Quiet (can.devOpen ready sends).2 := by
  cases up : can.running with
  | true =>
      rw [RpmsgCan.devOpen_of_up ready sends up]
      exact quiet_nil
  | false =>
      cases ready with
      | false =>
          rw [RpmsgCan.devOpen_of_not_ready]
          exact quiet_nil
      | true =>
          rw [RpmsgCan.devOpen_of_ready sends up]
          exact
            (((quiet_rpmsgCanCtrlSend _ _ _ _).append
              (quiet_rpmsgCanCtrlSend _ _ _ _)).append
                (quiet_rpmsgCanCtrlSend _ _ _ _)).append
                  (quiet_queue (.inl rfl))

theorem quiet_devClose (can : RpmsgCan) (queued : Bool) :
    Quiet (can.devClose queued).2 := by
  rw [RpmsgCan.devClose]
  split_ifs
  · exact
      (quiet_queue (.inr (.inl rfl))).append (quiet_rpmsgCanCtrlSend _ _ _ _)
  · exact quiet_nil

theorem quiet_canRestartWork (can : RpmsgCan) (queued : Bool) :
    Quiet (can.canRestartWork queued).2 := by
  rw [RpmsgCan.canRestartWork]
  split_ifs
  · exact
      (quiet_rpmsgCanCtrlSend _ _ _ _).append (quiet_queue (.inr (.inr rfl)))
  · exact quiet_nil

theorem exists_foldl_effect {effects : List CanEffect} (quiet : Quiet effects)
    (s : CanStream) :
    ∃ more, effects.foldl effect s = { s with toM4 := s.toM4 ++ more } := by
  induction effects generalizing s with
  | nil => exact ⟨[], by simp⟩
  | cons first rest induction =>
      have others : Quiet rest :=
        fun effect member => quiet effect (List.mem_cons_of_mem _ member)
      obtain ⟨notDropped, notReceived⟩ := quiet first List.mem_cons_self
      obtain ⟨more, equal⟩ := induction others (s.effect first)
      rw [List.foldl_cons, equal]
      cases first with
      | queued ctrl =>
          exact ⟨s.endpoint :: more, by simp [CanStream.effect]⟩
      | startQueue => exact ⟨more, rfl⟩
      | stopQueue => exact ⟨more, rfl⟩
      | wakeQueue => exact ⟨more, rfl⟩
      | receive frame => exact absurd rfl (notReceived frame)
      | rxDropped => exact absurd rfl notDropped

/-- What Linux does of its own accord does not touch the stream. -/
theorem Flows.linux {start : Nat} {s : CanStream} (flows : s.Flows start)
    (can : RpmsgCan) (endpoint : UInt32) (toM4 : List UInt32) :
    Flows start { s with can, endpoint, toM4 } := by
  obtain ⟨turns, skipped, drops, delivered, inFlight, pending, flow⟩ := flows
  exact
    ⟨turns, skipped, drops, delivered, inFlight, pending,
      { flow with time := flow.time }⟩

theorem Flows.driver {start : Nat} {s : CanStream} (flows : s.Flows start)
    {result : RpmsgCan × List CanEffect} (quiet : Quiet result.2) :
    Flows start (s.driver result) := by
  obtain ⟨more, equal⟩ := exists_foldl_effect quiet { s with can := result.1 }
  rw [CanStream.driver, equal]
  exact flows.linux _ _ _

theorem length_bytes (w : Wire) : w.bytes.length = 16 := by
  simp [Wire.bytes]

/-- A frame of the simulator is received as its signal or counted. -/
theorem rpmsgCanCb_isWire {signal : Signal} {w : Wire}
    (wire : IsWire signal w) (allocated : Bool) (can : RpmsgCan) :
    rpmsgCanCb allocated w.bytes can = (can, [.rxDropped]) ∨
      ∃ frame, Carries frame signal ∧
        rpmsgCanCb allocated w.bytes can = (can, [.receive frame]) := by
  obtain ⟨fits, before, cleared, rfl⟩ := wire
  by_cases taken : can.running = true ∧ allocated = true
  · obtain ⟨up, rfl⟩ := taken
    obtain ⟨frame, received, carries⟩ :=
      rpmsgCanCb_build before fits cleared up
    exact .inr ⟨frame, carries, received⟩
  · left
    have whole := length_bytes (build before signal)
    rw [rpmsgCanCb, if_pos whole, rpmsgCanRxFrame]
    cases up : can.running with
    | false => rfl
    | true =>
        cases allocated with
        | false => rfl
        | true => exact absurd ⟨up, rfl⟩ taken

theorem Flows.deliver {start : Nat} {s : CanStream} (flows : s.Flows start)
    (allocated : Bool) : Flows start (s.deliver allocated) := by
  obtain ⟨turns, skipped, drops, delivered, inFlight, pending, flow⟩ := flows
  rw [CanStream.deliver]
  split
  case h_1 => exact ⟨_, _, _, _, _, _, flow⟩
  case h_2 dst data rest arrives =>
    have whole := flow.flight
    have total := flow.total
    have queued := flow.queued
    rw [arrives] at whole total queued
    obtain ⟨signal, others, ⟨w, wire, rfl⟩, flight, rfl⟩ :=
      List.forall₂_cons_right_iff.mp whole
    rw [List.length_cons] at total queued
    -- a signal that is lost leaves the order of the others
    have without :
        (delivered ++ (others ++ pending)).Sublist (stream skipped turns) :=
      ((List.sublist_cons_self signal _).append_left _).trans flow.order
    have lost : ∀ rxDropped astray,
        rxDropped + astray = s.rxDropped + s.astray + 1 →
          Flows start { s with toLinux := rest, rxDropped, astray } := by
      intro rxDropped astray more
      refine
        ⟨turns, skipped, drops, delivered, others, pending,
          { flow with
            order := without
            flight
            queued := ?_
            total := ?_ }⟩
      · rw [queued]
        congr 1
        show _ = s.received.length + rest.length + rxDropped + astray
        omega
      · show
          s.received.length + rest.length + s.pc.left.length + drops +
              rxDropped + astray =
            _
        omega
    simp only []
    split_ifs with mine
    · rcases rpmsgCanCb_isWire wire allocated s.can with
        dropped | ⟨frame, carries, received⟩
      · rw [CanStream.driver, dropped]
        exact lost (s.rxDropped + 1) s.astray (by omega)
      · rw [CanStream.driver, received]
        refine
          ⟨turns, skipped, drops, delivered ++ [signal], others, pending,
            { flow with
              order := by
                rw [List.append_assoc, List.singleton_append]
                exact flow.order
              received :=
                List.rel_append flow.received (.cons carries .nil)
              flight
              queued := ?_
              total := ?_ }⟩
        · show s.sent = _
          rw [queued]
          congr 1
          show
            _ =
              (s.received ++ [frame]).length + rest.length + s.rxDropped +
                s.astray
          rw [List.length_append, List.length_singleton]
          omega
        · show
            (s.received ++ [frame]).length + rest.length + s.pc.left.length +
                drops + s.rxDropped + s.astray =
              _
          rw [List.length_append, List.length_singleton]
          omega
    · exact lost s.rxDropped (s.astray + 1) (by omega)

/-! ## Every run -/

/-- Every event keeps the invariant. -/
theorem flows_step {start : Nat} (s : CanStream) (event : Event)
    (flows : s.Flows start) (inTime : s.InTime event) :
    Flows start (s.step event) := by
  cases event with
  | poll ticks w => exact flows.poll ticks w inTime
  | sendNext ticks queued => exact flows.sendNext ticks queued inTime
  | interrupt => exact flows.rxCb
  | deliver allocated => exact flows.deliver allocated
  | up ready sends => exact flows.driver (quiet_devOpen _ _ _)
  | down queued => exact flows.driver (quiet_devClose _ _)
  | changelink bitrate ctrlmode restartMs => exact flows.linux _ _ _
  | restart queued => exact flows.driver (quiet_canRestartWork _ _)
  | transmit invalid queued cf =>
      rw [step]
      split_ifs
      · exact flows.linux _ _ _
      · exact flows
  | rebind endpoint => exact flows.linux _ _ _

theorem flows_booted {counter : Nat} (bounded : counter + 264000 < 2 ^ 64)
    (endpoint : UInt32) : Flows counter (booted counter endpoint) := by
  have value : (UInt64.ofNat counter).toNat = counter := by
    rw [UInt64.toNat_ofNat', Nat.mod_eq_of_lt (by omega)]
  refine
    ⟨0, 0, 0, [], [], [],
      { time := rfl
        waiting := fun _ => ?_
        sending := fun other => absurd rfl other
        paced := le_rfl
        skips := le_rfl
        silent := fun _ => ⟨rfl, rfl⟩
        order := List.nil_sublist _
        received := .nil
        flight := .nil
        left := .nil
        refused := rfl
        queued := rfl
        total := rfl }⟩
  show (UInt64.ofNat counter + period).toNat = _
  rw [toNat_next_add_period (by omega), value]

/-! ## One endpoint -/

/-- All that is on its way is from or for the one endpoint there has been. -/
structure Attached (endpoint : UInt32) (s : CanStream) : Prop where
  bound : s.endpoint = endpoint
  senders : ∀ src ∈ s.toM4, src = endpoint
  peer : s.peerKnown = true → s.peerAddr = endpoint
  sends : s.pc ≠ .waiting → s.peerKnown = true
  addressees : ∀ message ∈ s.toLinux, message.1 = endpoint
  astray : s.astray = 0

theorem attached_booted (counter : Nat) (endpoint : UInt32) :
    (booted counter endpoint).Attached endpoint where
  bound := rfl
  senders := by simp [booted, CanStream.loopHead]
  peer known := by cases known
  sends other := absurd rfl other
  addressees := by simp [booted, CanStream.loopHead]
  astray := rfl

section Attachment

variable
    {endpoint : UInt32} {s : CanStream}

theorem Attached.elapse (attached : s.Attached endpoint) (counter : Nat) :
    (s.elapse counter).Attached endpoint :=
  { attached with astray := attached.astray }

theorem Attached.loopHead (attached : s.Attached endpoint) :
    s.loopHead.Attached endpoint :=
  { attached with sends := fun other => absurd rfl other }

theorem Attached.generate (attached : s.Attached endpoint) (w : Wire) :
    (s.generate w).Attached endpoint := by
  rw [CanStream.generate]
  split_ifs with unknown
  · exact
      { attached with sends := fun other => absurd rfl other }
  · exact
      { attached with sends := fun _ => by simpa using unknown }

theorem Attached.poll (attached : s.Attached endpoint) (ticks : Nat → Nat)
    (w : Wire) : (s.poll ticks w).Attached endpoint := by
  rw [CanStream.poll]
  split
  · exact attached
  · simp only []
    split
    · exact attached.elapse _
    · split_ifs
      · exact attached.elapse _
      · exact (attached.elapse _).generate w

/-- A frame goes to the peer, and the peer is the endpoint. -/
theorem Attached.send (attached : s.Attached endpoint)
    (known : s.peerKnown = true) (queued : Bool) (w : Wire) (left : List Wire) :
    Attached endpoint { s.sendFrame queued w with pc := .sending left } := by
  rw [CanStream.sendFrame]
  split_ifs
  · refine
      { attached with
        sends := fun _ => known
        addressees := ?_ }
    intro message member
    rcases List.mem_append.mp member with early | last
    · exact attached.addressees message early
    · rw [List.mem_singleton.mp last]
      exact attached.peer known
  · exact { attached with sends := fun _ => known }

theorem Attached.sendNext (attached : s.Attached endpoint) (ticks : Nat)
    (queued : Bool) : (s.sendNext ticks queued).Attached endpoint := by
  rw [CanStream.sendNext]
  split
  case h_1 => exact attached
  case h_2 => exact attached.loopHead
  case h_3 w left sending =>
    have known : s.peerKnown = true :=
      attached.sends (by rw [sending]; nofun)
    have sent :=
      (attached.elapse (s.counter + ticks)).send known queued w left
    simp only []
    split_ifs
    · exact sent.loopHead
    · exact sent

theorem Attached.rxCb (attached : s.Attached endpoint) :
    s.rxCb.Attached endpoint := by
  rw [CanStream.rxCb]
  split
  case h_1 => exact attached
  case h_2 src rest arrives =>
    have senders := attached.senders
    rw [arrives, List.forall_mem_cons] at senders
    exact
      { attached with
        senders := senders.2
        peer := fun _ => senders.1
        sends := fun _ => rfl }

/-- Linux talks to the M4 from its endpoint. -/
theorem Attached.linux (attached : s.Attached endpoint) (can : RpmsgCan)
    (received : List CanFrame) (rxDropped : Nat) {toM4 : List UInt32}
    (senders : ∀ src ∈ toM4, src = endpoint) :
    Attached endpoint { s with can, toM4, received, rxDropped } :=
  { attached with senders }

/-- A message to the M4 carries the endpoint. -/
theorem Attached.messages (attached : s.Attached endpoint) :
    Attached endpoint { s with toM4 := s.toM4 ++ [s.endpoint] } := by
  refine attached.linux _ _ _ ?_
  intro src member
  rcases List.mem_append.mp member with early | last
  · exact attached.senders src early
  · rw [List.mem_singleton.mp last]
    exact attached.bound

theorem Attached.effect (attached : s.Attached endpoint)
    (effect : CanEffect) : (s.effect effect).Attached endpoint := by
  cases effect with
  | queued ctrl => exact attached.messages
  | receive frame => exact attached.linux _ _ _ attached.senders
  | rxDropped => exact attached.linux _ _ _ attached.senders
  | startQueue => exact attached
  | stopQueue => exact attached
  | wakeQueue => exact attached

theorem Attached.driver (attached : s.Attached endpoint)
    (result : RpmsgCan × List CanEffect) :
    (s.driver result).Attached endpoint := by
  rw [CanStream.driver]
  have start : Attached endpoint { s with can := result.1 } :=
    attached.linux _ _ _ attached.senders
  generalize { s with can := result.1 } = first at start
  induction result.2 generalizing first with
  | nil => exact start
  | cons effect rest induction => exact induction _ (start.effect effect)

/-- What arrives is for the endpoint. -/
theorem Attached.deliver (attached : s.Attached endpoint) (allocated : Bool) :
    (s.deliver allocated).Attached endpoint := by
  rw [CanStream.deliver]
  split
  case h_1 => exact attached
  case h_2 dst data rest arrives =>
    have addressees := attached.addressees
    rw [arrives, List.forall_mem_cons] at addressees
    have taken : Attached endpoint { s with toLinux := rest } :=
      { attached with addressees := addressees.2 }
    simp only []
    rw [if_pos (addressees.1.trans attached.bound.symm)]
    exact taken.driver _

/-- Nothing but a new endpoint detaches what is on its way. -/
theorem Attached.step (attached : s.Attached endpoint) {event : Event}
    (stays : event.rebinds = false) : (s.step event).Attached endpoint := by
  cases event with
  | poll ticks w => exact attached.poll ticks w
  | sendNext ticks queued => exact attached.sendNext ticks queued
  | interrupt => exact attached.rxCb
  | deliver allocated => exact attached.deliver allocated
  | up ready sends => exact attached.driver _
  | down queued => exact attached.driver _
  | changelink bitrate ctrlmode restartMs =>
      exact attached.linux _ _ _ attached.senders
  | restart queued => exact attached.driver _
  | transmit invalid queued cf =>
      rw [CanStream.step]
      split_ifs
      · exact attached.messages
      · exact attached
  | rebind endpoint => cases stays

theorem Attached.run (attached : s.Attached endpoint) {events : List Event}
    (stays : ∀ event ∈ events, event.rebinds = false) :
    (Trace.run CanStream.step s events).Attached endpoint := by
  induction events generalizing s with
  | nil => exact attached
  | cons event rest induction =>
      rw [List.forall_mem_cons] at stays
      exact induction (attached.step stays.1) stays.2

end Attachment

/--
As long as the counter stays a period away from its end: after so many turns,
none of them early, what Linux has received is a part of what was generated
since the simulator had a peer, in order.  What is missing is on its way, is
counted on one of the two sides, or was sent to an endpoint that is gone, which
nothing counts but the simulator's `sent`; the last needs a driver that was
bound again.  Where nothing was lost, nothing is missing.
-/
theorem received_in_order {counter : Nat} {endpoint : UInt32}
    {events : List Event}
    (small : counter + 264000 < 2 ^ 64)
    (inTime : Trace.Along step InTime (booted counter endpoint) events) :
    let s := Trace.run step (booted counter endpoint) events
    ∃ turns skipped drops delivered,
      s.t = UInt32.ofNat (33 * turns) ∧
        counter + 264000 * turns ≤ s.counter ∧
        List.Forall₂ Carries s.received delivered ∧
        delivered.Sublist (stream skipped turns) ∧
        s.dropped = UInt32.ofNat drops ∧
        s.sent =
          UInt32.ofNat
            (s.received.length + s.toLinux.length + s.rxDropped + s.astray) ∧
        s.received.length + s.toLinux.length + s.pc.left.length + drops +
            s.rxDropped + s.astray =
          5 * (turns - skipped) ∧
        ((∀ event ∈ events, event.rebinds = false) → s.astray = 0) ∧
        (drops + s.rxDropped + s.astray = 0 →
          delivered <+: stream skipped turns) := by
  obtain ⟨turns, skipped, drops, delivered, inFlight, pending, flow⟩ :=
    Trace.run_invariant (fun s event => flows_step s event)
      (flows_booted small endpoint) inTime
  refine
    ⟨turns, skipped, drops, delivered, flow.time, flow.paced, flow.received,
      (List.sublist_append_left _ _).trans flow.order, flow.refused,
      flow.queued, flow.total,
      fun stays => ((attached_booted counter endpoint).run stays).astray,
      fun nothing => ?_⟩
  have whole :
      delivered ++ (inFlight ++ pending) = stream skipped turns := by
    refine flow.order.eq_of_length ?_
    have total := flow.total
    have received := flow.received.length_eq
    have flight := flow.flight.length_eq
    have left := flow.left.length_eq
    rw [length_stream, List.length_append, List.length_append]
    omega
  exact ⟨_, whole⟩

end CanStream

namespace Bench

open CanStream

/-- The driver comes up, and of the first turn one frame is lost. -/
def canEvents : List CanStream.Event :=
  [.up true ⟨true, true, true⟩, .interrupt,
    .poll (fun _ => 150000) ⟨0, 0, #v[1, 2, 3], .replicate 8 9⟩,
    .sendNext 10 true, .sendNext 10 false, .sendNext 10 true, .deliver true,
    .down true, .deliver true]

theorem canEvents_inTime :
    Trace.Along CanStream.step InTime (booted 7 1024) canEvents := by
  decide

theorem canEvents_received :
    let s := Trace.run CanStream.step (booted 7 1024) canEvents
    s.astray = 0 ∧
      ∃ turns skipped delivered,
        List.Forall₂ Carries s.received delivered ∧
          delivered.Sublist (stream skipped turns) := by
  obtain ⟨turns, skipped, -, delivered, -, -, received, order, -, -, -, stays,
    -⟩ := received_in_order (by decide) canEvents_inTime
  exact ⟨stays (by decide), turns, skipped, delivered, received, order⟩

end Bench

end KmmYocto
