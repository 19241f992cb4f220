import KmmYocto.Trace
import KmmYocto.BoundedLane

/-!
# The USB bridge to the consoles of the two cores

A Teensy shows the UART of the A core and that of the M core as two USB ports.
`loop` follows the baud rate of each host, then moves bytes both ways for a
port that is open and throws away what the UART receives for one that is not.

UART interrupts, the USB stack and the host run at any time in between.  What
a `pump` has read of its two streams can only have become better when it uses
it.
-/

namespace KmmYocto

/-- The core behind a UART. -/
inductive Core where
  | a
  | m
deriving DecidableEq

/-- From the PC to the core, or from the core to the PC. -/
inductive Way where
  | down
  | up
deriving DecidableEq

/-- `DEFAULT_BAUD`. -/
def defaultBaud : Nat := 115200

/-- `sizeof(buf)` in `pump`. -/
def pumpBuf : Nat := 512

/-- `sizeof(uart1RxBuf)` and `sizeof(uart2RxBuf)`. -/
def uartRxBuf : Nat := 4096

/-- The buffers of the core library, without `addMemoryForRead`. -/
structure BridgeSizes where
  uartRx : Nat
  uartTx : Nat
  usbRx : Nat
  usbTx : Nat

namespace BridgeSizes

/-- The queue that a direction reads from. -/
def src (sizes : BridgeSizes) : Way → Nat
  | .down => sizes.usbRx
  | .up => sizes.uartRx + uartRxBuf

/-- The queue that a direction writes to. -/
def dst (sizes : BridgeSizes) : Way → Nat
  | .down => sizes.uartTx
  | .up => sizes.usbTx

end BridgeSizes

/-- Where `loop` is. -/
inductive BridgePoint where
  | syncBaud (core : Core)
  /-- `if (Serial)` or `if (SerialUSB1)`. -/
  | opened (core : Core)
  /-- `src.available()`. -/
  | available (core : Core) (way : Way)
  /-- `dst.availableForWrite()`, with `n` from before. -/
  | space (core : Core) (way : Way) (n : Nat)
  | readBytes (core : Core) (way : Way) (n : Nat)
  | write (core : Core) (way : Way) (buf : List UInt8)
  /-- `while (Serial1.available() > 0)`. -/
  | drain (core : Core)
  /-- `Serial1.read()`. -/
  | drainRead (core : Core)
deriving DecidableEq

/-- The bridge, its queues and its hosts. -/
structure Bridge (sizes : BridgeSizes) where
  lane : Core → (way : Way) → Lane UInt8 (sizes.src way) (sizes.dst way)
  /-- The host has the port open. -/
  hostOpen : Core → Bool
  /-- The rate that the host has set, or 0. -/
  hostBaud : Core → Nat
  /-- `baudA` and `baudM`. -/
  baud : Core → Nat
  point : BridgePoint

/-- What happens next. -/
inductive BridgeEvent where
  /-- A byte comes from the UART of the core, or from the host. -/
  | arrive (core : Core) (way : Way) (byte : UInt8)
  /-- The UART sends bytes, or the host reads them. -/
  | take (core : Core) (way : Way) (count : Nat)
  | host (core : Core) (isOpen : Bool) (baud : Nat)
  /-- `loop` goes on; `uart.begin` may lose what the UART holds. -/
  | go (lost : Bool)
deriving DecidableEq

namespace BridgeEvent

/-- A step of `loop`. -/
def isGo : BridgeEvent → Bool
  | .go _ => true
  | _ => false

/-- A byte comes from the UART of the core. -/
def feeds (core : Core) : BridgeEvent → Bool
  | .arrive other .up _ => other = core
  | _ => false

end BridgeEvent

namespace Bridge

variable {sizes : BridgeSizes}

/-- After `setup`. -/
def setup : Bridge sizes where
  lane _ _ := Lane.start
  hostOpen _ := false
  hostBaud _ := 0
  baud _ := defaultBaud
  point := .syncBaud .a

/-- Change one lane. -/
def onLane (bridge : Bridge sizes) (core : Core) (way : Way)
    (change : Lane UInt8 (sizes.src way) (sizes.dst way) →
      Lane UInt8 (sizes.src way) (sizes.dst way)) : Bridge sizes :=
  { bridge with
    lane := Function.update bridge.lane core
      (Function.update (bridge.lane core) way (change (bridge.lane core way))) }

/-- Go to a point of `loop`. -/
def goTo (bridge : Bridge sizes) (point : BridgePoint) : Bridge sizes :=
  { bridge with point }

/-- What follows on `syncBaud`. -/
def afterSync : Core → BridgePoint
  | .a => .syncBaud .m
  | .m => .opened .a

/-- What follows on the block of a port. -/
def afterPort : Core → BridgePoint
  | .a => .opened .m
  | .m => .syncBaud .a

/-- What follows on a `pump`. -/
def afterPump (core : Core) : Way → BridgePoint
  | .down => .available core .up
  | .up => afterPort core

/-- The rate that `syncBaud` wants. -/
def wanted (bridge : Bridge sizes) (core : Core) : Nat :=
  if bridge.hostBaud core = 0 then defaultBaud else bridge.hostBaud core

/-- `current = b`. -/
def setBaud (bridge : Bridge sizes) (core : Core) : Bridge sizes :=
  { bridge with
    baud := Function.update bridge.baud core (bridge.wanted core) }

/-- `uart.begin`: its queues may lose what they hold. -/
def begin (bridge : Bridge sizes) (core : Core) (lost : Bool) : Bridge sizes :=
  if lost then
    (bridge.onLane core .up fun lane =>
      lane.dropSrc lane.src.items.length).onLane core .down
        fun lane => lane.clearDst
  else bridge

/-- One step of `loop`. -/
def go (bridge : Bridge sizes) (lost : Bool) : Bridge sizes :=
  match bridge.point with
  | .syncBaud core =>
      if bridge.wanted core = bridge.baud core then
        bridge.goTo (afterSync core)
      else
        ((bridge.setBaud core).begin core lost).goTo (afterSync core)
  | .opened core =>
      bridge.goTo
        (if bridge.hostOpen core then .available core .down else .drain core)
  | .available core way =>
      let n := (bridge.lane core way).src.items.length
      bridge.goTo (if n ≤ 0 then afterPump core way else .space core way n)
  | .space core way n =>
      let space := (bridge.lane core way).dst.free
      bridge.goTo
        (if space ≤ 0 then afterPump core way
        else .readBytes core way (min (min n space) pumpBuf))
  | .readBytes core way n =>
      let buf := (bridge.lane core way).src.items.take n
      (bridge.onLane core way fun lane => lane.dropSrc n).goTo
        (if buf.length > 0 then .write core way buf else afterPump core way)
  | .write core way buf =>
      -- without room the write waits
      match (bridge.lane core way).write buf with
      | some lane =>
          (bridge.onLane core way fun _ => lane).goTo (afterPump core way)
      | none => bridge
  | .drain core =>
      bridge.goTo
        (if (bridge.lane core .up).src.items.length > 0 then .drainRead core
        else afterPort core)
  | .drainRead core =>
      (bridge.onLane core .up fun lane => lane.dropSrc 1).goTo (.drain core)

/-- One event. -/
def step (bridge : Bridge sizes) : BridgeEvent → Bridge sizes
  | .arrive core way byte =>
      bridge.onLane core way fun lane => lane.arrive byte
  | .take core way count =>
      bridge.onLane core way fun lane => lane.take count
  | .host core isOpen baud =>
      { bridge with
        hostOpen := Function.update bridge.hostOpen core isOpen
        hostBaud := Function.update bridge.hostBaud core baud }
  | .go lost => bridge.go lost

/-- What `pump` holds for a lane. -/
def held (bridge : Bridge sizes) (core : Core) (way : Way) : List UInt8 :=
  match bridge.point with
  | .write other otherWay buf =>
      if other = core ∧ otherWay = way then buf else []
  | _ => []

/-- What a lane has given out and what is under way, oldest first. -/
def flow (bridge : Bridge sizes) (core : Core) (way : Way) : List UInt8 :=
  (bridge.lane core way).flow (bridge.held core way)

/-- The byte that an event brings into a lane. -/
def accepted (bridge : Bridge sizes) (core : Core) (way : Way) :
    BridgeEvent → List UInt8
  | .arrive other otherWay byte =>
      if other = core ∧ otherWay = way then
        (bridge.lane core way).accepted byte
      else []
  | _ => []

/-- The bytes that a run brings into a lane. -/
def acceptedAll (core : Core) (way : Way) :
    Bridge sizes → List BridgeEvent → List UInt8
  | _, [] => []
  | bridge, event :: rest =>
      bridge.accepted core way event ++
        acceptedAll core way (bridge.step event) rest

/-! ## One lane at a time -/

section Lanes

variable
    {bridge : Bridge sizes} {core other : Core} {way otherWay : Way}
    {change : Lane UInt8 (sizes.src way) (sizes.dst way) →
      Lane UInt8 (sizes.src way) (sizes.dst way)}

@[simp]
theorem lane_onLane_self :
    (bridge.onLane core way change).lane core way =
      change (bridge.lane core way) := by
  simp only [onLane, Function.update_self]

theorem lane_onLane_of_ne (apart : ¬ (core = other ∧ way = otherWay)) :
    (bridge.onLane core way change).lane other otherWay =
      bridge.lane other otherWay := by
  simp only [onLane]
  by_cases same : other = core
  · subst same
    have ways : otherWay ≠ way := fun equal => apart ⟨rfl, equal.symm⟩
    rw [Function.update_self, Function.update_of_ne ways]
  · rw [Function.update_of_ne same]

/-- What holds of all lanes after a change of one. -/
theorem forall_lane_onLane
    (holds : ∀ (_ : Core) (way : Way),
      Lane UInt8 (sizes.src way) (sizes.dst way) → Prop)
    (changed : holds core way (change (bridge.lane core way)))
    (rest : ∀ other otherWay, ¬ (core = other ∧ way = otherWay) →
      holds other otherWay (bridge.lane other otherWay)) (other : Core)
    (otherWay : Way) :
    holds other otherWay
      ((bridge.onLane core way change).lane other otherWay) := by
  by_cases same : core = other ∧ way = otherWay
  · obtain ⟨rfl, rfl⟩ := same
    rw [lane_onLane_self]
    exact changed
  · rw [lane_onLane_of_ne same]
    exact rest other otherWay same

end Lanes

/-- At these points `pump` holds no bytes. -/
def EmptyHanded : BridgePoint → Prop
  | .write _ _ _ => False
  | _ => True

/-- At these points it remembers nothing of its streams either. -/
def Resting : BridgePoint → Prop
  | .space _ _ _ => False
  | .readBytes _ _ _ => False
  | .write _ _ _ => False
  | _ => True

theorem Resting.emptyHanded {point : BridgePoint} (rests : Resting point) :
    EmptyHanded point := by
  cases point with
  | write core way buf => exact rests
  | _ => trivial

theorem resting_afterSync (core : Core) : Resting (afterSync core) := by
  cases core <;> exact trivial

theorem resting_afterPort (core : Core) : Resting (afterPort core) := by
  cases core <;> exact trivial

theorem resting_afterPump (core : Core) (way : Way) :
    Resting (afterPump core way) := by
  cases way with
  | down => exact trivial
  | up => exact resting_afterPort core

theorem held_of_emptyHanded {bridge : Bridge sizes}
    (empty : EmptyHanded bridge.point) (core : Core) (way : Way) :
    bridge.held core way = [] := by
  rw [held]
  cases point : bridge.point with
  | write writeCore writeWay buf =>
      rw [point] at empty
      exact empty.elim
  | _ => rfl

/-- This step of `loop` throws bytes of the core away. -/
def Loses (bridge : Bridge sizes) (core : Core) (lost : Bool) : Prop :=
  bridge.point = .drainRead core ∨
    bridge.point = .syncBaud core ∧
      bridge.wanted core ≠ bridge.baud core ∧ lost = true

section Go

variable
    (bridge : Bridge sizes) (core : Core) (way : Way)

theorem flow_of_emptyHanded {bridge : Bridge sizes}
    (empty : EmptyHanded bridge.point) :
    bridge.flow core way = (bridge.lane core way).flow [] := by
  rw [flow, held_of_emptyHanded empty]

theorem flow_goTo {point : BridgePoint} (empty : EmptyHanded point) :
    (bridge.goTo point).flow core way = (bridge.lane core way).flow [] :=
  @flow_of_emptyHanded _ core way (bridge.goTo point) empty

theorem flow_goTo_eq {point : BridgePoint} (before : EmptyHanded bridge.point)
    (after : EmptyHanded point) :
    (bridge.goTo point).flow core way = bridge.flow core way :=
  (flow_goTo _ _ _ after).trans (flow_of_emptyHanded _ _ before).symm

/-- What `pump` takes out of a lane, it holds. -/
theorem flow_readBytes {other : Core} {otherWay : Way} {n : Nat}
    {point : BridgePoint} (before : EmptyHanded bridge.point)
    (holds :
      ((bridge.onLane other otherWay fun lane => lane.dropSrc n).goTo
          point).held core way =
        if other = core ∧ otherWay = way then
          (bridge.lane other otherWay).src.items.take n
        else []) :
    ((bridge.onLane other otherWay fun lane => lane.dropSrc n).goTo
        point).flow core way =
      bridge.flow core way := by
  rw [flow_of_emptyHanded _ _ before, flow, holds]
  show ((bridge.onLane other otherWay fun lane => lane.dropSrc n).lane core
    way).flow _ = _
  by_cases same : other = core ∧ otherWay = way
  · rw [if_pos same]
    obtain ⟨rfl, rfl⟩ := same
    rw [lane_onLane_self]
    exact Lane.flow_read _ n
  · rw [if_neg same, lane_onLane_of_ne same]

theorem flow_begin (other : Core) (lost : Bool) :
    ((bridge.begin other lost).lane core way).flow [] =
        (bridge.lane core way).flow [] ∨
      (other = core ∧ lost = true ∧
        (((bridge.begin other lost).lane core way).flow []).Sublist
          ((bridge.lane core way).flow [])) := by
  rw [begin]
  cases lost with
  | false => exact .inl rfl
  | true =>
      simp only [if_true]
      by_cases same : other = core
      · subst same
        refine .inr ⟨rfl, trivial, ?_⟩
        cases way with
        | up =>
            rw [lane_onLane_of_ne (by simp), lane_onLane_self]
            exact Lane.flow_dropSrc _ _ _
        | down =>
            rw [lane_onLane_self, lane_onLane_of_ne (by simp)]
            exact Lane.flow_clearDst _ _
      · left
        rw [lane_onLane_of_ne (fun equal => same equal.1),
          lane_onLane_of_ne (fun equal => same equal.1)]

/-- A step of `loop` moves bytes on, or it throws some away. -/
theorem flow_go (lost : Bool) :
    (bridge.go lost).flow core way = bridge.flow core way ∨
      bridge.Loses core lost ∧
        ((bridge.go lost).flow core way).Sublist (bridge.flow core way) := by
  have handed : ∀ {here : BridgePoint}, bridge.point = here →
      EmptyHanded here → EmptyHanded bridge.point :=
    fun equal empty => equal ▸ empty
  rw [go]
  cases point : bridge.point with
  | syncBaud other =>
      have before := handed point trivial
      have empty := (resting_afterSync other).emptyHanded
      simp only
      split_ifs with same
      · exact .inl (flow_goTo_eq _ _ _ before empty)
      · rw [flow_goTo _ _ _ empty, flow_of_emptyHanded _ _ before]
        rcases (bridge.setBaud other).flow_begin core way other lost with
          equal | ⟨rfl, lose, less⟩
        · exact .inl equal
        · exact .inr ⟨.inr ⟨point, same, lose⟩, less⟩
  | opened other =>
      refine .inl (flow_goTo_eq _ _ _ (handed point trivial) ?_)
      split_ifs <;> exact trivial
  | available other otherWay =>
      refine .inl (flow_goTo_eq _ _ _ (handed point trivial) ?_)
      split_ifs
      · exact (resting_afterPump other otherWay).emptyHanded
      · exact trivial
  | space other otherWay n =>
      refine .inl (flow_goTo_eq _ _ _ (handed point trivial) ?_)
      split_ifs
      · exact (resting_afterPump other otherWay).emptyHanded
      · exact trivial
  | readBytes other otherWay n =>
      refine .inl (flow_readBytes _ _ _ (handed point trivial) ?_)
      split_ifs with some same same
      · exact if_pos same
      · exact if_neg same
      · -- nothing was read, and nothing is held
        rw [held_of_emptyHanded (resting_afterPump other otherWay).emptyHanded]
        exact (List.length_eq_zero_iff.mp (Nat.eq_zero_of_not_pos some)).symm
      · exact
          held_of_emptyHanded (resting_afterPump other otherWay).emptyHanded _ _
  | write other otherWay buf =>
      left
      have empty := (resting_afterPump other otherWay).emptyHanded
      simp only
      cases written : (bridge.lane other otherWay).write buf with
      | none => rfl
      | some lane =>
          simp only
          rw [flow_goTo _ _ _ empty, flow, held, point]
          simp only
          by_cases same : other = core ∧ otherWay = way
          · obtain ⟨rfl, rfl⟩ := same
            rw [lane_onLane_self, if_pos ⟨rfl, rfl⟩]
            exact Lane.flow_write written
          · rw [lane_onLane_of_ne same, if_neg same]
  | drain other =>
      refine .inl (flow_goTo_eq _ _ _ (handed point trivial) ?_)
      split_ifs
      · exact trivial
      · exact (resting_afterPort other).emptyHanded
  | drainRead other =>
      have drains : EmptyHanded (.drain other) := trivial
      rw [flow_of_emptyHanded _ _ (handed point trivial), flow_goTo _ _ _ drains]
      by_cases same : other = core ∧ Way.up = way
      · obtain ⟨rfl, rfl⟩ := same
        rw [lane_onLane_self]
        exact .inr ⟨.inl point, Lane.flow_dropSrc _ _ _⟩
      · rw [lane_onLane_of_ne same]
        exact .inl rfl

end Go

/-! ## Runs -/

section Run

variable
    {bridge : Bridge sizes} {core : Core} {way : Way}

theorem held_onLane {other : Core} {otherWay : Way}
    {change : Lane UInt8 (sizes.src otherWay) (sizes.dst otherWay) →
      Lane UInt8 (sizes.src otherWay) (sizes.dst otherWay)} :
    (bridge.onLane other otherWay change).held core way =
      bridge.held core way :=
  rfl

/-- An event appends what it brings, or it throws bytes away. -/
theorem flow_step (event : BridgeEvent) :
    (bridge.step event).flow core way =
        bridge.flow core way ++ bridge.accepted core way event ∨
      ∃ lost, event = .go lost ∧ bridge.Loses core lost ∧
        ((bridge.step event).flow core way).Sublist (bridge.flow core way) := by
  cases event with
  | arrive other otherWay byte =>
      left
      rw [step, flow, held_onLane, accepted]
      by_cases same : other = core ∧ otherWay = way
      · obtain ⟨rfl, rfl⟩ := same
        rw [lane_onLane_self, if_pos ⟨rfl, rfl⟩]
        exact Lane.flow_arrive _ _ byte
      · rw [lane_onLane_of_ne same, if_neg same, List.append_nil]
        rfl
  | take other otherWay count =>
      left
      refine Eq.trans ?_ (List.append_nil _).symm
      rw [step, flow, held_onLane]
      by_cases same : other = core ∧ otherWay = way
      · obtain ⟨rfl, rfl⟩ := same
        rw [lane_onLane_self]
        exact Lane.flow_take _ _ count
      · rw [lane_onLane_of_ne same]
        rfl
  | host other isOpen baud => exact .inl (List.append_nil _).symm
  | go lost =>
      rcases bridge.flow_go core way lost with equal | ⟨loses, less⟩
      · exact .inl (equal.trans (List.append_nil _).symm)
      · exact .inr ⟨lost, rfl, loses, less⟩

/-- Bytes pass in the order in which they came, and none is made up. -/
theorem flow_run (events : List BridgeEvent) :
    ((Trace.run step bridge events).flow core way).Sublist
      (bridge.flow core way ++ acceptedAll core way bridge events) := by
  induction events generalizing bridge with
  | nil =>
      rw [acceptedAll, List.append_nil]
      exact List.Sublist.refl _
  | cons event rest induction =>
      refine induction.trans ?_
      rw [acceptedAll, ← List.append_assoc]
      refine List.Sublist.append ?_ (List.Sublist.refl _)
      rcases @flow_step _ bridge core way event with
        equal | ⟨-, -, -, less⟩
      · rw [equal]
      · exact less.trans (List.sublist_append_left _ _)

/-- Where `loop` looks, the port is open, and its rate is the one that is set. -/
def Attended (core : Core) (bridge : Bridge sizes) : BridgeEvent → Prop
  | .go lost =>
      (bridge.point = .opened core → bridge.hostOpen core = true) ∧
        (bridge.point = .syncBaud core →
          bridge.wanted core = bridge.baud core ∨ lost = false)
  | _ => True

instance (core : Core) (bridge : Bridge sizes) :
    ∀ event, Decidable (Attended core bridge event)
  | .go _ => inferInstanceAs (Decidable (_ ∧ _))
  | .arrive _ _ _ => .isTrue trivial
  | .take _ _ _ => .isTrue trivial
  | .host _ _ _ => .isTrue trivial

/-- `loop` is not throwing away what the UART receives. -/
def Forwarding (core : Core) (bridge : Bridge sizes) : Prop :=
  bridge.point ≠ .drain core ∧ bridge.point ≠ .drainRead core

theorem Forwarding.step (forwards : Forwarding core bridge)
    {event : BridgeEvent} (attended : Attended core bridge event) :
    Forwarding core (bridge.step event) := by
  cases event with
  | arrive other otherWay byte => exact forwards
  | take other otherWay count => exact forwards
  | host other isOpen baud => exact forwards
  | go lost =>
      have ends : ∀ {other : Core} {otherWay : Way},
          afterPump other otherWay ≠ .drain core ∧
            afterPump other otherWay ≠ .drainRead core := by
        intro other otherWay
        cases otherWay <;> cases other <;> exact ⟨nofun, nofun⟩
      have begins : ∀ other : Core,
          afterSync other ≠ .drain core ∧
            afterSync other ≠ .drainRead core := by
        intro other
        cases other <;> exact ⟨nofun, nofun⟩
      obtain ⟨opens, -⟩ := attended
      rw [Bridge.step, Bridge.go]
      unfold Forwarding at forwards ⊢
      cases point : bridge.point with
      | syncBaud other =>
          simp only
          split_ifs <;> exact begins other
      | opened other =>
          simp only [goTo]
          by_cases same : other = core
          · subst same
            rw [if_pos (opens point)]
            exact ⟨nofun, nofun⟩
          · split_ifs
            · exact ⟨nofun, nofun⟩
            · exact ⟨fun equal => same (BridgePoint.drain.inj equal), nofun⟩
      | available other otherWay =>
          simp only [goTo]
          split_ifs
          · exact ends
          · exact ⟨nofun, nofun⟩
      | space other otherWay n =>
          simp only [goTo]
          split_ifs
          · exact ends
          · exact ⟨nofun, nofun⟩
      | readBytes other otherWay n =>
          simp only [goTo]
          split_ifs
          · exact ⟨nofun, nofun⟩
          · exact ends
      | write other otherWay buf =>
          simp only
          cases (bridge.lane other otherWay).write buf with
          | none => exact forwards
          | some lane => exact ends
      | drain other =>
          have apart : other ≠ core := by
            rintro rfl
            exact forwards.1 point
          simp only [goTo]
          split_ifs
          · exact
              ⟨nofun, fun equal => apart (BridgePoint.drainRead.inj equal)⟩
          · cases other <;> exact ⟨nofun, nofun⟩
      | drainRead other =>
          have apart : other ≠ core := by
            rintro rfl
            exact forwards.2 point
          exact ⟨fun equal => apart (BridgePoint.drain.inj equal), nofun⟩

/-- While the port is open and its rate stands, no byte is lost. -/
theorem flow_run_eq {events : List BridgeEvent}
    (forwards : Forwarding core bridge)
    (attended : Trace.Along step (Attended core) bridge events) :
    (Trace.run step bridge events).flow core way =
      bridge.flow core way ++ acceptedAll core way bridge events := by
  induction events generalizing bridge with
  | nil => exact (List.append_nil _).symm
  | cons event rest induction =>
      obtain ⟨here, later⟩ := attended
      rw [Trace.run_cons, induction (forwards.step here) later, acceptedAll,
        ← List.append_assoc]
      rcases @flow_step _ bridge core way event with
        equal | ⟨lost, rfl, loses, -⟩
      · rw [equal]
      · rcases loses with reads | ⟨syncs, other, lose⟩
        · exact absurd reads forwards.2
        · rcases here.2 syncs with same | kept
          · exact absurd same other
          · rw [lose] at kept
            cases kept

/-- What `pump` has read of its streams still holds. -/
def Ready (bridge : Bridge sizes) : Prop :=
  match bridge.point with
  | .space core way n => n ≤ (bridge.lane core way).src.items.length
  | .readBytes core way n =>
      n ≤ (bridge.lane core way).src.items.length ∧
        n ≤ (bridge.lane core way).dst.free ∧ n ≤ pumpBuf
  | .write core way buf =>
      buf.length ≤ (bridge.lane core way).dst.free ∧ buf.length ≤ pumpBuf
  | _ => True

theorem ready_of_resting (rests : Resting bridge.point) : bridge.Ready := by
  rw [Ready]
  cases point : bridge.point with
  | space other otherWay n =>
      rw [point] at rests
      exact rests.elim
  | readBytes other otherWay n =>
      rw [point] at rests
      exact rests.elim
  | write other otherWay buf =>
      rw [point] at rests
      exact rests.elim
  | _ => trivial

/-- Interrupts and hosts only add to what a stream offers. -/
theorem Ready.onLane (ready : bridge.Ready) (core : Core) (way : Way)
    {change : Lane UInt8 (sizes.src way) (sizes.dst way) →
      Lane UInt8 (sizes.src way) (sizes.dst way)}
    (longer : ∀ lane, lane.src.items.length ≤ (change lane).src.items.length)
    (freer : ∀ lane, lane.dst.free ≤ (change lane).dst.free) :
    (bridge.onLane core way change).Ready := by
  have grows : ∀ other otherWay,
      (bridge.lane other otherWay).src.items.length ≤
          ((bridge.onLane core way change).lane other
            otherWay).src.items.length ∧
        (bridge.lane other otherWay).dst.free ≤
          ((bridge.onLane core way change).lane other otherWay).dst.free :=
    forall_lane_onLane
      (fun other otherWay lane =>
        (bridge.lane other otherWay).src.items.length ≤
            lane.src.items.length ∧
          (bridge.lane other otherWay).dst.free ≤ lane.dst.free)
      ⟨longer _, freer _⟩ fun _ _ _ => ⟨le_rfl, le_rfl⟩
  have same : (bridge.onLane core way change).point = bridge.point := rfl
  simp only [Ready, same] at ready ⊢
  cases point : bridge.point with
  | space other otherWay n =>
      rw [point] at ready
      exact ready.trans (grows other otherWay).1
  | readBytes other otherWay n =>
      rw [point] at ready
      exact
        ⟨ready.1.trans (grows other otherWay).1,
          ready.2.1.trans (grows other otherWay).2, ready.2.2⟩
  | write other otherWay buf =>
      rw [point] at ready
      exact ⟨ready.1.trans (grows other otherWay).2, ready.2⟩
  | _ => trivial

theorem Ready.go (ready : bridge.Ready) (lost : Bool) :
    (bridge.go lost).Ready := by
  rw [Bridge.go]
  rw [Ready] at ready
  cases point : bridge.point with
  | syncBaud other =>
      simp only
      split_ifs <;> exact ready_of_resting (resting_afterSync other)
  | opened other =>
      refine ready_of_resting ?_
      show Resting (if _ then _ else _)
      split_ifs <;> exact trivial
  | available other otherWay =>
      simp only
      split_ifs
      · exact ready_of_resting (resting_afterPump other otherWay)
      · exact le_refl (bridge.lane other otherWay).src.items.length
  | space other otherWay n =>
      rw [point] at ready
      simp only
      split_ifs
      · exact ready_of_resting (resting_afterPump other otherWay)
      · exact
          ⟨((min_le_left _ _).trans (min_le_left _ _)).trans ready,
            (min_le_left _ _).trans (min_le_right _ _), min_le_right _ _⟩
  | readBytes other otherWay n =>
      rw [point] at ready
      obtain ⟨-, room, small⟩ := ready
      have bound : ((bridge.lane other otherWay).src.items.take n).length ≤ n :=
        List.length_take_le _ _
      simp only
      split_ifs
      · refine ⟨?_, bound.trans small⟩
        show _ ≤ Fifo.free (Lane.dst
          ((bridge.onLane other otherWay fun lane => lane.dropSrc n).lane
            other otherWay))
        rw [lane_onLane_self]
        exact bound.trans room
      · exact ready_of_resting (resting_afterPump other otherWay)
  | write other otherWay buf =>
      simp only
      cases (bridge.lane other otherWay).write buf with
      | none => exact ready
      | some lane =>
          exact ready_of_resting (resting_afterPump other otherWay)
  | drain other =>
      refine ready_of_resting ?_
      show Resting (if _ then _ else _)
      split_ifs
      · exact trivial
      · exact resting_afterPort other
  | drainRead other => exact ready_of_resting trivial

theorem Ready.step (ready : bridge.Ready) (event : BridgeEvent) :
    (bridge.step event).Ready := by
  cases event with
  | arrive other otherWay byte =>
      refine ready.onLane other otherWay ?_ ?_
      · exact fun lane => lane.length_src_arrive byte
      · exact fun lane => le_of_eq (by rw [lane.dst_arrive])
  | take other otherWay count =>
      exact
        ready.onLane other otherWay (fun _ => le_rfl) fun lane =>
          lane.dst.free_drop count
  | host other isOpen baud => exact ready
  | go lost => exact ready.go lost

/--
In any order of interrupts, USB traffic and steps of `loop`: each direction
gives out a part of what came in, in its order; a write has at most 512 bytes
and never waits; and while the port of a core is open and its rate stands,
nothing that a queue took in is lost.
-/
theorem bridge_in_order (events : List BridgeEvent) :
    (∀ core way,
        ((Trace.run step (setup : Bridge sizes) events).flow core way).Sublist
          (acceptedAll core way (setup : Bridge sizes) events)) ∧
      (∀ core way buf,
        (Trace.run step (setup : Bridge sizes) events).point =
            .write core way buf →
          buf.length ≤ pumpBuf ∧
            (((Trace.run step (setup : Bridge sizes) events).lane core
              way).write buf).isSome) ∧
      ∀ core,
        Trace.Along step (Attended core) (setup : Bridge sizes) events →
          ∀ way,
            (Trace.run step (setup : Bridge sizes) events).flow core way =
              acceptedAll core way (setup : Bridge sizes) events := by
  refine ⟨fun core way => flow_run events, ?_, ?_⟩
  · intro core way buf point
    have start : (setup : Bridge sizes).Ready := ready_of_resting trivial
    have ready : (Trace.run step (setup : Bridge sizes) events).Ready :=
      @Trace.run_of_step _ _ step Ready (fun _ event held => held.step event) _
        start events
    rw [Ready, point] at ready
    obtain ⟨after, pushed⟩ := Fifo.exists_push ready.1
    refine ⟨ready.2, ?_⟩
    rw [Lane.write, pushed]
    rfl
  · intro core attended way
    exact flow_run_eq ⟨nofun, nofun⟩ attended

/-- So many steps of `loop` before it finds the queue of the core empty. -/
inductive Drains (core : Core) : Nat → Bridge sizes → Prop where
  | tests {bridge : Bridge sizes} (point : bridge.point = .drain core) :
      Drains core (2 * (bridge.lane core .up).src.items.length) bridge
  | reads {bridge : Bridge sizes} {rest : Nat}
      (point : bridge.point = .drainRead core)
      (waits : (bridge.lane core .up).src.items.length = rest + 1) :
      Drains core (2 * rest + 1) bridge

theorem Drains.congr {bridge next : Bridge sizes} {core : Core} {steps : Nat}
    (drains : Drains core steps bridge) (point : next.point = bridge.point)
    (items : (next.lane core .up).src.items =
      (bridge.lane core .up).src.items) : Drains core steps next := by
  cases drains with
  | tests at_ =>
      rw [← items]
      exact .tests (point.trans at_)
  | reads at_ waits => exact .reads (point.trans at_) (by rw [items, waits])

/-- A step of `loop` brings the end nearer. -/
theorem Drains.go {bridge : Bridge sizes} {core : Core} {steps : Nat}
    (drains : Drains core (steps + 1) bridge) (lost : Bool) :
    Drains core steps (bridge.go lost) := by
  generalize total : steps + 1 = left at drains
  cases drains with
  | tests point =>
      obtain ⟨rest, waits⟩ :
          ∃ rest, (bridge.lane core .up).src.items.length = rest + 1 :=
        ⟨(bridge.lane core .up).src.items.length - 1, by omega⟩
      have next : bridge.go lost = bridge.goTo (.drainRead core) := by
        simp only [Bridge.go, point]
        rw [if_pos (by omega)]
      obtain rfl : steps = 2 * rest + 1 := by omega
      rw [next]
      exact .reads rfl waits
  | @reads _ rest point waits =>
      have next : bridge.go lost =
          (bridge.onLane core .up fun lane => lane.dropSrc 1).goTo
            (.drain core) := by
        simp only [Bridge.go, point]
      have left :
          ((bridge.go lost).lane core .up).src.items.length = rest := by
        rw [next]
        show (((bridge.onLane core .up fun lane =>
          lane.dropSrc 1).lane core .up).src.items).length = rest
        rw [lane_onLane_self]
        show ((bridge.lane core .up).src.items.drop 1).length = rest
        rw [List.length_drop, waits, Nat.add_sub_cancel]
      obtain rfl : steps = 2 * ((bridge.go lost).lane core .up).src.items.length := by
        omega
      exact .tests (by rw [next]; rfl)

/-- Nothing but a byte from its UART fills the queue of the core. -/
theorem Drains.other {bridge : Bridge sizes} {core : Core} {steps : Nat}
    (drains : Drains core steps bridge) {event : BridgeEvent}
    (quiet : event.feeds core = false) (other : event.isGo = false) :
    Drains core steps (bridge.step event) := by
  cases event with
  | arrive otherCore way byte =>
      refine drains.congr rfl ?_
      have apart : ¬ (otherCore = core ∧ way = .up) := by
        rintro ⟨rfl, rfl⟩
        simp [BridgeEvent.feeds] at quiet
      rw [step, lane_onLane_of_ne apart]
  | take otherCore way count =>
      refine drains.congr rfl ?_
      by_cases same : otherCore = core ∧ way = .up
      · obtain ⟨rfl, rfl⟩ := same
        rw [step, lane_onLane_self]
        rfl
      · rw [step, lane_onLane_of_ne same]
  | host otherCore isOpen baud => exact drains.congr rfl rfl
  | go lost => cases other

theorem Drains.run {bridge : Bridge sizes} {core : Core}
    {events : List BridgeEvent} {steps : Nat}
    (drains : Drains core (steps + events.countP BridgeEvent.isGo) bridge)
    (quiet : ∀ event ∈ events, event.feeds core = false) :
    Drains core steps (Trace.run step bridge events) := by
  induction events generalizing bridge with
  | nil => exact drains
  | cons event rest induction =>
      rw [List.forall_mem_cons] at quiet
      rw [List.countP_cons] at drains
      rw [Trace.run_cons]
      cases isGo : event.isGo with
      | true =>
          rw [if_pos isGo, ← Nat.add_assoc] at drains
          cases event with
          | go lost => exact induction (drains.go lost) quiet.2
          | _ => cases isGo
      | false =>
          rw [if_neg (by simp [isGo]), Nat.add_zero] at drains
          exact induction (drains.other quiet.1 isGo) quiet.2

/--
Where `loop` finds the port of a core closed, it needs two steps for each byte
that the UART queue holds, and one more, until it finds the queue empty, if no
byte comes from the UART in between.  From such a moment on, whatever happens,
what reaches the host is what the USB side still held, and then bytes that came
after that moment.
-/
theorem bridge_fresh (front : List BridgeEvent) (core : Core) :
    let bridge := Trace.run step (setup : Bridge sizes) front
    (bridge.point = .opened core → bridge.hostOpen core = false →
      ∀ lost during,
        (∀ event ∈ during, event.feeds core = false) →
          during.countP BridgeEvent.isGo =
              2 * (bridge.lane core .up).src.items.length →
            let drained :=
              Trace.run step (setup : Bridge sizes)
                (front ++ .go lost :: during)
            drained.point = .drain core ∧
              (drained.lane core .up).src.items = []) ∧
      (bridge.point = .drain core → (bridge.lane core .up).src.items = [] →
        ∀ back,
          ((Trace.run step (setup : Bridge sizes) (front ++ back)).flow core
              .up).Sublist
            ((bridge.lane core .up).delivered ++
              ((bridge.lane core .up).dst.items ++
                acceptedAll core .up bridge back))) := by
  intro bridge
  constructor
  · intro opened closed lost during quiet steps drained
    have first : bridge.step (.go lost) = bridge.goTo (.drain core) := by
      simp only [step, Bridge.go, opened]
      rw [if_neg (by simp [closed])]
    have starts :
        Drains core (0 + during.countP BridgeEvent.isGo)
          (bridge.step (.go lost)) := by
      rw [Nat.zero_add, steps, first]
      exact @Drains.tests sizes core (bridge.goTo (.drain core)) rfl
    have ends : Drains core 0 drained := by
      have last := starts.run quiet
      rwa [← Trace.run_cons, ← Trace.run_append] at last
    generalize none : 0 = left at ends
    cases ends with
    | tests point => exact ⟨point, List.eq_nil_of_length_eq_zero (by omega)⟩
    | reads point waits => omega
  · intro drains empty back
    rw [Trace.run_append]
    have handed : EmptyHanded bridge.point := by
      rw [drains]
      trivial
    have now : bridge.flow core .up =
        (bridge.lane core .up).delivered ++
          (bridge.lane core .up).dst.items := by
      rw [flow_of_emptyHanded _ _ handed, Lane.flow, empty, List.append_nil,
        List.append_nil]
    rw [← List.append_assoc, ← now]
    exact flow_run back

end Run

end Bridge

/-! ## The bridge on the bench -/

namespace Bench

/-- Buffers of the core library. -/
def bridgeSizes : BridgeSizes where
  uartRx := 64
  uartTx := 40
  usbRx := 512
  usbTx := 512

/-- The host opens a port, two bytes come from the A core, `loop` goes round. -/
def bridgeEvents : List BridgeEvent :=
  [.host .a true 115200, .arrive .a .up 0x6f, .arrive .a .up 0x6b] ++
    List.replicate 8 (.go true) ++ [.take .a .up 2]

theorem bridgeEvents_carried :
    (Trace.run Bridge.step (Bridge.setup : Bridge bridgeSizes)
      bridgeEvents).flow .a .up = [0x6f, 0x6b] :=
  (Bridge.bridge_in_order bridgeEvents).2.2 .a (by decide) .up

/-- A byte comes while nobody listens, and `loop` comes to the port. -/
def unheardEvents : List BridgeEvent :=
  .arrive .a .up 0x6f :: List.replicate 2 (.go true)

/-- The byte is thrown away; the host receives the next one. -/
theorem unheardEvents_fresh :
    let drain : List BridgeEvent := List.replicate 3 (.go true)
    ((Trace.run Bridge.step (Bridge.setup : Bridge bridgeSizes)
        (unheardEvents ++ drain)).lane .a .up).src.items = [] ∧
      ((Trace.run Bridge.step (Bridge.setup : Bridge bridgeSizes)
          (unheardEvents ++ drain ++ [.arrive .a .up 0x6b])).flow .a
            .up).Sublist [0x6b] := by
  intro drain
  obtain ⟨point, empty⟩ :=
    (@Bridge.bridge_fresh bridgeSizes unheardEvents .a).1 (by decide)
      (by decide) true [.go true, .go true] (by decide) (by decide)
  exact
    ⟨empty,
      (Bridge.bridge_fresh (unheardEvents ++ drain) .a).2 point empty
        [.arrive .a .up 0x6b]⟩

end Bench

end KmmYocto
