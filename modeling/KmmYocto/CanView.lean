import KmmYocto.RpmsgCan
import KmmYocto.Trace

/-!
# The CAN controller as the M-core sees it

The M-core learns bit rate, mode, start and stop from the control messages
that were queued to it.  A control message that finds the channel full is
lost, and no caller of `rpmsg_can_ctrl_send` takes notice.

The module follows the calls of the CAN layer into the driver next to the
view of the M-core: the two agree along a run exactly if every message that
changes the view is queued, and no restart is queued after a stop.
-/

namespace KmmYocto

/-- The controller after the control messages queued so far. -/
structure McoreCan where
  started : Bool
  bitrate : UInt32
  listenOnly : Bool
  loopback : Bool
deriving DecidableEq, Repr

namespace McoreCan

/-- What a control message changes. -/
def receive (view : McoreCan) (ctrl : RpmsgCanCtrl) : McoreCan :=
  if ctrl.cmd = RpmsgCan.cmdSetBitrate then
    { view with bitrate := ctrl.arg }
  else if ctrl.cmd = RpmsgCan.cmdSetMode then
    { view with
      listenOnly := ctrl.flags &&& RpmsgCan.modeListenOnly != 0
      loopback := ctrl.flags &&& RpmsgCan.modeLoopback != 0 }
  else if ctrl.cmd = RpmsgCan.cmdStart then { view with started := true }
  else if ctrl.cmd = RpmsgCan.cmdStop then { view with started := false }
  else view

/-- The messages of a call reach the M-core in their order. -/
def replay (view : McoreCan) : List CanEffect → McoreCan
  | [] => view
  | .queued ctrl :: rest => (view.receive ctrl).replay rest
  | .startQueue :: rest => view.replay rest
  | .stopQueue :: rest => view.replay rest
  | .wakeQueue :: rest => view.replay rest
  | .receive _ :: rest => view.replay rest
  | .rxDropped :: rest => view.replay rest

theorem replay_append (view : McoreCan) (first second : List CanEffect) :
    view.replay (first ++ second) = (view.replay first).replay second := by
  induction first generalizing view with
  | nil => rfl
  | cons effect rest induction =>
      cases effect with
      | queued ctrl => exact induction (view.receive ctrl)
      | startQueue => exact induction view
      | stopQueue => exact induction view
      | wakeQueue => exact induction view
      | receive frame => exact induction view
      | rxDropped => exact induction view

end McoreCan

/-- The control mode asks for listening only. -/
def RpmsgCan.listenOnly (can : RpmsgCan) : Bool :=
  can.ctrlmode &&& RpmsgCan.ctrlmodeListenOnly != 0

/-- The control mode asks for a loopback. -/
def RpmsgCan.loopback (can : RpmsgCan) : Bool :=
  can.ctrlmode &&& RpmsgCan.ctrlmodeLoopback != 0

theorem rpmsgCanMode_eq (can : RpmsgCan) :
    rpmsgCanMode can.ctrlmode =
      (if can.listenOnly then RpmsgCan.modeListenOnly else 0) |||
        (if can.loopback then RpmsgCan.modeLoopback else 0) := by
  simp only [rpmsgCanMode, RpmsgCan.listenOnly, RpmsgCan.loopback,
    bne_iff_ne]

/-- The flags of the message say what the control mode says. -/
theorem rpmsgCanMode_bits (can : RpmsgCan) :
    (rpmsgCanMode can.ctrlmode &&& RpmsgCan.modeListenOnly != 0) =
        can.listenOnly ∧
      (rpmsgCanMode can.ctrlmode &&& RpmsgCan.modeLoopback != 0) =
        can.loopback := by
  rw [rpmsgCanMode_eq]
  cases can.listenOnly with
  | false =>
      cases can.loopback with
      | false => decide
      | true => decide
  | true =>
      cases can.loopback with
      | false => decide
      | true => decide

namespace McoreCan

variable
    (view : McoreCan) (queued : Bool)

theorem replay_setBitrate (bitrate : UInt32) :
    view.replay (rpmsgCanCtrlSend queued RpmsgCan.cmdSetBitrate 0 bitrate) =
      { view with bitrate := if queued then bitrate else view.bitrate } := by
  cases queued <;> rfl

theorem replay_setMode (can : RpmsgCan) :
    view.replay
        (rpmsgCanCtrlSend queued RpmsgCan.cmdSetMode
          (rpmsgCanMode can.ctrlmode) 0) =
      { view with
        listenOnly := if queued then can.listenOnly else view.listenOnly
        loopback := if queued then can.loopback else view.loopback } := by
  cases queued with
  | false => rfl
  | true =>
      rcases rpmsgCanMode_bits can with ⟨listenOnly, loopback⟩
      simp only [if_true, ← listenOnly, ← loopback]
      rfl

theorem replay_start :
    view.replay (rpmsgCanCtrlSend queued RpmsgCan.cmdStart 0 0) =
      { view with started := queued || view.started } := by
  cases queued <;> rfl

theorem replay_stop :
    view.replay (rpmsgCanCtrlSend queued RpmsgCan.cmdStop 0 0) =
      { view with started := !queued && view.started } := by
  cases queued <;> rfl

/-- The M-core runs its controller as the device is set up. -/
structure Follows (view : McoreCan) (can : RpmsgCan) : Prop where
  started : view.started = true
  bitrate : view.bitrate = can.bitrate
  listenOnly : view.listenOnly = can.listenOnly
  loopback : view.loopback = can.loopback

instance (can : RpmsgCan) : Decidable (view.Follows can) :=
  decidable_of_iff
    (view.started = true ∧ view.bitrate = can.bitrate ∧
      view.listenOnly = can.listenOnly ∧ view.loopback = can.loopback)
    ⟨fun ⟨started, bitrate, listenOnly, loopback⟩ =>
      ⟨started, bitrate, listenOnly, loopback⟩,
      fun ⟨started, bitrate, listenOnly, loopback⟩ =>
        ⟨started, bitrate, listenOnly, loopback⟩⟩

end McoreCan

/-- A device next to the controller of the M-core. -/
structure CanSync where
  can : RpmsgCan
  view : McoreCan
  /-- The device was up before the last call, or earlier. -/
  opened : Bool
deriving DecidableEq, Repr

/-- A call that comes from the CAN layer. -/
inductive CanCall where
  /-- A change of the settings, which only takes while the device is down. -/
  | changelink (bitrate ctrlmode restartMs : UInt32)
  | openDev (ready : Bool) (sends : OpenSends)
  | stop (queued : Bool)
  | setMode (mode : CanMode) (queued : Bool)
deriving DecidableEq, Repr

/-- What the call does to the device, and beside it. -/
def CanCall.apply (can : RpmsgCan) : CanCall → RpmsgCan × List CanEffect
  | .changelink bitrate ctrlmode restartMs =>
      (can.changelink bitrate ctrlmode restartMs, [])
  | .openDev ready sends => can.devOpen ready sends
  | .stop queued => can.devClose queued
  | .setMode mode queued => rpmsgCanSetMode mode queued can

namespace CanSync

/-- A device just registered, with the controller stopped. -/
def start (bitrate : UInt32) (listenOnly loopback : Bool) : CanSync where
  can := rpmsgCanInit
  view := { started := false, bitrate, listenOnly, loopback }
  opened := false

def step (sync : CanSync) (call : CanCall) : CanSync where
  can := (call.apply sync.can).1
  view := sync.view.replay (call.apply sync.can).2
  opened := sync.opened || sync.can.running

/--
While the device is up the M-core follows it, and once it has been set down
the controller is stopped.
-/
def Agrees (sync : CanSync) : Prop :=
  if sync.can.running then sync.view.Follows sync.can
  else sync.opened = true → sync.view.started = false

instance (sync : CanSync) : Decidable sync.Agrees :=
  inferInstanceAs
    (Decidable
      (if sync.can.running then sync.view.Follows sync.can
      else sync.opened = true → sync.view.started = false))

/--
What has to be queued: of an open, all that the M-core does not know already;
of a stop, its message; and no start while the device is set down.
-/
def Delivered (sync : CanSync) : CanCall → Prop
  | .changelink _ _ _ => True
  | .openDev ready sends =>
      sync.can.running = false → ready = true →
        (sends.start = true ∨ sync.view.started = true) ∧
          (sends.bitrate = true ∨ sync.view.bitrate = sync.can.bitrate) ∧
          (sends.mode = true ∨
            sync.view.listenOnly = sync.can.listenOnly ∧
              sync.view.loopback = sync.can.loopback)
  | .stop queued => sync.can.running = true → queued = true
  | .setMode mode queued =>
      mode = .start → sync.can.running = false → sync.opened = true →
        queued = false

instance (sync : CanSync) : ∀ call, Decidable (sync.Delivered call)
  | .changelink _ _ _ => .isTrue trivial
  | .openDev _ _ => inferInstanceAs (Decidable (_ → _ → _))
  | .stop _ => inferInstanceAs (Decidable (_ → _))
  | .setMode _ _ => inferInstanceAs (Decidable (_ → _ → _ → _))

variable
    {sync : CanSync}

section

variable
    {can : RpmsgCan} {view : McoreCan} {opened : Bool}

theorem agrees_iff_of_up (up : can.running = true) :
    Agrees ⟨can, view, opened⟩ ↔ view.Follows can := by
  rw [Agrees, if_pos up]

theorem agrees_iff_of_down (down : can.running = false) :
    Agrees ⟨can, view, opened⟩ ↔
      (opened = true → view.started = false) := by
  rw [Agrees, if_neg (ne_true_of_eq_false down)]

end

/-- A call that the device refuses changes nothing. -/
theorem agrees_of_refused {call : CanCall} (agrees : sync.Agrees)
    (refused : call.apply sync.can = (sync.can, [])) :
    (sync.step call).Agrees := by
  rw [step, refused]
  cases up : sync.can.running with
  | true => exact (agrees_iff_of_up up).mpr ((agrees_iff_of_up up).mp agrees)
  | false =>
      refine (agrees_iff_of_down up).mpr ?_
      rw [Bool.or_false]
      exact (agrees_iff_of_down up).mp agrees

theorem agrees_changelink (agrees : sync.Agrees)
    (bitrate ctrlmode restartMs : UInt32) :
    (sync.step (.changelink bitrate ctrlmode restartMs)).Agrees := by
  cases up : sync.can.running with
  | true =>
      refine agrees_of_refused agrees ?_
      rw [CanCall.apply, RpmsgCan.changelink, if_pos up]
  | false =>
      rw [step, CanCall.apply, RpmsgCan.changelink,
        if_neg (ne_true_of_eq_false up)]
      have still :
          ({ sync.can with bitrate, ctrlmode, restartMs } :
            RpmsgCan).running = false := up
      refine (agrees_iff_of_down still).mpr ?_
      rw [still, Bool.or_false]
      exact (agrees_iff_of_down up).mp agrees

/-- The view after an open holds what was queued over what it held. -/
theorem replay_open (view : McoreCan) (sends : OpenSends) (can : RpmsgCan) :
    view.replay
        (rpmsgCanCtrlSend sends.bitrate RpmsgCan.cmdSetBitrate 0
            can.bitrate ++
          rpmsgCanCtrlSend sends.mode RpmsgCan.cmdSetMode
            (rpmsgCanMode can.ctrlmode) 0 ++
          rpmsgCanCtrlSend sends.start RpmsgCan.cmdStart 0 0 ++
          [.startQueue]) =
      { started := sends.start || view.started
        bitrate := if sends.bitrate then can.bitrate else view.bitrate
        listenOnly := if sends.mode then can.listenOnly else view.listenOnly
        loopback := if sends.mode then can.loopback else view.loopback } := by
  rw [McoreCan.replay_append, McoreCan.replay_append, McoreCan.replay_append,
    McoreCan.replay_setBitrate, McoreCan.replay_setMode,
    McoreCan.replay_start]
  rfl

/-- A setting that is sent or known holds after the send. -/
theorem ite_eq_iff_sent {Setting : Type} {queued : Bool}
    {asked known : Setting} :
    (if queued then asked else known) = asked ↔
      queued = true ∨ known = asked := by
  cases queued with
  | false => simp
  | true => simp

theorem agrees_open_iff (agrees : sync.Agrees) (ready : Bool)
    (sends : OpenSends) :
    (sync.step (.openDev ready sends)).Agrees ↔
      sync.Delivered (.openDev ready sends) := by
  cases up : sync.can.running with
  | true =>
      refine iff_of_true (agrees_of_refused agrees ?_) (fun down => ?_)
      · exact RpmsgCan.devOpen_of_up ready sends up
      · exact absurd down (ne_false_of_eq_true up)
  | false =>
      cases ready with
      | false =>
          refine iff_of_true (agrees_of_refused agrees ?_) (fun _ never => ?_)
          · exact RpmsgCan.devOpen_of_not_ready sends
          · cases never
      | true =>
          rw [step, CanCall.apply, RpmsgCan.devOpen_of_ready sends up]
          refine (agrees_iff_of_up rfl).trans ?_
          rw [replay_open]
          constructor
          · rintro ⟨started, bitrate, listenOnly, loopback⟩ - -
            refine
              ⟨Bool.or_eq_true_iff.mp started,
                ite_eq_iff_sent.mp bitrate, ?_⟩
            rcases ite_eq_iff_sent.mp listenOnly with queued | listenOnly
            · exact .inl queued
            · rcases ite_eq_iff_sent.mp loopback with queued | loopback
              · exact .inl queued
              · exact .inr ⟨listenOnly, loopback⟩
          · intro delivered
            rcases delivered up rfl with ⟨started, bitrate, mode⟩
            constructor
            · exact Bool.or_eq_true_iff.mpr started
            · exact ite_eq_iff_sent.mpr bitrate
            · exact ite_eq_iff_sent.mpr (mode.imp_right And.left)
            · exact ite_eq_iff_sent.mpr (mode.imp_right And.right)

theorem agrees_stop_iff (agrees : sync.Agrees) (queued : Bool) :
    (sync.step (.stop queued)).Agrees ↔ sync.Delivered (.stop queued) := by
  cases up : sync.can.running with
  | false =>
      refine iff_of_true (agrees_of_refused agrees ?_) (fun running => ?_)
      · rw [CanCall.apply, RpmsgCan.devClose,
          if_neg (ne_true_of_eq_false up)]
      · exact absurd running (ne_true_of_eq_false up)
  | true =>
      have follows := (agrees_iff_of_up up).mp agrees
      rw [step, CanCall.apply, RpmsgCan.devClose, if_pos up]
      refine (agrees_iff_of_down rfl).trans ?_
      rw [rpmsgCanStop, McoreCan.replay, McoreCan.replay_stop,
        follows.started]
      constructor
      · intro stopped _
        simpa using stopped (Bool.or_eq_true_iff.mpr (.inr up))
      · intro delivered _
        rw [delivered up]
        rfl

/-- A restart sends a start and leaves the settings alone. -/
theorem agrees_setMode_iff (agrees : sync.Agrees) (mode : CanMode)
    (queued : Bool) :
    (sync.step (.setMode mode queued)).Agrees ↔
      sync.Delivered (.setMode mode queued) := by
  cases mode with
  | stop =>
      refine iff_of_true (agrees_of_refused agrees rfl) (fun never => ?_)
      cases never
  | sleep =>
      refine iff_of_true (agrees_of_refused agrees rfl) (fun never => ?_)
      cases never
  | start =>
      rw [step, CanCall.apply, rpmsgCanSetMode, McoreCan.replay_append,
        McoreCan.replay_start]
      cases up : sync.can.running with
      | true =>
          refine iff_of_true ?_ (fun _ down => ?_)
          · rcases (agrees_iff_of_up up).mp agrees with
              ⟨started, bitrate, listenOnly, loopback⟩
            refine (agrees_iff_of_up rfl).mpr ?_
            constructor
            · exact Bool.or_eq_true_iff.mpr (.inr started)
            · exact bitrate
            · exact listenOnly
            · exact loopback
          · exact absurd down (ne_false_of_eq_true up)
      | false =>
          have stopped := (agrees_iff_of_down up).mp agrees
          refine (agrees_iff_of_down rfl).trans ?_
          rw [Bool.or_false]
          constructor
          · intro remains _ _ opened
            exact (Bool.or_eq_false_iff.mp (remains opened)).1
          · intro delivered opened
            exact
              Bool.or_eq_false_iff.mpr
                ⟨delivered rfl up opened, stopped opened⟩

/-- A step keeps the two in agreement exactly if its messages are delivered. -/
theorem agrees_step_iff (agrees : sync.Agrees) (call : CanCall) :
    (sync.step call).Agrees ↔ sync.Delivered call := by
  cases call with
  | changelink bitrate ctrlmode restartMs =>
      exact
        iff_of_true (agrees_changelink agrees bitrate ctrlmode restartMs)
          trivial
  | openDev ready sends => exact agrees_open_iff agrees ready sends
  | stop queued => exact agrees_stop_iff agrees queued
  | setMode mode queued => exact agrees_setMode_iff agrees mode queued

/-! ## Whole runs -/

/--
The M-core agrees with the device in every state of a run exactly if every
message that has to be delivered is.
-/
theorem agrees_along_iff (bitrate : UInt32) (listenOnly loopback : Bool)
    (calls : List CanCall) :
    Trace.Along step (fun sync call => (sync.step call).Agrees)
        (start bitrate listenOnly loopback) calls ↔
      Trace.Along step Delivered (start bitrate listenOnly loopback)
        calls := by
  have initial : (start bitrate listenOnly loopback).Agrees :=
    (agrees_iff_of_down rfl).mpr (fun _ => rfl)
  exact
    Trace.along_iff_guarded
      (fun _ call agrees delivered =>
        (agrees_step_iff agrees call).mpr delivered)
      (fun _ call agrees => agrees_step_iff agrees call)
      initial

/-- A listen-only device is opened, and the channel has room for two messages. -/
def lostMode : List CanCall :=
  [.changelink 500000 RpmsgCan.ctrlmodeListenOnly 0,
    .openDev true { bitrate := true, mode := false, start := true }]

/-- The stop finds the channel full. -/
def lostStop : List CanCall :=
  [.openDev true { bitrate := true, mode := true, start := true },
    .stop false]

/--
The device is up and set to listen only, and the M-core takes part in the bus;
or the device is down, and the M-core still does.
-/
theorem not_agrees_along :
    (¬ Trace.Along step (fun sync call => (sync.step call).Agrees)
        (start 0 false false) lostMode ∧
      (let sync := Trace.run step (start 0 false false) lostMode
      sync.can.running = true ∧ sync.can.listenOnly = true ∧
        sync.view.started = true ∧ sync.view.listenOnly = false)) ∧
    ¬ Trace.Along step (fun sync call => (sync.step call).Agrees)
        (start 0 false false) lostStop ∧
      (let sync := Trace.run step (start 0 false false) lostStop
      sync.can.running = false ∧ sync.view.started = true) := by
  decide +kernel

end CanSync

end KmmYocto
