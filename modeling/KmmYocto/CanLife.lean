import KmmYocto.RpmsgCan
import KmmYocto.Trace

/-!
# The life of a CAN device

The device is set up and down by hand, messages of the M-core come in at any
time, and after a bus-off it is restarted by the delayed work or by hand.

The state of the controller is written from four places and the carrier only
from three of them: a report that ends a bus-off leaves the carrier off, and
then a restart by hand is refused.  A report is also taken while the device
is down, where a frame is not: the state is overwritten then, and a bus-off
schedules a restart that nothing cancels.
-/

namespace KmmYocto

/-- What happens to a registered device. -/
inductive CanAct where
  | changelink (bitrate ctrlmode restartMs : UInt32)
  | openDev (ready : Bool) (sends : OpenSends)
  | stop (queued : Bool)
  /-- A message of the M-core. -/
  | message (data : List UInt8) (allocated : Bool)
  /-- The delayed restart runs. -/
  | restartWork (queued : Bool)
  | restartNow (queued : Bool)
deriving DecidableEq, Repr

/-- The state that a control message reports, if the driver takes it. -/
def RpmsgCanCtrl.report (c : RpmsgCanCtrl) : Option CanState :=
  if c.magic ≠ RpmsgCan.ctrlMagic then none
  else if c.cmd = RpmsgCan.evtState then CanState.ofArg c.arg
  else none

/-- The state that a message reports, if it is a report the driver takes. -/
def CanState.reported (data : List UInt8) : Option CanState :=
  if data.length = 8 then (RpmsgCanCtrl.ofBytes data).report else none

/-- The effect neither starts the M-core nor the queue, and delivers nothing. -/
def CanEffect.Quiet : CanEffect → Prop
  | .queued ctrl => ctrl.cmd ≠ RpmsgCan.cmdStart
  | .stopQueue => True
  | .rxDropped => True
  | .startQueue => False
  | .wakeQueue => False
  | .receive _ => False

instance : ∀ effect : CanEffect, Decidable effect.Quiet
  | .queued _ => inferInstanceAs (Decidable (_ ≠ _))
  | .stopQueue => .isTrue trivial
  | .rxDropped => .isTrue trivial
  | .startQueue => .isFalse id
  | .wakeQueue => .isFalse id
  | .receive _ => .isFalse id

namespace RpmsgCan

/-- What the action does to the device, and beside it. -/
def act (can : RpmsgCan) : CanAct → RpmsgCan × List CanEffect
  | .changelink bitrate ctrlmode restartMs =>
      (can.changelink bitrate ctrlmode restartMs, [])
  | .openDev ready sends => can.devOpen ready sends
  | .stop queued => can.devClose queued
  | .message data allocated => rpmsgCanCb allocated data can
  | .restartWork queued => can.canRestartWork queued
  | .restartNow queued => can.canRestartNow queued

def step (can : RpmsgCan) (act : CanAct) : RpmsgCan :=
  (can.act act).1

/-- A report of a state that is not the present one. -/
def changed (can : RpmsgCan) (newState : CanState) : RpmsgCan :=
  if newState = can.state then can
  else if newState = .busOff then
    canBusOff { can with state := newState }
  else { can with state := newState }

variable
    {can : RpmsgCan}

theorem rpmsgCanRxCtrl_eq (c : RpmsgCanCtrl) :
    rpmsgCanRxCtrl c can =
      match c.report with
      | some newState => can.changed newState
      | none => can := by
  rw [rpmsgCanRxCtrl, RpmsgCanCtrl.report]
  by_cases magic : c.magic ≠ ctrlMagic
  · rw [if_pos magic, if_pos magic]
  · rw [if_neg magic, if_neg magic]
    by_cases event : c.cmd = evtState
    · rw [if_pos event, if_pos event]
      cases CanState.ofArg c.arg with
      | none => rfl
      | some newState => simp only [changed, ite_not]
    · rw [if_neg event, if_neg event]

/-- A message changes the device only as a report. -/
theorem step_message (data : List UInt8) (allocated : Bool) :
    can.step (.message data allocated) =
      match CanState.reported data with
      | some newState => can.changed newState
      | none => can := by
  rw [step, act, rpmsgCanCb, CanState.reported]
  by_cases frame : data.length = 16
  · have other : data.length ≠ 8 := by omega
    rw [if_pos frame, if_neg other]
  · rw [if_neg frame]
    by_cases ctrl : data.length = 8
    · rw [if_pos ctrl, if_pos ctrl]
      exact rpmsgCanRxCtrl_eq _
    · rw [if_neg ctrl, if_neg ctrl]

theorem step_of_reported {data : List UInt8} {newState : CanState}
    (report : CanState.reported data = some newState) (allocated : Bool) :
    can.step (.message data allocated) = can.changed newState := by
  rw [step_message, report]

theorem step_of_unreported {data : List UInt8}
    (other : CanState.reported data = none) (allocated : Bool) :
    can.step (.message data allocated) = can := by
  rw [step_message, other]

/-- A report is never of a state that only Linux sets. -/
theorem ne_stopped_of_reported {data : List UInt8} {newState : CanState}
    (report : CanState.reported data = some newState) :
    newState ≠ .stopped := by
  rw [CanState.reported, RpmsgCanCtrl.report] at report
  split_ifs at report
  rw [CanState.ofArg] at report
  split at report <;> cases report <;> decide

@[simp]
theorem running_changed (newState : CanState) :
    (can.changed newState).running = can.running := by
  rw [changed]
  split_ifs <;> rfl

@[simp]
theorem state_changed (newState : CanState) :
    (can.changed newState).state = newState := by
  rw [changed]
  split_ifs with same
  · exact same.symm
  · rfl
  · rfl

theorem carrier_changed (newState : CanState) :
    (can.changed newState).carrier =
      (can.carrier && (newState = can.state || newState != .busOff)) := by
  rw [changed]
  split_ifs with same busOff
  · simp [same]
  · subst busOff
    simp [same, canBusOff]
  · simp [same, busOff]

/-! ## The carrier -/

/-- While the device is up, it has no carrier exactly in bus-off. -/
def CarrierAgrees (can : RpmsgCan) : Prop :=
  can.running = true → (can.carrier = false ↔ can.state = .busOff)

instance : Decidable can.CarrierAgrees :=
  inferInstanceAs (Decidable (_ → _))

/-- No report ends the bus-off of a device that is up. -/
def BusOffStays (can : RpmsgCan) : CanAct → Prop
  | .message data _ =>
      can.running = true → can.state = .busOff →
        ∀ newState ∈ CanState.reported data, newState = .busOff
  | _ => True

theorem carrierAgrees_of_active (carrier : can.carrier = true)
    (active : can.state = .errorActive) : can.CarrierAgrees := by
  intro _
  rw [carrier, active]
  decide

theorem carrierAgrees_of_down (down : can.running = false) :
    can.CarrierAgrees := by
  intro up
  exact absurd up (ne_true_of_eq_false down)

theorem carrierAgrees_changelink (agrees : can.CarrierAgrees)
    (bitrate ctrlmode restartMs : UInt32) :
    (can.step (.changelink bitrate ctrlmode restartMs)).CarrierAgrees := by
  rw [step, act, changelink]
  split_ifs with up
  · exact agrees
  · exact agrees

theorem carrierAgrees_openDev (agrees : can.CarrierAgrees) (ready : Bool)
    (sends : OpenSends) :
    (can.step (.openDev ready sends)).CarrierAgrees := by
  rw [step, act]
  cases up : can.running with
  | true =>
      rw [devOpen_of_up ready sends up]
      exact agrees
  | false =>
      cases ready with
      | false =>
          rw [devOpen_of_not_ready]
          exact agrees
      | true =>
          rw [devOpen_of_ready sends up]
          exact carrierAgrees_of_active rfl rfl

theorem carrierAgrees_stop (agrees : can.CarrierAgrees) (queued : Bool) :
    (can.step (.stop queued)).CarrierAgrees := by
  rw [step, act, devClose]
  split_ifs with up
  · exact carrierAgrees_of_down rfl
  · exact agrees

theorem carrierAgrees_restartWork (agrees : can.CarrierAgrees)
    (queued : Bool) :
    (can.step (.restartWork queued)).CarrierAgrees := by
  rw [step, act, canRestartWork]
  split_ifs with scheduled
  · exact carrierAgrees_of_active rfl rfl
  · exact agrees

theorem carrierAgrees_restartNow (agrees : can.CarrierAgrees)
    (queued : Bool) :
    (can.step (.restartNow queued)).CarrierAgrees := by
  rw [step, act, canRestartNow]
  split_ifs with busOff
  · exact carrierAgrees_of_active rfl rfl
  · exact agrees

/-- A report moves the carrier with the state unless it ends a bus-off. -/
theorem carrierAgrees_changed_iff (agrees : can.CarrierAgrees)
    (newState : CanState) :
    (can.changed newState).CarrierAgrees ↔
      (can.running = true → can.state = .busOff → newState = .busOff) := by
  rw [CarrierAgrees, running_changed, state_changed, carrier_changed]
  refine forall_congr' (fun up => ?_)
  by_cases busOff : can.state = .busOff
  · have off : can.carrier = false := (agrees up).mpr busOff
    rw [off, Bool.false_and]
    constructor
    · intro same _
      exact same.mp rfl
    · intro stays
      exact iff_of_true rfl (stays busOff)
  · have on : can.carrier = true :=
      Bool.eq_true_of_not_eq_false (fun off => busOff ((agrees up).mp off))
    rw [on, Bool.true_and]
    refine iff_of_true ?_ (fun was => absurd was busOff)
    by_cases report : newState = .busOff
    · simp [report, Ne.symm busOff]
    · simp [report]

theorem carrierAgrees_step_iff (agrees : can.CarrierAgrees) (act : CanAct) :
    (can.step act).CarrierAgrees ↔ can.BusOffStays act := by
  cases act with
  | changelink bitrate ctrlmode restartMs =>
      exact
        iff_of_true
          (carrierAgrees_changelink agrees bitrate ctrlmode restartMs) trivial
  | openDev ready sends =>
      exact iff_of_true (carrierAgrees_openDev agrees ready sends) trivial
  | stop queued =>
      exact iff_of_true (carrierAgrees_stop agrees queued) trivial
  | restartWork queued =>
      exact iff_of_true (carrierAgrees_restartWork agrees queued) trivial
  | restartNow queued =>
      exact iff_of_true (carrierAgrees_restartNow agrees queued) trivial
  | message data allocated =>
      rw [BusOffStays]
      cases report : CanState.reported data with
      | none =>
          rw [step_of_unreported report]
          refine iff_of_true agrees (fun _ _ newState none => ?_)
          cases none
      | some newState =>
          rw [step_of_reported report, carrierAgrees_changed_iff agrees]
          simp only [Option.mem_some_iff, forall_eq']

/-- A device that is up without carrier takes a restart by hand. -/
def Restartable (can : RpmsgCan) : Prop :=
  can.running = true → can.carrier = false →
    ∀ queued,
      (can.step (.restartNow queued)).carrier = true ∧
        (can.step (.restartNow queued)).state = .errorActive ∧
        CanEffect.wakeQueue ∈ (can.act (.restartNow queued)).2

theorem restartable_of_carrierAgrees (agrees : can.CarrierAgrees) :
    can.Restartable := by
  intro up off queued
  have busOff : can.state = .busOff := (agrees up).mp off
  rw [step, act, canRestartNow, if_pos busOff]
  refine ⟨rfl, rfl, ?_⟩
  exact List.mem_append_right _ (List.mem_singleton.mpr rfl)

/--
The carrier agrees with the state along a run exactly if no report ends a
bus-off, and then a device without carrier can be restarted.
-/
theorem carrierAgrees_along_iff (acts : List CanAct) :
    (Trace.Along step (fun can act => (can.step act).CarrierAgrees)
        rpmsgCanInit acts ↔
      Trace.Along step BusOffStays rpmsgCanInit acts) ∧
    (Trace.Along step BusOffStays rpmsgCanInit acts →
      (Trace.run step rpmsgCanInit acts).Restartable) := by
  have initial : rpmsgCanInit.CarrierAgrees := carrierAgrees_of_down rfl
  have keeps : ∀ can act, CarrierAgrees can → BusOffStays can act →
      (can.step act).CarrierAgrees :=
    fun _ act agrees stays => (carrierAgrees_step_iff agrees act).mpr stays
  constructor
  · exact
      Trace.along_iff_guarded keeps
        (fun _ act agrees => carrierAgrees_step_iff agrees act) initial
  · intro stays
    exact
      restartable_of_carrierAgrees (Trace.run_invariant keeps initial stays)

/-- The report of a state. -/
def report (newState : UInt8) : List UInt8 :=
  [0xC7, 5, 0, 0, newState, 0, 0, 0]

/-- The M-core reports a bus-off, and then that it has recovered. -/
def recovered : List CanAct :=
  [.openDev true { bitrate := true, mode := true, start := true },
    .message (report 3) true, .message (report 0) true]

/-- The device is error-active without carrier, and no restart helps. -/
theorem not_carrierAgrees_along :
    ¬ Trace.Along step (fun can act => (can.step act).CarrierAgrees)
        rpmsgCanInit recovered ∧
      (let can := Trace.run step rpmsgCanInit recovered
      can.running = true ∧ can.carrier = false ∧ can.restartWork = false ∧
        can.state = .errorActive ∧
        can.act (.restartNow true) = (can, [])) := by
  decide +kernel

/-! ## A device set down -/

/-- A step that does not set the device up leaves it stopped and quiet. -/
def StaysDown (can : RpmsgCan) (act : CanAct) : Prop :=
  (can.step act).running = false →
    (can.step act).state = .stopped ∧ ∀ effect ∈ (can.act act).2, effect.Quiet

instance (act : CanAct) : Decidable (can.StaysDown act) :=
  inferInstanceAs (Decidable (_ → _ ∧ _))

/-- No report comes in while the device is down. -/
def UnreportedDown (can : RpmsgCan) : CanAct → Prop
  | .message data _ =>
      can.running = false → CanState.reported data = none
  | _ => True

/-- A device that is down is stopped and has no restart scheduled. -/
def Rests (can : RpmsgCan) : Prop :=
  can.running = false → can.state = .stopped ∧ can.restartWork = false

theorem rests_of_up (up : can.running = true) : can.Rests := by
  intro down
  exact absurd down (ne_false_of_eq_true up)

/-- Where nothing is done a device at rest stays down. -/
theorem staysDown_of_idle {act : CanAct} (rests : can.Rests)
    (idle : can.act act = (can, [])) :
    can.StaysDown act ∧ (can.step act).Rests := by
  have same : can.step act = can := congrArg Prod.fst idle
  rw [StaysDown, same, idle]
  refine ⟨fun down => ⟨(rests down).1, fun effect never => ?_⟩, rests⟩
  cases never

/-- A step that ends with the device up has nothing to show. -/
theorem staysDown_of_up {act : CanAct}
    (up : (can.step act).running = true) :
    can.StaysDown act ∧ (can.step act).Rests := by
  refine ⟨fun down => ?_, rests_of_up up⟩
  exact absurd down (ne_false_of_eq_true up)

/-- A step that leaves the device at rest and is quiet. -/
theorem staysDown_of_rests {act : CanAct} (rests : (can.step act).Rests)
    (quiet : ∀ effect ∈ (can.act act).2, effect.Quiet) :
    can.StaysDown act ∧ (can.step act).Rests :=
  ⟨fun down => ⟨(rests down).1, quiet⟩, rests⟩

theorem quiet_of_stop (queued : Bool) :
    ∀ effect ∈ CanEffect.stopQueue :: rpmsgCanCtrlSend queued cmdStop 0 0,
      effect.Quiet := by
  cases queued with
  | false => decide
  | true => decide

theorem staysDown_changelink (rests : can.Rests)
    (bitrate ctrlmode restartMs : UInt32) :
    can.StaysDown (.changelink bitrate ctrlmode restartMs) ∧
      (can.step (.changelink bitrate ctrlmode restartMs)).Rests := by
  refine staysDown_of_rests ?_ (fun effect never => ?_)
  · rw [step, act, changelink]
    split_ifs with up
    · exact rests
    · exact rests
  · cases never

theorem staysDown_openDev (rests : can.Rests) (ready : Bool)
    (sends : OpenSends) :
    can.StaysDown (.openDev ready sends) ∧
      (can.step (.openDev ready sends)).Rests := by
  cases up : can.running with
  | true => exact staysDown_of_idle rests (devOpen_of_up ready sends up)
  | false =>
      cases ready with
      | false => exact staysDown_of_idle rests (devOpen_of_not_ready sends)
      | true =>
          refine staysDown_of_up ?_
          rw [step, act, devOpen_of_ready sends up]

theorem staysDown_stop (rests : can.Rests) (queued : Bool) :
    can.StaysDown (.stop queued) ∧ (can.step (.stop queued)).Rests := by
  by_cases up : can.running = true
  · have stops : can.act (.stop queued) =
        rpmsgCanStop queued { can with running := false } := if_pos up
    refine staysDown_of_rests ?_ ?_
    · rw [step, stops]
      exact fun _ => ⟨rfl, rfl⟩
    · rw [stops]
      exact quiet_of_stop queued
  · exact staysDown_of_idle rests (if_neg up)

/-- No restart is scheduled for a device at rest. -/
theorem staysDown_restartWork (rests : can.Rests) (queued : Bool) :
    can.StaysDown (.restartWork queued) ∧
      (can.step (.restartWork queued)).Rests := by
  by_cases scheduled : can.restartWork = true
  · have restarts : can.act (.restartWork queued) = can.canRestart queued :=
      if_pos scheduled
    refine staysDown_of_up ?_
    rw [step, restarts]
    cases up : can.running with
    | true => exact up
    | false => exact absurd scheduled (ne_true_of_eq_false (rests up).2)
  · exact staysDown_of_idle rests (if_neg scheduled)

/-- A device at rest is not in bus-off. -/
theorem staysDown_restartNow (rests : can.Rests) (queued : Bool) :
    can.StaysDown (.restartNow queued) ∧
      (can.step (.restartNow queued)).Rests := by
  by_cases busOff : can.state = .busOff
  · have restarts : can.act (.restartNow queued) = can.canRestart queued :=
      if_pos busOff
    refine staysDown_of_up ?_
    rw [step, restarts]
    cases up : can.running with
    | true => exact up
    | false =>
        rw [(rests up).1] at busOff
        cases busOff
  · exact staysDown_of_idle rests (if_neg busOff)

/-- While the device is down the callback drops a frame and delivers nothing. -/
theorem quiet_of_message (down : can.running = false) (data : List UInt8)
    (allocated : Bool) :
    ∀ effect ∈ (can.act (.message data allocated)).2, effect.Quiet := by
  have notUp : ¬ can.running = true := ne_true_of_eq_false down
  rw [act, rpmsgCanCb]
  split_ifs with frame ctrl
  · rw [rpmsgCanRxFrame, if_pos notUp]
    intro effect dropped
    rw [List.mem_singleton.mp dropped]
    trivial
  · simp
  · simp

theorem staysDown_message_iff (rests : can.Rests) (data : List UInt8)
    (allocated : Bool) :
    can.StaysDown (.message data allocated) ↔
      can.UnreportedDown (.message data allocated) := by
  rw [StaysDown, UnreportedDown]
  cases report : CanState.reported data with
  | none =>
      rw [step_of_unreported report]
      refine iff_of_true (fun down => ?_) (fun _ => rfl)
      exact ⟨(rests down).1, quiet_of_message down data allocated⟩
  | some newState =>
      rw [step_of_reported report, running_changed, state_changed]
      refine forall_congr' (fun down => iff_of_false (fun both => ?_) ?_)
      · exact ne_stopped_of_reported report both.1
      · exact Option.some_ne_none newState

theorem rests_message (rests : can.Rests) {data : List UInt8}
    {allocated : Bool}
    (unreported : can.UnreportedDown (.message data allocated)) :
    (can.step (.message data allocated)).Rests := by
  cases up : can.running with
  | true =>
      refine rests_of_up ?_
      rw [step_message]
      cases CanState.reported data with
      | none => exact up
      | some newState => exact (running_changed newState).trans up
  | false =>
      rw [step_of_unreported (unreported up)]
      exact rests

/-- From rest a device stays down exactly if no report comes in meanwhile. -/
theorem staysDown_step_iff (rests : can.Rests) (act : CanAct) :
    (can.StaysDown act ↔ can.UnreportedDown act) ∧
      (can.UnreportedDown act → (can.step act).Rests) := by
  cases act with
  | changelink bitrate ctrlmode restartMs =>
      have stays := staysDown_changelink rests bitrate ctrlmode restartMs
      exact ⟨iff_of_true stays.1 trivial, fun _ => stays.2⟩
  | openDev ready sends =>
      have stays := staysDown_openDev rests ready sends
      exact ⟨iff_of_true stays.1 trivial, fun _ => stays.2⟩
  | stop queued =>
      have stays := staysDown_stop rests queued
      exact ⟨iff_of_true stays.1 trivial, fun _ => stays.2⟩
  | restartWork queued =>
      have stays := staysDown_restartWork rests queued
      exact ⟨iff_of_true stays.1 trivial, fun _ => stays.2⟩
  | restartNow queued =>
      have stays := staysDown_restartNow rests queued
      exact ⟨iff_of_true stays.1 trivial, fun _ => stays.2⟩
  | message data allocated =>
      exact
        ⟨staysDown_message_iff rests data allocated,
          fun unreported => rests_message rests unreported⟩

/--
A device stays down through every step of a run exactly if no report comes in
while it is down.
-/
theorem staysDown_along_iff (acts : List CanAct) :
    Trace.Along step StaysDown rpmsgCanInit acts ↔
      Trace.Along step UnreportedDown rpmsgCanInit acts := by
  have initial : rpmsgCanInit.Rests := fun _ => ⟨rfl, rfl⟩
  have keeps : ∀ can act, Rests can → UnreportedDown can act →
      (can.step act).Rests :=
    fun _ act rests unreported => (staysDown_step_iff rests act).2 unreported
  exact
    Trace.along_iff_guarded keeps
      (fun _ act rests => (staysDown_step_iff rests act).1) initial

/-- A report comes in before the device is set up for the first time. -/
def earlyReport : List CanAct :=
  [.message (report 0) true]

/-- A report of a bus-off comes in after the device is set down. -/
def lateBusOff : List CanAct :=
  [.changelink 500000 0 100,
    .openDev true { bitrate := true, mode := true, start := true },
    .stop true, .message (report 3) true, .restartWork true]

/--
A device that is down is error-active; or it is restarted while it is down,
and the M-core and the queue are started.
-/
theorem not_staysDown_along :
    (¬ Trace.Along step StaysDown rpmsgCanInit earlyReport ∧
      (let can := Trace.run step rpmsgCanInit earlyReport
      can.running = false ∧ can.state = .errorActive)) ∧
    ¬ Trace.Along step StaysDown rpmsgCanInit lateBusOff ∧
      (let can := Trace.run step rpmsgCanInit lateBusOff.dropLast
      can.running = false ∧ (can.step (.restartWork true)).running = false ∧
        (can.act (.restartWork true)).2 =
          [.queued
            { magic := ctrlMagic
              cmd := cmdStart
              flags := 0
              rsvd := 0
              arg := 0 },
            .wakeQueue]) := by
  decide +kernel

end RpmsgCan

end KmmYocto
