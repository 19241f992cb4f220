import KmmYocto.CanLife
import KmmYocto.KeepaliveBind

/-!
# Bind and unbind of the CAN gateway driver

The private data of `rpmsg-can` is a network device.  `rpmsg_can_remove` frees
it before the endpoint is destroyed, and so does `rpmsg_can_probe` when the
registration fails; the drvdata of the device goes on pointing to it.  The
delayed restart is the timer of the device: only setting the device down
cancels it, and a report of a bus-off schedules it even while the device is
down.
-/

namespace KmmYocto

/-- How far a bind of `rpmsg-can` has come. -/
inductive CanPc where
  /-- The endpoint is created, `rpmsg_can_probe` is called. -/
  | start
  | allocated
  | filled
  /-- `dev_set_drvdata` is done. -/
  | visible
  /-- `register_candev` is done and `rpmsg_can_probe` has returned. -/
  | bound
  /-- `register_candev` has failed. -/
  | refused
  /-- `unregister_candev` is done. -/
  | unregistered
  /-- `rpmsg_can_remove` has called `free_candev`. -/
  | freed
  /-- `rpmsg_can_remove` has returned. -/
  | removed
  /-- `rpmsg_can_probe` has returned an error. -/
  | failed
  /-- The endpoint is destroyed. -/
  | closed
  | unbound
deriving DecidableEq, Repr

namespace CanPc

/-- The endpoint exists. -/
def hasEndpoint : CanPc → Bool
  | .closed => false
  | .unbound => false
  | _ => true

/-- The device is filled in and not freed. -/
def isFilled : CanPc → Bool
  | .filled => true
  | .visible => true
  | .bound => true
  | .refused => true
  | .unregistered => true
  | _ => false

/-- The callback finds the device. -/
def isVisible : CanPc → Bool
  | .filled => false
  | pc => pc.isFilled

/-- The device is registered. -/
def isBound : CanPc → Bool
  | .bound => true
  | _ => false

/-- The next step is `free_candev`. -/
def freesNext : CanPc → Bool
  | .refused => true
  | .unregistered => true
  | _ => false

/-- `rpmsg_can_remove` has returned, or `rpmsg_can_probe` has failed. -/
def isOver : CanPc → Bool
  | .removed => true
  | .failed => true
  | .closed => true
  | .unbound => true
  | _ => false

section

variable
    {pc : CanPc}

theorem isFilled_of_isVisible (visible : pc.isVisible = true) :
    pc.isFilled = true := by
  cases pc <;> first | rfl | cases visible

theorem isFilled_of_isBound (bound : pc.isBound = true) :
    pc.isFilled = true := by
  cases pc <;> first | rfl | cases bound

theorem isBound_of_isOver (isOver : pc.isOver = true) :
    pc.isBound = false := by
  cases pc <;> first | rfl | cases isOver

end

end CanPc

/-- The action is a call on a registered device. -/
def CanAct.isCall : CanAct → Bool
  | .message _ _ => false
  | .restartWork _ => false
  | _ => true

/-- One bind of `rpmsg-can`. -/
structure CanBind where
  pc : CanPc
  /-- The drvdata of the device is set. -/
  drvdata : Bool
  ndev : PrivateData RpmsgCan
  delivery : Option Delivery

/-- One step; each may happen at any time. -/
inductive CanBindAct where
  /--
  The next step of the bind, and what `alloc_candev`, `register_candev` or the
  stop of the device answers in it.
  -/
  | advance (answer : Bool)
  /-- A message comes in and its callback starts. -/
  | message (data : List UInt8)
  /-- The callback does its work. -/
  | callback (allocated : Bool)
  /-- A call on the registered device. -/
  | call (act : CanAct)
  /-- The delayed restart expires. -/
  | restartWork (queued : Bool)

namespace CanBind

def start : CanBind where
  pc := .start
  drvdata := false
  ndev := .absent
  delivery := none

/-- The next step of `rpmsg_can_probe`, `rpmsg_can_remove` or the core. -/
def advance (answer : Bool) (bind : CanBind) : CanBind :=
  match bind.pc with
  | .start =>
      if answer then { bind with pc := .allocated, ndev := .raw }
      else { bind with pc := .failed }
  | .allocated =>
      { bind with pc := .filled, ndev := .ready rpmsgCanInit }
  | .filled => { bind with pc := .visible, drvdata := true }
  | .visible =>
      if answer then { bind with pc := .bound }
      else { bind with pc := .refused }
  | .refused => { bind with pc := .failed, ndev := bind.ndev.free }
  | .bound =>
      -- a device that is up is set down first
      { bind with
        pc := .unregistered
        ndev := bind.ndev.modify fun can => (can.devClose answer).1 }
  | .unregistered => { bind with pc := .freed, ndev := bind.ndev.free }
  | .freed => { bind with pc := .removed }
  | .removed =>
      match bind.delivery with
      | some _ => bind
      | none => { bind with pc := .closed }
  | .failed =>
      match bind.delivery with
      | some _ => bind
      | none => { bind with pc := .closed }
  | .closed => { bind with pc := .unbound, drvdata := false }
  | .unbound => bind

def step (bind : CanBind) : CanBindAct → CanBind
  | .advance answer => bind.advance answer
  | .message data =>
      match bind.delivery with
      | some _ => bind
      | none =>
          if bind.pc.hasEndpoint then
            { bind with delivery := some { drvdata := bind.drvdata, data } }
          else bind
  | .callback allocated =>
      match bind.delivery with
      | some delivery =>
          { bind with
            delivery := none
            ndev :=
              if delivery.drvdata then
                bind.ndev.modify
                  (RpmsgCan.step · (.message delivery.data allocated))
              else bind.ndev }
      | none => bind
  | .call act =>
      if bind.pc.isBound ∧ act.isCall then
        { bind with ndev := bind.ndev.modify (RpmsgCan.step · act) }
      else bind
  | .restartWork queued =>
      { bind with
        ndev := bind.ndev.modify (RpmsgCan.step · (.restartWork queued)) }

/-- A delayed restart is scheduled. -/
def Pending (bind : CanBind) : Prop :=
  ∃ can ∈ bind.ndev.held, can.restartWork = true

/-- A callback, of the channel or of the delayed work, runs on a live device. -/
def CallbackSafe (bind : CanBind) : CanBindAct → Prop
  | .callback _ =>
      ∀ delivery ∈ bind.delivery, delivery.drvdata = true ∧ bind.ndev.Live
  | .restartWork _ => bind.Pending → bind.ndev.Live
  | _ => True

instance (bind : CanBind) : Decidable bind.Pending :=
  inferInstanceAs (Decidable (∃ can ∈ bind.ndev.held, can.restartWork = true))

instance (bind : CanBind) : ∀ act, Decidable (bind.CallbackSafe act)
  | .callback _ =>
      inferInstanceAs
        (Decidable
          (∀ delivery ∈ bind.delivery,
            delivery.drvdata = true ∧ bind.ndev.Live))
  | .restartWork _ => inferInstanceAs (Decidable (bind.Pending → _))
  | .advance _ => .isTrue trivial
  | .message _ => .isTrue trivial
  | .call _ => .isTrue trivial

/-- Once `rpmsg_can_remove` has returned no restart is scheduled. -/
def TimerOver (bind : CanBind) : Prop :=
  bind.pc.isOver = true → ¬ bind.Pending

instance (bind : CanBind) : Decidable bind.TimerOver :=
  inferInstanceAs (Decidable (_ → ¬ bind.Pending))

/--
Messages come in only between `dev_set_drvdata` and `free_candev`, their
callbacks have run before `free_candev`, and none reports a bus-off to a device
that is down and would be restarted.
-/
def InTime (bind : CanBind) : CanBindAct → Prop
  | .advance _ => bind.pc.freesNext = true → bind.delivery = none
  | .message _ => bind.pc.hasEndpoint = true → bind.pc.isVisible = true
  | .callback _ =>
      ∀ delivery ∈ bind.delivery,
        CanState.reported delivery.data = some .busOff →
          ∀ can ∈ bind.ndev.held,
            can.running = true ∨ can.restartMs = 0 ∨ can.state = .busOff
  | _ => True

/-- What holds at any point of a bind whose messages come in time. -/
structure Sound (bind : CanBind) : Prop where
  live : bind.pc.isFilled = true → bind.ndev.Live
  visible : bind.pc.isVisible = true → bind.drvdata = true
  delivered :
    ∀ delivery ∈ bind.delivery,
      delivery.drvdata = true ∧ bind.pc.isVisible = true
  timed : ∀ can ∈ bind.ndev.held, can.restartWork = true → can.running = true
  up : ∀ can ∈ bind.ndev.held, can.running = true → bind.pc.isBound = true

end CanBind

/-! ## The restart of a device that is up -/

namespace RpmsgCan

/-- A restart is scheduled only while the device is up. -/
def TimedUp (can : RpmsgCan) : Prop :=
  can.restartWork = true → can.running = true

variable
    {can : RpmsgCan}

theorem timedUp_of_idle (idle : can.restartWork = false) : can.TimedUp := by
  intro scheduled
  exact absurd scheduled (ne_true_of_eq_false idle)

theorem TimedUp.devClose (timed : can.TimedUp) (queued : Bool) :
    (can.devClose queued).1.TimedUp := by
  rw [RpmsgCan.devClose]
  split_ifs with up
  · exact timedUp_of_idle rfl
  · exact timed

theorem running_devClose (queued : Bool) :
    (can.devClose queued).1.running = false := by
  rw [devClose]
  split_ifs with up
  · rfl
  · exact Bool.eq_false_of_not_eq_true up

theorem timedUp_call (timed : can.TimedUp) {act : CanAct}
    (isCall : act.isCall = true) : (can.step act).TimedUp := by
  cases act with
  | message data allocated => cases isCall
  | restartWork queued => cases isCall
  | changelink bitrate ctrlmode restartMs =>
      rw [step, RpmsgCan.act, changelink]
      split_ifs with up
      · exact timed
      · exact timed
  | openDev ready sends =>
      rw [step, RpmsgCan.act]
      cases up : can.running with
      | true =>
          rw [devOpen_of_up ready sends up]
          exact timed
      | false =>
          cases ready with
          | false =>
              rw [devOpen_of_not_ready]
              exact timed
          | true =>
              rw [devOpen_of_ready sends up]
              exact fun _ => rfl
  | stop queued => exact timed.devClose queued
  | restartNow queued =>
      rw [step, RpmsgCan.act, canRestartNow]
      split_ifs with busOff
      · exact timedUp_of_idle rfl
      · exact timed

theorem timedUp_restartWork (timed : can.TimedUp) (queued : Bool) :
    (can.step (.restartWork queued)).TimedUp := by
  rw [step, act, canRestartWork]
  split_ifs with scheduled
  · exact timedUp_of_idle rfl
  · exact timed

theorem running_restartWork (queued : Bool) :
    (can.step (.restartWork queued)).running = can.running := by
  rw [step, act, canRestartWork]
  split_ifs <;> rfl

theorem running_message (data : List UInt8) (allocated : Bool) :
    (can.step (.message data allocated)).running = can.running := by
  rw [step_message]
  cases CanState.reported data with
  | none => rfl
  | some newState => exact running_changed newState

/-- A report schedules a restart only as a bus-off that is news. -/
theorem timedUp_message (timed : can.TimedUp) {data : List UInt8}
    (inTime : CanState.reported data = some .busOff →
      can.running = true ∨ can.restartMs = 0 ∨ can.state = .busOff)
    (allocated : Bool) : (can.step (.message data allocated)).TimedUp := by
  cases reported : CanState.reported data with
  | none =>
      rw [step_of_unreported reported]
      exact timed
  | some newState =>
      rw [step_of_reported reported, changed]
      split_ifs with same busOff
      · exact timed
      · subst busOff
        rcases inTime reported with up | noRestart | already
        · exact fun _ => up
        · intro scheduled
          rw [canBusOff] at scheduled
          simp only [noRestart, bne_self_eq_false, Bool.or_false] at scheduled
          exact timed scheduled
        · exact absurd already.symm same
      · exact timed

end RpmsgCan

/-! ## Binds whose messages come in time -/

namespace CanBind

section

variable
    {bind : CanBind}

theorem sound_start : start.Sound where
  live filled := by cases filled
  visible visible := by cases visible
  delivered _ runs := by cases runs
  timed _ none := by cases none
  up _ none := by cases none

/-- Where the callback finds no device none runs. -/
theorem Sound.idle (sound : bind.Sound)
    (unseen : bind.pc.isVisible = false) : bind.delivery = none := by
  by_contra runs
  rcases Option.ne_none_iff_exists'.mp runs with ⟨delivery, runs⟩
  exact
    absurd (sound.delivered delivery runs).2 (ne_true_of_eq_false unseen)

/-- A device that is not registered is down. -/
theorem Sound.down (sound : bind.Sound) (unbound : bind.pc.isBound = false) :
    ∀ can ∈ bind.ndev.held, can.running = false := by
  intro can held
  refine Bool.eq_false_of_not_eq_true (fun up => ?_)
  exact absurd (sound.up can held up) (ne_true_of_eq_false unbound)

/-- A device that is not registered has no restart scheduled. -/
theorem Sound.not_pending (sound : bind.Sound) (unbound : bind.pc.isBound = false) :
    ¬ bind.Pending := by
  rintro ⟨can, held, scheduled⟩
  exact
    absurd (sound.up can held (sound.timed can held scheduled))
      (ne_true_of_eq_false unbound)

/-- A bind whose device no callback can see and that is not registered. -/
theorem sound_of_unseen (unseen : bind.pc.isVisible = false)
    (live : bind.pc.isFilled = true → bind.ndev.Live)
    (noDelivery : bind.delivery = none)
    (idle : ∀ can ∈ bind.ndev.held,
      can.running = false ∧ can.restartWork = false) : bind.Sound where
  live := live
  visible visible := absurd visible (ne_true_of_eq_false unseen)
  delivered _ runs := by
    rw [noDelivery] at runs
    cases runs
  timed can held scheduled :=
    absurd scheduled (ne_true_of_eq_false (idle can held).2)
  up can held up := absurd up (ne_true_of_eq_false (idle can held).1)

/-- Freeing the device, or not having it, leaves nothing running on it. -/
theorem Sound.idle_device (sound : bind.Sound) (unbound : bind.pc.isBound = false) :
    ∀ can ∈ bind.ndev.held,
      can.running = false ∧ can.restartWork = false := by
  intro can held
  have down := sound.down unbound can held
  refine ⟨down, Bool.eq_false_of_not_eq_true (fun scheduled => ?_)⟩
  exact
    absurd (sound.timed can held scheduled) (ne_true_of_eq_false down)

/-- A step between two visible points that leaves the device alone. -/
theorem Sound.move {pc : CanPc} (sound : bind.Sound)
    (visible : bind.pc.isVisible = true) (still : pc.isVisible = true)
    (unbound : bind.pc.isBound = false) : { bind with pc }.Sound where
  live _ := sound.live (CanPc.isFilled_of_isVisible visible)
  visible _ := sound.visible visible
  delivered delivery runs := ⟨(sound.delivered delivery runs).1, still⟩
  timed := sound.timed
  up can held up := absurd up (ne_true_of_eq_false (sound.down unbound can held))

/-- A bind whose device is not filled in, or no more. -/
theorem sound_of_unfilled (unfilled : bind.pc.isFilled = false)
    (noDelivery : bind.delivery = none)
    (idle : ∀ can ∈ bind.ndev.held,
      can.running = false ∧ can.restartWork = false) : bind.Sound := by
  refine sound_of_unseen ?_ ?_ noDelivery idle
  · refine Bool.eq_false_of_not_eq_true (fun visible => ?_)
    exact
      absurd (CanPc.isFilled_of_isVisible visible)
        (ne_true_of_eq_false unfilled)
  · exact fun filled => absurd filled (ne_true_of_eq_false unfilled)

/-- A step to a point at which the device is filled in no more. -/
theorem Sound.retire {pc : CanPc} {drvdata : Bool} (sound : bind.Sound)
    (unbound : bind.pc.isBound = false) (noDelivery : bind.delivery = none)
    (unfilled : pc.isFilled = false) : { bind with pc, drvdata }.Sound :=
  sound_of_unfilled unfilled noDelivery (sound.idle_device unbound)

/-- The device may be freed when it is filled in no more. -/
theorem Sound.free (sound : bind.Sound) (unbound : bind.pc.isBound = false)
    (noDelivery : bind.delivery = none)
    (unfilled : bind.pc.isFilled = false) :
    { bind with ndev := bind.ndev.free }.Sound := by
  refine sound_of_unfilled unfilled noDelivery ?_
  intro can held
  refine sound.idle_device unbound can ?_
  rw [← PrivateData.held_free]
  exact held

theorem sound_advance (sound : bind.Sound) {answer : Bool}
    (inTime : bind.InTime (.advance answer)) : (bind.advance answer).Sound := by
  rcases bind with ⟨pc, drvdata, ndev, delivery⟩
  cases pc with
  | start =>
      have noDelivery := sound.idle rfl
      cases answer with
      | false => exact sound.retire rfl noDelivery rfl
      | true =>
          refine sound_of_unfilled rfl noDelivery ?_
          intro can none
          cases none
  | allocated =>
      refine sound_of_unseen rfl ?_ (sound.idle rfl) ?_
      · intro _
        exact ⟨rpmsgCanInit, rfl⟩
      · rintro can ⟨⟩
        exact ⟨rfl, rfl⟩
  | filled =>
      have noDelivery : delivery = none := sound.idle rfl
      subst noDelivery
      exact
        { live := fun _ => sound.live rfl
          visible := fun _ => rfl
          delivered := fun _ runs => by cases runs
          timed := sound.timed
          up := fun can held up =>
            absurd up
              (ne_true_of_eq_false (sound.down rfl can held)) }
  | visible =>
      cases answer with
      | false => exact sound.move rfl rfl rfl
      | true => exact sound.move rfl rfl rfl
  | refused =>
      have noDelivery : delivery = none := inTime rfl
      have retired : CanBind.Sound ⟨.failed, drvdata, ndev, delivery⟩ :=
        sound.retire rfl noDelivery rfl
      exact retired.free rfl noDelivery rfl
  | bound =>
      rcases sound.live rfl with ⟨can, ready⟩
      obtain rfl : ndev = .ready can := ready
      have timed : can.TimedUp := sound.timed can rfl
      refine
        { live := fun _ => ⟨_, rfl⟩
          visible := fun _ => sound.visible rfl
          delivered := fun delivery runs =>
            ⟨(sound.delivered delivery runs).1, rfl⟩
          timed := ?_
          up := ?_ }
      · rintro _ ⟨⟩
        exact timed.devClose answer
      · rintro _ ⟨⟩ up
        exact absurd up (ne_true_of_eq_false (RpmsgCan.running_devClose answer))
  | unregistered =>
      have noDelivery : delivery = none := inTime rfl
      have retired : CanBind.Sound ⟨.freed, drvdata, ndev, delivery⟩ :=
        sound.retire rfl noDelivery rfl
      exact retired.free rfl noDelivery rfl
  | freed => exact sound.retire rfl (sound.idle rfl) rfl
  | removed =>
      cases delivery with
      | some _ => exact sound
      | none => exact sound.retire rfl rfl rfl
  | failed =>
      cases delivery with
      | some _ => exact sound
      | none => exact sound.retire rfl rfl rfl
  | closed => exact sound.retire rfl (sound.idle rfl) rfl
  | unbound => exact sound

theorem sound_message (sound : bind.Sound) {data : List UInt8}
    (inTime : bind.InTime (.message data)) :
    (bind.step (.message data)).Sound := by
  rcases bind with ⟨pc, drvdata, ndev, delivery⟩
  cases delivery with
  | some _ => exact sound
  | none =>
      simp only [step]
      split_ifs with hasEndpoint
      · have visible : pc.isVisible = true := inTime hasEndpoint
        refine { sound with delivered := ?_ }
        rintro _ ⟨⟩
        exact ⟨sound.visible visible, visible⟩
      · exact sound

/-- A change of a live device that leaves it up or down. -/
theorem Sound.modify (sound : bind.Sound) {change : RpmsgCan → RpmsgCan}
    (timed : ∀ can ∈ bind.ndev.held, can.TimedUp → (change can).TimedUp)
    (up : ∀ can, (change can).running = can.running) :
    { bind with ndev := bind.ndev.modify change }.Sound := by
  rcases bind with ⟨pc, drvdata, ndev, delivery⟩
  cases ndev with
  | absent => exact sound
  | raw => exact sound
  | freed can => exact sound
  | ready can =>
      refine
        { live := fun _ => ⟨_, rfl⟩
          visible := sound.visible
          delivered := sound.delivered
          timed := ?_
          up := ?_ }
      · rintro _ ⟨⟩
        exact timed can rfl (sound.timed can rfl)
      · rintro _ ⟨⟩ running
        exact sound.up can rfl ((up can).symm.trans running)

theorem Sound.finish (sound : bind.Sound) :
    { bind with delivery := none }.Sound where
  live := sound.live
  visible := sound.visible
  delivered _ runs := by cases runs
  timed := sound.timed
  up := sound.up

theorem sound_callback (sound : bind.Sound) {allocated : Bool}
    (inTime : bind.InTime (.callback allocated)) :
    (bind.step (.callback allocated)).Sound := by
  rcases bind with ⟨pc, drvdata, ndev, delivery⟩
  cases delivery with
  | none => exact sound
  | some delivery =>
      rcases sound.delivered delivery rfl with ⟨set, -⟩
      simp only [step, if_pos set]
      refine sound.finish.modify ?_ ?_
      · intro can held timed
        exact
          RpmsgCan.timedUp_message timed
            (fun reported => inTime delivery rfl reported can held) allocated
      · intro can
        exact RpmsgCan.running_message delivery.data allocated

theorem sound_restartWork (sound : bind.Sound) (queued : Bool) :
    (bind.step (.restartWork queued)).Sound := by
  refine sound.modify ?_ ?_
  · intro can _ timed
    exact RpmsgCan.timedUp_restartWork timed queued
  · intro can
    exact RpmsgCan.running_restartWork queued

/-- The kernel calls into a device only while it is registered. -/
theorem sound_call (sound : bind.Sound) (act : CanAct) :
    (bind.step (.call act)).Sound := by
  rcases bind with ⟨pc, drvdata, ndev, delivery⟩
  simp only [step]
  split_ifs with call
  · rcases call with ⟨bound, isCall⟩
    cases ndev with
    | absent => exact sound
    | raw => exact sound
    | freed can => exact sound
    | ready can =>
        refine
          { live := fun _ => ⟨_, rfl⟩
            visible := sound.visible
            delivered := sound.delivered
            timed := ?_
            up := fun _ _ _ => bound }
        rintro _ ⟨⟩
        exact RpmsgCan.timedUp_call (sound.timed can rfl) isCall
  · exact sound

theorem sound_step (sound : bind.Sound) {act : CanBindAct}
    (inTime : bind.InTime act) : (bind.step act).Sound := by
  cases act with
  | advance answer => exact sound_advance sound inTime
  | message data => exact sound_message sound inTime
  | callback allocated => exact sound_callback sound inTime
  | call act => exact sound_call sound act
  | restartWork queued => exact sound_restartWork sound queued

theorem callbackSafe_of_sound (sound : bind.Sound) (act : CanBindAct) :
    bind.CallbackSafe act := by
  cases act with
  | advance answer => trivial
  | message data => trivial
  | call act => trivial
  | callback allocated =>
      intro delivery runs
      rcases sound.delivered delivery runs with ⟨set, visible⟩
      exact ⟨set, sound.live (CanPc.isFilled_of_isVisible visible)⟩
  | restartWork queued =>
      rintro ⟨can, held, scheduled⟩
      have bound := sound.up can held (sound.timed can held scheduled)
      exact sound.live (CanPc.isFilled_of_isBound bound)

theorem timerOver_of_sound (sound : bind.Sound) : bind.TimerOver := by
  intro isOver
  exact sound.not_pending (CanPc.isBound_of_isOver isOver)

end

/-- In a bind whose messages come in time, every callback is safe. -/
theorem safe_along (acts : List CanBindAct)
    (inTime : Trace.Along step InTime start acts) :
    Trace.Along step
      (fun bind act => bind.CallbackSafe act ∧ (bind.step act).TimerOver)
      start acts := by
  have keeps : ∀ bind act, Sound bind → InTime bind act →
      (bind.step act).Sound :=
    fun _ _ sound inTime => sound_step sound inTime
  refine Trace.along_of_invariant keeps ?_ sound_start inTime
  intro bind act sound inTime
  exact
    ⟨callbackSafe_of_sound sound act,
      timerOver_of_sound (sound_step sound inTime)⟩

instance (bind : CanBind) : ∀ act, Decidable (bind.InTime act)
  | .advance _ => inferInstanceAs (Decidable (_ → _))
  | .message _ => inferInstanceAs (Decidable (_ → _))
  | .callback _ =>
      inferInstanceAs
        (Decidable
          (∀ delivery ∈ bind.delivery,
            CanState.reported delivery.data = some .busOff →
              ∀ can ∈ bind.ndev.held,
                can.running = true ∨ can.restartMs = 0 ∨
                  can.state = .busOff))
  | .call _ => .isTrue trivial
  | .restartWork _ => .isTrue trivial

/-- The next steps of a bind, each after the one before. -/
def advances (count : Nat) : List CanBindAct :=
  List.replicate count (.advance true)

/-- A message whose callback runs at once. -/
def deliver (data : List UInt8) : List CanBindAct :=
  [.message data, .callback true]

end CanBind

/-! ## Both drivers -/

/--
In every bind of either driver whose messages come in time, each callback runs
on private data that is initialised and not freed, and no timer is pending once
the bind is over.
-/
theorem binds_safe (keepalive : List KeepaliveBindAct)
    (can : List CanBindAct) :
    (Trace.Along KeepaliveBind.step KeepaliveBind.InTime
        KeepaliveBind.start keepalive →
      Trace.Along KeepaliveBind.step
        (fun bind act => bind.CallbackSafe act ∧ (bind.step act).TimerOver)
        KeepaliveBind.start keepalive) ∧
    (Trace.Along CanBind.step CanBind.InTime CanBind.start can →
      Trace.Along CanBind.step
        (fun bind act => bind.CallbackSafe act ∧ (bind.step act).TimerOver)
        CanBind.start can) :=
  ⟨KeepaliveBind.safe_along keepalive, CanBind.safe_along can⟩

/-- A message that comes in while the driver is bound. -/
theorem binds_safe_bound :
    Trace.Along KeepaliveBind.step
      (fun bind act => bind.CallbackSafe act ∧ (bind.step act).TimerOver)
      KeepaliveBind.start
      (KeepaliveBind.advances 5 ++
        KeepaliveBind.deliver KeepaliveBind.firstMessage ++
        KeepaliveBind.advances 4) ∧
    Trace.Along CanBind.step
      (fun bind act => bind.CallbackSafe act ∧ (bind.step act).TimerOver)
      CanBind.start
      (CanBind.advances 4 ++ CanBind.deliver (RpmsgCan.report 3) ++
        CanBind.advances 5) := by
  have safe :=
    binds_safe
      (KeepaliveBind.advances 5 ++
        KeepaliveBind.deliver KeepaliveBind.firstMessage ++
        KeepaliveBind.advances 4)
      (CanBind.advances 4 ++ CanBind.deliver (RpmsgCan.report 3) ++
        CanBind.advances 5)
  exact ⟨safe.1 (by decide +kernel), safe.2 (by decide +kernel)⟩

/--
A message before `dev_set_drvdata` finds no private data; one after
`timer_delete_sync` arms the timer again; one after `free_candev` finds a freed
device; and a report of a bus-off leaves a restart scheduled on a freed one.
-/
theorem not_binds_safe :
    (∀ acts ∈
        [KeepaliveBind.advances 2 ++
            KeepaliveBind.deliver KeepaliveBind.firstMessage,
          KeepaliveBind.advances 6 ++
            KeepaliveBind.deliver KeepaliveBind.firstMessage ++
            KeepaliveBind.advances 1],
      ¬ Trace.Along KeepaliveBind.step
          (fun bind act => bind.CallbackSafe act ∧ (bind.step act).TimerOver)
          KeepaliveBind.start acts) ∧
    ∀ acts ∈
        [CanBind.advances 2 ++ CanBind.deliver (RpmsgCan.report 0),
          CanBind.advances 6 ++ CanBind.deliver (RpmsgCan.report 0),
          CanBind.advances 4 ++ [.call (.changelink 500000 0 100)] ++
            CanBind.deliver (RpmsgCan.report 3) ++ CanBind.advances 3],
      ¬ Trace.Along CanBind.step
          (fun bind act => bind.CallbackSafe act ∧ (bind.step act).TimerOver)
          CanBind.start acts := by
  decide +kernel

end KmmYocto
