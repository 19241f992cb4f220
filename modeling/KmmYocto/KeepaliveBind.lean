import KmmYocto.Keepalive
import KmmYocto.Trace

/-!
# Bind and unbind of the keepalive driver

The core creates the endpoint before it calls `mcka_probe` and destroys it
after `mcka_remove`, so messages come in from before the first statement of
the one until after the last of the other.  The callback reads the private
data when it starts and works on it under the lock; the endpoint is destroyed
only when no callback runs, and `timer_delete_sync` waits for the handler.

The memory of the private data is followed through allocation, use and
release, and any pending timer may expire at any time.
-/

namespace KmmYocto

/-- The memory of the private data of a driver. -/
inductive PrivateData (Value : Type) where
  | absent
  /-- Allocated, and not filled in. -/
  | raw
  | ready (value : Value)
  /-- Freed, with what it held. -/
  | freed (value : Value)
deriving DecidableEq, Repr

namespace PrivateData

variable
    {Value : Type}

/-- What the memory holds. -/
def held : PrivateData Value → Option Value
  | .absent => none
  | .raw => none
  | .ready value => some value
  | .freed value => some value

/-- The memory is initialised and not freed. -/
def Live (memory : PrivateData Value) : Prop :=
  ∃ value, memory = .ready value

def isReady : PrivateData Value → Bool
  | .ready _ => true
  | _ => false

theorem isReady_iff_live (memory : PrivateData Value) :
    memory.isReady = true ↔ memory.Live := by
  cases memory with
  | absent => simp [isReady, Live]
  | raw => simp [isReady, Live]
  | ready value => simp [isReady, Live]
  | freed value => simp [isReady, Live]

instance (memory : PrivateData Value) : Decidable memory.Live :=
  decidable_of_iff _ memory.isReady_iff_live

/-- A write to live memory; elsewhere it is not defined what it does. -/
def modify (change : Value → Value) : PrivateData Value → PrivateData Value
  | .absent => .absent
  | .raw => .raw
  | .ready value => .ready (change value)
  | .freed value => .freed value

def free : PrivateData Value → PrivateData Value
  | .absent => .absent
  | .raw => .absent
  | .ready value => .freed value
  | .freed value => .freed value

theorem Live.modify {memory : PrivateData Value} (live : memory.Live)
    (change : Value → Value) : (memory.modify change).Live := by
  rcases live with ⟨value, rfl⟩
  exact ⟨change value, rfl⟩

@[simp]
theorem held_free (memory : PrivateData Value) :
    memory.free.held = memory.held := by
  cases memory <;> rfl

end PrivateData

/-- A message whose callback runs. -/
structure Delivery where
  /-- `dev_get_drvdata` gave private data. -/
  drvdata : Bool
  data : List UInt8
deriving DecidableEq, Repr

/-- How far a bind of `mcore-keepalive` has come. -/
inductive KeepalivePc where
  /-- The endpoint is created, `mcka_probe` is called. -/
  | start
  | allocated
  | filled
  /-- `dev_set_drvdata` is done. -/
  | visible
  | greeted
  /-- The timer is armed and `mcka_probe` has returned. -/
  | bound
  /-- `timer_delete_sync` is done. -/
  | stopped
  /-- `mcka_remove` has returned. -/
  | removed
  /-- `mcka_probe` has returned an error. -/
  | failed
  /-- The endpoint is destroyed. -/
  | closed
  /-- The private data is freed. -/
  | unbound
deriving DecidableEq, Repr

namespace KeepalivePc

/-- The endpoint exists. -/
def hasEndpoint : KeepalivePc → Bool
  | .closed => false
  | .unbound => false
  | _ => true

/-- The private data is filled in and the endpoint exists. -/
def isFilled : KeepalivePc → Bool
  | .filled => true
  | .visible => true
  | .greeted => true
  | .bound => true
  | .stopped => true
  | .removed => true
  | _ => false

/-- The callback finds the private data. -/
def isVisible : KeepalivePc → Bool
  | .filled => false
  | pc => pc.isFilled

/-- The timer may be armed. -/
def mayTime : KeepalivePc → Bool
  | .stopped => false
  | .removed => false
  | pc => pc.isVisible

/-- `mcka_remove` has returned, or `mcka_probe` has failed. -/
def isOver : KeepalivePc → Bool
  | .removed => true
  | .failed => true
  | .closed => true
  | .unbound => true
  | _ => false

section

variable
    {pc : KeepalivePc}

theorem isFilled_of_isVisible (visible : pc.isVisible = true) :
    pc.isFilled = true := by
  cases pc <;> first | rfl | cases visible

theorem isVisible_of_mayTime (times : pc.mayTime = true) :
    pc.isVisible = true := by
  cases pc <;> first | rfl | cases times

theorem mayTime_of_isOver (isOver : pc.isOver = true) :
    pc.mayTime = false := by
  cases pc <;> first | rfl | cases isOver

/-- What can be seen has its timer, or the timer is deleted. -/
theorem mayTime_or_of_isVisible (visible : pc.isVisible = true) :
    pc.mayTime = true ∨ pc = .stopped ∨ pc = .removed := by
  cases pc with
  | visible => exact .inl rfl
  | greeted => exact .inl rfl
  | bound => exact .inl rfl
  | stopped => exact .inr (.inl rfl)
  | removed => exact .inr (.inr rfl)
  | start => cases visible
  | allocated => cases visible
  | filled => cases visible
  | failed => cases visible
  | closed => cases visible
  | unbound => cases visible

end

end KeepalivePc

/-- One bind of `mcore-keepalive`. -/
structure KeepaliveBind where
  pc : KeepalivePc
  /-- The drvdata of the device is set. -/
  drvdata : Bool
  p : PrivateData Mcka
  delivery : Option Delivery
  /-- The limit read by an `mcka_timeout` that runs. -/
  handler : Option Nat

/-- One step; each may happen at any time and find any limit. -/
inductive KeepaliveBindAct where
  /-- The next step of the bind; `allocated` is what `devm_kzalloc` gave. -/
  | advance (allocated : Bool) (now limit : Nat)
  /-- A message comes in and its callback starts. -/
  | message (data : List UInt8)
  /-- The callback does its work. -/
  | callback (now limit : Nat)
  /-- A pending timer expires and its handler starts. -/
  | fire (limit : Nat)
  | handle (now : Nat)
deriving DecidableEq, Repr

namespace KeepaliveBind

def start : KeepaliveBind where
  pc := .start
  drvdata := false
  p := .absent
  delivery := none
  handler := none

/-- The timer is in the list of the kernel. -/
def Pending (bind : KeepaliveBind) : Prop :=
  ∃ p ∈ bind.p.held, p.timer ≠ none

/-- The next step of `mcka_probe`, `mcka_remove` or the core. -/
def advance (allocated : Bool) (now limit : Nat) (bind : KeepaliveBind) :
    KeepaliveBind :=
  match bind.pc with
  | .start =>
      if allocated then { bind with pc := .allocated, p := .raw }
      else { bind with pc := .failed }
  | .allocated =>
      { bind with pc := .filled, p := .ready (mckaInit now) }
  | .filled => { bind with pc := .visible, drvdata := true }
  | .visible => { bind with pc := .greeted }
  | .greeted =>
      { bind with pc := .bound, p := bind.p.modify (Mcka.arm limit) }
  | .bound =>
      match bind.handler with
      | some _ => bind
      | none =>
          { bind with
            pc := .stopped
            p := bind.p.modify fun p => { p with timer := none } }
  | .stopped => { bind with pc := .removed }
  | .removed =>
      match bind.delivery with
      | some _ => bind
      | none => { bind with pc := .closed }
  | .failed =>
      match bind.delivery with
      | some _ => bind
      | none => { bind with pc := .closed }
  | .closed =>
      { bind with pc := .unbound, drvdata := false, p := bind.p.free }
  | .unbound => bind

def step (bind : KeepaliveBind) : KeepaliveBindAct → KeepaliveBind
  | .advance allocated now limit => bind.advance allocated now limit
  | .message data =>
      match bind.delivery with
      | some _ => bind
      | none =>
          if bind.pc.hasEndpoint then
            { bind with delivery := some { drvdata := bind.drvdata, data } }
          else bind
  | .callback now limit =>
      match bind.delivery with
      | some delivery =>
          { bind with
            delivery := none
            p :=
              if delivery.drvdata then
                bind.p.modify (mckaCb limit now delivery.data)
              else bind.p }
      | none => bind
  | .fire limit =>
      match bind.p, bind.handler with
      | .ready p, none =>
          if p.timer = none then bind
          else
            { bind with
              p := .ready { p with timer := none }
              handler := some limit }
      | _, _ => bind
  | .handle now =>
      match bind.handler with
      | some limit =>
          { bind with
            p := bind.p.modify (mckaTimeout limit now)
            handler := none }
      | none => bind

/-- A callback, of the channel or of the timer, runs on live private data. -/
def CallbackSafe (bind : KeepaliveBind) : KeepaliveBindAct → Prop
  | .callback _ _ =>
      ∀ delivery ∈ bind.delivery, delivery.drvdata = true ∧ bind.p.Live
  | .handle _ => bind.handler ≠ none → bind.p.Live
  | _ => True

instance (bind : KeepaliveBind) : Decidable bind.Pending :=
  inferInstanceAs (Decidable (∃ p ∈ bind.p.held, p.timer ≠ none))

instance (bind : KeepaliveBind) : ∀ act, Decidable (bind.CallbackSafe act)
  | .callback _ _ =>
      inferInstanceAs
        (Decidable
          (∀ delivery ∈ bind.delivery,
            delivery.drvdata = true ∧ bind.p.Live))
  | .handle _ =>
      inferInstanceAs (Decidable (bind.handler ≠ none → bind.p.Live))
  | .advance _ _ _ => .isTrue trivial
  | .message _ => .isTrue trivial
  | .fire _ => .isTrue trivial

/-- Once `mcka_remove` has returned no timer is pending. -/
def TimerOver (bind : KeepaliveBind) : Prop :=
  bind.pc.isOver = true → ¬ bind.Pending

instance (bind : KeepaliveBind) : Decidable bind.TimerOver :=
  inferInstanceAs (Decidable (_ → ¬ bind.Pending))

/--
No message comes in before `dev_set_drvdata`, and no callback of a valid one
does its work after `timer_delete_sync`.
-/
def InTime (bind : KeepaliveBind) : KeepaliveBindAct → Prop
  | .message _ => bind.pc.hasEndpoint = true → bind.drvdata = true
  | .callback _ _ =>
      ∀ delivery ∈ bind.delivery, delivery.drvdata = true →
        bind.pc = .stopped ∨ bind.pc = .removed →
          mckaMsg delivery.data = none
  | _ => True

/-- What holds at any point of a bind whose messages come in time. -/
structure Sound (bind : KeepaliveBind) : Prop where
  live : bind.pc.isFilled = true → bind.p.Live
  visible : bind.pc.isVisible = true → bind.drvdata = true
  hidden :
    bind.pc.hasEndpoint = true → bind.drvdata = true →
      bind.pc.isVisible = true
  delivered :
    ∀ delivery ∈ bind.delivery,
      delivery.drvdata = true ∧ bind.pc.isVisible = true
  handled : bind.handler ≠ none → bind.pc.mayTime = true
  timed : bind.Pending → bind.pc.mayTime = true

section

variable
    {bind : KeepaliveBind}

theorem not_pending_of_timer {p : Mcka} (held : bind.p.held = some p)
    (timer : p.timer = none) : ¬ bind.Pending := by
  rintro ⟨other, same, pending⟩
  rw [held] at same
  cases same
  exact pending timer

theorem sound_start : start.Sound where
  live filled := by cases filled
  visible visible := by cases visible
  hidden _ set := by cases set
  delivered _ runs := by cases runs
  handled runs := absurd rfl runs
  timed pending := by
    rcases pending with ⟨_, none, -⟩
    cases none

/-- Where the callback finds no private data nothing runs on it. -/
theorem Sound.idle (sound : bind.Sound)
    (unseen : bind.pc.isVisible = false) :
    bind.delivery = none ∧ bind.handler = none ∧ ¬ bind.Pending := by
  have unseen' : ¬ bind.pc.isVisible = true := ne_true_of_eq_false unseen
  refine ⟨?_, ?_, ?_⟩
  · by_contra runs
    rcases Option.ne_none_iff_exists'.mp runs with ⟨delivery, runs⟩
    exact unseen' (sound.delivered delivery runs).2
  · by_contra runs
    exact
      unseen' (KeepalivePc.isVisible_of_mayTime (sound.handled runs))
  · intro pending
    exact
      unseen' (KeepalivePc.isVisible_of_mayTime (sound.timed pending))

/-- A bind whose private data nothing can see. -/
theorem sound_of_unseen (unseen : bind.pc.isVisible = false)
    (unset : bind.pc.hasEndpoint = true → bind.drvdata = false)
    (live : bind.pc.isFilled = true → bind.p.Live)
    (noDelivery : bind.delivery = none) (noHandler : bind.handler = none)
    (noTimer : ¬ bind.Pending) : bind.Sound where
  live := live
  visible visible := absurd visible (ne_true_of_eq_false unseen)
  hidden hasEndpoint set :=
    absurd set (ne_true_of_eq_false (unset hasEndpoint))
  delivered _ runs := by
    rw [noDelivery] at runs
    cases runs
  handled runs := absurd noHandler runs
  timed pending := absurd pending noTimer

/-- A step that leaves the private data and what runs on it alone. -/
theorem Sound.move {pc : KeepalivePc} {drvdata : Bool}
    (sound : bind.Sound)
    (filled : pc.isFilled = true → bind.pc.isFilled = true)
    (visible : pc.isVisible = true → drvdata = true)
    (hidden : pc.hasEndpoint = true → drvdata = true → pc.isVisible = true)
    (delivered : bind.delivery ≠ none → bind.pc.isVisible = true →
      pc.isVisible = true)
    (times : bind.pc.mayTime = true → pc.mayTime = true) :
    { bind with pc, drvdata }.Sound where
  live now := sound.live (filled now)
  visible := visible
  hidden := hidden
  delivered delivery runs :=
    have before := sound.delivered delivery runs
    ⟨before.1, delivered (Option.ne_none_iff_exists'.mpr ⟨_, runs⟩) before.2⟩
  handled runs := times (sound.handled runs)
  timed pending := times (sound.timed pending)

/-- A step of a visible bind that changes the private data and keeps its pc. -/
theorem Sound.withData {p : PrivateData Mcka} {pc : KeepalivePc}
    (sound : bind.Sound)
    (visible : bind.pc.isVisible = true) (still : pc.isVisible = true)
    (live : p.Live)
    (handled : bind.handler ≠ none → pc.mayTime = true)
    (timed : (∃ q ∈ p.held, q.timer ≠ none) → pc.mayTime = true) :
    { bind with pc, p }.Sound where
  live _ := live
  visible _ := sound.visible visible
  hidden _ _ := still
  delivered delivery runs := ⟨(sound.delivered delivery runs).1, still⟩
  handled := handled
  timed := timed

/-- Before and after it can be seen the private data is not published. -/
theorem Sound.unset (sound : bind.Sound)
    (hasEndpoint : bind.pc.hasEndpoint = true)
    (unseen : bind.pc.isVisible = false) : bind.drvdata = false := by
  refine Bool.eq_false_of_not_eq_true (fun set => ?_)
  exact absurd (sound.hidden hasEndpoint set) (ne_true_of_eq_false unseen)

/-- After the timer is deleted no handler runs and no timer is pending. -/
theorem Sound.untimed (sound : bind.Sound)
    (untimed : bind.pc.mayTime = false) :
    bind.handler = none ∧ ¬ bind.Pending := by
  constructor
  · by_contra runs
    exact absurd (sound.handled runs) (ne_true_of_eq_false untimed)
  · intro pending
    exact absurd (sound.timed pending) (ne_true_of_eq_false untimed)

theorem sound_advance (sound : bind.Sound) (allocated : Bool)
    (now limit : Nat) : (bind.advance allocated now limit).Sound := by
  rcases bind with ⟨pc, drvdata, p, delivery, handler⟩
  cases pc with
  | start =>
      rcases sound.idle rfl with ⟨noDelivery, noHandler, noTimer⟩
      have unset := sound.unset rfl rfl
      cases allocated with
      | false =>
          refine sound_of_unseen rfl (fun _ => unset) ?_ noDelivery noHandler
            noTimer
          intro filled
          cases filled
      | true =>
          refine sound_of_unseen rfl (fun _ => unset) ?_ noDelivery noHandler
            ?_
          · intro filled
            cases filled
          · rintro ⟨_, none, -⟩
            cases none
  | allocated =>
      rcases sound.idle rfl with ⟨noDelivery, noHandler, -⟩
      have unset := sound.unset rfl rfl
      refine sound_of_unseen rfl (fun _ => unset) ?_ noDelivery noHandler ?_
      · intro _
        exact ⟨mckaInit now, rfl⟩
      · exact not_pending_of_timer rfl rfl
  | filled =>
      refine sound.move ?_ ?_ ?_ ?_ ?_
      · exact fun _ => rfl
      · exact fun _ => rfl
      · exact fun _ _ => rfl
      · exact fun _ _ => rfl
      · exact fun _ => rfl
  | visible =>
      refine sound.move ?_ ?_ ?_ ?_ ?_
      · exact fun _ => rfl
      · exact fun _ => sound.visible rfl
      · exact fun _ _ => rfl
      · exact fun _ _ => rfl
      · exact fun _ => rfl
  | greeted =>
      have live : p.Live := sound.live rfl
      exact
        sound.withData rfl rfl (live.modify _) (fun _ => rfl) (fun _ => rfl)
  | bound =>
      cases handler with
      | some _ => exact sound
      | none =>
          rcases sound.live rfl with ⟨value, ready⟩
          obtain rfl : p = .ready value := ready
          refine sound.withData rfl rfl ⟨_, rfl⟩ (absurd rfl) ?_
          rintro ⟨q, held, pending⟩
          cases held
          exact absurd rfl pending
  | stopped =>
      refine sound.move ?_ ?_ ?_ ?_ ?_
      · exact fun _ => rfl
      · exact fun _ => sound.visible rfl
      · exact fun _ _ => rfl
      · exact fun _ _ => rfl
      · exact id
  | removed =>
      cases delivery with
      | some _ => exact sound
      | none =>
          rcases sound.untimed rfl with ⟨noHandler, noTimer⟩
          refine sound_of_unseen rfl ?_ ?_ rfl noHandler noTimer
          · intro never
            cases never
          · intro never
            cases never
  | failed =>
      cases delivery with
      | some _ => exact sound
      | none =>
          rcases sound.untimed rfl with ⟨noHandler, noTimer⟩
          refine sound_of_unseen rfl ?_ ?_ rfl noHandler noTimer
          · intro never
            cases never
          · intro never
            cases never
  | closed =>
      rcases sound.idle rfl with ⟨noDelivery, noHandler, noTimer⟩
      refine sound_of_unseen rfl (fun _ => rfl) ?_ noDelivery noHandler ?_
      · intro never
        cases never
      · rintro ⟨q, held, pending⟩
        have before : q ∈ p.held := by
          rw [← PrivateData.held_free]
          exact held
        exact noTimer ⟨q, before, pending⟩
  | unbound => exact sound

/-- A message that comes in time finds the private data. -/
theorem sound_message (sound : bind.Sound) {data : List UInt8}
    (inTime : bind.InTime (.message data)) :
    (bind.step (.message data)).Sound := by
  rcases bind with ⟨pc, drvdata, p, delivery, handler⟩
  cases delivery with
  | some _ => exact sound
  | none =>
      simp only [step]
      split_ifs with hasEndpoint
      · have set : drvdata = true := inTime hasEndpoint
        refine
          { sound with
            delivered := ?_ }
        rintro _ ⟨⟩
        exact ⟨set, sound.hidden hasEndpoint set⟩
      · exact sound

/-- The handler leaves the list of timers as it is. -/
theorem timer_of_mckaTimeout {p : PrivateData Mcka} {limit now : Nat}
    (pending :
      ∃ q ∈ (p.modify (mckaTimeout limit now)).held, q.timer ≠ none) :
    ∃ q ∈ p.held, q.timer ≠ none := by
  rcases pending with ⟨q, held, pending⟩
  cases p with
  | absent => cases held
  | raw => cases held
  | ready value =>
      cases held
      rw [timer_mckaTimeout] at pending
      exact ⟨value, rfl, pending⟩
  | freed value => exact ⟨q, held, pending⟩

/-- Only a valid message arms the timer. -/
theorem timer_of_mckaCb {p : PrivateData Mcka} {data : List UInt8}
    {limit now : Nat} (bad : mckaMsg data = none)
    (pending :
      ∃ q ∈ (p.modify (mckaCb limit now data)).held, q.timer ≠ none) :
    ∃ q ∈ p.held, q.timer ≠ none := by
  rcases pending with ⟨q, held, pending⟩
  cases p with
  | absent => cases held
  | raw => cases held
  | ready value =>
      cases held
      rw [mckaCb_bad _ _ _ bad] at pending
      exact ⟨value, rfl, pending⟩
  | freed value => exact ⟨q, held, pending⟩

theorem Sound.finish (sound : bind.Sound) :
    { bind with delivery := none }.Sound where
  live := sound.live
  visible := sound.visible
  hidden := sound.hidden
  delivered _ runs := by cases runs
  handled := sound.handled
  timed := sound.timed

/-- No valid message arms the timer after its deletion. -/
theorem sound_callback (sound : bind.Sound) {now limit : Nat}
    (inTime : bind.InTime (.callback now limit)) :
    (bind.step (.callback now limit)).Sound := by
  rcases bind with ⟨pc, drvdata, p, delivery, handler⟩
  cases delivery with
  | none => exact sound
  | some delivery =>
      rcases sound.delivered delivery rfl with ⟨set, visible⟩
      have live : p.Live := sound.live (KeepalivePc.isFilled_of_isVisible visible)
      simp only [step, if_pos set]
      refine
        sound.finish.withData visible visible (live.modify _) sound.handled ?_
      intro pending
      rcases KeepalivePc.mayTime_or_of_isVisible visible with times | late
      · exact times
      · have bad := inTime delivery rfl set late
        exact sound.timed (timer_of_mckaCb bad pending)

theorem sound_fire (sound : bind.Sound) (limit : Nat) :
    (bind.step (.fire limit)).Sound := by
  rcases bind with ⟨pc, drvdata, p, delivery, handler⟩
  cases p with
  | absent => exact sound
  | raw => exact sound
  | freed value => exact sound
  | ready value =>
      cases handler with
      | some _ => exact sound
      | none =>
          simp only [step]
          split_ifs with idle
          · exact sound
          · have times : pc.mayTime = true := sound.timed ⟨value, rfl, idle⟩
            have visible := KeepalivePc.isVisible_of_mayTime times
            exact
              { live := fun _ => ⟨_, rfl⟩
                visible := sound.visible
                hidden := sound.hidden
                delivered := sound.delivered
                handled := fun _ => times
                timed := fun _ => times }

theorem sound_handle (sound : bind.Sound) (now : Nat) :
    (bind.step (.handle now)).Sound := by
  rcases bind with ⟨pc, drvdata, p, delivery, handler⟩
  cases handler with
  | none => exact sound
  | some limit =>
      exact
        { live := fun filled => (sound.live filled).modify _
          visible := sound.visible
          hidden := sound.hidden
          delivered := sound.delivered
          handled := absurd rfl
          timed := fun pending => sound.timed (timer_of_mckaTimeout pending) }

theorem sound_step (sound : bind.Sound) {act : KeepaliveBindAct}
    (inTime : bind.InTime act) : (bind.step act).Sound := by
  cases act with
  | advance allocated now limit => exact sound_advance sound allocated now limit
  | message data => exact sound_message sound inTime
  | callback now limit => exact sound_callback sound inTime
  | fire limit => exact sound_fire sound limit
  | handle now => exact sound_handle sound now

theorem callbackSafe_of_sound (sound : bind.Sound) (act : KeepaliveBindAct) :
    bind.CallbackSafe act := by
  cases act with
  | advance allocated now limit => trivial
  | message data => trivial
  | fire limit => trivial
  | callback now limit =>
      intro delivery runs
      rcases sound.delivered delivery runs with ⟨set, visible⟩
      exact ⟨set, sound.live (KeepalivePc.isFilled_of_isVisible visible)⟩
  | handle now =>
      intro runs
      have visible := KeepalivePc.isVisible_of_mayTime (sound.handled runs)
      exact sound.live (KeepalivePc.isFilled_of_isVisible visible)

theorem timerOver_of_sound (sound : bind.Sound) : bind.TimerOver := by
  intro isOver pending
  have untimed := KeepalivePc.mayTime_of_isOver isOver
  exact absurd (sound.timed pending) (ne_true_of_eq_false untimed)

end

/-- In a bind whose messages come in time, every callback is safe. -/
theorem safe_along (acts : List KeepaliveBindAct)
    (inTime : Trace.Along step InTime start acts) :
    Trace.Along step
      (fun bind act => bind.CallbackSafe act ∧ (bind.step act).TimerOver)
      start acts := by
  have keeps : ∀ bind act, Sound bind → InTime bind act →
      (bind.step act).Sound :=
    fun _ _ sound inTime => sound_step sound inTime
  refine Trace.along_of_invariant keeps ?_ sound_start inTime
  intro bind act sound inTime
  exact
    ⟨callbackSafe_of_sound sound act,
      timerOver_of_sound (sound_step sound inTime)⟩

instance (bind : KeepaliveBind) : ∀ act, Decidable (bind.InTime act)
  | .message _ => inferInstanceAs (Decidable (_ → _))
  | .callback _ _ =>
      inferInstanceAs
        (Decidable
          (∀ delivery ∈ bind.delivery, delivery.drvdata = true →
            bind.pc = .stopped ∨ bind.pc = .removed →
              mckaMsg delivery.data = none))
  | .advance _ _ _ => .isTrue trivial
  | .fire _ => .isTrue trivial
  | .handle _ => .isTrue trivial

/-- The next steps of a bind, each after the one before. -/
def advances (count : Nat) : List KeepaliveBindAct :=
  List.replicate count (.advance true 0 750)

/-- The bytes of a valid message. -/
def firstMessage : List UInt8 :=
  [0x4d, 0x43, 0x4b, 0x41, 1, 0, 16, 0, 1, 0, 0, 0, 0, 0, 0, 0]

/-- A message whose callback runs at once. -/
def deliver (data : List UInt8) : List KeepaliveBindAct :=
  [.message data, .callback 0 750]

end KeepaliveBind

end KmmYocto
