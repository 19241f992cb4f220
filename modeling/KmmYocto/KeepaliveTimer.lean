import KmmYocto.Keepalive
import KmmYocto.Trace

/-!
# A silent M-core and the timer

The timer is armed at the end of `mcka_probe`, from the time of the bind, and
by every valid message, from the time of the message.  Messages can come in as
soon as the private data is set, so the last statement of the probe can
replace the deadline of a message by an earlier one.  The handler compares
with `timeout_ms` as it is when it runs, so raising the parameter makes a
pending deadline too early as well.  Either way the handler does nothing and
no timer is left.

The handler is two steps: the timer is taken off the list and the handler
reads its limit, then it takes the lock.
-/

namespace KmmYocto

/-- How far `mcka_probe` has come. -/
inductive ProbePc where
  | start
  /-- The private data is filled in. -/
  | filled
  /-- `dev_set_drvdata` is done. -/
  | visible
  /-- The hello is sent. -/
  | greeted
  /-- The timer is armed. -/
  | probed
deriving DecidableEq, Repr

/-- A channel from its bind on, with the clock and the module parameter. -/
structure Channel where
  now : Nat
  timeoutMs : UInt32
  pc : ProbePc
  p : Mcka
  /-- The limit read by an `mcka_timeout` that runs. -/
  handler : Option Nat

/-- One step. -/
inductive ChannelAct where
  | tick (jiffies : Nat)
  /-- A write to `timeout_ms`. -/
  | param (value : UInt32)
  /-- The next step of `mcka_probe`. -/
  | probe
  | message (data : List UInt8)
  /-- The pending timer expires and its handler starts. -/
  | fire
  /-- The handler does its work. -/
  | handle

namespace Channel

/-- A channel whose probe starts. -/
def start (now : Nat) (timeoutMs : UInt32) : Channel where
  now
  timeoutMs
  pc := .start
  p := mckaInit 0
  handler := none

section

variable
    (msecsToJiffies : UInt32 → Nat)

/-- The limit as a function would read it now. -/
def limit (channel : Channel) : Nat :=
  msecsToJiffies channel.timeoutMs

/-- The next step of `mcka_probe`. -/
def mckaProbe (channel : Channel) : Channel :=
  match channel.pc with
  | .start =>
      { channel with pc := .filled, p := mckaInit channel.now }
  | .filled => { channel with pc := .visible }
  | .visible => { channel with pc := .greeted }
  | .greeted =>
      { channel with
        pc := .probed
        p := channel.p.arm (channel.limit msecsToJiffies) }
  | .probed => channel

/-- The next state of the channel. -/
def step (channel : Channel) : ChannelAct → Channel
  | .tick jiffies => { channel with now := channel.now + jiffies }
  | .param value => { channel with timeoutMs := value }
  | .probe => channel.mckaProbe msecsToJiffies
  | .message data =>
      match channel.pc with
      -- before that the callback has no private data to work on
      | .start => channel
      | .filled => channel
      | _ =>
          { channel with
            p :=
              mckaCb (channel.limit msecsToJiffies) channel.now data
                channel.p }
  | .fire =>
      match channel.handler, channel.p.timer with
      | none, some expires =>
          if expires ≤ channel.now then
            { channel with
              p := { channel.p with timer := none }
              handler := some (channel.limit msecsToJiffies) }
          else channel
      | _, _ => channel
  | .handle =>
      match channel.handler with
      | some limit =>
          { channel with
            p := mckaTimeout limit channel.now channel.p
            handler := none }
      | none => channel

/-! ## What watches an alive M-core -/

/--
A timer is pending that, whenever it expires, makes the state lost or leaves a
timer; or its handler already runs and will make the state lost.
-/
def Watched (channel : Channel) : Prop :=
  (∃ expires, channel.p.timer = some expires ∧
      ∀ later, channel.now ≤ later → expires ≤ later →
        (mckaTimeout (channel.limit msecsToJiffies) later
            { channel.p with timer := none }).state = .lost ∨
          (mckaTimeout (channel.limit msecsToJiffies) later
            { channel.p with timer := none }).timer ≠ none) ∨
    ∃ limit, channel.handler = some limit ∧
      ∀ later, channel.now ≤ later →
        (mckaTimeout limit later channel.p).state = .lost

/-- After the probe, an alive M-core is watched. -/
def Watches (channel : Channel) : Prop :=
  channel.pc = .probed → channel.p.state = .alive →
    channel.Watched msecsToJiffies

/-- A deadline is pending that does not pass before the limit does. -/
def Covered (limit : Nat) (channel : Channel) : Prop :=
  ∃ expires ∈ channel.p.timer,
    channel.p.lastRx + limit ≤ max expires channel.now

/-- The handler runs with a limit that has passed. -/
def Losing (channel : Channel) : Prop :=
  ∃ limit ∈ channel.handler, channel.p.lastRx + limit ≤ channel.now

instance (limit : Nat) (channel : Channel) :
    Decidable (channel.Covered limit) :=
  inferInstanceAs (Decidable (∃ expires ∈ channel.p.timer, _))

instance (channel : Channel) : Decidable channel.Losing :=
  inferInstanceAs (Decidable (∃ limit ∈ channel.handler, _))

/--
The probe arms its timer only if no message has come in since the bind, or
its limit has passed; and the limit is raised only as far as the pending
deadline reaches, or once the handler has found the M-core lost.
-/
def KeepsWatch (channel : Channel) : ChannelAct → Prop
  | .probe =>
      channel.pc = .greeted → channel.p.state = .alive →
        channel.p.lastRx ≤ channel.p.bound ∨
          channel.p.lastRx + channel.limit msecsToJiffies ≤ channel.now ∨
          channel.Losing
  | .param value =>
      channel.pc = .probed → channel.p.state = .alive →
        channel.Covered (msecsToJiffies value) ∨ channel.Losing
  | _ => True

instance (channel : Channel) :
    ∀ act, Decidable (channel.KeepsWatch msecsToJiffies act)
  | .probe => inferInstanceAs (Decidable (_ → _ → _))
  | .param _ => inferInstanceAs (Decidable (_ → _ → _))
  | .tick _ => .isTrue trivial
  | .message _ => .isTrue trivial
  | .fire => .isTrue trivial
  | .handle => .isTrue trivial

/-! ## One step -/

variable
    {channel : Channel}

/-- On an alive M-core the handler reports a loss if its limit has passed. -/
theorem lost_mckaTimeout_iff {limit later : Nat} {p : Mcka}
    (alive : p.state = .alive) :
    (mckaTimeout limit later p).state = .lost ↔
      p.lastRx + limit ≤ later := by
  rw [mckaTimeout_of_alive limit later p alive]
  split_ifs with old
  · exact iff_of_true rfl old
  · rw [alive]
    exact iff_of_false (by decide) old

theorem watched_iff (alive : channel.p.state = .alive) :
    channel.Watched msecsToJiffies ↔
      channel.Covered (channel.limit msecsToJiffies) ∨ channel.Losing := by
  have detached :
      ({ channel.p with timer := none } : Mcka).state = .alive := alive
  constructor
  · rintro (⟨expires, pending, later⟩ | ⟨limit, runs, later⟩)
    · left
      refine ⟨expires, pending, ?_⟩
      rcases later (max expires channel.now) (le_max_right _ _)
        (le_max_left _ _) with lost | rearmed
      · exact (lost_mckaTimeout_iff detached).mp lost
      · rw [timer_mckaTimeout] at rearmed
        exact absurd rfl rearmed
    · right
      exact
        ⟨limit, runs,
          (lost_mckaTimeout_iff alive).mp (later _ (Nat.le_refl _))⟩
  · rintro (⟨expires, pending, covered⟩ | ⟨limit, runs, passed⟩)
    · left
      refine ⟨expires, pending, fun later now due => .inl ?_⟩
      exact
        (lost_mckaTimeout_iff detached).mpr
          (covered.trans (max_le due now))
    · right
      refine ⟨limit, runs, fun later now => ?_⟩
      exact (lost_mckaTimeout_iff alive).mpr (passed.trans now)

theorem watches_iff :
    channel.Watches msecsToJiffies ↔
      (channel.pc = .probed → channel.p.state = .alive →
        channel.Covered (channel.limit msecsToJiffies) ∨ channel.Losing) := by
  constructor
  · intro watches probed alive
    exact (watched_iff msecsToJiffies alive).mp (watches probed alive)
  · intro watches probed alive
    exact (watched_iff msecsToJiffies alive).mpr (watches probed alive)

instance : Decidable (channel.Watches msecsToJiffies) :=
  decidable_of_iff _ (watches_iff msecsToJiffies).symm

theorem watches_tick (watches : channel.Watches msecsToJiffies)
    (jiffies : Nat) :
    (channel.step msecsToJiffies (.tick jiffies)).Watches msecsToJiffies := by
  rw [watches_iff] at watches ⊢
  intro probed alive
  have passes : channel.now ≤ channel.now + jiffies := Nat.le_add_right _ _
  rcases watches probed alive with
    ⟨expires, pending, covered⟩ | ⟨limit, runs, passed⟩
  · exact
      .inl ⟨expires, pending, covered.trans (max_le_max_left expires passes)⟩
  · exact .inr ⟨limit, runs, passed.trans passes⟩

/-- A valid message arms the timer for just its limit. -/
theorem watches_message (watches : channel.Watches msecsToJiffies)
    (data : List UInt8) :
    (channel.step msecsToJiffies (.message data)).Watches
      msecsToJiffies := by
  rw [watches_iff] at watches ⊢
  intro probed alive
  obtain ⟨now, timeoutMs, pc, p, handler⟩ := channel
  cases pc with
  | start => cases probed
  | filled => cases probed
  | visible => cases probed
  | greeted => cases probed
  | probed =>
      simp only [step] at alive ⊢
      cases valid : mckaMsg data with
      | none =>
          rw [mckaCb_bad _ _ _ valid] at alive ⊢
          exact watches rfl alive
      | some msg =>
          simp only [mckaCb, valid]
          exact .inl ⟨_, rfl, le_max_left _ _⟩

theorem watches_fire (watches : channel.Watches msecsToJiffies) :
    (channel.step msecsToJiffies .fire).Watches msecsToJiffies := by
  obtain ⟨now, timeoutMs, pc, p, handler⟩ := channel
  cases handler with
  | some limit => exact watches
  | none =>
      cases pending : p.timer with
      | none =>
          simp only [step, pending]
          exact watches
      | some expires =>
          simp only [step, pending]
          split_ifs with due
          · rw [watches_iff] at watches ⊢
            intro probed alive
            rcases watches probed alive with
              ⟨expires', same, covered⟩ | ⟨limit, runs, -⟩
            · obtain rfl : expires = expires' :=
                Option.some.inj (pending.symm.trans same)
              rw [max_eq_right due] at covered
              exact .inr ⟨_, rfl, covered⟩
            · cases runs
          · exact watches

theorem watches_handle (watches : channel.Watches msecsToJiffies) :
    (channel.step msecsToJiffies .handle).Watches msecsToJiffies := by
  obtain ⟨now, timeoutMs, pc, p, handler⟩ := channel
  cases handler with
  | none => exact watches
  | some limit =>
      rw [watches_iff] at watches ⊢
      intro probed alive
      obtain ⟨wasAlive, unchanged⟩ := alive_of_mckaTimeout limit now p alive
      simp only [step, unchanged]
      rcases watches probed wasAlive with covered | ⟨limit', runs, passed⟩
      · exact .inl covered
      · obtain rfl : limit = limit' := Option.some.inj runs
        have lost := (lost_mckaTimeout_iff wasAlive).mpr passed
        have still : (mckaTimeout limit now p).state = .alive := alive
        rw [lost] at still
        cases still

/-- Where an alive M-core is watched, a step keeps the watch as it is guarded. -/
theorem watches_step_iff (watches : channel.Watches msecsToJiffies)
    (act : ChannelAct) :
    (channel.step msecsToJiffies act).Watches msecsToJiffies ↔
      channel.KeepsWatch msecsToJiffies act := by
  cases act with
  | tick jiffies =>
      exact iff_of_true (watches_tick msecsToJiffies watches jiffies) trivial
  | message data =>
      exact iff_of_true (watches_message msecsToJiffies watches data) trivial
  | fire => exact iff_of_true (watches_fire msecsToJiffies watches) trivial
  | handle => exact iff_of_true (watches_handle msecsToJiffies watches) trivial
  | param value => exact watches_iff msecsToJiffies
  | probe =>
      obtain ⟨now, timeoutMs, pc, p, handler⟩ := channel
      cases pc with
      | start =>
          refine iff_of_true (fun probed => ?_) (fun greeted => ?_)
          · cases probed
          · cases greeted
      | filled =>
          refine iff_of_true (fun probed => ?_) (fun greeted => ?_)
          · cases probed
          · cases greeted
      | visible =>
          refine iff_of_true (fun probed => ?_) (fun greeted => ?_)
          · cases probed
          · cases greeted
      | probed =>
          refine iff_of_true watches (fun greeted => ?_)
          cases greeted
      | greeted =>
          rw [watches_iff]
          constructor
          · rintro next - alive
            rcases next rfl alive with ⟨expires, same, covered⟩ | losing
            · obtain rfl : p.bound + msecsToJiffies timeoutMs = expires :=
                Option.some.inj same
              rcases le_max_iff.mp covered with early | passed
              · exact .inl (Nat.le_of_add_le_add_right early)
              · exact .inr (.inl passed)
            · exact .inr (.inr losing)
          · intro guarded _ alive
            rcases guarded rfl alive with early | passed | losing
            · exact
                .inl ⟨_, rfl,
                  le_max_of_le_left (Nat.add_le_add_right early _)⟩
            · exact .inl ⟨_, rfl, le_max_of_le_right passed⟩
            · exact .inr losing

/-! ## A silence ends in a loss -/

/-- The step brings no valid message. -/
def Quiet : ChannelAct → Prop
  | .message data => mckaMsg data = none
  | _ => True

instance : ∀ act, Decidable (Quiet act)
  | .message _ => inferInstanceAs (Decidable (_ = none))
  | .tick _ => .isTrue trivial
  | .param _ => .isTrue trivial
  | .probe => .isTrue trivial
  | .fire => .isTrue trivial
  | .handle => .isTrue trivial

/-- The M-core is lost, or it is watched with a deadline that does not move. -/
structure Ending (deadline : Nat) (channel : Channel) : Prop where
  probed : channel.pc = .probed
  watched : channel.p.state = .lost ∨
    (channel.p.state = .alive ∧
      ((channel.p.timer = some deadline ∧
          channel.p.lastRx + channel.limit msecsToJiffies ≤
            max deadline channel.now) ∨
        channel.Losing))

/-- A watched M-core has a deadline, at the latest the present. -/
theorem exists_ending (probed : channel.pc = .probed)
    (alive : channel.p.state = .alive)
    (watches : channel.Watches msecsToJiffies) :
    ∃ deadline, channel.Ending msecsToJiffies deadline := by
  rcases (watches_iff msecsToJiffies).mp watches probed alive with
    ⟨expires, pending, covered⟩ | losing
  · exact ⟨expires, probed, .inr ⟨alive, .inl ⟨pending, covered⟩⟩⟩
  · exact ⟨channel.now, probed, .inr ⟨alive, .inr losing⟩⟩

/-- Without a message a loss stays, and so does the watch of a deadline. -/
theorem Ending.step {deadline : Nat}
    (ending : channel.Ending msecsToJiffies deadline) {act : ChannelAct}
    (quiet : Quiet act) (guarded : channel.KeepsWatch msecsToJiffies act) :
    (channel.step msecsToJiffies act).Ending msecsToJiffies deadline := by
  obtain ⟨now, timeoutMs, pc, p, handler⟩ := channel
  obtain ⟨probed, watched⟩ := ending
  obtain rfl : pc = .probed := probed
  cases act with
  | tick jiffies =>
      refine ⟨rfl, watched.imp_right ?_⟩
      have passes : now ≤ now + jiffies := Nat.le_add_right _ _
      rintro ⟨alive, ⟨pending, covered⟩ | ⟨limit, runs, passed⟩⟩
      · exact
          ⟨alive,
            .inl ⟨pending, covered.trans (max_le_max_left deadline passes)⟩⟩
      · exact ⟨alive, .inr ⟨limit, runs, passed.trans passes⟩⟩
  | param value =>
      refine ⟨rfl, watched.imp_right ?_⟩
      rintro ⟨alive, watch⟩
      refine ⟨alive, ?_⟩
      rcases guarded rfl alive with ⟨expires, pending, covered⟩ | losing
      · rcases watch with ⟨same, -⟩ | losing
        · obtain rfl : expires = deadline :=
            Option.some.inj (pending.symm.trans same)
          exact .inl ⟨pending, covered⟩
        · exact .inr losing
      · exact .inr losing
  | probe => exact ⟨rfl, watched⟩
  | message data =>
      simp only [Channel.step, mckaCb_bad _ _ _ quiet]
      exact ⟨rfl, watched⟩
  | fire =>
      cases handler with
      | some limit => exact ⟨rfl, watched⟩
      | none =>
          cases pending : p.timer with
          | none =>
              simp only [Channel.step, pending]
              exact ⟨rfl, watched⟩
          | some expires =>
              simp only [Channel.step, pending]
              split_ifs with due
              · refine ⟨rfl, watched.imp_right ?_⟩
                rintro ⟨alive, ⟨same, covered⟩ | ⟨limit, runs, -⟩⟩
                · obtain rfl : expires = deadline :=
                    Option.some.inj (pending.symm.trans same)
                  rw [max_eq_right due] at covered
                  exact ⟨alive, .inr ⟨_, rfl, covered⟩⟩
                · cases runs
              · exact ⟨rfl, watched⟩
  | handle =>
      cases handler with
      | none => exact ⟨rfl, watched⟩
      | some limit =>
          simp only [Channel.step]
          rcases watched with lost | ⟨alive, watch⟩
          · rw [mckaTimeout_of_lost limit now p lost]
            exact ⟨rfl, .inl lost⟩
          · by_cases passed : p.lastRx + limit ≤ now
            · exact ⟨rfl, .inl ((lost_mckaTimeout_iff alive).mpr passed)⟩
            · rw [mckaTimeout_of_alive limit now p alive, if_neg passed]
              refine ⟨rfl, .inr ⟨alive, ?_⟩⟩
              rcases watch with covered | ⟨limit', runs, passed'⟩
              · exact .inl covered
              · obtain rfl : limit = limit' := Option.some.inj runs
                exact absurd passed' passed

/-- The handler, if one runs, has run. -/
theorem handler_handle :
    (channel.step msecsToJiffies .handle).handler = none ∧
      (channel.step msecsToJiffies .handle).now = channel.now := by
  obtain ⟨now, timeoutMs, pc, p, handler⟩ := channel
  cases handler with
  | none => exact ⟨rfl, rfl⟩
  | some limit => exact ⟨rfl, rfl⟩

/-- With its deadline past and no handler running, the timer reports the loss. -/
theorem Ending.lost_of_fire {deadline : Nat}
    (ending : channel.Ending msecsToJiffies deadline)
    (idle : channel.handler = none) (passed : deadline ≤ channel.now) :
    (Trace.run (Channel.step msecsToJiffies) channel
      [ChannelAct.fire, .handle]).p.state = .lost := by
  obtain ⟨now, timeoutMs, pc, p, handler⟩ := channel
  obtain rfl : handler = none := idle
  obtain ⟨-, lost | ⟨alive, ⟨pending, covered⟩ | ⟨limit, runs, -⟩⟩⟩ := ending
  · change p.state = .lost at lost
    simp only [Trace.run_cons, Trace.run_nil]
    cases pending : p.timer with
    | none => simp only [Channel.step, pending, lost]
    | some expires =>
        simp only [Channel.step, pending]
        split_ifs
        · simp only [mckaTimeout, lost]
        · exact lost
  · change p.timer = some deadline at pending
    change deadline ≤ now at passed
    change p.lastRx + _ ≤ max deadline now at covered
    rw [max_eq_right passed] at covered
    simp only [Trace.run_cons, Trace.run_nil, Channel.step, pending,
      if_pos passed]
    refine (lost_mckaTimeout_iff ?_).mpr covered
    exact alive
  · cases runs

/-- Past its deadline a watched M-core is lost once the handlers have run. -/
theorem Ending.lost {deadline : Nat}
    (ending : channel.Ending msecsToJiffies deadline)
    (passed : deadline ≤ channel.now) :
    (Trace.run (Channel.step msecsToJiffies) channel
      [ChannelAct.handle, .fire, .handle]).p.state = .lost := by
  obtain ⟨idle, same⟩ := @handler_handle msecsToJiffies channel
  have handled : (channel.step msecsToJiffies .handle).Ending
      msecsToJiffies deadline :=
    ending.step msecsToJiffies trivial trivial
  rw [Trace.run_cons]
  exact handled.lost_of_fire msecsToJiffies idle (same ▸ passed)

/-! ## Whole runs -/

/-- From here on a run without valid messages ends in a loss. -/
def LostInTime (channel : Channel) : Prop :=
  ∃ deadline, ∀ quiet : List ChannelAct,
    (∀ act ∈ quiet, Quiet act) →
      Trace.Along (step msecsToJiffies) (KeepsWatch msecsToJiffies) channel
        quiet →
        deadline ≤ (Trace.run (step msecsToJiffies) channel quiet).now →
          (Trace.run (step msecsToJiffies) channel
            (quiet ++ [.handle, .fire, .handle])).p.state = .lost

/-- A watched M-core is lost in finite time if it stays silent. -/
theorem lostInTime (probed : channel.pc = .probed)
    (alive : channel.p.state = .alive)
    (watches : channel.Watches msecsToJiffies) :
    channel.LostInTime msecsToJiffies := by
  obtain ⟨deadline, ending⟩ :=
    exists_ending msecsToJiffies probed alive watches
  refine ⟨deadline, ?_⟩
  intro quiet silent guarded passed
  have silentAlong :=
    (Trace.along_event (step msecsToJiffies) Quiet channel quiet).mpr silent
  have keeps : ∀ channel act,
      Ending msecsToJiffies deadline channel →
        Quiet act ∧ KeepsWatch msecsToJiffies channel act →
          (channel.step msecsToJiffies act).Ending msecsToJiffies deadline :=
    fun _ _ ending both => ending.step msecsToJiffies both.1 both.2
  rw [Trace.run_append]
  exact
    (Trace.run_invariant keeps ending
      ((Trace.along_and _ _ _ _ _).mpr ⟨silentAlong, guarded⟩)).lost
        msecsToJiffies passed

/--
An alive M-core is watched in every state after the probe exactly if every
step of the run keeps the watch; and then a silent M-core gets lost.
-/
theorem watches_along_iff (now : Nat) (timeoutMs : UInt32)
    (acts : List ChannelAct) :
    (Trace.Along (step msecsToJiffies)
        (fun channel act =>
          (channel.step msecsToJiffies act).Watches msecsToJiffies)
        (start now timeoutMs) acts ↔
      Trace.Along (step msecsToJiffies) (KeepsWatch msecsToJiffies)
        (start now timeoutMs) acts) ∧
    (Trace.Along (step msecsToJiffies) (KeepsWatch msecsToJiffies)
        (start now timeoutMs) acts →
      let reached :=
        Trace.run (step msecsToJiffies) (start now timeoutMs) acts
      reached.pc = .probed → reached.p.state = .alive →
        reached.LostInTime msecsToJiffies) := by
  have initial : (start now timeoutMs).Watches msecsToJiffies := by
    intro probed
    cases probed
  have keeps : ∀ channel act,
      Watches msecsToJiffies channel →
        KeepsWatch msecsToJiffies channel act →
          (channel.step msecsToJiffies act).Watches msecsToJiffies :=
    fun _ act watches guarded =>
      (watches_step_iff msecsToJiffies watches act).mpr guarded
  constructor
  · exact
      Trace.along_iff_guarded keeps
        (fun _ act watches => watches_step_iff msecsToJiffies watches act)
        initial
  · intro guarded reached probed alive
    exact
      lostInTime msecsToJiffies probed alive
        (Trace.run_invariant keeps initial guarded)

end

/-! ## Two runs that lose the watch -/

/-- `msecs_to_jiffies` with 250 ticks a second. -/
def jiffies250 (ms : UInt32) : Nat :=
  if ms.toNat < 2 ^ 31 then (ms.toNat + 3) / 4 else 2 ^ 62 - 2

/-- The bytes of a valid message. -/
def hello (uptimeMs seq : UInt8) : List UInt8 :=
  [0x4d, 0x43, 0x4b, 0x41, 1, 0, 16, 0, uptimeMs, 0, 0, 0, seq, 0, 0, 0]

/-- A message comes in ten jiffies after the bind, before the probe ends. -/
def earlyMessage : List ChannelAct :=
  [.probe, .probe, .tick 10, .message (hello 1 0), .probe, .probe]

/-- `timeout_ms` is raised from 3 to 60 seconds while the M-core is alive. -/
def raisedLimit : List ChannelAct :=
  [.probe, .probe, .probe, .probe, .message (hello 1 0), .param 60000,
    .tick 10]

/--
Either run leaves the watch, and when the timer has expired the M-core is
alive with neither a timer nor a handler.
-/
theorem not_watches_along :
    (¬ Trace.Along (step jiffies250)
        (fun channel act => (channel.step jiffies250 act).Watches jiffies250)
        (start 0 3000) earlyMessage ∧
      ¬ Trace.Along (step jiffies250)
        (fun channel act => (channel.step jiffies250 act).Watches jiffies250)
        (start 0 3000) raisedLimit) ∧
    ∀ acts ∈ [earlyMessage, raisedLimit],
      let silent :=
        Trace.run (step jiffies250) (start 0 3000)
          (acts ++ [.tick 740, .fire, .handle])
      silent.p.state = .alive ∧ silent.p.timer = none ∧
        silent.handler = none := by
  decide +kernel

end Channel

end KmmYocto
