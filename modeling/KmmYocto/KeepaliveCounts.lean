import KmmYocto.KeepaliveTimer

/-!
# The counters of a channel

What a sample under `/sys` can tell of a channel: its counters, which only a
valid message moves, and its times.  While the state is alive the timer is due
at the latest when the last message is as old as the limit, so a channel whose
timer is handled is either heard or not alive.
-/

namespace KmmYocto

/-- The `seq` after a `seq`. -/
def nextSeq (seq : Nat) : Nat :=
  (seq + 1) % 2 ^ 32

/-- What a read or a comparison of the counters depends on. -/
structure MckaCounts where
  received : Nat
  seq : Nat
  seqGaps : Nat
  restarts : Nat
  lastRx : Nat

def Mcka.counts (p : Mcka) : MckaCounts where
  received := p.received
  seq := p.seq
  seqGaps := p.seqGaps
  restarts := p.restarts
  lastRx := p.lastRx

section

variable
    (p : Mcka) (msg : MckaMsg)

@[simp]
theorem Mcka.bound_counted : (p.counted msg).bound = p.bound := by
  rw [counted]
  split_ifs <;> rfl

/-- The handler writes the state and its warning. -/
theorem exists_mckaTimeout (limit now : Nat) (p : Mcka) :
    ∃ state warnedWaiting,
      mckaTimeout limit now p = { p with state, warnedWaiting } := by
  rw [mckaTimeout]
  cases p.state with
  | waiting =>
      simp only
      split_ifs
      · exact ⟨p.state, p.warnedWaiting, rfl⟩
      · exact ⟨.waiting, true, rfl⟩
  | alive =>
      simp only
      split_ifs
      · exact ⟨.lost, p.warnedWaiting, rfl⟩
      · exact ⟨p.state, p.warnedWaiting, rfl⟩
  | lost => exact ⟨p.state, p.warnedWaiting, rfl⟩

/-- A message after the first is counted in at most one of two counters. -/
theorem Mcka.le_counted :
    p.seqGaps ≤ (p.counted msg).seqGaps ∧
      p.restarts ≤ (p.counted msg).restarts := by
  rw [counted]
  split_ifs
  · exact ⟨Nat.le_refl _, Nat.le_succ _⟩
  · exact ⟨Nat.le_succ _, Nat.le_refl _⟩
  · exact ⟨Nat.le_refl _, Nat.le_refl _⟩
  · exact ⟨Nat.le_refl _, Nat.le_refl _⟩

variable
    {p msg}

theorem Mcka.counted_restart (received : p.received ≠ 0)
    (back : msg.uptimeMs < p.uptimeMs) :
    p.counted msg = { p with restarts := p.restarts + 1 } := by
  rw [counted, if_pos received, if_pos back]

theorem Mcka.counted_gap (received : p.received ≠ 0)
    (onward : ¬ msg.uptimeMs < p.uptimeMs)
    (gap : msg.seq ≠ nextSeq p.seq) :
    p.counted msg = { p with seqGaps := p.seqGaps + 1 } := by
  simp only [counted, if_pos received, if_neg onward]
  exact if_pos gap

theorem Mcka.counted_neither (onward : ¬ msg.uptimeMs < p.uptimeMs)
    (next : msg.seq = nextSeq p.seq) : p.counted msg = p := by
  simp only [counted, if_neg onward]
  split_ifs with received gap
  · exact absurd next gap
  · rfl
  · rfl

end

namespace Channel

/-- The callback has private data to work on. -/
def Takes (channel : Channel) : Prop :=
  channel.pc ≠ .start ∧ channel.pc ≠ .filled

instance (channel : Channel) : Decidable channel.Takes :=
  inferInstanceAs (Decidable (_ ∧ _))

/-- The valid message, if the callback takes one. -/
def taken (channel : Channel) (data : List UInt8) : Option MckaMsg :=
  if channel.Takes then mckaMsg data else none

/-- No expired timer waits for its handler. -/
def Handled (channel : Channel) : Prop :=
  channel.handler = none ∧ ∀ expires ∈ channel.p.timer, channel.now < expires

instance (channel : Channel) : Decidable channel.Handled :=
  inferInstanceAs
    (Decidable
      (_ ∧ ∀ expires ∈ channel.p.timer, channel.now < expires))

section

variable
    (msecsToJiffies : UInt32 → Nat)

/-- The times of a channel, and the first message of an alive one. -/
structure OnTime (channel : Channel) : Prop where
  fixed : channel.timeoutMs = 3000
  unfilled : channel.pc = .start →
    channel.p = mckaInit 0 ∧ channel.handler = none
  bound : channel.p.bound ≤ channel.now
  lastRx : channel.p.lastRx ≤ channel.now
  alive : channel.p.state = .alive →
    channel.p.received ≠ 0 ∧ channel.p.bound ≤ channel.p.lastRx ∧
      ∀ expires ∈ channel.p.timer,
        expires ≤ channel.p.lastRx + channel.limit msecsToJiffies

theorem onTime_start (now : Nat) : (start now 3000).OnTime msecsToJiffies where
  fixed := rfl
  unfilled _ := ⟨rfl, rfl⟩
  bound := Nat.zero_le now
  lastRx := Nat.zero_le now
  alive alive := by cases alive

variable
    {channel : Channel}

theorem onTime_tick (onTime : channel.OnTime msecsToJiffies)
    (jiffies : Nat) :
    (channel.step msecsToJiffies (.tick jiffies)).OnTime msecsToJiffies where
  fixed := onTime.fixed
  unfilled := onTime.unfilled
  bound := onTime.bound.trans (Nat.le_add_right _ _)
  lastRx := onTime.lastRx.trans (Nat.le_add_right _ _)
  alive := onTime.alive

theorem onTime_probe (onTime : channel.OnTime msecsToJiffies) :
    (channel.step msecsToJiffies .probe).OnTime msecsToJiffies := by
  rcases channel with ⟨now, timeoutMs, pc, p, handler⟩
  cases pc with
  | start =>
      exact
        { fixed := onTime.fixed
          unfilled := fun never => by cases never
          bound := Nat.le_refl now
          lastRx := Nat.zero_le now
          alive := fun alive => by cases alive }
  | filled => exact { onTime with unfilled := fun never => by cases never }
  | visible => exact { onTime with unfilled := fun never => by cases never }
  | greeted =>
      refine
        { fixed := onTime.fixed
          unfilled := fun never => by cases never
          bound := onTime.bound
          lastRx := onTime.lastRx
          alive := fun alive => ?_ }
      rcases onTime.alive alive with ⟨received, bound, -⟩
      refine ⟨received, bound, ?_⟩
      rintro expires ⟨⟩
      exact Nat.add_le_add_right bound _
  | probed => exact onTime

theorem step_message (data : List UInt8) :
    channel.step msecsToJiffies (.message data) =
      if channel.Takes then
        { channel with
          p :=
            mckaCb (channel.limit msecsToJiffies) channel.now data
              channel.p }
      else channel := by
  rcases channel with ⟨now, timeoutMs, pc, p, handler⟩
  cases pc with
  | start => exact (if_neg (fun takes => takes.1 rfl)).symm
  | filled => exact (if_neg (fun takes => takes.2 rfl)).symm
  | visible => exact (if_pos ⟨by simp, by simp⟩).symm
  | greeted => exact (if_pos ⟨by simp, by simp⟩).symm
  | probed => exact (if_pos ⟨by simp, by simp⟩).symm

/-- A message that the callback takes. -/
theorem step_of_taken {data : List UInt8} {msg : MckaMsg}
    (taken : channel.taken data = some msg) :
    channel.step msecsToJiffies (.message data) =
      { channel with
        p :=
          { channel.p.counted msg with
            seq := msg.seq
            uptimeMs := msg.uptimeMs
            received := channel.p.received + 1
            lastRx := channel.now
            state := .alive
            timer := some (channel.now + channel.limit msecsToJiffies) } } := by
  rw [Channel.taken] at taken
  split_ifs at taken with takes
  rw [step_message, if_pos takes]
  simp only [mckaCb, taken]

theorem counts_of_taken {data : List UInt8} {msg : MckaMsg}
    (taken : channel.taken data = some msg) :
    (channel.step msecsToJiffies (.message data)).p.counts =
      { received := channel.p.received + 1
        seq := msg.seq
        seqGaps := (channel.p.counted msg).seqGaps
        restarts := (channel.p.counted msg).restarts
        lastRx := channel.now } := by
  rw [step_of_taken msecsToJiffies taken]
  rfl

theorem pc_message (data : List UInt8) :
    (channel.step msecsToJiffies (.message data)).pc = channel.pc := by
  rw [step_message]
  split_ifs <;> rfl

/-- A message that the callback cannot take, or counts as bad. -/
theorem step_of_not_taken {data : List UInt8}
    (other : channel.taken data = none) :
    channel.step msecsToJiffies (.message data) =
      if channel.Takes then
        { channel with p := { channel.p with bad := channel.p.bad + 1 } }
      else channel := by
  rw [Channel.taken] at other
  rw [step_message]
  split_ifs at other ⊢ with takes
  · rw [mckaCb_bad _ _ _ other]
  · rfl

theorem onTime_message (onTime : channel.OnTime msecsToJiffies)
    (data : List UInt8) :
    (channel.step msecsToJiffies (.message data)).OnTime
      msecsToJiffies := by
  cases taken : channel.taken data with
  | some msg =>
      have takes : channel.Takes := by
        by_contra not
        rw [Channel.taken, if_neg not] at taken
        cases taken
      rw [step_of_taken msecsToJiffies taken]
      exact
        { fixed := onTime.fixed
          unfilled := fun unfilled => absurd unfilled takes.1
          bound := (channel.p.bound_counted msg).le.trans onTime.bound
          lastRx := Nat.le_refl _
          alive := fun _ => by
            refine ⟨Nat.succ_ne_zero _, ?_, ?_⟩
            · exact (channel.p.bound_counted msg).le.trans onTime.bound
            · rintro expires ⟨⟩
              exact Nat.le_refl _ }
  | none =>
      rw [step_of_not_taken msecsToJiffies taken]
      split_ifs with takes
      · exact
          { onTime with
            unfilled := fun unfilled => absurd unfilled takes.1 }
      · exact onTime

theorem onTime_fire (onTime : channel.OnTime msecsToJiffies) :
    (channel.step msecsToJiffies .fire).OnTime msecsToJiffies := by
  rcases channel with ⟨now, timeoutMs, pc, p, handler⟩
  cases handler with
  | some limit => exact onTime
  | none =>
      cases pending : p.timer with
      | none =>
          simp only [step, pending]
          exact onTime
      | some expires =>
          simp only [step, pending]
          split_ifs with due
          · refine { onTime with unfilled := ?_, alive := ?_ }
            · intro unfilled
              have same : p = mckaInit 0 := (onTime.unfilled unfilled).1
              rw [same] at pending
              cases pending
            · intro alive
              rcases onTime.alive alive with ⟨received, bound, -⟩
              refine ⟨received, bound, ?_⟩
              rintro expires ⟨⟩
          · exact onTime

theorem onTime_handle (onTime : channel.OnTime msecsToJiffies) :
    (channel.step msecsToJiffies .handle).OnTime msecsToJiffies := by
  rcases channel with ⟨now, timeoutMs, pc, p, handler⟩
  cases handler with
  | none => exact onTime
  | some limit =>
      rcases exists_mckaTimeout limit now p with ⟨state, warned, same⟩
      refine
        { fixed := onTime.fixed
          unfilled := fun unfilled => ?_
          bound := ?_
          lastRx := ?_
          alive := fun alive => ?_ }
      · cases (onTime.unfilled unfilled).2
      · simp only [step, same]
        exact onTime.bound
      · simp only [step, same]
        exact onTime.lastRx
      · rcases alive_of_mckaTimeout limit now p alive with ⟨was, unchanged⟩
        simp only [step, unchanged]
        exact onTime.alive was

/-- An alive channel whose timer is handled has not been silent for long. -/
theorem lt_of_alive (onTime : channel.OnTime msecsToJiffies)
    (watches : channel.Watches msecsToJiffies)
    (probed : channel.pc = .probed) (alive : channel.p.state = .alive)
    (handled : channel.Handled) :
    channel.now < channel.p.lastRx + channel.limit msecsToJiffies := by
  rcases (watches_iff msecsToJiffies).mp watches probed alive with
    ⟨expires, pending, -⟩ | ⟨limit, runs, -⟩
  · exact
      (handled.2 expires pending).trans_le
        ((onTime.alive alive).2.2 expires pending)
  · rw [handled.1] at runs
    cases runs

theorem now_probe :
    (channel.step msecsToJiffies .probe).now = channel.now := by
  rcases channel with ⟨now, timeoutMs, pc, p, handler⟩
  cases pc <;> rfl

theorem now_fire : (channel.step msecsToJiffies .fire).now = channel.now := by
  rcases channel with ⟨now, timeoutMs, pc, p, handler⟩
  cases handler with
  | some limit => rfl
  | none =>
      cases pending : p.timer with
      | none => simp only [step, pending]
      | some expires =>
          simp only [step, pending]
          split_ifs <;> rfl

theorem now_message (data : List UInt8) :
    (channel.step msecsToJiffies (.message data)).now = channel.now := by
  rw [step_message]
  split_ifs <;> rfl

/-! ## What only a message changes -/

/-- The counters and the last message are the same. -/
structure SameCounts (before after : Channel) : Prop where
  counts : after.p.counts = before.p.counts
  probed : before.pc = .probed → after.pc = .probed

theorem SameCounts.refl : channel.SameCounts channel :=
  ⟨rfl, id⟩

theorem sameCounts_tick (jiffies : Nat) :
    channel.SameCounts (channel.step msecsToJiffies (.tick jiffies)) :=
  ⟨rfl, id⟩

theorem sameCounts_probe (onTime : channel.OnTime msecsToJiffies) :
    channel.SameCounts (channel.step msecsToJiffies .probe) := by
  rcases channel with ⟨now, timeoutMs, pc, p, handler⟩
  cases pc with
  | start =>
      have same : p = mckaInit 0 := (onTime.unfilled rfl).1
      subst same
      exact ⟨rfl, fun never => by cases never⟩
  | filled => exact ⟨rfl, fun never => by cases never⟩
  | visible => exact ⟨rfl, fun never => by cases never⟩
  | greeted => exact ⟨rfl, fun never => by cases never⟩
  | probed => exact SameCounts.refl

theorem sameCounts_fire :
    channel.SameCounts (channel.step msecsToJiffies .fire) := by
  rcases channel with ⟨now, timeoutMs, pc, p, handler⟩
  cases handler with
  | some limit => exact SameCounts.refl
  | none =>
      cases pending : p.timer with
      | none =>
          simp only [step, pending]
          exact SameCounts.refl
      | some expires =>
          simp only [step, pending]
          split_ifs
          · exact ⟨rfl, id⟩
          · exact SameCounts.refl

theorem sameCounts_handle :
    channel.SameCounts (channel.step msecsToJiffies .handle) := by
  rcases channel with ⟨now, timeoutMs, pc, p, handler⟩
  cases handler with
  | none => exact SameCounts.refl
  | some limit =>
      rcases exists_mckaTimeout limit now p with ⟨state, warned, same⟩
      simp only [step, same]
      exact ⟨rfl, id⟩

theorem sameCounts_of_not_taken {data : List UInt8}
    (other : channel.taken data = none) :
    channel.SameCounts (channel.step msecsToJiffies (.message data)) := by
  rw [step_of_not_taken msecsToJiffies other]
  split_ifs
  · exact ⟨rfl, id⟩
  · exact SameCounts.refl

end

end Channel

end KmmYocto
