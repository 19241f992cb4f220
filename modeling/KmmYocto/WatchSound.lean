import KmmYocto.CommandEffects
import KmmYocto.KeepaliveWatch
import KmmYocto.Trace

/-!
# What a confirmation proves

A confirmation looks at samples.  The module states for which arrivals the
samples tell what has happened, and proves that a confirmed M-core was then
neither silent for `timeout_ms`, nor did it skip a `seq` or restart, in the
window.

The proof follows the counters of the channel the window began with: what has
happened is either shown by a counter that is past its first read, or that
channel is gone and the script has read a channel that received nothing.
-/

namespace KmmYocto

/-- The reads between which only one of two counters is compared. -/
def WatchPc.onlyGaps : WatchPc → Bool
  | .readRestarts => true
  | .checkGaps => true
  | _ => false

namespace KeepaliveWatch

/-! ## Arrivals that the samples tell of -/

section

variable
    (msecsToJiffies : UInt32 → Nat) (sec : Nat)

/--
The first message of a channel comes after a look at it, unless the channel is
older than the window and the message shows that nothing has happened.
-/
def FirstInTime (watch : KeepaliveWatch) (msg : MckaMsg) : Prop :=
  watch.history.looked = true ∨
    (watch.history.fresh = false ∧
      (∀ seq ∈ watch.history.lastSeq, msg.seq = nextSeq seq) ∧
      watch.history.restartPending = false)

instance (watch : KeepaliveWatch) (msg : MckaMsg) :
    Decidable (watch.FirstInTime msg) :=
  inferInstanceAs
    (Decidable (_ ∨ (_ ∧ (∀ seq ∈ watch.history.lastSeq, _ = _) ∧ _)))

/--
The first message of a restarted M-core shows the restart, in a counter that
is still compared.
-/
def NextInTime (watch : KeepaliveWatch) (channel : Channel)
    (msg : MckaMsg) : Prop :=
  (watch.history.restartPending = true →
    msg.uptimeMs < channel.p.uptimeMs ∨ msg.seq ≠ nextSeq channel.p.seq) ∧
  (watch.pc.onlyGaps = true → msg.uptimeMs < channel.p.uptimeMs →
    msg.seq = nextSeq channel.p.seq ∧ watch.history.restartPending = false)

instance (watch : KeepaliveWatch) (channel : Channel) (msg : MckaMsg) :
    Decidable (watch.NextInTime channel msg) :=
  inferInstanceAs (Decidable ((_ → _ ∨ _) ∧ (_ → _ → _ ∧ _)))

/--
A message in the window ends no silence of the limit before the script has
looked at it.
-/
def MessageInTime (watch : KeepaliveWatch) (channel : Channel)
    (msg : MckaMsg) : Prop :=
  (watch.Silent msecsToJiffies → watch.history.looked = true) ∧
    if channel.p.received = 0 then watch.FirstInTime msg
    else watch.NextInTime channel msg

instance (watch : KeepaliveWatch) (channel : Channel) (msg : MckaMsg) :
    Decidable (watch.MessageInTime msecsToJiffies channel msg) :=
  inferInstanceAs (Decidable ((_ → _) ∧ ite _ _ _))

/-- What the samples need of a step to tell of it. -/
def InTime (watch : KeepaliveWatch) : WatchAct → Prop
  | .probe =>
      ∀ channel ∈ watch.channel, channel.KeepsWatch msecsToJiffies .probe
  | .message data =>
      watch.pc.inWindow = true →
        ∀ channel ∈ watch.channel, ∀ msg ∈ channel.taken data,
          watch.MessageInTime msecsToJiffies channel msg
  | .unbind =>
      watch.pc.isLast = true →
        watch.history.gap = false ∧ watch.history.restarted = false
  | .script =>
      watch.pc = .checkGaps →
        watch.history.restartPending = false ∧
          (watch.Silent msecsToJiffies → watch.history.looked = true)
  | _ => True

instance (watch : KeepaliveWatch) :
    ∀ act, Decidable (watch.InTime msecsToJiffies act)
  | .probe =>
      inferInstanceAs
        (Decidable
          (∀ channel ∈ watch.channel,
            channel.KeepsWatch msecsToJiffies .probe))
  | .message data =>
      inferInstanceAs
        (Decidable
          (_ → ∀ channel ∈ watch.channel, ∀ msg ∈ channel.taken data,
            watch.MessageInTime msecsToJiffies channel msg))
  | .unbind => inferInstanceAs (Decidable (_ → _ ∧ _))
  | .script => inferInstanceAs (Decidable (_ → _ ∧ (_ → _)))
  | .tick _ => .isTrue trivial
  | .bind => .isTrue trivial
  | .fire => .isTrue trivial
  | .handle => .isTrue trivial
  | .mcoreRestart => .isTrue trivial

/-! ## The counters of the channel the window began with -/

/-- The first read does not exceed the value, if it gave one. -/
def AtMost (read : Option Nat) (value : Nat) : Prop :=
  ∀ first ∈ read, first ≤ value

/-- The value is past the first read. -/
def Above (read : Option Nat) (value : Nat) : Prop :=
  ∀ first ∈ read, first < value

theorem Above.ne {read : Option Nat} {value : Nat} (above : Above read value) :
    some value ≠ read := by
  intro same
  exact Nat.lt_irrefl value (above value same.symm)

theorem AtMost.above {read : Option Nat} {value : Nat}
    (atMost : AtMost read value) : Above read (value + 1) := by
  intro first member
  exact Nat.lt_succ_of_le (atMost first member)

theorem AtMost.trans {read : Option Nat} {value later : Nat}
    (atMost : AtMost read value) (le : value ≤ later) : AtMost read later := by
  intro first member
  exact (atMost first member).trans le

theorem Above.trans {read : Option Nat} {value later : Nat}
    (above : Above read value) (le : value ≤ later) : Above read later := by
  intro first member
  exact (above first member).trans_le le

/-- A counter that is still compared is past its first read. -/
def Exceeds (pc : WatchPc) (vars : WatchVars) (counts : MckaCounts) : Prop :=
  Above vars.g0 counts.seqGaps ∨
    (pc.onlyGaps = false ∧ Above vars.r0 counts.restarts)

/-- A counter stays past its first read. -/
theorem Exceeds.trans {pc : WatchPc} {vars : WatchVars}
    {counts later : MckaCounts} (exceeds : Exceeds pc vars counts)
    (gaps : counts.seqGaps ≤ later.seqGaps)
    (restarts : counts.restarts ≤ later.restarts) :
    Exceeds pc vars later := by
  rcases exceeds with above | ⟨both, above⟩
  · exact .inl (above.trans gaps)
  · exact .inr ⟨both, above.trans restarts⟩

/-- Something has happened that a message could show. -/
def WatchHistory.Happened (history : WatchHistory) : Prop :=
  history.gap = true ∨
    (history.restarted = true ∧ history.restartPending = false)

/--
Before the read of `received` the counters of the first channel show it, if
the channel is there; afterwards they do, or nothing was received.
-/
def Shown (pc : WatchPc) (vars : WatchVars) (fresh : Bool)
    (channel : Option Channel) : Prop :=
  if pc.isLast = true then
    vars.n1.getD 0 = 0 ∨
      (fresh = false ∧
        ∃ first ∈ channel, Exceeds pc vars first.p.counts)
  else
    fresh = false → ∀ first ∈ channel, Exceeds pc vars first.p.counts

section

variable
    {pc : WatchPc} {vars : WatchVars} {fresh : Bool}
    {channel : Option Channel}

theorem shown_iff_of_last (last : pc.isLast = true) :
    Shown pc vars fresh channel ↔
      vars.n1.getD 0 = 0 ∨
        (fresh = false ∧
          ∃ first ∈ channel, Exceeds pc vars first.p.counts) := by
  rw [Shown, if_pos last]

theorem shown_iff_of_not_last (notLast : pc.isLast = false) :
    Shown pc vars fresh channel ↔
      (fresh = false →
        ∀ first ∈ channel, Exceeds pc vars first.p.counts) := by
  rw [Shown, if_neg (ne_true_of_eq_false notLast)]

end

theorem shown_of_exceeds {pc : WatchPc} {vars : WatchVars} {fresh : Bool}
    {channel : Channel} (old : fresh = false)
    (exceeds : Exceeds pc vars channel.p.counts) :
    Shown pc vars fresh (some channel) := by
  cases last : pc.isLast with
  | true =>
      exact (shown_iff_of_last last).mpr (.inr ⟨old, channel, rfl, exceeds⟩)
  | false =>
      refine (shown_iff_of_not_last last).mpr ?_
      rintro _ _ ⟨⟩
      exact exceeds

/-- What the counters show they show after more messages. -/
theorem Shown.trans {pc : WatchPc} {vars : WatchVars} {fresh : Bool}
    {channel later : Channel}
    (shown : Shown pc vars fresh (some channel))
    (gaps : channel.p.counts.seqGaps ≤ later.p.counts.seqGaps)
    (restarts : channel.p.counts.restarts ≤ later.p.counts.restarts) :
    Shown pc vars fresh (some later) := by
  cases last : pc.isLast with
  | true =>
      refine (shown_iff_of_last last).mpr ?_
      rcases (shown_iff_of_last last).mp shown with
        nothing | ⟨old, _, ⟨⟩, exceeds⟩
      · exact .inl nothing
      · exact .inr ⟨old, later, rfl, exceeds.trans gaps restarts⟩
  | false =>
      refine (shown_iff_of_not_last last).mpr ?_
      rintro old _ ⟨⟩
      exact
        ((shown_iff_of_not_last last).mp shown old channel rfl).trans
          gaps restarts

/-- What holds in the window. -/
structure Window (watch : KeepaliveWatch) : Prop where
  unseen : watch.history.looked = false
  quiet : ∀ channel ∈ watch.channel,
    channel.p.counts.lastRx ≤ watch.history.quietSince
  silence : watch.history.silence = true → watch.Silent msecsToJiffies
  fresh : watch.history.fresh = true →
    ∀ channel ∈ watch.channel, channel.p.counts.received = 0
  gaps : watch.history.fresh = false →
    ∀ channel ∈ watch.channel,
      AtMost watch.vars.g0 channel.p.counts.seqGaps
  restarts : watch.history.fresh = false → watch.pc ≠ .readRestarts →
    ∀ channel ∈ watch.channel,
      AtMost watch.vars.r0 channel.p.counts.restarts
  probed : watch.pc = .readAgain ∨ watch.pc.isLast = true →
    watch.history.fresh = false →
      ∀ channel ∈ watch.channel, channel.pc = .probed
  shown : WatchHistory.Happened watch.history →
    Shown watch.pc watch.vars watch.history.fresh watch.channel

/-- Nothing has happened in the window. -/
def Clean (watch : KeepaliveWatch) : Prop :=
  watch.history.silence = false ∧ watch.history.gap = false ∧
    watch.history.restarted = false

/-- What holds at any point of a run whose steps come in time. -/
structure Sound (watch : KeepaliveWatch) : Prop where
  clock : ∀ channel ∈ watch.channel, channel.now = watch.now
  watches : ∀ channel ∈ watch.channel, channel.Watches msecsToJiffies
  onTime : ∀ channel ∈ watch.channel, channel.OnTime msecsToJiffies
  lastSeq : ∀ channel ∈ watch.channel, channel.p.counts.received ≠ 0 →
    watch.history.lastSeq = some channel.p.counts.seq
  window : watch.pc.inWindow = true → watch.Window msecsToJiffies
  clean : watch.pc = .healthy → watch.Clean

variable
    {msecsToJiffies} {sec} {watch : KeepaliveWatch}

theorem sound_start : start.Sound msecsToJiffies where
  clock _ none := by cases none
  watches _ none := by cases none
  onTime _ none := by cases none
  lastSeq _ none := by cases none
  window never := by cases never
  clean never := by cases never

/-- The window holds of a channel with the same counters. -/
theorem Window.map (window : watch.Window msecsToJiffies)
    {change : Channel → Channel}
    (same : ∀ channel ∈ watch.channel, channel.SameCounts (change channel)) :
    { watch with channel := watch.channel.map change }.Window
      msecsToJiffies := by
  rcases watch with ⟨now, channel, pc, wake, vars, history⟩
  cases channel with
  | none => exact window
  | some channel =>
      rcases same channel rfl with ⟨counts, probed⟩
      refine
        { unseen := window.unseen
          quiet := ?_
          silence := window.silence
          fresh := fun fresh => ?_
          gaps := fun old => ?_
          restarts := fun old later => ?_
          probed := fun last old => ?_
          shown := fun happened => ?_ }
      · rintro _ ⟨⟩
        rw [counts]
        exact window.quiet channel rfl
      · rintro _ ⟨⟩
        rw [counts]
        exact window.fresh fresh channel rfl
      · rintro _ ⟨⟩
        rw [counts]
        exact window.gaps old channel rfl
      · rintro _ ⟨⟩
        rw [counts]
        exact window.restarts old later channel rfl
      · rintro _ ⟨⟩
        exact probed (window.probed last old channel rfl)
      · have shown := window.shown happened
        cases last : pc.isLast with
        | true =>
            refine (shown_iff_of_last last).mpr ?_
            rcases (shown_iff_of_last last).mp shown with
              nothing | ⟨old, _, ⟨⟩, exceeds⟩
            · exact .inl nothing
            · exact .inr ⟨old, change channel, rfl, counts ▸ exceeds⟩
        | false =>
            refine (shown_iff_of_not_last last).mpr ?_
            rintro old _ ⟨⟩
            rw [counts]
            exact (shown_iff_of_not_last last).mp shown old channel rfl

/-- A step of the driver that no counter depends on. -/
theorem Sound.onChannel (sound : watch.Sound msecsToJiffies)
    {act : ChannelAct}
    (keeps : ∀ channel ∈ watch.channel,
      channel.KeepsWatch msecsToJiffies act)
    (clock : ∀ channel ∈ watch.channel,
      (channel.step msecsToJiffies act).now = channel.now)
    (onTime : ∀ channel ∈ watch.channel,
      (channel.step msecsToJiffies act).OnTime msecsToJiffies)
    (same : ∀ channel ∈ watch.channel,
      channel.SameCounts (channel.step msecsToJiffies act)) :
    { watch with channel := watch.onChannel msecsToJiffies act }.Sound
      msecsToJiffies := by
  rcases watch with ⟨now, channel, pc, wake, vars, history⟩
  cases channel with
  | none => exact sound
  | some channel =>
      refine
        { clock := ?_
          watches := ?_
          onTime := ?_
          lastSeq := ?_
          window := fun inWindow => (sound.window inWindow).map same
          clean := sound.clean }
      · rintro _ ⟨⟩
        exact (clock channel rfl).trans (sound.clock channel rfl)
      · rintro _ ⟨⟩
        exact
          (Channel.watches_step_iff msecsToJiffies
            (sound.watches channel rfl) act).mpr (keeps channel rfl)
      · rintro _ ⟨⟩
        exact onTime channel rfl
      · rintro _ ⟨⟩
        rw [(same channel rfl).counts]
        exact sound.lastSeq channel rfl

theorem sound_probe (sound : watch.Sound msecsToJiffies)
    (inTime : watch.InTime msecsToJiffies .probe) :
    (watch.step msecsToJiffies sec .probe).Sound msecsToJiffies := by
  refine sound.onChannel inTime ?_ ?_ ?_
  · intro channel _
    exact Channel.now_probe msecsToJiffies
  · intro channel held
    exact Channel.onTime_probe msecsToJiffies (sound.onTime channel held)
  · intro channel held
    exact Channel.sameCounts_probe msecsToJiffies (sound.onTime channel held)

theorem sound_fire (sound : watch.Sound msecsToJiffies) :
    (watch.step msecsToJiffies sec .fire).Sound msecsToJiffies := by
  refine sound.onChannel (fun _ _ => trivial) ?_ ?_ ?_
  · intro channel _
    exact Channel.now_fire msecsToJiffies
  · intro channel held
    exact Channel.onTime_fire msecsToJiffies (sound.onTime channel held)
  · intro channel _
    exact Channel.sameCounts_fire msecsToJiffies

theorem sound_handle (sound : watch.Sound msecsToJiffies) :
    (watch.step msecsToJiffies sec .handle).Sound msecsToJiffies := by
  refine sound.onChannel (fun _ _ => trivial) ?_ ?_ ?_
  · intro channel _
    exact (Channel.handler_handle msecsToJiffies).2
  · intro channel held
    exact Channel.onTime_handle msecsToJiffies (sound.onTime channel held)
  · intro channel _
    exact Channel.sameCounts_handle msecsToJiffies

/-- Time passes, and a silence that reaches the limit is written down. -/
theorem Window.later (window : watch.Window msecsToJiffies)
    {now : Nat} {silence : Bool} (le : watch.now ≤ now)
    (silent : silence = true → watch.history.silence = true ∨
      watch.history.quietSince + limit msecsToJiffies ≤ now) :
    { watch with
      now
      history := { watch.history with silence } }.Window msecsToJiffies where
  unseen := window.unseen
  quiet := window.quiet
  silence was :=
    (silent was).elim (fun before => (window.silence before).trans le) id
  fresh := window.fresh
  gaps := window.gaps
  restarts := window.restarts
  probed := window.probed
  shown := window.shown

theorem sound_tick (sound : watch.Sound msecsToJiffies) (jiffies : Nat) :
    (watch.step msecsToJiffies sec (.tick jiffies)).Sound
      msecsToJiffies := by
  have same : ∀ channel ∈ watch.channel,
      channel.SameCounts (channel.step msecsToJiffies (.tick jiffies)) :=
    fun channel _ => Channel.sameCounts_tick msecsToJiffies jiffies
  rcases watch with ⟨now, channel, pc, wake, vars, history⟩
  refine
    { clock := ?_
      watches := ?_
      onTime := ?_
      lastSeq := ?_
      window := fun inWindow => ?_
      clean := fun healthy => ?_ }
  · intro after member
    rcases Option.mem_map.mp member with ⟨before, held, rfl⟩
    exact congrArg (· + jiffies) (sound.clock before held)
  · intro after member
    rcases Option.mem_map.mp member with ⟨before, held, rfl⟩
    exact
      Channel.watches_tick msecsToJiffies (sound.watches before held) jiffies
  · intro after member
    rcases Option.mem_map.mp member with ⟨before, held, rfl⟩
    exact
      Channel.onTime_tick msecsToJiffies (sound.onTime before held) jiffies
  · intro after member
    rcases Option.mem_map.mp member with ⟨before, held, rfl⟩
    exact sound.lastSeq before held
  · refine
      ((sound.window inWindow).map same).later (Nat.le_add_right now jiffies)
        (fun silent => ?_)
    rcases Bool.or_eq_true_iff.mp silent with before | reached
    · exact .inl before
    · exact .inr (of_decide_eq_true (Bool.and_eq_true_iff.mp reached).2)
  · obtain rfl : pc = .healthy := healthy
    rcases sound.clean rfl with ⟨silence, rest⟩
    refine ⟨?_, rest⟩
    exact Bool.or_eq_false_iff.mpr ⟨silence, Bool.false_and _⟩

theorem sound_bind (sound : watch.Sound msecsToJiffies) :
    (watch.step msecsToJiffies sec .bind).Sound msecsToJiffies := by
  rcases watch with ⟨now, channel, pc, wake, vars, history⟩
  cases channel with
  | some channel => exact sound
  | none =>
      refine
        { clock := ?_
          watches := ?_
          onTime := ?_
          lastSeq := ?_
          window := fun inWindow => ?_
          clean := sound.clean }
      · rintro _ ⟨⟩
        rfl
      · rintro _ ⟨⟩ probed
        cases probed
      · rintro _ ⟨⟩
        exact Channel.onTime_start msecsToJiffies now
      · rintro _ ⟨⟩ received
        exact absurd rfl received
      · have window := sound.window inWindow
        have isFresh : (history.fresh || pc.inWindow) = true :=
          Bool.or_eq_true_iff.mpr (.inr inWindow)
        have notOld : ∀ {goal : Prop},
            (history.fresh || pc.inWindow) = false → goal :=
          fun old => absurd isFresh (ne_true_of_eq_false old)
        refine
          { unseen := window.unseen
            quiet := ?_
            silence := window.silence
            fresh := fun _ => ?_
            gaps := notOld
            restarts := notOld
            probed := fun _ => notOld
            shown := fun happened => ?_ }
        · rintro _ ⟨⟩
          exact Nat.zero_le _
        · rintro _ ⟨⟩
          rfl
        · cases last : pc.isLast with
          | true =>
              refine (shown_iff_of_last last).mpr ?_
              rcases (shown_iff_of_last last).mp (window.shown happened) with
                nothing | ⟨_, _, ⟨⟩, _⟩
              exact .inl nothing
          | false => exact (shown_iff_of_not_last last).mpr notOld

theorem sound_unbind (sound : watch.Sound msecsToJiffies)
    (inTime : watch.InTime msecsToJiffies .unbind) :
    (watch.step msecsToJiffies sec .unbind).Sound msecsToJiffies := by
  refine
    { clock := ?_
      watches := ?_
      onTime := ?_
      lastSeq := ?_
      window := fun inWindow => ?_
      clean := sound.clean }
  · intro _ none
    cases none
  · intro _ none
    cases none
  · intro _ none
    cases none
  · intro _ none
    cases none
  · have window := sound.window inWindow
    refine
      { unseen := window.unseen
        quiet := ?_
        silence := window.silence
        fresh := fun _ => ?_
        gaps := fun _ => ?_
        restarts := fun _ _ => ?_
        probed := fun _ _ => ?_
        shown := fun happened => ?_ }
    · intro _ none
      cases none
    · intro _ none
      cases none
    · intro _ none
      cases none
    · intro _ none
      cases none
    · intro _ none
      cases none
    · cases last : watch.pc.isLast with
      | true =>
          rcases inTime last with ⟨noGap, noRestart⟩
          rcases happened with gap | restart
          · exact absurd gap (ne_true_of_eq_false noGap)
          · exact absurd restart.1 (ne_true_of_eq_false noRestart)
      | false =>
          refine (shown_iff_of_not_last last).mpr ?_
          intro _ _ none
          cases none

theorem sound_mcoreRestart (sound : watch.Sound msecsToJiffies) :
    (watch.step msecsToJiffies sec .mcoreRestart).Sound msecsToJiffies := by
  rcases watch with ⟨now, channel, pc, wake, vars, history⟩
  refine
    { clock := sound.clock
      watches := sound.watches
      onTime := sound.onTime
      lastSeq := sound.lastSeq
      window := fun inWindow => ?_
      clean := fun healthy => ?_ }
  · have window := sound.window inWindow
    refine { window with shown := fun happened => ?_ }
    rcases happened with gap | ⟨-, shown⟩
    · exact window.shown (.inl gap)
    · cases shown
  · obtain rfl : pc = .healthy := healthy
    rcases sound.clean rfl with ⟨silence, gap, restarted⟩
    exact ⟨silence, gap, Bool.or_eq_false_iff.mpr ⟨restarted, rfl⟩⟩

/-- A message shows what it is the first to tell of, if it is compared. -/
theorem exceeds_counted {pc : WatchPc} {vars : WatchVars} {p : Mcka}
    {msg : MckaMsg} (received : p.received ≠ 0)
    (gaps : AtMost vars.g0 p.seqGaps)
    (restarts : pc ≠ .readRestarts → AtMost vars.r0 p.restarts)
    (counted : msg.uptimeMs < p.uptimeMs ∨ msg.seq ≠ nextSeq p.seq)
    (compared : msg.uptimeMs < p.uptimeMs → pc.onlyGaps = false) :
    Exceeds pc vars (p.counted msg).counts := by
  by_cases back : msg.uptimeMs < p.uptimeMs
  · have both := compared back
    have later : pc ≠ .readRestarts := by
      rintro rfl
      cases both
    rw [Mcka.counted_restart received back]
    exact .inr ⟨both, (restarts later).above⟩
  · have gap : msg.seq ≠ nextSeq p.seq := counted.resolve_left back
    rw [Mcka.counted_gap received back gap]
    exact .inl gaps.above

/-- What a message in time is the first to tell of is shown. -/
theorem shown_of_message {now wake : Nat} {channel : Channel} {pc : WatchPc}
    {vars : WatchVars} {history : WatchHistory} {msg : MckaMsg}
    (window :
      Window msecsToJiffies ⟨now, some channel, pc, wake, vars, history⟩)
    (lastSeq : channel.p.received ≠ 0 →
      history.lastSeq = some channel.p.seq)
    (inTime :
      MessageInTime msecsToJiffies
        ⟨now, some channel, pc, wake, vars, history⟩ channel msg)
    {later : Channel}
    (gaps : later.p.counts.seqGaps = (channel.p.counted msg).seqGaps)
    (restarts : later.p.counts.restarts = (channel.p.counted msg).restarts)
    (happened :
      WatchHistory.Happened
        (WatchHistory.receive pc.inWindow now msg history)) :
    Shown pc vars history.fresh (some later) := by
  have atLeast := channel.p.le_counted msg
  have stays : WatchHistory.Happened history →
      Shown pc vars history.fresh (some later) := fun before =>
    (window.shown before).trans (atLeast.1.trans gaps.ge)
      (atLeast.2.trans restarts.ge)
  rcases inTime with ⟨-, arrives⟩
  by_cases first : channel.p.received = 0
  · rw [if_pos first] at arrives
    rcases arrives with looked | ⟨-, follows, settled⟩
    · exact absurd looked (ne_true_of_eq_false window.unseen)
    · rcases happened with gap | ⟨restarted, -⟩
      · rcases Bool.or_eq_true_iff.mp gap with before | now
        · exact stays (.inl before)
        · rcases of_decide_eq_true (Bool.and_eq_true_iff.mp now).2 with
            ⟨seq, last, skips⟩
          exact absurd (follows seq last) skips
      · exact stays (.inr ⟨restarted, settled⟩)
  · rw [if_neg first] at arrives
    rcases arrives with ⟨shows, compared⟩
    by_cases before : WatchHistory.Happened history
    · exact stays before
    · have old : history.fresh = false := by
        refine Bool.eq_false_of_not_eq_true (fun fresh => ?_)
        exact first (window.fresh fresh channel rfl)
      -- what has happened is new, so the message is counted and compared
      have isNew :
          (msg.uptimeMs < channel.p.uptimeMs ∨
              msg.seq ≠ nextSeq channel.p.seq) ∧
            (msg.uptimeMs < channel.p.uptimeMs → pc.onlyGaps = false) := by
        rcases happened with gap | ⟨restarted, -⟩
        · rcases Bool.or_eq_true_iff.mp gap with already | now
          · exact absurd (.inl already) before
          · rcases of_decide_eq_true (Bool.and_eq_true_iff.mp now).2 with
              ⟨seq, last, skips⟩
            have same : channel.p.seq = seq :=
              Option.some.inj ((lastSeq first).symm.trans last)
            subst same
            refine ⟨.inr skips, fun back => ?_⟩
            refine Bool.eq_false_of_not_eq_true (fun only => ?_)
            exact skips (compared only back).1
        · have pending : history.restartPending = true := by
            refine Bool.eq_true_of_not_eq_false (fun settled => ?_)
            exact before (.inr ⟨restarted, settled⟩)
          refine ⟨shows pending, fun back => ?_⟩
          refine Bool.eq_false_of_not_eq_true (fun only => ?_)
          exact
            absurd pending (ne_true_of_eq_false (compared only back).2)
      have exceeds : Exceeds pc vars (channel.p.counted msg).counts :=
        exceeds_counted first (window.gaps old channel rfl)
          (fun later => window.restarts old later channel rfl) isNew.1
          isNew.2
      exact shown_of_exceeds old (exceeds.trans gaps.ge restarts.ge)

/-- In the window a message in time keeps what holds of it. -/
theorem Window.receive {now wake : Nat} {channel : Channel} {pc : WatchPc}
    {vars : WatchVars} {history : WatchHistory} {msg : MckaMsg}
    (window :
      Window msecsToJiffies ⟨now, some channel, pc, wake, vars, history⟩)
    (clock : channel.now = now)
    (lastSeq : channel.p.received ≠ 0 →
      history.lastSeq = some channel.p.seq)
    (inTime :
      MessageInTime msecsToJiffies
        ⟨now, some channel, pc, wake, vars, history⟩ channel msg)
    {later : Channel}
    (counts : later.p.counts =
      { received := channel.p.received + 1
        seq := msg.seq
        seqGaps := (channel.p.counted msg).seqGaps
        restarts := (channel.p.counted msg).restarts
        lastRx := channel.now })
    (samePc : later.pc = channel.pc) :
    Window msecsToJiffies
      ⟨now, some later, pc, wake, vars,
        WatchHistory.receive pc.inWindow now msg history⟩ := by
  have unlooked : ¬ history.looked = true :=
    ne_true_of_eq_false window.unseen
  have old : history.fresh = false := by
    refine Bool.eq_false_of_not_eq_true (fun fresh => ?_)
    have first : channel.p.received = 0 := window.fresh fresh channel rfl
    have arrives := inTime.2
    rw [if_pos first] at arrives
    rcases arrives with looked | ⟨notFresh, -⟩
    · exact unlooked looked
    · exact absurd fresh (ne_true_of_eq_false notFresh)
  have atLeast := channel.p.le_counted msg
  refine
    { unseen := rfl
      quiet := ?_
      silence := fun silence => ?_
      fresh := fun fresh => ?_
      gaps := fun _ => ?_
      restarts := fun _ notFirst => ?_
      probed := fun last _ => ?_
      shown := fun happened => ?_ }
  · rintro _ ⟨⟩
    rw [counts]
    exact clock.le
  · exact absurd (inTime.1 (window.silence silence)) unlooked
  · exact absurd fresh (ne_true_of_eq_false old)
  · rintro _ ⟨⟩
    rw [counts]
    exact (window.gaps old channel rfl).trans atLeast.1
  · rintro _ ⟨⟩
    rw [counts]
    exact (window.restarts old notFirst channel rfl).trans atLeast.2
  · rintro _ ⟨⟩
    exact samePc.trans (window.probed last old channel rfl)
  · refine shown_of_message window lastSeq inTime ?_ ?_ happened
    · rw [counts]
    · rw [counts]

theorem sound_message (sound : watch.Sound msecsToJiffies)
    {data : List UInt8} (inTime : watch.InTime msecsToJiffies (.message data)) :
    (watch.step msecsToJiffies sec (.message data)).Sound
      msecsToJiffies := by
  rcases watch with ⟨now, channel, pc, wake, vars, history⟩
  cases channel with
  | none => exact sound
  | some channel =>
      have clock :
          (channel.step msecsToJiffies (.message data)).now = channel.now :=
        Channel.now_message msecsToJiffies data
      have onTime : (channel.step msecsToJiffies (.message data)).OnTime
          msecsToJiffies :=
        Channel.onTime_message msecsToJiffies (sound.onTime channel rfl) data
      cases taken : channel.taken data with
      | none =>
          have moved :
              Sound msecsToJiffies
                ⟨now, some (channel.step msecsToJiffies (.message data)), pc,
                  wake, vars, history⟩ := by
            refine sound.onChannel (fun _ _ => trivial) ?_ ?_ ?_
            · rintro _ ⟨⟩
              exact clock
            · rintro _ ⟨⟩
              exact onTime
            · rintro _ ⟨⟩
              exact Channel.sameCounts_of_not_taken msecsToJiffies taken
          simp only [KeepaliveWatch.step, Option.bind_some, taken]
          exact moved
      | some msg =>
          have counts := Channel.counts_of_taken msecsToJiffies taken
          have samePc : (channel.step msecsToJiffies (.message data)).pc =
              channel.pc := Channel.pc_message msecsToJiffies data
          have watches :
              (channel.step msecsToJiffies (.message data)).Watches
                msecsToJiffies :=
            Channel.watches_message msecsToJiffies
              (sound.watches channel rfl) data
          simp only [KeepaliveWatch.step, onChannel, Option.map_some,
            Option.bind_some, taken]
          generalize channel.step msecsToJiffies (.message data) = later at *
          refine
            { clock := ?_
              watches := ?_
              onTime := ?_
              lastSeq := ?_
              window := fun inWindow => ?_
              clean := fun healthy => ?_ }
          · rintro _ ⟨⟩
            exact clock.trans (sound.clock channel rfl)
          · rintro _ ⟨⟩
            exact watches
          · rintro _ ⟨⟩
            exact onTime
          · rintro _ ⟨⟩ -
            rw [counts]
            rfl
          · exact
              (sound.window inWindow).receive (sound.clock channel rfl)
                (sound.lastSeq channel rfl)
                (inTime inWindow channel rfl msg taken) counts samePc
          · obtain rfl : pc = .healthy := healthy
            rcases sound.clean rfl with ⟨silence, gap, restarted⟩
            exact
              ⟨silence,
                Bool.or_eq_false_iff.mpr ⟨gap, Bool.false_and _⟩, restarted⟩

/-! ## The script -/

theorem kaGet_of_probed {Value : Type} {channel : Channel}
    (field : Mcka → Value) (probed : channel.pc = .probed) :
    kaGet (some channel) field = some (field channel.p) := by
  rw [kaGet, if_pos probed]

theorem kaGet_eq_some {Value : Type} {channel : Option Channel}
    {field : Mcka → Value} {value : Value}
    (read : kaGet channel field = some value) :
    ∃ found, channel = some found ∧ found.pc = .probed ∧
      field found.p = value := by
  cases channel with
  | none => cases read
  | some channel =>
      rw [kaGet] at read
      split_ifs at read with probed
      exact ⟨channel, rfl, probed, Option.some.inj read⟩

/-- A read gives no more than the counter holds. -/
theorem atMost_kaGet {channel : Channel} (field : Mcka → Nat) :
    AtMost (kaGet (some channel) field) (field channel.p) := by
  intro first read
  rcases kaGet_eq_some read with ⟨found, same, -, value⟩
  cases same
  exact value.ge

/-- Outside the window only the driver is followed. -/
theorem Sound.elsewhere (sound : watch.Sound msecsToJiffies) {pc : WatchPc}
    {wake : Nat} {vars : WatchVars} {looked : Bool}
    (outside : pc.inWindow = false) (notHealthy : pc ≠ .healthy) :
    Sound msecsToJiffies
      { watch with
        pc
        wake
        vars
        history := { watch.history with looked } } where
  clock := sound.clock
  watches := sound.watches
  onTime := sound.onTime
  lastSeq := sound.lastSeq
  window inWindow := absurd inWindow (ne_true_of_eq_false outside)
  clean healthy := absurd healthy notHealthy

/-- A statement of the script that stays in the window. -/
theorem Sound.inside (sound : watch.Sound msecsToJiffies) {pc : WatchPc}
    {wake : Nat} {vars : WatchVars} {looked : Bool}
    (notHealthy : pc ≠ .healthy)
    (window :
      Window msecsToJiffies
        { watch with
          pc
          wake
          vars
          history := { watch.history with looked } }) :
    Sound msecsToJiffies
      { watch with
        pc
        wake
        vars
        history := { watch.history with looked } } where
  clock := sound.clock
  watches := sound.watches
  onTime := sound.onTime
  lastSeq := sound.lastSeq
  window _ := window
  clean healthy := absurd healthy notHealthy

/-- The window begins with nothing to tell of. -/
theorem sound_readGaps (sound : watch.Sound msecsToJiffies)
    (here : watch.pc = .readGaps) :
    (watch.script msecsToJiffies sec).Sound msecsToJiffies := by
  simp only [script, here]
  exact
    { clock := sound.clock
      watches := sound.watches
      onTime := sound.onTime
      lastSeq := sound.lastSeq
      window := fun _ =>
        { unseen := rfl
          quiet := fun channel held =>
            (sound.onTime channel held).lastRx.trans
              (sound.clock channel held).le
          silence := fun never => by cases never
          fresh := fun never => by cases never
          gaps := fun _ channel held => by
            rw [show watch.channel = some channel from held]
            exact atMost_kaGet Mcka.seqGaps
          restarts := fun _ first => absurd rfl first
          probed := fun last => by rcases last with last | last <;> cases last
          shown := fun happened => by
            rcases happened with gap | ⟨restarted, -⟩
            · cases gap
            · cases restarted }
      clean := fun never => by cases never }

/-- A statement leaves what has happened, and the first read of the gaps. -/
theorem Window.advance (window : watch.Window msecsToJiffies) {pc : WatchPc}
    {wake : Nat} {vars : WatchVars} {looked : Bool}
    (unlooked : looked = false) (g0 : vars.g0 = watch.vars.g0)
    (restarts : watch.history.fresh = false → pc ≠ .readRestarts →
      ∀ channel ∈ watch.channel,
        AtMost vars.r0 channel.p.counts.restarts)
    (probed : pc = .readAgain ∨ pc.isLast = true →
      watch.history.fresh = false →
        ∀ channel ∈ watch.channel, channel.pc = .probed)
    (shown : WatchHistory.Happened watch.history →
      Shown pc vars watch.history.fresh watch.channel) :
    Window msecsToJiffies
      { watch with
        pc
        wake
        vars
        history := { watch.history with looked } } where
  unseen := unlooked
  quiet := window.quiet
  silence := window.silence
  fresh := window.fresh
  gaps old channel held := by
    rw [show _ = watch.vars.g0 from g0]
    exact window.gaps old channel held
  restarts := restarts
  probed := probed
  shown := shown

/-- Before the last check the counters of the channel show what has happened. -/
theorem Window.exceeds (window : watch.Window msecsToJiffies)
    (notLast : watch.pc.isLast = false)
    (happened : WatchHistory.Happened watch.history)
    (old : watch.history.fresh = false) :
    ∀ channel ∈ watch.channel,
      Exceeds watch.pc watch.vars channel.p.counts :=
  (shown_iff_of_not_last notLast).mp (window.shown happened) old

theorem sound_readRestarts (sound : watch.Sound msecsToJiffies)
    (here : watch.pc = .readRestarts) :
    (watch.script msecsToJiffies sec).Sound msecsToJiffies := by
  have window := sound.window (by rw [here]; rfl)
  have notLast : watch.pc.isLast = false := by rw [here]; rfl
  simp only [script, here]
  refine sound.inside (by decide) (window.advance window.unseen rfl ?_ ?_ ?_)
  · intro _ _ channel held
    rw [show watch.channel = some channel from held]
    exact atMost_kaGet Mcka.restarts
  · rintro (last | last)
    · cases last
    · cases last
  · intro happened
    refine (shown_iff_of_not_last rfl).mpr ?_
    intro old channel held
    rcases window.exceeds notLast happened old channel held with
      above | ⟨both, -⟩
    · exact .inl above
    · rw [here] at both
      cases both

theorem sound_readReceived (sound : watch.Sound msecsToJiffies)
    (here : watch.pc = .readReceived) :
    (watch.script msecsToJiffies sec).Sound msecsToJiffies := by
  have window := sound.window (by rw [here]; rfl)
  have notLast : watch.pc.isLast = false := by rw [here]; rfl
  have later : watch.pc ≠ .readRestarts := by rw [here]; decide
  simp only [script, here]
  refine sound.inside (by decide) (window.advance window.unseen rfl ?_ ?_ ?_)
  · intro old _
    exact window.restarts old later
  · rintro (last | last)
    · cases last
    · cases last
  · intro happened
    refine (shown_iff_of_not_last rfl).mpr ?_
    intro old channel held
    rcases window.exceeds notLast happened old channel held with
      above | ⟨-, above⟩
    · exact .inl above
    · exact .inr ⟨rfl, above⟩

/-- A look that finds the state alive has nothing to see. -/
theorem Sound.not_shows (sound : watch.Sound msecsToJiffies)
    (window : watch.Window msecsToJiffies)
    (alive : kaGet watch.channel Mcka.state = some .alive) :
    ¬ watch.Shows msecsToJiffies := by
  rcases kaGet_eq_some alive with ⟨channel, held, probed, state⟩
  have onTime := sound.onTime channel held
  rw [Shows, held]
  rintro (unprobed | nothing | ⟨silent, handled⟩)
  · exact unprobed probed
  · exact (onTime.alive state).1 nothing
  · have recent :=
      Channel.lt_of_alive msecsToJiffies onTime (sound.watches channel held)
        probed state handled
    have sameLimit : channel.limit msecsToJiffies = limit msecsToJiffies :=
      congrArg msecsToJiffies onTime.fixed
    have quiet : channel.p.lastRx ≤ watch.history.quietSince :=
      window.quiet channel held
    have reached :
        watch.history.quietSince + limit msecsToJiffies ≤ watch.now := silent
    rw [sameLimit, sound.clock channel held] at recent
    omega

theorem Sound.unlooked (sound : watch.Sound msecsToJiffies)
    (window : watch.Window msecsToJiffies)
    (alive : kaGet watch.channel Mcka.state = some .alive) :
    (watch.history.looked || decide (watch.Shows msecsToJiffies)) = false := by
  rw [window.unseen, decide_eq_false (sound.not_shows window alive)]
  rfl

theorem sound_stable (sound : watch.Sound msecsToJiffies)
    (here : watch.pc = .stable) :
    (watch.script msecsToJiffies sec).Sound msecsToJiffies := by
  have window := sound.window (by rw [here]; rfl)
  have notLast : watch.pc.isLast = false := by rw [here]; rfl
  have later : watch.pc ≠ .readRestarts := by rw [here]; decide
  simp only [script, here]
  split_ifs with dead again
  · exact sound.elsewhere rfl (by decide)
  · have unlooked := sound.unlooked window (not_not.mp dead)
    refine sound.inside (by decide) (window.advance unlooked rfl ?_ ?_ ?_)
    · intro old _
      exact window.restarts old later
    · rintro (last | last)
      · cases last
      · cases last
    · intro happened
      refine (shown_iff_of_not_last rfl).mpr ?_
      intro old channel held
      rcases window.exceeds notLast happened old channel held with
        above | ⟨-, above⟩
      · exact .inl above
      · exact .inr ⟨rfl, above⟩
  · have unlooked := sound.unlooked window (not_not.mp dead)
    refine sound.inside (by decide) (window.advance unlooked rfl ?_ ?_ ?_)
    · intro old _
      exact window.restarts old later
    · intro _ _ channel held
      rcases kaGet_eq_some (not_not.mp dead) with ⟨found, same, probed, -⟩
      rw [show watch.channel = some channel from held] at same
      cases same
      exact probed
    · intro happened
      refine (shown_iff_of_not_last rfl).mpr ?_
      intro old channel held
      rcases window.exceeds notLast happened old channel held with
        above | ⟨-, above⟩
      · exact .inl above
      · exact .inr ⟨rfl, above⟩

/-- A channel bound in the window has received nothing to read. -/
theorem Window.received_of_fresh (window : watch.Window msecsToJiffies)
    (fresh : watch.history.fresh = true) :
    (kaGet watch.channel Mcka.received).getD 0 = 0 := by
  cases read : kaGet watch.channel Mcka.received with
  | none => rfl
  | some value =>
      rcases kaGet_eq_some read with ⟨channel, held, -, same⟩
      have nothing : channel.p.received = 0 := window.fresh fresh channel held
      exact same.symm.trans nothing

theorem sound_readAgain (sound : watch.Sound msecsToJiffies)
    (here : watch.pc = .readAgain) :
    (watch.script msecsToJiffies sec).Sound msecsToJiffies := by
  have window := sound.window (by rw [here]; rfl)
  have notLast : watch.pc.isLast = false := by rw [here]; rfl
  have later : watch.pc ≠ .readRestarts := by rw [here]; decide
  simp only [script, here]
  refine sound.inside (by decide) (window.advance window.unseen rfl ?_ ?_ ?_)
  · intro old _
    exact window.restarts old later
  · intro _
    exact window.probed (.inl here)
  · intro happened
    refine (shown_iff_of_last rfl).mpr ?_
    cases fresh : watch.history.fresh with
    | true => exact .inl (window.received_of_fresh fresh)
    | false =>
        cases held : watch.channel with
        | none => exact .inl rfl
        | some channel =>
            refine .inr ⟨rfl, channel, rfl, ?_⟩
            rcases window.exceeds notLast happened fresh channel held with
              above | ⟨-, above⟩
            · exact .inl above
            · exact .inr ⟨rfl, above⟩

theorem sound_checkRestarts (sound : watch.Sound msecsToJiffies)
    (here : watch.pc = .checkRestarts) :
    (watch.script msecsToJiffies sec).Sound msecsToJiffies := by
  have window := sound.window (by rw [here]; rfl)
  have last : watch.pc.isLast = true := by rw [here]; rfl
  have later : watch.pc ≠ .readRestarts := by rw [here]; decide
  simp only [script, here]
  split_ifs with differ
  · exact sound.elsewhere rfl (by decide)
  · refine sound.inside (by decide) (window.advance window.unseen rfl ?_ ?_ ?_)
    · intro old _
      exact window.restarts old later
    · intro _
      exact window.probed (.inr last)
    · intro happened
      refine (shown_iff_of_last rfl).mpr ?_
      rcases (shown_iff_of_last last).mp (window.shown happened) with
        nothing | ⟨old, channel, held, above | ⟨-, above⟩⟩
      · exact .inl nothing
      · exact .inr ⟨old, channel, held, .inl above⟩
      · have probed := window.probed (.inr last) old channel held
        have read := kaGet_of_probed Mcka.restarts probed
        rw [show watch.channel = some channel from held, read] at differ
        exact absurd (not_not.mp differ) above.ne

/-- The last check fails if something has happened. -/
theorem sound_checkGaps (sound : watch.Sound msecsToJiffies)
    (here : watch.pc = .checkGaps)
    (inTime : watch.InTime msecsToJiffies .script) :
    (watch.script msecsToJiffies sec).Sound msecsToJiffies := by
  have window := sound.window (by rw [here]; rfl)
  have last : watch.pc.isLast = true := by rw [here]; rfl
  rcases inTime here with ⟨settled, looks⟩
  simp only [script, here]
  split_ifs with differ few
  · exact sound.elsewhere rfl (by decide)
  · exact sound.elsewhere rfl (by decide)
  · have nothing : ¬ WatchHistory.Happened watch.history := by
      intro happened
      rcases (shown_iff_of_last last).mp (window.shown happened) with
        none | ⟨old, channel, held, above | ⟨both, -⟩⟩
      · rw [none, MCORE_STABLE] at few
        omega
      · have probed := window.probed (.inr last) old channel held
        have read := kaGet_of_probed Mcka.seqGaps probed
        rw [show watch.channel = some channel from held, read] at differ
        exact absurd (not_not.mp differ) above.ne
      · rw [here] at both
        cases both
    exact
      { clock := sound.clock
        watches := sound.watches
        onTime := sound.onTime
        lastSeq := sound.lastSeq
        window := fun never => by cases never
        clean := fun _ => by
          refine ⟨?_, ?_, ?_⟩
          · refine Bool.eq_false_of_not_eq_true (fun silence => ?_)
            exact
              absurd (looks (window.silence silence))
                (ne_true_of_eq_false window.unseen)
          · exact
              Bool.eq_false_of_not_eq_true (fun gap => nothing (.inl gap))
          · exact
              Bool.eq_false_of_not_eq_true
                (fun restarted => nothing (.inr ⟨restarted, settled⟩)) }

theorem sound_script (sound : watch.Sound msecsToJiffies)
    (inTime : watch.InTime msecsToJiffies .script) :
    (watch.step msecsToJiffies sec .script).Sound msecsToJiffies := by
  simp only [step]
  split_ifs with awake
  · cases here : watch.pc with
    | waiting =>
        simp only [script, here]
        split_ifs with alive late
        · exact sound.elsewhere rfl (by decide)
        · exact sound.elsewhere rfl (by decide)
        · exact sound.elsewhere rfl (by decide)
    | readGaps => exact sound_readGaps sound here
    | readRestarts => exact sound_readRestarts sound here
    | readReceived => exact sound_readReceived sound here
    | stable => exact sound_stable sound here
    | readAgain => exact sound_readAgain sound here
    | checkRestarts => exact sound_checkRestarts sound here
    | checkGaps => exact sound_checkGaps sound here inTime
    | healthy =>
        simp only [script, here]
        exact sound
    | unhealthy =>
        simp only [script, here]
        exact sound
  · exact sound

theorem sound_step (sound : watch.Sound msecsToJiffies) {act : WatchAct}
    (inTime : watch.InTime msecsToJiffies act) :
    (watch.step msecsToJiffies sec act).Sound msecsToJiffies := by
  cases act with
  | tick jiffies => exact sound_tick sound jiffies
  | bind => exact sound_bind sound
  | unbind => exact sound_unbind sound inTime
  | probe => exact sound_probe sound inTime
  | message data => exact sound_message sound inTime
  | fire => exact sound_fire sound
  | handle => exact sound_handle sound
  | mcoreRestart => exact sound_mcoreRestart sound
  | script => exact sound_script sound inTime

/-- `mcore_confirm`, with what it has watched, writes the environment. -/
def Confirms (watch : KeepaliveWatch) (ctx : Ctx) (boot : LinuxBoot)
    (disk : Disk) : Prop :=
  ∃ env,
    Write.env env ∈
      (Script.exec (Ab.mcoreConfirm ctx boot (decide (watch.pc = .healthy)))
        disk).2.writes

/-- Without a healthy M-core nothing is written. -/
theorem writes_mcoreConfirm_false (ctx : Ctx) (boot : LinuxBoot)
    (disk : Disk) :
    Script.Ends (Ab.mcoreConfirm ctx boot false) ⟨disk, [], false⟩
      fun _ later => later.writes = [] := by
  rw [Ab.mcoreConfirm]
  cases boot.chosen.mcoreTry with
  | none => rfl
  | some tried => simp

theorem healthy_of_confirms {ctx : Ctx} {boot : LinuxBoot} {disk : Disk}
    (confirms : watch.Confirms ctx boot disk) : watch.pc = .healthy := by
  by_contra unhealthy
  rcases confirms with ⟨env, written⟩
  rw [decide_eq_false unhealthy] at written
  have nothing := writes_mcoreConfirm_false ctx boot disk
  rw [Script.exec, show _ = [] from nothing] at written
  cases written

end

/--
If every step comes in time and the M-core is confirmed, then in the window it
was not silent for `timeout_ms`, each message followed its predecessor, and
the M-core did not restart.
-/
theorem clean_of_confirms (msecsToJiffies : UInt32 → Nat) (sec : Nat)
    (acts : List WatchAct) (ctx : Ctx) (boot : LinuxBoot) (disk : Disk)
    (inTime :
      Trace.Along (step msecsToJiffies sec) (InTime msecsToJiffies) start
        acts)
    (confirms :
      (Trace.run (step msecsToJiffies sec) start acts).Confirms ctx boot
        disk) :
    (Trace.run (step msecsToJiffies sec) start acts).Clean := by
  have keeps : ∀ watch act, Sound msecsToJiffies watch →
      InTime msecsToJiffies watch act →
        (watch.step msecsToJiffies sec act).Sound msecsToJiffies :=
    fun _ _ sound inTime => sound_step sound inTime
  have sound := Trace.run_invariant keeps sound_start inTime
  exact sound.clean (healthy_of_confirms confirms)

/-! ## Runs with 250 ticks a second -/

/-- A boot whose SPL placed the firmware it tried. -/
def triedBoot : LinuxBoot where
  running := .a
  chosen := { Chosen.proper with mcoreSlot := some .a, mcoreTry := some .a }

/-- The channel is created and probed. -/
def bound : List WatchAct :=
  [.bind, .probe, .probe, .probe, .probe]

/-- The script finds the M-core alive and begins the window. -/
def begun : List WatchAct :=
  bound ++ .message (Channel.hello 1 1) :: List.replicate 4 .script

/-- The script looks after some time. -/
def look (jiffies : Nat) : List WatchAct :=
  [.tick jiffies, .script]

/-- In each second a message comes in, and later the script looks. -/
def seconds (seqs : List UInt8) : List WatchAct :=
  seqs.flatMap fun seq =>
    .tick 10 :: .message (Channel.hello seq seq) :: look 240

/-- The last check. -/
def checked : List WatchAct :=
  [.script, .script, .script]

/-- A message a second. -/
def steady : List WatchAct :=
  begun ++ look 250 ++ seconds [2, 3, 4, 5, 6, 7, 8, 9, 10] ++ checked

/-- The timer expires, and right then three messages come in at once. -/
def burst : List WatchAct :=
  [.tick 10, .fire, .handle, .message (Channel.hello 6 6),
    .message (Channel.hello 7 7), .message (Channel.hello 8 8)]

/-- For just over three seconds nothing comes in, and then all at once. -/
def stalled : List WatchAct :=
  begun ++ look 250 ++ seconds [2, 3, 4, 5] ++ look 250 ++ look 250 ++
    burst ++ look 240 ++ seconds [9, 10] ++ checked

/-- The M-core restarts right after the first reads, and its channel too. -/
def rebound : List WatchAct :=
  begun ++ .mcoreRestart :: .unbind :: bound ++
    .message (Channel.hello 1 1) :: look 250 ++
    seconds [2, 3, 4, 5, 6, 7, 8, 9, 10] ++ checked

/-- The M-core restarts after its last message. -/
def restartedLate : List WatchAct :=
  begun ++ look 250 ++ seconds [2, 3, 4, 5, 6, 7, 8, 9, 10] ++
    .mcoreRestart :: checked

theorem confirms_of_healthy {watch : KeepaliveWatch}
    (healthy : watch.pc = .healthy) :
    watch.Confirms Bench.ctx triedBoot Bench.disk := by
  rw [Confirms, decide_eq_true healthy]
  exact ⟨Bench.disk.env.set .mcoreSlot "a", List.mem_singleton.mpr rfl⟩

/-- A steady M-core is confirmed, and was what it seemed to be. -/
theorem clean_of_confirms_steady :
    (Trace.run (step Channel.jiffies250 250) start steady).Clean :=
  clean_of_confirms Channel.jiffies250 250 steady Bench.ctx triedBoot
    Bench.disk (by decide +kernel) (confirms_of_healthy (by decide +kernel))

/--
Three M-cores that are confirmed: one was silent for three seconds, one
skipped a `seq` and restarted with its channel, and one has just restarted.
-/
theorem not_clean_of_confirms :
    (∀ acts ∈ [stalled, rebound, restartedLate],
      (Trace.run (step Channel.jiffies250 250) start acts).Confirms Bench.ctx
        triedBoot Bench.disk) ∧
    (Trace.run (step Channel.jiffies250 250) start
      stalled).history.silence = true ∧
    ((Trace.run (step Channel.jiffies250 250) start
        rebound).history.gap = true ∧
      (Trace.run (step Channel.jiffies250 250) start
        rebound).history.restarted = true) ∧
    (Trace.run (step Channel.jiffies250 250) start
      restartedLate).history.restarted = true := by
  refine ⟨?_, by decide +kernel, by decide +kernel, by decide +kernel⟩
  intro acts run
  have healthy : ∀ acts ∈ [stalled, rebound, restartedLate],
      (Trace.run (step Channel.jiffies250 250) start acts).pc = .healthy := by
    decide +kernel
  exact confirms_of_healthy (healthy acts run)

end KeepaliveWatch

end KmmYocto
