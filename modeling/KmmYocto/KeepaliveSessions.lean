import KmmYocto.KeepaliveCounts
import KmmYocto.McoreFormat
import KmmYocto.Trace

/-!
# What the keepalive counters can tell

The M-core runs in sessions, one after each of its starts.  Within a session
it numbers its messages from some `seq` on and stamps each with the time since
the start of the session; both numbers wrap at 32 bits.  The driver sees only
the messages that arrive and tells a new session by a smaller time stamp and a
loss by a jump of `seq`.

Along a run the counters are true exactly if the time stamp does not wrap
between two messages of one session, is smaller after a change of session, and
no loss is a multiple of 2^32 messages long.
-/

namespace KmmYocto

/-- A valid message, as the M-core sends it. -/
def mckaBytes (uptimeMs seq : Nat) : List UInt8 :=
  Memory.wordBytes 0x414b434d ++ [1, 0, 16, 0] ++
    Memory.wordBytes (uptimeMs % 2 ^ 32) ++ Memory.wordBytes (seq % 2 ^ 32)

/-- The driver reads the two numbers as they were sent. -/
theorem mckaMsg_mckaBytes (uptimeMs seq : Nat) :
    mckaMsg (mckaBytes uptimeMs seq) =
      some { uptimeMs := uptimeMs % 2 ^ 32, seq := seq % 2 ^ 32 } := by
  have small : ∀ value : Nat, value % 2 ^ 32 < 2 ^ 32 :=
    fun value => Nat.mod_lt value (Nat.two_pow_pos 32)
  have split :
      mckaBytes uptimeMs seq =
        Memory.wordBytes 0x414b434d ++
          ([1, 0, 16, 0] ++ (Memory.wordBytes (uptimeMs % 2 ^ 32) ++
            (Memory.wordBytes (seq % 2 ^ 32) ++ []))) := by
    simp only [mckaBytes, List.append_assoc, List.append_nil]
  have magic : McoreImage.le32 (mckaBytes uptimeMs seq) 0 = 0x414b434d := by
    rw [split]
    exact McoreImage.le32_append_wordBytes (by norm_num) [] _
  have uptime :
      McoreImage.le32 (mckaBytes uptimeMs seq) 8 = uptimeMs % 2 ^ 32 := by
    rw [split, ← List.append_assoc]
    exact McoreImage.le32_append_wordBytes (small uptimeMs) _ _
  have number :
      McoreImage.le32 (mckaBytes uptimeMs seq) 12 = seq % 2 ^ 32 := by
    rw [split, ← List.append_assoc, ← List.append_assoc]
    exact McoreImage.le32_append_wordBytes (small seq) _ _
  have proto : le16 (mckaBytes uptimeMs seq) 4 = 1 := by
    simp [le16, mckaBytes, Memory.wordBytes]
  have len : le16 (mckaBytes uptimeMs seq) 6 = 16 := by
    simp [le16, mckaBytes, Memory.wordBytes]
  have size : (mckaBytes uptimeMs seq).length = 16 := rfl
  simp only [mckaMsg, magic, uptime, number, proto, len, size, ne_eq,
    not_true_eq_false, or_self, if_false]

/-- The M-core in its present session. -/
structure MckaSender where
  session : Nat
  /-- The `seq` of the session's first message. -/
  first : Nat
  /-- How many messages the session has sent. -/
  sent : Nat
  /-- Milliseconds since the session's start, at the last message. -/
  uptime : Nat
deriving DecidableEq, Repr

/-- A message that arrived: its session, its place in it and its time. -/
structure Heard where
  session : Nat
  index : Nat
  uptime : Nat
deriving DecidableEq, Repr

/-- The M-core and the private data of the bound driver. -/
structure KeepaliveRun where
  sender : MckaSender
  p : Mcka
  /-- The last valid message since the bind. -/
  heard : Option Heard

/-- What happens on either side of the channel. -/
inductive KeepaliveAct where
  /-- The next message, some time after the one before; it may be lost. -/
  | send (elapsed : Nat) (arrives : Bool) (limit now : Nat)
  /-- The session ends, and the next one counts from `first`. -/
  | restart (first : Nat)
  | garbled (data : List UInt8) (bad : mckaMsg data = none) (limit now : Nat)
  | expire (limit now : Nat)
  | bind (now : Nat)

namespace KeepaliveRun

/-- The message of the M-core that is next, with the time that has passed. -/
def next (run : KeepaliveRun) (elapsed : Nat) : Heard where
  session := run.sender.session
  index := run.sender.sent
  uptime := run.sender.uptime + elapsed

def step (run : KeepaliveRun) : KeepaliveAct → KeepaliveRun
  | .send elapsed arrives limit now =>
      let message := run.next elapsed
      let sender :=
        { run.sender with
          sent := run.sender.sent + 1
          uptime := message.uptime }
      if arrives then
        { sender
          p :=
            mckaCb limit now
              (mckaBytes message.uptime (run.sender.first + message.index))
              run.p
          heard := some message }
      else { run with sender }
  | .restart first =>
      { run with
        sender :=
          { session := run.sender.session + 1
            first
            sent := 0
            uptime := 0 } }
  | .garbled data _ limit now => { run with p := mckaCb limit now data run.p }
  | .expire limit now => { run with p := mckaTimeout limit now run.p }
  | .bind now => { run with p := mckaInit now, heard := none }

/-- A bound driver next to an M-core in any state. -/
def start (sender : MckaSender) (now : Nat) : KeepaliveRun where
  sender
  p := mckaInit now
  heard := none

end KeepaliveRun

namespace Heard

/-- The counters tell what happened between the two messages. -/
structure Told (last message : Heard) (before after : Mcka) : Prop where
  neither :
    (after.seqGaps = before.seqGaps ∧ after.restarts = before.restarts) ↔
      message.session = last.session ∧ message.index = last.index + 1
  restart : message.session ≠ last.session →
    after.restarts = before.restarts + 1 ∧ after.seqGaps = before.seqGaps
  gap : message.session = last.session → last.index + 1 < message.index →
    after.seqGaps = before.seqGaps + 1 ∧ after.restarts = before.restarts

/-- The numbers of the two messages tell what happened between them. -/
def Tells (last message : Heard) : Prop :=
  if message.session = last.session then
    last.uptime % 2 ^ 32 ≤ message.uptime % 2 ^ 32 ∧
      (message.index = last.index + 1 ∨
        (message.index - last.index) % 2 ^ 32 ≠ 1)
  else message.uptime % 2 ^ 32 < last.uptime % 2 ^ 32

instance (last message : Heard) : Decidable (last.Tells message) :=
  inferInstanceAs (Decidable (ite _ _ _))

section

variable
    {last message : Heard} {before after : Mcka}

/-- A counted restart is right exactly if the session changed. -/
theorem told_iff_of_restart (restarts : after.restarts = before.restarts + 1)
    (seqGaps : after.seqGaps = before.seqGaps)
    (later : message.session = last.session → last.index < message.index) :
    last.Told message before after ↔ message.session ≠ last.session := by
  have counted : ¬ (after.seqGaps = before.seqGaps ∧
      after.restarts = before.restarts) := by omega
  constructor
  · intro told same
    have lost : last.index + 1 < message.index := by
      have notNext : message.index ≠ last.index + 1 :=
        fun isNext => counted (told.neither.mpr ⟨same, isNext⟩)
      have order := later same
      omega
    have gap := told.gap same lost
    omega
  · intro changed
    exact ⟨iff_of_false counted fun both => changed both.1,
      fun _ => ⟨restarts, seqGaps⟩, fun same => absurd same changed⟩

/-- A counted gap is right exactly if the session did not end. -/
theorem told_iff_of_gap (restarts : after.restarts = before.restarts)
    (seqGaps : after.seqGaps = before.seqGaps + 1) :
    last.Told message before after ↔
      message.session = last.session ∧ message.index ≠ last.index + 1 := by
  have counted : ¬ (after.seqGaps = before.seqGaps ∧
      after.restarts = before.restarts) := by omega
  constructor
  · intro told
    have same : message.session = last.session := by
      by_contra changed
      have restart := told.restart changed
      omega
    exact ⟨same, fun isNext => counted (told.neither.mpr ⟨same, isNext⟩)⟩
  · rintro ⟨same, notNext⟩
    exact ⟨iff_of_false counted fun both => notNext both.2,
      fun changed => absurd same changed, fun _ _ => ⟨seqGaps, restarts⟩⟩

/-- Counting nothing is right exactly if the messages are consecutive. -/
theorem told_iff_of_neither (restarts : after.restarts = before.restarts)
    (seqGaps : after.seqGaps = before.seqGaps) :
    last.Told message before after ↔
      message.session = last.session ∧ message.index = last.index + 1 := by
  constructor
  · intro told
    exact told.neither.mp ⟨seqGaps, restarts⟩
  · rintro ⟨same, isNext⟩
    exact ⟨iff_of_true ⟨seqGaps, restarts⟩ ⟨same, isNext⟩,
      fun changed => absurd same changed,
      fun _ lost => absurd isNext lost.ne'⟩

end

end Heard

namespace KeepaliveRun

/-- A message that arrives after another moves the counters as it should. -/
def Truthful (run : KeepaliveRun) : KeepaliveAct → Prop
  | .send elapsed true limit now =>
      ∀ last ∈ run.heard,
        last.Told (run.next elapsed) run.p
          (run.step (.send elapsed true limit now)).p
  | _ => True

/-- A message that arrives after another can be told from it. -/
def Tellable (run : KeepaliveRun) : KeepaliveAct → Prop
  | .send elapsed true _ _ => ∀ last ∈ run.heard, last.Tells (run.next elapsed)
  | _ => True

/-- The driver holds the numbers of the last message it heard. -/
structure Holds (run : KeepaliveRun) : Prop where
  received : run.p.received = 0 ↔ run.heard = none
  uptime : ∀ last ∈ run.heard, run.p.uptimeMs = last.uptime % 2 ^ 32
  session : ∀ last ∈ run.heard, last.session ≤ run.sender.session
  seq : ∀ last ∈ run.heard, last.session = run.sender.session →
    run.p.seq = (run.sender.first + last.index) % 2 ^ 32 ∧
      last.index < run.sender.sent

theorem holds_start (sender : MckaSender) (now : Nat) :
    (start sender now).Holds where
  received := ⟨fun _ => rfl, fun _ => rfl⟩
  uptime := nofun
  session := nofun
  seq := nofun

section

variable
    {run : KeepaliveRun}

/-- A message is stored as it comes, whatever is counted. -/
theorem p_step_send (run : KeepaliveRun) (elapsed limit now : Nat) :
    (run.step (.send elapsed true limit now)).p =
      { run.p.counted
          { uptimeMs := (run.next elapsed).uptime % 2 ^ 32
            seq :=
              (run.sender.first + (run.next elapsed).index) % 2 ^ 32 } with
        seq := (run.sender.first + (run.next elapsed).index) % 2 ^ 32
        uptimeMs := (run.next elapsed).uptime % 2 ^ 32
        received := run.p.received + 1
        lastRx := now
        state := .alive
        timer := some (now + limit) } := by
  simp only [step, if_true, mckaCb, mckaMsg_mckaBytes]

/-- What only changes other fields of the driver keeps what it holds. -/
theorem Holds.of_same {p : Mcka} (holds : run.Holds)
    (received : p.received = run.p.received)
    (uptime : p.uptimeMs = run.p.uptimeMs) (seq : p.seq = run.p.seq) :
    ({ run with p } : KeepaliveRun).Holds where
  received := by
    rw [received]
    exact holds.received
  uptime := by
    rw [uptime]
    exact holds.uptime
  session := holds.session
  seq := by
    rw [seq]
    exact holds.seq

theorem Holds.step (holds : run.Holds) (act : KeepaliveAct) :
    (run.step act).Holds := by
  cases act with
  | send elapsed arrives limit now =>
      cases arrives with
      | false =>
          exact
            { received := holds.received
              uptime := holds.uptime
              session := holds.session
              seq := fun last heard same =>
                ⟨(holds.seq last heard same).1,
                  (holds.seq last heard same).2.trans (Nat.lt_succ_self _)⟩ }
      | true =>
          have stored := p_step_send run elapsed limit now
          refine ⟨?_, ?_, ?_, ?_⟩
          · rw [stored]
            exact iff_of_false (Nat.succ_ne_zero _) (Option.some_ne_none _)
          · rintro last ⟨⟩
            rw [stored]
          · rintro last ⟨⟩
            exact Nat.le_refl _
          · rintro last ⟨⟩ -
            rw [stored]
            exact ⟨rfl, Nat.lt_succ_self _⟩
  | restart first =>
      exact
        { received := holds.received
          uptime := holds.uptime
          session := fun last heard =>
            (holds.session last heard).trans (Nat.le_succ _)
          seq := fun last heard same =>
            absurd (holds.session last heard)
              (Nat.not_le.mpr (same ▸ Nat.lt_succ_self _)) }
  | garbled data bad limit now =>
      rw [KeepaliveRun.step, mckaCb_bad limit now run.p bad]
      exact holds.of_same rfl rfl rfl
  | expire limit now =>
      obtain ⟨state, warned, handled⟩ := exists_mckaTimeout limit now run.p
      rw [KeepaliveRun.step, handled]
      exact holds.of_same rfl rfl rfl
  | bind now => exact holds_start run.sender now

/-- Within a session a jump of `seq` is a loss that is no multiple of 2^32. -/
theorem seq_eq_nextSeq_iff {first earlier later : Nat}
    (order : earlier < later) :
    (first + later) % 2 ^ 32 = nextSeq ((first + earlier) % 2 ^ 32) ↔
      (later - earlier) % 2 ^ 32 = 1 := by
  rw [nextSeq]
  omega

/-- The counters are moved as they should exactly if the numbers tell it. -/
theorem truthful_iff (holds : run.Holds) (act : KeepaliveAct) :
    run.Truthful act ↔ run.Tellable act := by
  cases act with
  | send elapsed arrives limit now =>
      cases arrives with
      | false => rfl
      | true =>
          refine forall₂_congr fun last heard => ?_
          have received : run.p.received ≠ 0 := by
            intro none
            rw [holds.received.mp none] at heard
            cases heard
          have earlier := holds.uptime last heard
          have later :
              (run.next elapsed).session = last.session →
                last.index < (run.next elapsed).index :=
            fun same => (holds.seq last heard same.symm).2
          have seqOf : (run.next elapsed).session = last.session →
              run.p.seq = (run.sender.first + last.index) % 2 ^ 32 :=
            fun same => (holds.seq last heard same.symm).1
          have stored := p_step_send run elapsed limit now
          by_cases back :
              (run.next elapsed).uptime % 2 ^ 32 < run.p.uptimeMs
          · rw [Mcka.counted_restart received back] at stored
            rw [Heard.told_iff_of_restart (by rw [stored]) (by rw [stored])
              later, Heard.Tells, ← earlier]
            split_ifs with same
            · exact iff_of_false (not_not.mpr same)
                fun tells => Nat.not_lt.mpr tells.1 back
            · exact iff_of_true same back
          · by_cases gap :
                (run.sender.first + (run.next elapsed).index) % 2 ^ 32 =
                  nextSeq run.p.seq
            · rw [Mcka.counted_neither back gap] at stored
              rw [Heard.told_iff_of_neither (by rw [stored]) (by rw [stored]),
                Heard.Tells, ← earlier]
              split_ifs with same
              · rw [seqOf same, seq_eq_nextSeq_iff (later same)] at gap
                rw [and_iff_right same, and_iff_right (Nat.not_lt.mp back),
                  or_iff_left (not_not.mpr gap)]
              · exact iff_of_false (fun both => same both.1) back
            · rw [Mcka.counted_gap received back gap] at stored
              rw [Heard.told_iff_of_gap (by rw [stored]) (by rw [stored]),
                Heard.Tells, ← earlier]
              split_ifs with same
              · rw [seqOf same, seq_eq_nextSeq_iff (later same)] at gap
                refine iff_of_true ⟨same, fun isNext => gap ?_⟩
                  ⟨Nat.not_lt.mp back, .inr gap⟩
                omega
              · exact iff_of_false (fun both => same both.1) back
  | restart first => rfl
  | garbled data bad limit now => rfl
  | expire limit now => rfl
  | bind now => rfl

end

/--
In every run the counters tell the truth exactly if every two messages that
arrive one after the other can be told apart by their numbers.
-/
theorem truthful_along_iff (sender : MckaSender) (now : Nat)
    (acts : List KeepaliveAct) :
    Trace.Along step Truthful (start sender now) acts ↔
      Trace.Along step Tellable (start sender now) acts :=
  Trace.along_iff_guarded
    (fun _ act holds _ => holds.step act)
    (fun _ act holds => truthful_iff holds act)
    (holds_start sender now)

/-- A message comes a second after the one before it. -/
def EverySecond : KeepaliveAct → Prop
  | .send elapsed _ _ _ => elapsed = 1000
  | _ => True

/-- Two messages, and the third of the next session. -/
def lateRestart : List KeepaliveAct :=
  [.send 1000 true 750 0, .send 1000 true 750 250, .restart 0,
    .send 1000 false 750 600, .send 1000 false 750 850,
    .send 1000 true 750 1100]

/-- A session that is first heard late looks like the one before it. -/
theorem not_truthful_along :
    ¬ ∀ (sender : MckaSender) (now : Nat) (acts : List KeepaliveAct),
      (∀ act ∈ acts, EverySecond act) →
        Trace.Along step Truthful (start sender now) acts := by
  intro truthful
  have along :=
    truthful ⟨0, 0, 0, 0⟩ 0 lateRestart
      (by simp [lateRestart, EverySecond])
  have told := along.2.2.2.2.2.1 ⟨0, 1, 2000⟩ rfl
  have same := told.neither.mp (by decide +kernel)
  exact absurd same.1 (by decide)

end KeepaliveRun

end KmmYocto
