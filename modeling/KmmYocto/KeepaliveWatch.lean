import KmmYocto.AbMcore
import KmmYocto.KeepaliveCounts

/-!
# The confirmation watches the keepalive

`mcore_confirm` waits for the state alive, reads the counters of gaps,
restarts and messages, looks at the state once a second for ten seconds, and
reads the counters again.  Between two looks the channel goes on: messages
come in, the timer expires, the M-core restarts, and its channel is removed
and bound again with counters that start afresh.

The script is followed read by read beside the driver.  The window is the time
from the first read of a counter to the last check.  A history kept next to
the run says what happened in the window, whatever the script saw of it.
-/

namespace KmmYocto

/-- The statement that `mcore_confirm` executes next. -/
inductive WatchPc where
  /-- A look at the state in the wait for the first keepalive. -/
  | waiting
  | readGaps
  | readRestarts
  | readReceived
  /-- A look at the state in the stable window. -/
  | stable
  | readAgain
  | checkRestarts
  | checkGaps
  | healthy
  | unhealthy
deriving DecidableEq, Repr

/-- From the first read of a counter to the last check. -/
def WatchPc.inWindow : WatchPc → Bool
  | .waiting => false
  | .readGaps => false
  | .healthy => false
  | .unhealthy => false
  | _ => true

/-- The last check begins with the read of `received`. -/
def WatchPc.isLast : WatchPc → Bool
  | .checkRestarts => true
  | .checkGaps => true
  | _ => false

/-- The variables of `mcore_confirm`; a read without a channel gives nothing. -/
structure WatchVars where
  i : Nat
  g0 : Option Nat
  r0 : Option Nat
  n0 : Option Nat
  n1 : Option Nat
deriving DecidableEq, Repr

/-- What has happened since the window began. -/
structure WatchHistory where
  /-- When the window began, or the last valid message came in. -/
  quietSince : Nat
  /-- The `seq` of the last valid message of any channel. -/
  lastSeq : Option Nat
  /-- The M-core has restarted and sent no valid message since. -/
  restartPending : Bool
  /-- The channel was bound in the window. -/
  fresh : Bool
  /--
  Since the last valid message the script has looked at a channel that was
  silent for the limit with its timer handled, had received nothing, or was
  not there.
  -/
  looked : Bool
  silence : Bool
  gap : Bool
  restarted : Bool
deriving DecidableEq, Repr

/-- The script, the channel, and what has happened. -/
structure KeepaliveWatch where
  now : Nat
  channel : Option Channel
  pc : WatchPc
  /-- When the `sleep` ends. -/
  wake : Nat
  vars : WatchVars
  history : WatchHistory

/-- One step. -/
inductive WatchAct where
  | tick (jiffies : Nat)
  /-- The channel is created and its probe starts. -/
  | bind
  | unbind
  /-- The next step of `mcka_probe`. -/
  | probe
  | message (data : List UInt8)
  | fire
  | handle
  | mcoreRestart
  /-- The next statement of `mcore_confirm`. -/
  | script

def MCORE_WAIT : Nat := 30

def MCORE_STABLE : Nat := 10

/-- `ka_get`; the files of the driver are there while it is bound. -/
def kaGet {Value : Type} (channel : Option Channel) (field : Mcka → Value) :
    Option Value :=
  match channel with
  | some channel =>
      if channel.pc = .probed then some (field channel.p) else none
  | none => none

namespace KeepaliveWatch

/-- The script starts at some time after the boot. -/
def start : KeepaliveWatch where
  now := 0
  channel := none
  pc := .waiting
  wake := 0
  vars := { i := 0, g0 := none, r0 := none, n0 := none, n1 := none }
  history :=
    { quietSince := 0
      lastSeq := none
      restartPending := false
      fresh := false
      looked := false
      silence := false
      gap := false
      restarted := false }

section

variable
    (msecsToJiffies : UInt32 → Nat) (sec : Nat)

/-- `timeout_ms` is left at its default. -/
def limit : Nat :=
  msecsToJiffies 3000

/-- In the window nothing valid has come in for the limit. -/
def Silent (watch : KeepaliveWatch) : Prop :=
  watch.history.quietSince + limit msecsToJiffies ≤ watch.now

instance (watch : KeepaliveWatch) : Decidable (watch.Silent msecsToJiffies) :=
  inferInstanceAs (Decidable (_ ≤ _))

/-- There is something to see for a look at the state. -/
def Shows (watch : KeepaliveWatch) : Prop :=
  match watch.channel with
  | none => True
  | some channel =>
      channel.pc ≠ .probed ∨ channel.p.received = 0 ∨
        (watch.Silent msecsToJiffies ∧ channel.Handled)

instance (watch : KeepaliveWatch) : Decidable (watch.Shows msecsToJiffies) :=
  match shown : watch.channel with
  | none => .isTrue (by rw [Shows, shown]; trivial)
  | some channel =>
      decidable_of_iff
        (channel.pc ≠ .probed ∨ channel.p.received = 0 ∨
          (watch.Silent msecsToJiffies ∧ channel.Handled))
        (by rw [Shows, shown])

/-- The step of the driver alone. -/
def onChannel (watch : KeepaliveWatch) (act : ChannelAct) :
    Option Channel :=
  watch.channel.map (·.step msecsToJiffies act)

/-- What a valid message adds to the history. -/
def WatchHistory.receive (window : Bool) (now : Nat) (msg : MckaMsg)
    (history : WatchHistory) : WatchHistory :=
  { history with
    quietSince := now
    lastSeq := some msg.seq
    restartPending := false
    looked := false
    gap :=
      history.gap ||
        (window &&
          decide (∃ seq ∈ history.lastSeq, msg.seq ≠ nextSeq seq)) }

/-- The next statement of `mcore_confirm`. -/
def script (watch : KeepaliveWatch) : KeepaliveWatch :=
  match watch.pc with
  | .waiting =>
      if kaGet watch.channel Mcka.state = some .alive then
        { watch with pc := .readGaps }
      else if MCORE_WAIT ≤ watch.vars.i + 1 then
        { watch with pc := .unhealthy }
      else
        { watch with
          vars := { watch.vars with i := watch.vars.i + 1 }
          wake := watch.now + sec }
  | .readGaps =>
      { watch with
        pc := .readRestarts
        vars := { watch.vars with g0 := kaGet watch.channel Mcka.seqGaps }
        history :=
          { quietSince := watch.now
            lastSeq := watch.history.lastSeq
            restartPending := false
            fresh := false
            looked := false
            silence := false
            gap := false
            restarted := false } }
  | .readRestarts =>
      { watch with
        pc := .readReceived
        vars := { watch.vars with r0 := kaGet watch.channel Mcka.restarts } }
  | .readReceived =>
      { watch with
        pc := .stable
        vars :=
          { watch.vars with
            n0 := kaGet watch.channel Mcka.received
            i := 0 }
        wake := watch.now + sec }
  | .stable =>
      let looked :=
        { watch with
          history :=
            { watch.history with
              looked :=
                watch.history.looked || decide (watch.Shows msecsToJiffies) } }
      if kaGet watch.channel Mcka.state ≠ some .alive then
        { looked with pc := .unhealthy }
      else if watch.vars.i + 1 < MCORE_STABLE then
        { looked with
          vars := { watch.vars with i := watch.vars.i + 1 }
          wake := watch.now + sec }
      else
        { looked with
          pc := .readAgain
          vars := { watch.vars with i := watch.vars.i + 1 } }
  | .readAgain =>
      { watch with
        pc := .checkRestarts
        vars := { watch.vars with n1 := kaGet watch.channel Mcka.received } }
  | .checkRestarts =>
      if kaGet watch.channel Mcka.restarts ≠ watch.vars.r0 then
        { watch with pc := .unhealthy }
      else { watch with pc := .checkGaps }
  | .checkGaps =>
      if kaGet watch.channel Mcka.seqGaps ≠ watch.vars.g0 then
        { watch with pc := .unhealthy }
      -- an empty variable counts as zero
      else if
        (watch.vars.n1.getD 0 : Int) - watch.vars.n0.getD 0 <
          MCORE_STABLE - 1 then
        { watch with pc := .unhealthy }
      else { watch with pc := .healthy }
  | .healthy => watch
  | .unhealthy => watch

/-- The next state. -/
def step (watch : KeepaliveWatch) : WatchAct → KeepaliveWatch
  | .tick jiffies =>
      let later :=
        { watch with
          now := watch.now + jiffies
          channel := watch.onChannel msecsToJiffies (.tick jiffies) }
      { later with
        history :=
          { watch.history with
            silence :=
              watch.history.silence ||
                (watch.pc.inWindow &&
                  decide (later.Silent msecsToJiffies)) } }
  | .bind =>
      match watch.channel with
      | some _ => watch
      | none =>
          { watch with
            channel := some (Channel.start watch.now 3000)
            history :=
              { watch.history with
                fresh := watch.history.fresh || watch.pc.inWindow } }
  | .unbind => { watch with channel := none }
  | .probe => { watch with channel := watch.onChannel msecsToJiffies .probe }
  | .fire => { watch with channel := watch.onChannel msecsToJiffies .fire }
  | .handle => { watch with channel := watch.onChannel msecsToJiffies .handle }
  | .message data =>
      { watch with
        channel := watch.onChannel msecsToJiffies (.message data)
        history :=
          match watch.channel.bind (·.taken data) with
          | some msg =>
              WatchHistory.receive watch.pc.inWindow watch.now msg
                watch.history
          | none => watch.history }
  | .mcoreRestart =>
      { watch with
        history :=
          { watch.history with
            restartPending := true
            restarted := watch.history.restarted || watch.pc.inWindow } }
  | .script =>
      if watch.wake ≤ watch.now then watch.script msecsToJiffies sec
      else watch

end

end KeepaliveWatch

end KmmYocto
