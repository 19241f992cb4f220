import KmmYocto.McoreImage

/-!
# The keepalive driver

`mcore-keepalive` receives a message from the M-core about once a second and
shows under `/sys` whether the M-core runs.  A one-shot timer, armed again by
every valid message, turns a silence into the state `lost`.

The functions are modelled on the private data of one bound channel, of which
the timer is a part.  Time is in jiffies and does not wrap; `limit` is
`msecs_to_jiffies(timeout_ms)` as the function reads it.  Each function does
its work under the lock of the private data.  The kernel log is left out.
-/

namespace KmmYocto

/-- `enum mcka_state`. -/
inductive MckaState where
  | waiting
  | alive
  | lost
deriving DecidableEq, Repr

/-- Little-endian 16-bit word at an offset. -/
def le16 (bytes : List UInt8) (offset : Nat) : Nat :=
  (bytes.getD offset 0).toNat + (bytes.getD (offset + 1) 0).toNat * 2 ^ 8

/-- What a keepalive message says. -/
structure MckaMsg where
  uptimeMs : Nat
  seq : Nat
deriving DecidableEq, Repr

/-- `struct mcka_msg`; a message that does not have its form is bad. -/
def mckaMsg (data : List UInt8) : Option MckaMsg :=
  if data.length ≠ 16 ∨ McoreImage.le32 data 0 ≠ 0x414b434d ∨
      le16 data 4 ≠ 1 ∨ le16 data 6 ≠ 16 then none
  else
    some
      { uptimeMs := McoreImage.le32 data 8
        seq := McoreImage.le32 data 12 }

/-- `struct mcka_priv`. -/
structure Mcka where
  /-- When the pending timer expires. -/
  timer : Option Nat
  state : MckaState
  warnedWaiting : Bool
  seq : Nat
  uptimeMs : Nat
  received : Nat
  seqGaps : Nat
  restarts : Nat
  bad : Nat
  lastRx : Nat
  bound : Nat

/-- The private data that `mcka_probe` fills in. -/
def mckaInit (now : Nat) : Mcka where
  timer := none
  state := .waiting
  warnedWaiting := false
  seq := 0
  uptimeMs := 0
  received := 0
  seqGaps := 0
  restarts := 0
  bad := 0
  lastRx := 0
  bound := now

/-- The last statement of `mcka_probe`: a first deadline from the bind. -/
def Mcka.arm (limit : Nat) (p : Mcka) : Mcka :=
  { p with timer := some (p.bound + limit) }

/-- `mcka_timeout`. -/
def mckaTimeout (limit now : Nat) (p : Mcka) : Mcka :=
  match p.state with
  | .alive =>
      -- nothing if an old deadline has passed just as a message came in
      if p.lastRx + limit ≤ now then { p with state := .lost } else p
  | .waiting =>
      if ¬ p.warnedWaiting then { p with warnedWaiting := true } else p
  | .lost => p

/-- The counters after a valid message; a first message counts as neither. -/
def Mcka.counted (p : Mcka) (msg : MckaMsg) : Mcka :=
  if p.received ≠ 0 then
    if msg.uptimeMs < p.uptimeMs then { p with restarts := p.restarts + 1 }
    else if msg.seq ≠ (p.seq + 1) % 2 ^ 32 then
      { p with seqGaps := p.seqGaps + 1 }
    else p
  else p

/-- `mcka_cb`. -/
def mckaCb (limit now : Nat) (data : List UInt8) (p : Mcka) : Mcka :=
  match mckaMsg data with
  | none => { p with bad := p.bad + 1 }
  | some msg =>
      { p.counted msg with
        seq := msg.seq
        uptimeMs := msg.uptimeMs
        received := p.received + 1
        lastRx := now
        state := .alive
        timer := some (now + limit) }

section

variable
    (limit now : Nat) {data : List UInt8} (p : Mcka)

theorem mckaCb_bad (bad : mckaMsg data = none) :
    mckaCb limit now data p = { p with bad := p.bad + 1 } := by
  simp only [mckaCb, bad]

/-- The handler never arms the timer. -/
@[simp]
theorem timer_mckaTimeout : (mckaTimeout limit now p).timer = p.timer := by
  rw [mckaTimeout]
  cases p.state with
  | waiting =>
      simp only
      split_ifs <;> rfl
  | alive =>
      simp only
      split_ifs <;> rfl
  | lost => rfl

/-- The handler reports a loss exactly if the last message is old enough. -/
theorem mckaTimeout_of_alive (alive : p.state = .alive) :
    mckaTimeout limit now p =
      if p.lastRx + limit ≤ now then { p with state := .lost } else p := by
  simp only [mckaTimeout, alive]

theorem mckaTimeout_of_lost (lost : p.state = .lost) :
    mckaTimeout limit now p = p := by
  simp only [mckaTimeout, lost]

/-- Only a message makes the state alive. -/
theorem alive_of_mckaTimeout
    (alive : (mckaTimeout limit now p).state = .alive) :
    p.state = .alive ∧ mckaTimeout limit now p = p := by
  cases state : p.state with
  | waiting =>
      simp only [mckaTimeout, state] at alive
      split_ifs at alive with warned
      rw [state] at alive
      cases alive
  | alive =>
      rw [mckaTimeout_of_alive limit now p state] at alive ⊢
      split_ifs at alive ⊢ with old
      exact ⟨rfl, rfl⟩
  | lost =>
      rw [mckaTimeout_of_lost limit now p state, state] at alive
      cases alive

end

end KmmYocto
