import KmmYocto.McoreImage

/-!
# The CAN gateway driver

`rpmsg-can` shows the CAN controller behind the M-core as a CAN device of
Linux.  Frames and control messages share one channel and are told apart by
their length.

The functions work on the private data of one device and give back, next to
it, what they did to the rest of the kernel in order.  Whether
`rpmsg_trysend` could queue a message is an argument, as is what the kernel
answers otherwise.  Of the CAN layer only what the driver relies on is
modelled: `open_candev`, `close_candev`, `can_bus_off` and `can_restart`.
The kernel log and the statistics of delivered frames are left out.
-/

namespace KmmYocto

/-- `enum can_state`. -/
inductive CanState where
  | errorActive
  | errorWarning
  | errorPassive
  | busOff
  | stopped
  | sleeping
deriving DecidableEq, Repr

/-- `enum can_mode`. -/
inductive CanMode where
  | stop
  | start
  | sleep
deriving DecidableEq, Repr

/-- `struct can_frame`. -/
structure CanFrame where
  canId : UInt32
  len : Nat
  data : List UInt8
deriving DecidableEq, Repr

/-- `struct rpmsg_can_wire`, without its padding. -/
structure RpmsgCanWire where
  id : UInt32
  dlc : UInt8
  data : List UInt8
deriving DecidableEq, Repr

/-- `struct rpmsg_can_ctrl`. -/
structure RpmsgCanCtrl where
  magic : UInt8
  cmd : UInt8
  flags : UInt8
  rsvd : UInt8
  arg : UInt32
deriving DecidableEq, Repr

namespace RpmsgCan

def ctrlMagic : UInt8 := 0xC7

def cmdSetBitrate : UInt8 := 1

def cmdSetMode : UInt8 := 2

def cmdStart : UInt8 := 3

def cmdStop : UInt8 := 4

def evtState : UInt8 := 5

def modeListenOnly : UInt8 := 1

def modeLoopback : UInt8 := 2

/-- `CAN_CTRLMODE_LISTENONLY`. -/
def ctrlmodeListenOnly : UInt32 := 0x02

/-- `CAN_CTRLMODE_LOOPBACK`. -/
def ctrlmodeLoopback : UInt32 := 0x01

end RpmsgCan

/-- A little-endian word of a message. -/
def le32Word (data : List UInt8) (offset : Nat) : UInt32 :=
  UInt32.ofNat (McoreImage.le32 data offset)

/-- The 16 bytes of a frame. -/
def RpmsgCanWire.ofBytes (data : List UInt8) : RpmsgCanWire where
  id := le32Word data 0
  dlc := data.getD 4 0
  data := data.drop 8

/-- The 8 bytes of a control message. -/
def RpmsgCanCtrl.ofBytes (data : List UInt8) : RpmsgCanCtrl where
  magic := data.getD 0 0
  cmd := data.getD 1 0
  flags := data.getD 2 0
  rsvd := data.getD 3 0
  arg := le32Word data 4

/-- What a call does outside the private data. -/
inductive CanEffect where
  /-- A control message is queued to the M-core. -/
  | queued (ctrl : RpmsgCanCtrl)
  | startQueue
  | stopQueue
  | wakeQueue
  /-- `netif_rx`. -/
  | receive (frame : CanFrame)
  | rxDropped
deriving DecidableEq, Repr

/-- `struct rpmsg_can_priv` and the flags of its `net_device`. -/
structure RpmsgCan where
  /-- `netif_running`. -/
  running : Bool
  carrier : Bool
  bitrate : UInt32
  ctrlmode : UInt32
  state : CanState
  restartMs : UInt32
  /-- A delayed `can_restart` is scheduled. -/
  restartWork : Bool
deriving DecidableEq, Repr

/-- `rpmsg_can_ctrl_send`; all callers ignore its result. -/
def rpmsgCanCtrlSend (queued : Bool) (cmd flags : UInt8) (arg : UInt32) :
    List CanEffect :=
  if queued then
    [.queued
      { magic := RpmsgCan.ctrlMagic
        cmd
        flags
        rsvd := 0
        arg }]
  else []

/-- The mode flags that `rpmsg_can_open` makes of the control mode. -/
def rpmsgCanMode (ctrlmode : UInt32) : UInt8 :=
  (if ctrlmode &&& RpmsgCan.ctrlmodeListenOnly ≠ 0 then
    RpmsgCan.modeListenOnly else 0) |||
  (if ctrlmode &&& RpmsgCan.ctrlmodeLoopback ≠ 0 then
    RpmsgCan.modeLoopback else 0)

/-- Which control messages of `rpmsg_can_open` are queued. -/
structure OpenSends where
  bitrate : Bool
  mode : Bool
  start : Bool
deriving DecidableEq, Repr

/-- `rpmsg_can_open`; no result where `open_candev` is not `ready`. -/
def rpmsgCanOpen (ready : Bool) (sends : OpenSends) (can : RpmsgCan) :
    Option (RpmsgCan × List CanEffect) :=
  if ready then
    some
      ({ can with
          -- `open_candev`
          carrier := true
          state := .errorActive },
        rpmsgCanCtrlSend sends.bitrate RpmsgCan.cmdSetBitrate 0 can.bitrate ++
          rpmsgCanCtrlSend sends.mode RpmsgCan.cmdSetMode
            (rpmsgCanMode can.ctrlmode) 0 ++
          rpmsgCanCtrlSend sends.start RpmsgCan.cmdStart 0 0 ++
          [.startQueue])
  else none

/-- `rpmsg_can_stop`. -/
def rpmsgCanStop (queued : Bool) (can : RpmsgCan) :
    RpmsgCan × List CanEffect :=
  ({ can with
      state := .stopped
      -- `close_candev`
      restartWork := false },
    .stopQueue :: rpmsgCanCtrlSend queued RpmsgCan.cmdStop 0 0)

/-- `rpmsg_can_set_mode`; another mode than the start is not supported. -/
def rpmsgCanSetMode (mode : CanMode) (queued : Bool) (can : RpmsgCan) :
    RpmsgCan × List CanEffect :=
  match mode with
  | .start =>
      ({ can with state := .errorActive },
        rpmsgCanCtrlSend queued RpmsgCan.cmdStart 0 0 ++ [.wakeQueue])
  | .stop => (can, [])
  | .sleep => (can, [])

/-- `rpmsg_can_rx_frame`; `allocated` is whether `alloc_can_skb` gave memory. -/
def rpmsgCanRxFrame (allocated : Bool) (w : RpmsgCanWire) (can : RpmsgCan) :
    List CanEffect :=
  if ¬ can.running then [.rxDropped]
  else if ¬ allocated then [.rxDropped]
  else
    let len := min w.dlc.toNat 8
    [.receive { canId := w.id, len, data := w.data.take len }]

/-- The state an M-core may report; it reports none beyond bus-off. -/
def CanState.ofArg (arg : UInt32) : Option CanState :=
  match arg.toNat with
  | 0 => some .errorActive
  | 1 => some .errorWarning
  | 2 => some .errorPassive
  | 3 => some .busOff
  | _ => none

/-- `can_bus_off`. -/
def canBusOff (can : RpmsgCan) : RpmsgCan :=
  { can with
    carrier := false
    restartWork := can.restartWork || can.restartMs != 0 }

/-- `rpmsg_can_rx_ctrl`. -/
def rpmsgCanRxCtrl (c : RpmsgCanCtrl) (can : RpmsgCan) : RpmsgCan :=
  if c.magic ≠ RpmsgCan.ctrlMagic then can
  else if c.cmd = RpmsgCan.evtState then
    match CanState.ofArg c.arg with
    | some newState =>
        if newState ≠ can.state then
          if newState = .busOff then
            canBusOff { can with state := newState }
          else { can with state := newState }
        else can
    | none => can
  else can

/-- `rpmsg_can_cb`. -/
def rpmsgCanCb (allocated : Bool) (data : List UInt8) (can : RpmsgCan) :
    RpmsgCan × List CanEffect :=
  if data.length = 16 then
    (can, rpmsgCanRxFrame allocated (.ofBytes data) can)
  else if data.length = 8 then (rpmsgCanRxCtrl (.ofBytes data) can, [])
  else (can, [])

/-- The device as `rpmsg_can_probe` registers it. -/
def rpmsgCanInit : RpmsgCan where
  running := false
  carrier := false
  bitrate := 500000
  ctrlmode := 0
  state := .stopped
  restartMs := 0
  restartWork := false

namespace RpmsgCan

/-! ## The calls of the kernel -/

/-- A change over netlink; a running device refuses it. -/
def changelink (bitrate ctrlmode restartMs : UInt32) (can : RpmsgCan) :
    RpmsgCan :=
  if can.running then can else { can with bitrate, ctrlmode, restartMs }

/-- The device is set up, unless it is up. -/
def devOpen (ready : Bool) (sends : OpenSends) (can : RpmsgCan) :
    RpmsgCan × List CanEffect :=
  if can.running then (can, [])
  else
    match rpmsgCanOpen ready sends can with
    | some (opened, effects) => ({ opened with running := true }, effects)
    | none => (can, [])

/-- The device is set down, unless it is down. -/
def devClose (queued : Bool) (can : RpmsgCan) : RpmsgCan × List CanEffect :=
  if can.running then rpmsgCanStop queued { can with running := false }
  else (can, [])

/-- `can_restart`. -/
def canRestart (queued : Bool) (can : RpmsgCan) :
    RpmsgCan × List CanEffect :=
  rpmsgCanSetMode .start queued
    { can with
      carrier := true
      restartWork := false }

/-- The delayed work runs, if it is scheduled. -/
def canRestartWork (queued : Bool) (can : RpmsgCan) :
    RpmsgCan × List CanEffect :=
  if can.restartWork then can.canRestart queued else (can, [])

/-- `can_restart_now`: a restart by hand, only from bus-off. -/
def canRestartNow (queued : Bool) (can : RpmsgCan) :
    RpmsgCan × List CanEffect :=
  if can.state = .busOff then can.canRestart queued else (can, [])

section

variable
    {can : RpmsgCan} (ready : Bool) (sends : OpenSends)

theorem devOpen_of_up (up : can.running = true) :
    can.devOpen ready sends = (can, []) := by
  rw [devOpen, if_pos up]

theorem devOpen_of_not_ready : can.devOpen false sends = (can, []) := by
  rw [devOpen]
  split_ifs <;> rfl

theorem devOpen_of_ready (down : can.running = false) :
    can.devOpen true sends =
      ({ can with
          running := true
          carrier := true
          state := .errorActive },
        rpmsgCanCtrlSend sends.bitrate cmdSetBitrate 0 can.bitrate ++
          rpmsgCanCtrlSend sends.mode cmdSetMode
            (rpmsgCanMode can.ctrlmode) 0 ++
          rpmsgCanCtrlSend sends.start cmdStart 0 0 ++
          [.startQueue]) := by
  rw [devOpen, if_neg (ne_true_of_eq_false down)]
  rfl

end

end RpmsgCan

end KmmYocto
