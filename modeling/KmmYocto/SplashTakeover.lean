import Mathlib

/-!
# The takeover of the running display

The patches to mxsfb, samsung-dsim and lt9611 let the first modeset of a boot
with `/chosen` `splash-active` leave alone what the SPL drives already.  Each
driver compares its own registers with the requested mode, once per boot.

The macros that lay out the registers belong to the kernel and are parameters.
The drivers run in the order of the modeset: the CRTC, `pre_enable` of the
DSIM, `enable` of the DSIM, `enable` of the bridge.
-/

namespace KmmYocto.Takeover

/-- The layout of the registers, with `num_bits_resol` of the board. -/
structure KernelMacros where
  ctrlRun : BitVec 32
  transferCountSetVcount : BitVec 16 → BitVec 32
  transferCountSetHcount : BitVec 16 → BitVec 32
  dsimMainStandBy : BitVec 32
  dsimMainHresol : BitVec 16 → BitVec 32
  dsimMainVresol : BitVec 16 → BitVec 32

/-- The requested mode, as each driver holds it. -/
structure DrmDisplayMode where
  hdisplay : BitVec 16
  vdisplay : BitVec 16
  crtcHdisplay : BitVec 16
  crtcVdisplay : BitVec 16

/-- What the drivers read. -/
structure Registers where
  lcdcCtrl : BitVec 32
  transferCount : BitVec 32
  mdresol : BitVec 32
  /-- `lt9611_read_video_check` of 0x8382; negative is an error. -/
  hactive : Int
  /-- `lt9611_read_video_check` of 0x8282; negative is an error. -/
  vactive : Int

/-- The static variables of the three drivers. -/
structure Statics where
  mxsfbTried : Bool
  dsimTried : Bool
  dsimAdopted : Bool
  lt9611Tried : Bool
deriving DecidableEq, Repr

/-- No driver has tried. -/
def Statics.boot : Statics :=
  ⟨false, false, false, false⟩

/-- What a modeset does to the hardware. -/
inductive DisplayAct where
  /-- `mxsfb_crtc_mode_set_nofb`, which resets the LCDIF. -/
  | modeSetNofb
  | curBuf
  | nextBuf
  /-- `samsung_dsim_init` with its software reset. -/
  | dsimInit
  | setDisplayMode
  | setDisplayEnable
  /-- The body of `lt9611_bridge_atomic_enable`. -/
  | lt9611Init
deriving DecidableEq, Repr

section

variable
    (kernel : KernelMacros) (splashActive : Bool) (mode : DrmDisplayMode)
    (regs : Registers)

/-- `mxsfb_adopt_running`. -/
def mxsfbAdoptRunning (statics : Statics) : Bool × Statics :=
  if statics.mxsfbTried = true ∨ splashActive = false then (false, statics)
  else
    let statics := { statics with mxsfbTried := true }
    if regs.lcdcCtrl &&& kernel.ctrlRun = 0 then (false, statics)
    else
      let want :=
        kernel.transferCountSetVcount mode.crtcVdisplay |||
          kernel.transferCountSetHcount mode.crtcHdisplay
      if regs.transferCount ≠ want then (false, statics)
      else (true, statics)

/-- `mxsfb_crtc_atomic_enable`. -/
def mxsfbCrtcAtomicEnable (dmaAddr : BitVec 32) (statics : Statics) :
    List DisplayAct × Statics :=
  let (adopted, statics) :=
    mxsfbAdoptRunning kernel splashActive mode regs statics
  ((if adopted = true then [] else [.modeSetNofb]) ++
      (if dmaAddr = 0 then []
      else (if adopted = true then [] else [.curBuf]) ++ [.nextBuf]),
    statics)

/-- `dsim_adopt_running`. -/
def dsimAdoptRunning (statics : Statics) : Bool × Statics :=
  if statics.dsimTried = true ∨ splashActive = false then (false, statics)
  else
    let statics := { statics with dsimTried := true }
    let want :=
      kernel.dsimMainStandBy ||| kernel.dsimMainHresol mode.hdisplay |||
        kernel.dsimMainVresol mode.vdisplay
    if regs.mdresol ≠ want then (false, statics)
    else (true, { statics with dsimAdopted := true })

/--
`samsung_dsim_atomic_pre_enable`: an adopted DSIM counts as initialised, and
`samsung_dsim_init` is skipped.
-/
def samsungDsimAtomicPreEnable (statics : Statics) :
    List DisplayAct × Statics :=
  let (initialized, statics) :=
    dsimAdoptRunning kernel splashActive mode regs statics
  (if initialized = true then [] else [.dsimInit], statics)

/-- `samsung_dsim_atomic_enable`. -/
def samsungDsimAtomicEnable (statics : Statics) : List DisplayAct × Statics :=
  if statics.dsimAdopted = true then
    ([], { statics with dsimAdopted := false })
  else ([.setDisplayMode, .setDisplayEnable], statics)

/-- `lt9611_seamless_takeover`. -/
def lt9611SeamlessTakeover (statics : Statics) : Bool × Statics :=
  if statics.lt9611Tried = true ∨ splashActive = false then (false, statics)
  else
    let statics := { statics with lt9611Tried := true }
    if regs.hactive < 0 ∨ regs.vactive < 0 then (false, statics)
    else
      let hactive := regs.hactive.tdiv 3
      if hactive ≠ mode.hdisplay.toNat ∨ regs.vactive ≠ mode.vdisplay.toNat then
        (false, statics)
      else (true, statics)

/-- `lt9611_bridge_atomic_enable`. -/
def lt9611BridgeAtomicEnable (statics : Statics) :
    List DisplayAct × Statics :=
  let (takeover, statics) :=
    lt9611SeamlessTakeover splashActive mode regs statics
  (if takeover = true then [] else [.lt9611Init], statics)

/-- A modeset: what it does, and the variables it leaves. -/
def modeset (dmaAddr : BitVec 32) (statics : Statics) :
    List DisplayAct × Statics :=
  let crtc :=
    mxsfbCrtcAtomicEnable kernel splashActive mode regs dmaAddr statics
  let preEnable :=
    samsungDsimAtomicPreEnable kernel splashActive mode regs crtc.2
  let enable := samsungDsimAtomicEnable preEnable.2
  let bridge := lt9611BridgeAtomicEnable splashActive mode regs enable.2
  (crtc.1 ++ preEnable.1 ++ enable.1 ++ bridge.1, bridge.2)

end

/-! ## The three decisions -/

inductive Driver where
  | mxsfb
  | samsungDsim
  | lt9611
deriving DecidableEq, Repr

/-- The full initialisation of a driver. -/
def Driver.initActs : Driver → List DisplayAct
  | .mxsfb => [.modeSetNofb]
  | .samsungDsim => [.dsimInit, .setDisplayMode, .setDisplayEnable]
  | .lt9611 => [.lt9611Init]

/-- The driver leaves the running hardware as it is. -/
def Driver.Adopts (driver : Driver) (acts : List DisplayAct) : Prop :=
  ∀ act ∈ driver.initActs, act ∉ acts

/-- The driver does its full initialisation. -/
def Driver.Initialises (driver : Driver) (acts : List DisplayAct) : Prop :=
  ∀ act ∈ driver.initActs, act ∈ acts

/-- All drivers adopt, or all initialise. -/
def AllOrNothing (acts : List DisplayAct) : Prop :=
  (∀ driver : Driver, driver.Adopts acts) ∨
    ∀ driver : Driver, driver.Initialises acts

/-- The LCDIF is reset under an adopted DSIM or bridge. -/
def ResetsUnder (acts : List DisplayAct) : Prop :=
  DisplayAct.modeSetNofb ∈ acts ∧
    (Driver.samsungDsim.Adopts acts ∨ Driver.lt9611.Adopts acts)

section

variable
    (kernel : KernelMacros) (mode : DrmDisplayMode) (regs : Registers)

/-- The registers of a driver show the requested mode. -/
def Driver.Running : Driver → Prop
  | .mxsfb =>
      regs.lcdcCtrl &&& kernel.ctrlRun ≠ 0 ∧
        regs.transferCount =
          kernel.transferCountSetVcount mode.crtcVdisplay |||
            kernel.transferCountSetHcount mode.crtcHdisplay
  | .samsungDsim =>
      regs.mdresol =
        kernel.dsimMainStandBy ||| kernel.dsimMainHresol mode.hdisplay |||
          kernel.dsimMainVresol mode.vdisplay
  | .lt9611 =>
      0 ≤ regs.hactive ∧ regs.hactive.tdiv 3 = mode.hdisplay.toNat ∧
        regs.vactive = mode.vdisplay.toNat

/-- The first modeset of a boot does the act. -/
def DisplayAct.Due (dmaAddr : BitVec 32) : DisplayAct → Prop
  | .modeSetNofb => ¬ Driver.mxsfb.Running kernel mode regs
  | .curBuf => dmaAddr ≠ 0 ∧ ¬ Driver.mxsfb.Running kernel mode regs
  | .nextBuf => dmaAddr ≠ 0
  | .dsimInit | .setDisplayMode | .setDisplayEnable =>
      ¬ Driver.samsungDsim.Running kernel mode regs
  | .lt9611Init => ¬ Driver.lt9611.Running kernel mode regs

instance : (driver : Driver) → Decidable (driver.Running kernel mode regs)
  | .mxsfb => inferInstanceAs (Decidable (_ ∧ _))
  | .samsungDsim => inferInstanceAs (Decidable (_ = _))
  | .lt9611 => inferInstanceAs (Decidable (_ ∧ _))

end

section

variable
    {kernel : KernelMacros} {mode : DrmDisplayMode} {regs : Registers}
    {statics : Statics}

theorem mxsfbAdoptRunning_first (first : statics.mxsfbTried = false) :
    mxsfbAdoptRunning kernel true mode regs statics =
      (decide (Driver.mxsfb.Running kernel mode regs),
        { statics with mxsfbTried := true }) := by
  rw [mxsfbAdoptRunning, if_neg (by simp [first])]
  by_cases stopped : regs.lcdcCtrl &&& kernel.ctrlRun = 0
  · rw [if_pos stopped, decide_eq_false fun running => running.1 stopped]
  · dsimp only
    rw [if_neg stopped]
    split_ifs with other
    · rw [decide_eq_false fun running => other running.2]
    · rw [decide_eq_true (p := Driver.mxsfb.Running kernel mode regs)
        ⟨stopped, not_not.mp other⟩]

theorem dsimAdoptRunning_first (first : statics.dsimTried = false)
    (idle : statics.dsimAdopted = false) :
    dsimAdoptRunning kernel true mode regs statics =
      (decide (Driver.samsungDsim.Running kernel mode regs),
        { statics with
          dsimTried := true
          dsimAdopted :=
            decide (Driver.samsungDsim.Running kernel mode regs) }) := by
  rw [dsimAdoptRunning, if_neg (by simp [first])]
  dsimp only
  split_ifs with other
  · rw [decide_eq_false
      (p := Driver.samsungDsim.Running kernel mode regs) other, idle]
  · rw [decide_eq_true (p := Driver.samsungDsim.Running kernel mode regs)
      (not_not.mp other)]

theorem lt9611SeamlessTakeover_first (first : statics.lt9611Tried = false) :
    lt9611SeamlessTakeover true mode regs statics =
      (decide (Driver.lt9611.Running kernel mode regs),
        { statics with lt9611Tried := true }) := by
  rw [lt9611SeamlessTakeover, if_neg (by simp [first])]
  dsimp only
  split_ifs with unread other
  · rw [decide_eq_false]
    rintro ⟨read, -, vertical⟩
    omega
  · rw [decide_eq_false]
    rintro ⟨-, horizontal, vertical⟩
    exact other.elim (· horizontal) (· vertical)
  · rw [decide_eq_true (p := Driver.lt9611.Running kernel mode regs)]
    rw [not_or, not_lt, not_lt] at unread
    rw [not_or, not_not, not_not] at other
    exact ⟨unread.1, other⟩

theorem mem_mxsfbCrtcAtomicEnable (first : statics.mxsfbTried = false)
    (dmaAddr : BitVec 32) (act : DisplayAct) :
    act ∈ (mxsfbCrtcAtomicEnable kernel true mode regs dmaAddr statics).1 ↔
      (act = .modeSetNofb ∨ act = .curBuf ∨ act = .nextBuf) ∧
        act.Due kernel mode regs dmaAddr := by
  rw [mxsfbCrtcAtomicEnable, mxsfbAdoptRunning_first first]
  cases act <;> simp [DisplayAct.Due]

/-- `enable` follows what `pre_enable` has decided. -/
theorem mem_samsungDsim (first : statics.dsimTried = false)
    (idle : statics.dsimAdopted = false) (dmaAddr : BitVec 32)
    (act : DisplayAct) :
    act ∈
        (samsungDsimAtomicPreEnable kernel true mode regs statics).1 ++
          (samsungDsimAtomicEnable
            (samsungDsimAtomicPreEnable kernel true mode regs statics).2).1 ↔
      (act = .dsimInit ∨ act = .setDisplayMode ∨ act = .setDisplayEnable) ∧
        act.Due kernel mode regs dmaAddr := by
  rw [samsungDsimAtomicPreEnable, dsimAdoptRunning_first first idle]
  by_cases running : Driver.samsungDsim.Running kernel mode regs
  · cases act <;> simp [samsungDsimAtomicEnable, DisplayAct.Due, running]
  · cases act <;> simp [samsungDsimAtomicEnable, DisplayAct.Due, running]

theorem lt9611Tried_samsungDsim :
    (samsungDsimAtomicEnable
        (samsungDsimAtomicPreEnable kernel true mode regs statics).2).2.lt9611Tried =
      statics.lt9611Tried := by
  simp only [samsungDsimAtomicEnable, samsungDsimAtomicPreEnable,
    dsimAdoptRunning]
  split_ifs <;> rfl

theorem mem_lt9611BridgeAtomicEnable (first : statics.lt9611Tried = false)
    (dmaAddr : BitVec 32) (act : DisplayAct) :
    act ∈ (lt9611BridgeAtomicEnable true mode regs statics).1 ↔
      act = .lt9611Init ∧ act.Due kernel mode regs dmaAddr := by
  rw [lt9611BridgeAtomicEnable, @lt9611SeamlessTakeover_first kernel _ _ _ first]
  cases act <;> simp [DisplayAct.Due]

/-- What the first modeset of a boot does. -/
theorem mem_modeset_boot (dmaAddr : BitVec 32) (act : DisplayAct) :
    act ∈ (modeset kernel true mode regs dmaAddr .boot).1 ↔
      act.Due kernel mode regs dmaAddr := by
  have crtc :
      (mxsfbCrtcAtomicEnable kernel true mode regs dmaAddr .boot).2 =
        { Statics.boot with mxsfbTried := true } := by
    rw [mxsfbCrtcAtomicEnable, mxsfbAdoptRunning_first rfl]
  have dsi :=
    @mem_samsungDsim kernel mode regs { Statics.boot with mxsfbTried := true }
      rfl rfl dmaAddr act
  rw [List.mem_append] at dsi
  simp only [modeset, List.mem_append, crtc]
  rw [mem_mxsfbCrtcAtomicEnable rfl,
    @mem_lt9611BridgeAtomicEnable kernel _ _ _ lt9611Tried_samsungDsim
      dmaAddr,
    @or_assoc (_ ∧ _), dsi]
  cases act <;> simp

/-- Each driver's initialisation is due as a whole, or not at all. -/
theorem due_of_mem_initActs {driver : Driver} {act : DisplayAct}
    (own : act ∈ driver.initActs) (dmaAddr : BitVec 32) :
    act.Due kernel mode regs dmaAddr ↔ ¬ driver.Running kernel mode regs := by
  cases driver <;> simp only [Driver.initActs, List.mem_cons,
    List.not_mem_nil, or_false] at own
  case mxsfb => rw [own]; rfl
  case samsungDsim => rcases own with rfl | rfl | rfl <;> rfl
  case lt9611 => rw [own]; rfl

theorem initActs_ne_nil (driver : Driver) : driver.initActs ≠ [] := by
  cases driver <;> exact List.cons_ne_nil _ _

theorem adopts_boot_iff (dmaAddr : BitVec 32) (driver : Driver) :
    driver.Adopts (modeset kernel true mode regs dmaAddr .boot).1 ↔
      driver.Running kernel mode regs := by
  obtain ⟨own, member⟩ := List.exists_mem_of_ne_nil _ (initActs_ne_nil driver)
  simp only [Driver.Adopts, mem_modeset_boot]
  constructor
  · intro adopts
    by_contra stopped
    exact adopts own member ((due_of_mem_initActs member dmaAddr).mpr stopped)
  · intro running act isOwn due
    exact (due_of_mem_initActs isOwn dmaAddr).mp due running

theorem initialises_boot_iff (dmaAddr : BitVec 32) (driver : Driver) :
    driver.Initialises (modeset kernel true mode regs dmaAddr .boot).1 ↔
      ¬ driver.Running kernel mode regs := by
  obtain ⟨own, member⟩ := List.exists_mem_of_ne_nil _ (initActs_ne_nil driver)
  simp only [Driver.Initialises, mem_modeset_boot]
  constructor
  · intro initialises
    exact (due_of_mem_initActs member dmaAddr).mp (initialises own member)
  · intro stopped act isOwn
    exact (due_of_mem_initActs isOwn dmaAddr).mpr stopped

end

/-! ## All or nothing -/

/-- The registers of the three drivers agree on whether the mode runs. -/
def Agree (kernel : KernelMacros) (mode : DrmDisplayMode) (regs : Registers) :
    Prop :=
  ∀ one other : Driver,
    one.Running kernel mode regs ↔ other.Running kernel mode regs

/--
In the first modeset of a boot each driver adopts if its registers show the
mode, and initialises otherwise.  The takeover is all or nothing exactly if
the registers of the three agree, and the LCDIF is reset under an adopted DSIM
or bridge exactly if it does not show the mode while one of them does.
-/
theorem allOrNothing_iff (kernel : KernelMacros) (mode : DrmDisplayMode)
    (regs : Registers) (dmaAddr : BitVec 32) :
    (∀ driver : Driver,
      (driver.Adopts (modeset kernel true mode regs dmaAddr .boot).1 ↔
          driver.Running kernel mode regs) ∧
        (driver.Initialises (modeset kernel true mode regs dmaAddr .boot).1 ↔
          ¬ driver.Running kernel mode regs)) ∧
      (AllOrNothing (modeset kernel true mode regs dmaAddr .boot).1 ↔
        Agree kernel mode regs) ∧
      (ResetsUnder (modeset kernel true mode regs dmaAddr .boot).1 ↔
        ¬ Driver.mxsfb.Running kernel mode regs ∧
          (Driver.samsungDsim.Running kernel mode regs ∨
            Driver.lt9611.Running kernel mode regs)) := by
  refine ⟨fun driver => ?_, ?_, ?_⟩
  · exact ⟨adopts_boot_iff dmaAddr driver, initialises_boot_iff dmaAddr driver⟩
  · simp only [AllOrNothing, adopts_boot_iff, initialises_boot_iff]
    constructor
    · rintro (all | none) one other
      · exact iff_of_true (all one) (all other)
      · exact iff_of_false (none one) (none other)
    · intro agree
      by_cases running : Driver.mxsfb.Running kernel mode regs
      · exact .inl fun driver => (agree .mxsfb driver).mp running
      · exact .inr fun driver => (not_congr (agree .mxsfb driver)).mp running
  · rw [ResetsUnder, mem_modeset_boot, adopts_boot_iff, adopts_boot_iff]
    rfl

namespace Bench

/-- The registers of the i.MX 8M Mini, whose resolutions have 12 bits. -/
def kernelMacros : KernelMacros where
  ctrlRun := 1
  transferCountSetVcount lines := lines.setWidth 32 <<< 16
  transferCountSetHcount columns := columns.setWidth 32
  dsimMainStandBy := 0x80000000
  dsimMainHresol columns := columns.setWidth 32 &&& 0xfff
  dsimMainVresol lines := (lines.setWidth 32 &&& 0xfff) <<< 16

def mode : DrmDisplayMode :=
  ⟨1920, 792, 1920, 792⟩

/-- Everything runs in the mode but the LCDIF, which has stopped. -/
def stoppedLcdif : Registers where
  lcdcCtrl := 0
  transferCount := 0x03180780
  mdresol := 0x83180780
  hactive := 5760
  vactive := 792

end Bench

/-- The LCDIF is reset under an adopted DSIM and bridge. -/
theorem not_allOrNothing :
    ¬ ∀ (kernel : KernelMacros) (mode : DrmDisplayMode) (regs : Registers)
      (dmaAddr : BitVec 32),
      AllOrNothing (modeset kernel true mode regs dmaAddr .boot).1 ∧
        ¬ ResetsUnder (modeset kernel true mode regs dmaAddr .boot).1 := by
  intro all
  apply (all Bench.kernelMacros Bench.mode Bench.stoppedLcdif 1).2
  rw [ResetsUnder, mem_modeset_boot, adopts_boot_iff]
  refine ⟨fun running => running.1 rfl, .inl ?_⟩
  show Bench.stoppedLcdif.mdresol = _
  decide

end KmmYocto.Takeover
