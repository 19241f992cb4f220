import KmmYocto.LinuxPart
import KmmYocto.ConfirmedSlot

/-!
# The Linux set beside the M-core set

A run mixes the events of the Linux side, its commands, reboots and crashes
with every step of the boots that follow, and the events of the M-core side.
An M-core command may reboot the device, and then the boot back to Linux
belongs to the M-core side.

Two runs with the same events of the Linux side are compared by the slots
that these events boot, and by the Linux variables at the end.
-/

namespace KmmYocto

/-- An event of one of the two sides. -/
inductive SideEvent where
  | linux (act : Act)
  /-- An M-core command, and the boot that follows if it reboots. -/
  | mcore (command : AbCommand) (ctx : Ctx) (way : List Act)
  /-- p3 holds other files from now on. -/
  | firmware (files : Slot → Option (List UInt8))

/-- The event as the Linux side sees it. -/
def SideEvent.linuxSide : SideEvent → Option Act
  | .linux act => if act.isMcore then none else some act
  | .mcore _ _ _ => none
  | .firmware _ => none

/-- The device, and the slots that events of the Linux side have booted. -/
structure TwoSides where
  machine : Machine
  booted : List Slot

namespace TwoSides

/-- The device after an M-core command and the boot it causes. -/
def afterMcore (platform : Platform) (machine : Machine)
    (issued : Machine.Issued) (way : List Act) : Machine :=
  let next := machine.afterCommand platform issued
  if (machine.session platform issued).rebooting then
    next.after platform way
  else next

/-- The next state. -/
def step (platform : Platform) (state : TwoSides) : SideEvent → TwoSides
  | .linux act =>
      if act.isMcore then state
      else
        let next := state.machine.step platform act
        ⟨next, state.booted ++ (Machine.started state.machine next).toList⟩
  | .mcore command ctx way =>
      match state.machine.issued (.ab command ctx) with
      | some issued =>
          if command.isMcore then
            { state with machine := afterMcore platform state.machine issued way }
          else state
      | none => state
  | .firmware files =>
      { state with
        machine :=
          { state.machine with
            disk := { state.machine.disk with mcore := files } } }

/--
An M-core command that reboots the device leads back to the Linux it was
called in, and a consumed `mcore_try` is saved with nothing else unsaved.
-/
def Apart (platform : Platform) (state : TwoSides) : SideEvent → Prop
  | .linux act => state.machine.StageSaved act
  | .mcore command ctx way =>
      ∀ issued ∈ state.machine.issued (.ab command ctx),
        (state.machine.session platform issued).rebooting = true →
          LeadsBack state.machine.disk.env issued.boot way
  | .firmware _ => True

instance (platform : Platform) (state : TwoSides) (event : SideEvent) :
    Decidable (state.Apart platform event) :=
  match event with
  | .linux act => inferInstanceAs (Decidable (state.machine.StageSaved act))
  | .mcore command ctx _ =>
      inferInstanceAs
        (Decidable
          (∀ issued ∈ state.machine.issued (.ab command ctx), _ → _))
  | .firmware _ => .isTrue trivial

/-- What the Linux side sees of the device. -/
def view (state : TwoSides) : Machine × List Slot :=
  (state.machine.linuxPart, state.booted)

/-- The Linux side goes its own way. -/
def viewStep (platform : Platform) (seen : Machine × List Slot) (act : Act) :
    Machine × List Slot :=
  let next := (seen.1.step platform act).linuxPart
  (next, seen.2 ++ (Machine.started seen.1 next).toList)

end TwoSides

/-! ## What each side leaves -/

/-- A reboot that leads back is not seen. -/
theorem LeadsBack.linuxPart_after (platform : Platform) {disk : Disk}
    {boot : LinuxBoot} {way : List Act}
    (leadsBack : LeadsBack disk.env boot way) :
    (Machine.after platform ⟨disk, .spl .start Spl.start⟩ way).linuxPart =
      Machine.linuxPart ⟨disk, .linux boot⟩ := by
  obtain ⟨settled, way⟩ := leadsBack
  rcases way with
    ⟨byFalcon, armed, slot, falcon, told⟩ |
      ⟨byProper, unarmed, noUpgrade, slot, proper, told⟩
  · rw [Machine.linuxPart_falconWay platform byFalcon settled armed]
    refine Machine.linuxPart_congr (by rfl) ?_
    simp only [Phase.linuxPart, Chosen.linuxPart, slot, falcon, told]
  · rw [Machine.linuxPart_properWay platform byProper settled unarmed noUpgrade]
    refine Machine.linuxPart_congr (by rfl) ?_
    simp only [Phase.linuxPart, Chosen.linuxPart, slot, proper, told]
    rfl

theorem Machine.started_linuxPart (before after : Machine) :
    Machine.started before.linuxPart after.linuxPart =
      Machine.started before after := by
  obtain ⟨disk, ⟨pc, spl⟩ | ⟨counted, ram⟩ | boot⟩ := before <;>
    obtain ⟨later, ⟨laterPc, laterSpl⟩ | ⟨again, laterRam⟩ | laterBoot⟩ :=
      after <;>
    rfl

namespace TwoSides

variable
    {platform : Platform} {state : TwoSides}

theorem step_live (live : state.machine.Live) (event : SideEvent) :
    (state.step platform event).machine.Live := by
  cases event with
  | linux act =>
      rw [step]
      split_ifs
      · exact live
      · exact state.machine.step_live platform live act
  | mcore command ctx way =>
      rw [step]
      split
      · next issued runs =>
          have nextLive :=
            state.machine.step_live platform live (.ab command ctx)
          rw [Machine.step_of_issued platform runs] at nextLive
          split_ifs
          · show (afterMcore _ _ _ _).Live
            rw [afterMcore]
            split_ifs
            · exact Machine.after_live platform nextLive way
            · exact nextLive
          · exact live
      · exact live
  | firmware files => exact live

/-- An M-core command is not seen, nor a reboot of it that leads back. -/
theorem linuxPart_afterMcore (platform : Platform) {machine : Machine}
    {command : AbCommand} {ctx : Ctx} {issued : Machine.Issued}
    {way : List Act} (runs : machine.issued (.ab command ctx) = some issued)
    (ofMcore : command.isMcore = true)
    (leadsBack : (machine.session platform issued).rebooting = true →
      LeadsBack machine.disk.env issued.boot way) :
    (afterMcore platform machine issued way).linuxPart =
      machine.linuxPart := by
  obtain ⟨disk, phase⟩ := machine
  cases phase with
  | linux boot =>
      obtain rfl := Option.some.inj runs
      have hidden :=
        @Machine.session_linuxPart platform ⟨disk, .linux boot⟩
          ⟨command, ctx, boot⟩ ofMcore
      rw [afterMcore, Machine.afterCommand, Machine.phaseAfter]
      generalize Machine.session platform ⟨disk, .linux boot⟩
        ⟨command, ctx, boot⟩ = session at hidden leadsBack ⊢
      split_ifs with reboots
      · have sameEnv : session.store.env.linuxPart = disk.env.linuxPart :=
          congrArg Disk.env hidden
        have stillBack : LeadsBack session.store.env boot way := by
          show LeadsBack session.store.env.linuxPart boot way
          rw [sameEnv]
          exact leadsBack reboots
        rw [stillBack.linuxPart_after platform]
        exact Machine.linuxPart_congr hidden rfl
      · exact Machine.linuxPart_congr hidden rfl
  | spl pc spl => cases runs
  | proper counted ram => cases runs

/-- An event of the M-core side is not seen. -/
theorem view_step_of_mcore {event : SideEvent}
    (apart : state.Apart platform event) (silent : event.linuxSide = none) :
    (state.step platform event).view = state.view := by
  cases event with
  | linux act =>
      rw [SideEvent.linuxSide] at silent
      split_ifs at silent with ofMcore
      rw [step, if_pos ofMcore]
  | mcore command ctx way =>
      rw [step]
      split
      · next issued runs =>
          split_ifs with ofMcore
          · rw [view, view, linuxPart_afterMcore platform runs ofMcore
              (apart issued runs)]
          · rfl
      · rfl
  | firmware files => rfl

/-- An event of the Linux side is seen, and does what the view says. -/
theorem view_step_of_linux {event : SideEvent} {act : Act}
    (live : state.machine.Live) (apart : state.Apart platform event)
    (shown : event.linuxSide = some act) :
    (state.step platform event).view = viewStep platform state.view act := by
  cases event with
  | linux act =>
      rw [SideEvent.linuxSide] at shown
      split_ifs at shown with ofMcore
      obtain rfl := Option.some.inj shown
      rw [step, if_neg ofMcore]
      have same :=
        state.machine.linuxPart_step platform live
          (Bool.eq_false_iff.mpr ofMcore) apart
      simp only [view, viewStep, ← same, Machine.started_linuxPart]
  | mcore command ctx way => cases shown
  | firmware files => cases shown

/-! ## Two runs -/

/-- What the Linux side sees of a run depends on its own events only. -/
theorem view_after (platform : Platform) (live : state.machine.Live)
    {events : List SideEvent}
    (apart : Trace.Along (step platform) (Apart platform) state events) :
    (Trace.run (step platform) state events).view =
      Trace.run (viewStep platform) state.view
        (events.filterMap SideEvent.linuxSide) := by
  have alive :
      Trace.Along (step platform)
        (fun state event => state.machine.Live ∧ state.Apart platform event)
        state events :=
    @Trace.along_of_invariant _ _ (step platform) (fun state => state.machine.Live)
      (Apart platform) _ (fun _ event live _ => step_live live event)
      (fun _ _ live apart => ⟨live, apart⟩) _ _ live apart
  exact
    Trace.view_run view SideEvent.linuxSide
      (fun _ _ guard silent => view_step_of_mcore guard.2 silent)
      (fun _ _ _ guard shown => view_step_of_linux guard.1 guard.2 shown)
      alive

/--
Two runs with the same events of the Linux side boot the same slots by them
and end with the same Linux variables, whatever the M-core side does, if its
reboots lead back and its saves store nothing of the Linux side.
-/
theorem linuxSide_eq (platform : Platform) {first second : Machine}
    (firstLive : first.Live) (secondLive : second.Live)
    (sameStart : first.linuxPart = second.linuxPart)
    {events others : List SideEvent}
    (sameEvents : events.filterMap SideEvent.linuxSide =
      others.filterMap SideEvent.linuxSide)
    (apart : Trace.Along (step platform) (Apart platform) ⟨first, []⟩ events)
    (othersApart : Trace.Along (step platform) (Apart platform) ⟨second, []⟩
      others) :
    (Trace.run (step platform) ⟨first, []⟩ events).booted =
        (Trace.run (step platform) ⟨second, []⟩ others).booted ∧
      ∀ name : EnvVar, name.isMcore = false →
        (Trace.run (step platform) ⟨first, []⟩ events).machine.disk.env.get
            name =
          (Trace.run (step platform) ⟨second, []⟩ others).machine.disk.env.get
            name := by
  have sameView :
      (Trace.run (step platform) ⟨first, []⟩ events).view =
        (Trace.run (step platform) ⟨second, []⟩ others).view := by
    rw [view_after platform firstLive apart,
      view_after platform secondLive othersApart, sameEvents]
    simp only [view, sameStart]
  have sameEnv := congrArg (fun seen => seen.1.disk.env) sameView
  exact
    ⟨congrArg Prod.snd sameView, (Env.linuxPart_eq_iff _ _).mp sameEnv⟩

end TwoSides

/-! ## Trials of both sets -/

namespace Bench

/-- A boot by falcon, every save stored, and its falcon-rearm. -/
def falconWay : List Act :=
  falconBoot.tail ++ [.falconRearm true]

/-- A reboot on the Linux side. -/
def userReboot : List SideEvent :=
  (falconBoot ++ [Act.falconRearm true]).map .linux

/-- An M-core update is written, to be tried at the next boot. -/
def mcoreUpdate : SideEvent :=
  .mcore (.mcoreUpdate (some (firmware 1)) true) ctx []

def mcoreConfirm (healthy : Bool) : SideEvent :=
  .mcore (.mcoreConfirm healthy) ctx falconWay

/-- A Linux trial is armed. -/
def armTrial : List SideEvent :=
  [.linux (.falconRearm true), .linux (.ab .linuxTryBegin ctx),
    .linux (.ab (.linuxTryArm true) ctx)]

def commit : SideEvent :=
  .linux (.ab (.linuxCommit true) ctx)

/-- A device whose confirmed M-core slot is a. -/
def mcoreA : Machine :=
  ⟨{ disk with env := shippedEnv.set .mcoreSlot "a" },
    .linux ⟨.a, Chosen.proper⟩⟩

/-- Both sets are tried in the same boot, and then Linux is committed. -/
def bothTrials (healthy : Bool) : List SideEvent :=
  armTrial ++ mcoreUpdate :: userReboot ++
    mcoreConfirm healthy :: commit :: userReboot

/-- Linux is committed first, then the M-core is tried. -/
def oneAfterOther (healthy : Bool) : List SideEvent :=
  armTrial ++ userReboot ++ commit :: mcoreUpdate :: userReboot ++
    [mcoreConfirm healthy]

end Bench

namespace TwoSides

/--
A firmware that sends no keepalive makes the Linux trial of the same boot fall
back, although Linux is healthy and is committed.
-/
theorem bothTrials_differ :
    (Bench.bothTrials true).filterMap SideEvent.linuxSide =
        (Bench.bothTrials false).filterMap SideEvent.linuxSide ∧
      (Trace.run (step Bench.platform) ⟨Bench.mcoreA, []⟩
            (Bench.bothTrials true)).booted ≠
          (Trace.run (step Bench.platform) ⟨Bench.mcoreA, []⟩
            (Bench.bothTrials false)).booted ∧
        (Trace.run (step Bench.platform) ⟨Bench.mcoreA, []⟩
            (Bench.bothTrials true)).machine.disk.env.get .abSlot ≠
          (Trace.run (step Bench.platform) ⟨Bench.mcoreA, []⟩
            (Bench.bothTrials false)).machine.disk.env.get .abSlot :=
  ⟨rfl, by decide +kernel, by decide +kernel⟩

/-- After the commit the same firmware leaves the Linux side alone. -/
theorem oneAfterOther_same :
    (Trace.run (step Bench.platform) ⟨Bench.mcoreA, []⟩
          (Bench.oneAfterOther true)).booted =
        (Trace.run (step Bench.platform) ⟨Bench.mcoreA, []⟩
          (Bench.oneAfterOther false)).booted ∧
      ∀ name : EnvVar, name.isMcore = false →
        (Trace.run (step Bench.platform) ⟨Bench.mcoreA, []⟩
              (Bench.oneAfterOther true)).machine.disk.env.get name =
          (Trace.run (step Bench.platform) ⟨Bench.mcoreA, []⟩
              (Bench.oneAfterOther false)).machine.disk.env.get name :=
  @linuxSide_eq Bench.platform Bench.mcoreA Bench.mcoreA
    trivial trivial rfl (Bench.oneAfterOther true) (Bench.oneAfterOther false)
    rfl (by decide +kernel) (by decide +kernel)

end TwoSides

end KmmYocto
