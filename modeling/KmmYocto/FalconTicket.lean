import KmmYocto.CommandEffects
import KmmYocto.BootEffects

/-!
# The falcon ticket

`boot_os=yes` is a ticket for one boot by falcon.  The SPL takes it away
before it jumps, and falcon-rearm puts it back.  Nothing else does: once both
copies of the environment say that the ticket is gone, every save of the SPL,
of U-Boot proper and of the commands writes back that it is gone.
-/

namespace KmmYocto

namespace Env

/-- `boot_os` is yes. -/
abbrev Armed (env : Env) : Prop :=
  env.getYesno .bootOs = 1

theorem armed_congr {left right : Env}
    (agree : left.get .bootOs = right.get .bootOs) :
    left.Armed ↔ right.Armed := by
  rw [Armed, Armed, getYesno, getYesno, agree]

/-- No change of the boot chain brings the ticket back. -/
theorem not_armed_change (change : Change) (env : Env)
    (spent : ¬ env.Armed) : ¬ (change.apply env).Armed := by
  cases change with
  | pick =>
      rwa [Change.apply, armed_congr
        (get_picked_of_ne env (by decide) (by decide) (by decide))]
  | disarm => exact disarmed_getYesno env
  | untry =>
      rwa [Change.apply, armed_congr (get_untried_of_ne env (by decide))]
  | count =>
      rwa [Change.apply, armed_congr (get_bootcountInc_of_ne env (by decide))]
  | alt =>
      simp only [Change.apply]
      split_ifs
      · rwa [armed_congr
          (get_altbootcmd_of_ne env (by decide) (by decide) (by decide))]
      · exact spent

end Env

/-- No command touches `boot_os`. -/
theorem Moves.bootOs {ctx : Ctx} {boot : LinuxBoot} {disk : Disk}
    {command : AbCommand} {wrote : Bool} {env : Env}
    {file : Option LinuxTry}
    (moves : Moves ctx boot disk command wrote env file) :
    env.get .bootOs = disk.env.get .bootOs := by
  have kept : ∀ slot fallback trial,
      (disk.env.setTrial slot fallback trial).get .bootOs =
        disk.env.get .bootOs := fun slot fallback trial =>
    disk.env.get_setTrial_of_ne slot fallback trial (by decide) (by decide)
      (by decide) (by decide)
  cases moves with
  | nothing => rfl
  | begun settled running tailscale => rfl
  | armed noReboot found stored => exact kept _ _ _
  | committed force trial tried removed => exact kept _ _ _
  | rolledBack noReboot trial removed => exact kept _ _ _
  | forgotten noReboot settled => rfl
  | returned noReboot settled running => exact kept _ _ _
  | mcore ofMcore own value =>
      rcases own with rfl | rfl <;>
        exact disk.env.get_set_of_ne value (by decide)

/-- The SPL has not decided for falcon. -/
def SplPc.NotFalcon : SplPc → Prop
  | .decided true => False
  | .loaded true => False
  | _ => True

theorem SplPc.NotFalcon.afterAnswer {pc : SplPc} (notFalcon : pc.NotFalcon)
    (answer : Int) : (pc.afterAnswer answer).NotFalcon := by
  rw [SplPc.afterAnswer]
  split_ifs
  · trivial
  · exact notFalcon

namespace Machine

/-- The step hands off by falcon: control leaves the SPL for the kernel. -/
def handsOff (machine : Machine) : Act → Bool
  | .leaveSpl =>
      match machine.phase with
      | .spl (.loaded true) spl => spl.mcoreDone
      | _ => false
  | _ => false

/-- The step completes `fw_setenv boot_os yes`. -/
def rearms (machine : Machine) : Act → Bool
  | .falconRearm true =>
      match machine.phase with
      | .linux _ => true
      | _ => false
  | _ => false

/-- The SPL has not decided for falcon. -/
def NotFalcon (machine : Machine) : Prop :=
  match machine.phase with
  | .spl pc _ => pc.NotFalcon
  | .proper _ _ => True
  | .linux _ => True

/-- The ticket is gone, and the running SPL has not taken it either. -/
structure Spent (machine : Machine) : Prop where
  stored : ¬ machine.disk.env.Armed
  work : ¬ machine.workEnv.Armed
  notFalcon : machine.NotFalcon

variable
    {platform : Platform} {machine next : Machine} {act : Act}

theorem Spent.not_handsOff (spent : machine.Spent) (act : Act) :
    ¬ machine.handsOff act = true := by
  obtain ⟨disk, phase⟩ := machine
  cases act with
  | leaveSpl =>
      rcases phase with ⟨_ | _ | falcon | (_ | _), spl⟩ | ⟨counted, ram⟩ | boot
      case spl.loaded.true => exact absurd spent.notFalcon not_false
      all_goals exact nofun
  | _ => exact nofun

/-- A step of the boot chain keeps the ticket spent. -/
theorem Spent.turn (spent : machine.Spent)
    (turn : Turn platform machine act next) : next.Spent := by
  obtain ⟨work, stored⟩ :=
    turn.bootMoves.keeps Env.not_armed_change spent.work spent.stored
  refine ⟨stored, work, ?_⟩
  have notFalcon := spent.notFalcon
  cases turn with
  | idle => exact notFalcon
  | reset => trivial
  | @asksAgain pc spl save runs decided =>
      rw [NotFalcon, runs] at notFalcon
      exact notFalcon.afterAnswer _
  | @picks pc spl save runs undecided =>
      rw [NotFalcon, runs] at notFalcon
      exact notFalcon.afterAnswer _
  | @disarms spl save runs =>
      have gone : ¬ (spl.env machine.disk.env).Armed := by
        have inWork := spent.work
        rwa [workEnv, runs] at inWork
      rw [NotFalcon, decide_eq_false gone]
      trivial
  | loadsOs found runs =>
      rw [NotFalcon, runs] at notFalcon
      exact notFalcon.elim
  | loadsUboot runs => trivial
  | @stages falcon spl save runs first =>
      rw [NotFalcon, runs] at notFalcon
      cases falcon with
      | true => exact notFalcon.elim
      | false => trivial
  | entersKernel runs done => trivial
  | entersProper runs done => trivial
  | counts save runs => trivial
  | boots save runs allowed => trivial
  | bootsAlternative save runs exceeded => trivial

/-- A command keeps the ticket spent. -/
theorem Spent.afterCommand (spent : machine.Spent) (issued : Issued) :
    (machine.afterCommand platform issued).Spent := by
  have bootOs :=
    (abMoves platform machine issued.boot issued.command issued.ctx).bootOs
  have gone : ¬ (machine.session platform issued).store.env.Armed :=
    (not_congr (Env.armed_congr bootOs)).mpr spent.stored
  refine ⟨gone, ?_, ?_⟩
  · rw [workEnv_afterCommand]
    exact gone
  · simp only [NotFalcon, Machine.afterCommand, phaseAfter]
    split_ifs <;> trivial

/-- Only falcon-rearm brings the ticket back. -/
theorem Spent.step (spent : machine.Spent) (live : machine.Live)
    (notRearm : ¬ machine.rearms act = true) :
    (machine.step platform act).Spent := by
  rcases step_cases platform live act with
    ⟨-, turn⟩ | ⟨issued, -, -, -, equal⟩ | ⟨boot, rfl, inLinux, -, -⟩
  · exact spent.turn turn
  · rw [equal]
    exact spent.afterCommand issued
  · exact absurd (by simp [rearms, inLinux]) notRearm

/-- At a hand-off by falcon the stored block shows the ticket as used. -/
def UsedWhenHandedOff (machine : Machine) (act : Act) : Prop :=
  machine.handsOff act = true → ¬ machine.disk.env.Armed

instance (machine : Machine) (act : Act) :
    Decidable (UsedWhenHandedOff machine act) :=
  inferInstanceAs (Decidable (_ → ¬ _))

theorem spent_of_handsOff (used : machine.UsedWhenHandedOff act)
    (handsOff : machine.handsOff act = true) :
    (machine.step platform act).Spent := by
  have gone := used handsOff
  obtain ⟨disk, phase⟩ := machine
  cases act with
  | leaveSpl =>
      rcases phase with ⟨_ | _ | falcon | (_ | _), spl⟩ | ⟨counted, ram⟩ | boot
      case spl.loaded.true =>
        have done : spl.mcoreDone = true := handsOff
        have equal :
            (Machine.mk disk (.spl (.loaded true) spl)).step platform
                .leaveSpl =
              ⟨disk, .linux ⟨slotOfPart spl.abPart, abFixupFdt spl⟩⟩ := by
          simp only [Machine.step, done, if_true]
        rw [equal]
        exact ⟨gone, gone, trivial⟩
      all_goals cases handsOff
  | _ => cases handsOff

/-- If the stored block shows the ticket as used, the working copy does too. -/
def Coherent (machine : Machine) : Prop :=
  ¬ machine.disk.env.Armed → ¬ machine.workEnv.Armed

theorem coherent_of_linux {boot : LinuxBoot}
    (inLinux : machine.phase = .linux boot) : machine.Coherent := by
  intro gone
  rw [workEnv, inLinux]
  exact gone

/-- Of two coherent copies, a step of the boot chain revives neither. -/
theorem Coherent.moves {work stored nextWork nextStored : Env}
    (moves : BootMoves work stored nextWork nextStored)
    (coherent : ¬ stored.Armed → ¬ work.Armed) :
    (¬ nextStored.Armed → ¬ nextWork.Armed) ∧
      (¬ stored.Armed → ¬ nextStored.Armed) := by
  refine ⟨?_, fun gone =>
    (moves.keeps Env.not_armed_change (coherent gone) gone).2⟩
  cases moves with
  | kept => exact coherent
  | reloaded => exact id
  | changed change save =>
      cases save with
      | stored => exact id
      | failed =>
          intro gone
          exact Env.not_armed_change change work (coherent gone)
  | switched change save => exact id

/-- A step that is no completed falcon-rearm does not bring the ticket back. -/
def RevivesNothing (platform : Platform) (machine : Machine) (act : Act) :
    Prop :=
  ¬ machine.rearms act = true → ¬ machine.disk.env.Armed →
    ¬ (machine.step platform act).disk.env.Armed

theorem Coherent.step (coherent : machine.Coherent) (live : machine.Live) :
    (machine.step platform act).Coherent ∧
      machine.RevivesNothing platform act := by
  rcases step_cases platform live act with
    ⟨-, turn⟩ | ⟨issued, -, -, -, equal⟩ | ⟨boot, rfl, inLinux, -, equal⟩
  · have both := Coherent.moves turn.bootMoves coherent
    exact ⟨both.1, fun _ => both.2⟩
  · have bootOs :=
      (abMoves platform machine issued.boot issued.command issued.ctx).bootOs
    rw [RevivesNothing, equal]
    refine ⟨?_, fun _ => (not_congr (Env.armed_congr bootOs)).mpr⟩
    rw [Coherent, workEnv_afterCommand]
    exact id
  · have still : machine.rearmed.phase = .linux boot := inLinux
    refine ⟨?_, fun notRearm => ?_⟩
    · rw [equal]
      exact coherent_of_linux still
    · exact absurd (by simp [rearms, inLinux]) notRearm

/--
In every run whose hand-offs all find the ticket used in the stored block,
there is a completed falcon-rearm between any two hand-offs; and no other step
brings the ticket back.
-/
theorem handsOff_once_per_rearm (platform : Platform) {start : Machine}
    {boot : LinuxBoot} (inLinux : start.phase = .linux boot)
    {acts : List Act}
    (guarded : Trace.Along (step platform) UsedWhenHandedOff start acts) :
    (∀ before first middle second after,
      acts = before ++ first :: middle ++ second :: after →
      (start.after platform before).handsOff first = true →
      (start.after platform (before ++ first :: middle)).handsOff second =
        true →
      ∃ front rearm back,
        middle = front ++ rearm :: back ∧
          (start.after platform (before ++ first :: front)).rearms rearm =
            true) ∧
    Trace.Along (step platform) (RevivesNothing platform) start acts := by
  have live : start.Live := by
    rw [Live, inLinux]
    trivial
  have stays : ∀ (machine : Machine) (act : Act),
      machine.Spent → machine.Live → machine.UsedWhenHandedOff act →
        ¬ machine.rearms act = true → (machine.step platform act).Spent :=
    fun _ _ spent live _ notRearm => spent.step live notRearm
  constructor
  · rintro before first middle second after rfl firstOff secondOff
    exact
      Trace.exists_refill_of_spent stays
        (fun _ _ _ used handsOff => spent_of_handsOff used handsOff)
        (fun _ act spent => spent.not_handsOff act)
        (fun _ act live _ => step_live platform live act)
        live guarded firstOff secondOff
  · have keeps : ∀ (machine : Machine) (act : Act),
        machine.Coherent ∧ machine.Live → machine.UsedWhenHandedOff act →
          (machine.step platform act).Coherent ∧
            (machine.step platform act).Live :=
      fun _ act sound _ =>
        ⟨(sound.1.step sound.2).1, step_live platform sound.2 act⟩
    exact
      Trace.along_of_invariant keeps
        (fun _ _ sound _ => (sound.1.step sound.2).2)
        ⟨coherent_of_linux inLinux, live⟩ guarded

end Machine

namespace Bench

/-- The bench device in Linux, on slot a. -/
def machine : Machine :=
  Machine.mk disk (.linux ⟨.a, Chosen.proper⟩)

/-- A boot by falcon up to the hand-off, with the dead-man's save as given. -/
def upToHandOff (deadman : Save) : List Act :=
  [.reset, .fsBootPartition .stored, .startUboot deadman, .loadOs true,
    .mcoreStage .stored]

end Bench

namespace Machine

/-- When the dead-man's save fails, one ticket serves two boots. -/
theorem handsOff_twice_without_rearm :
    ¬ ∀ (platform : Platform) (start : Machine) (boot : LinuxBoot),
      start.phase = .linux boot → ∀ before first middle second,
        (start.after platform before).handsOff first = true →
        (start.after platform (before ++ first :: middle)).handsOff second =
          true →
        ∃ front rearm back,
          middle = front ++ rearm :: back ∧
            (start.after platform (before ++ first :: front)).rearms rearm =
              true := by
  intro refilled
  obtain ⟨front, rearm, back, split, rearms⟩ :=
    refilled Bench.platform Bench.machine _ rfl
      (.falconRearm true :: Bench.upToHandOff .failed) .leaveSpl
      (Bench.upToHandOff .failed) .leaveSpl (by decide +kernel)
      (by decide +kernel)
  have member : rearm ∈ Bench.upToHandOff .failed := by
    rw [split]
    simp
  simp only [Bench.upToHandOff, List.mem_cons, List.not_mem_nil,
    or_false] at member
  rcases member with rfl | rfl | rfl | rfl | rfl <;> cases rearms

/-- Two boots by falcon with every save stored. -/
def Bench.twoBoots : List Act :=
  (.falconRearm true :: Bench.upToHandOff .stored) ++
    .leaveSpl :: (.falconRearm true :: Bench.upToHandOff .stored) ++
      .leaveSpl :: []

/-- With every save stored, the rearm between two boots is found. -/
theorem handsOff_twice_with_rearm :
    ∃ front rearm back,
      .falconRearm true :: Bench.upToHandOff .stored =
          front ++ rearm :: back ∧
        (Bench.machine.after Bench.platform
          ((.falconRearm true :: Bench.upToHandOff .stored) ++
            .leaveSpl :: front)).rearms rearm = true := by
  have guarded :
      Trace.Along (step Bench.platform) UsedWhenHandedOff Bench.machine
        Bench.twoBoots := by
    decide +kernel
  exact
    (handsOff_once_per_rearm Bench.platform rfl guarded).1 _ _ _ _ _ rfl
      (by decide +kernel) (by decide +kernel)

end Machine

end KmmYocto
