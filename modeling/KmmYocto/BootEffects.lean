import KmmYocto.Device

/-!
# What a step of the boot chain can do

Between two commands the SPL and U-Boot proper work on a RAM copy of the
environment and write it back as a whole.  `BootMoves` lists what one step can
do to the working and to the stored copy.  A property that every change of the
boot chain keeps is then kept of both copies, whatever the saves do.
-/

namespace KmmYocto

/-- A change the boot chain makes to its copy of the environment. -/
inductive Change where
  | pick
  | disarm
  | untry
  | count
  | alt

/-- The copy after the change. -/
def Change.apply : Change → Env → Env
  | .pick, env => env.picked
  | .disarm, env => env.disarmed
  | .untry, env => env.untried
  | .count, env => env.bootcountInc
  | .alt, env => if env.BootcountError then env.altbootcmd else env

/-- The boot chain never writes `mcore_slot`. -/
theorem Change.get_mcoreSlot (change : Change) (env : Env) :
    (change.apply env).get .mcoreSlot = env.get .mcoreSlot := by
  cases change with
  | pick =>
      exact env.get_picked_of_ne (by decide) (by decide) (by decide)
  | disarm => exact env.get_disarmed_of_ne (by decide)
  | untry => exact env.get_untried_of_ne (by decide)
  | count => exact env.get_bootcountInc_of_ne (by decide)
  | alt =>
      simp only [apply]
      split_ifs
      · exact env.get_altbootcmd_of_ne (by decide) (by decide) (by decide)
      · rfl

/-- What one step does to the working and to the stored copy. -/
inductive BootMoves (work stored : Env) : Env → Env → Prop where
  | kept : BootMoves work stored work stored
  /-- A new program starts from the stored copy. -/
  | reloaded : BootMoves work stored stored stored
  | changed (change : Change) (save : Save) :
      BootMoves work stored (change.apply work)
        (envSave save (change.apply work) stored)
  /-- The change is saved and a new program starts. -/
  | switched (change : Change) (save : Save) :
      BootMoves work stored (envSave save (change.apply work) stored)
        (envSave save (change.apply work) stored)

/-- What every change keeps holds of both copies after a step. -/
theorem BootMoves.keeps {property : Env → Prop}
    (closed : ∀ change env, property env → property (Change.apply change env))
    {work stored nextWork nextStored : Env}
    (moves : BootMoves work stored nextWork nextStored)
    (ofWork : property work) (ofStored : property stored) :
    property nextWork ∧ property nextStored := by
  have saved : ∀ change save,
      property (envSave save (Change.apply change work) stored) := by
    intro change save
    cases save with
    | stored => exact closed change work ofWork
    | failed => exact ofStored
  cases moves with
  | kept => exact ⟨ofWork, ofStored⟩
  | reloaded => exact ⟨ofStored, ofStored⟩
  | changed change save =>
      exact ⟨closed change work ofWork, saved change save⟩
  | switched change save => exact ⟨saved change save, saved change save⟩

/-- The step belongs to the boot chain: no command and not falcon-rearm. -/
def Act.OfBoot : Act → Prop
  | .ab _ _ => False
  | .falconRearm _ => False
  | _ => True

/-! ## The calls of the SPL -/

namespace Spl

/-- The SPL after the deciding call of `spl_mmc_fs_boot_partition`. -/
def afterPick (spl : Spl) (env : Env) : Spl :=
  { spl with
    ram := env.picked
    abEnvState := .ready
    abSlotC := some (slotChar (env.picked.get .abSlot))
    abTry := spl.abTry || decide (env.InTrial ∧ ¬ env.Exhausted)
    abPart := (slotChar (env.picked.get .abSlot)).bootpart }

/-- The partition is p1 or p2. -/
theorem abPart_afterPick_pos (spl : Spl) (env : Env) :
    0 < (spl.afterPick env).abPart := by
  simp only [afterPick]
  cases slotChar (env.picked.get .abSlot) <;> decide

/-- The SPL after `spl_start_uboot`. -/
def afterDisarm (spl : Spl) (env : Env) : Spl :=
  { spl with ram := env.disarmed, abEnvState := .ready }

/-- The firmware the SPL stages, with the slot it comes from. -/
def found (board : Board) (env : Env) : Option (Slot × McoreImage.Firmware) :=
  (slotLetter (env.get .mcoreTry) <|> slotLetter (env.get .mcoreSlot)).bind
    fun sel => (board.firmware sel).map fun firmware => (sel, firmware)

/-- The SPL after its first `spl_mcore_stage`. -/
def afterStage (spl : Spl) (board : Board) (env : Env) : Spl :=
  { spl with
    ram := env.untried
    abEnvState := .ready
    mcoreDone := true
    mcoreTried := slotLetter (env.get .mcoreTry) <|> spl.mcoreTried
    staged := (found board env).map fun pair => pair.2.payload
    mcoreLoaded := ((found board env).map Prod.fst) <|> spl.mcoreLoaded
    mcoreVer :=
      ((found board env).map fun pair => pair.2.version).getD spl.mcoreVer }

@[simp]
theorem env_start (stored : Env) : start.env stored = stored :=
  rfl

@[simp]
theorem env_afterPick (spl : Spl) (env stored : Env) :
    (spl.afterPick env).env stored = env.picked :=
  rfl

@[simp]
theorem env_afterDisarm (spl : Spl) (env stored : Env) :
    (spl.afterDisarm env).env stored = env.disarmed :=
  rfl

@[simp]
theorem live_start : start.Live :=
  nofun

@[simp]
theorem live_afterPick (spl : Spl) (env : Env) : (spl.afterPick env).Live :=
  nofun

@[simp]
theorem live_afterDisarm (spl : Spl) (env : Env) :
    (spl.afterDisarm env).Live :=
  nofun

@[simp]
theorem live_afterStage (spl : Spl) (board : Board) (env : Env) :
    (spl.afterStage board env).Live :=
  nofun

end Spl

namespace Machine

/-- If the SPL runs, its `env_init` has not failed. -/
def Live (machine : Machine) : Prop :=
  match machine.phase with
  | .spl _ spl => spl.Live
  | .proper _ _ => True
  | .linux _ => True

/--
One step of the boot chain, with what it needs and what it leaves.  The
environment the SPL works on is written out at each of its calls.
-/
inductive Turn (platform : Platform) (machine : Machine) :
    Act → Machine → Prop where
  | idle (act : Act) : Turn platform machine act machine
  | reset :
      Turn platform machine .reset
        { machine with phase := .spl .start Spl.start }
  | asksAgain {pc : SplPc} {spl : Spl} (save : Save)
      (runs : machine.phase = .spl pc spl) (decided : spl.abPart ≠ 0) :
      Turn platform machine (.fsBootPartition save)
        { machine with phase := .spl (pc.afterAnswer spl.abPart) spl }
  | picks {pc : SplPc} {spl : Spl} (save : Save)
      (runs : machine.phase = .spl pc spl) (undecided : spl.abPart = 0) :
      Turn platform machine (.fsBootPartition save)
        ⟨machine.store
            (if (spl.env machine.disk.env).InTrial then
              envSave save (spl.env machine.disk.env).picked machine.disk.env
            else machine.disk.env),
          .spl
            (pc.afterAnswer (spl.afterPick (spl.env machine.disk.env)).abPart)
            (spl.afterPick (spl.env machine.disk.env))⟩
  | disarms {spl : Spl} (save : Save)
      (runs : machine.phase = .spl .picked spl) :
      Turn platform machine (.startUboot save)
        ⟨machine.store
            (if (spl.env machine.disk.env).getYesno .bootOs = 1 then
              envSave save (spl.env machine.disk.env).disarmed
                machine.disk.env
            else machine.disk.env),
          .spl
            (.decided
              (decide ((spl.env machine.disk.env).getYesno .bootOs = 1)))
            (spl.afterDisarm (spl.env machine.disk.env))⟩
  | loadsOs {spl : Spl} (found : Bool)
      (runs : machine.phase = .spl (.decided true) spl) :
      Turn platform machine (.loadOs found)
        { machine with
          phase :=
            .spl (if found then SplPc.loaded true else .decided false) spl }
  | loadsUboot {spl : Spl}
      (runs : machine.phase = .spl (.decided false) spl) :
      Turn platform machine .loadUboot
        { machine with phase := .spl (.loaded false) spl }
  | stages {falcon : Bool} {spl : Spl} (save : Save)
      (runs : machine.phase = .spl (.loaded falcon) spl)
      (first : spl.mcoreDone = false) :
      Turn platform machine (.mcoreStage save)
        ⟨machine.store
            (if slotLetter ((spl.env machine.disk.env).get .mcoreTry) = none
            then machine.disk.env
            else envSave save (spl.env machine.disk.env).untried
              machine.disk.env),
          .spl (.loaded falcon)
            (spl.afterStage (machine.board platform)
              (spl.env machine.disk.env))⟩
  | entersKernel {spl : Spl}
      (runs : machine.phase = .spl (.loaded true) spl)
      (done : spl.mcoreDone = true) :
      Turn platform machine .leaveSpl
        { machine with
          phase := .linux ⟨slotOfPart spl.abPart, abFixupFdt spl⟩ }
  | entersProper {spl : Spl}
      (runs : machine.phase = .spl (.loaded false) spl)
      (done : spl.mcoreDone = true) :
      Turn platform machine .leaveSpl
        { machine with phase := .proper false machine.disk.env }
  | counts {ram : Env} (save : Save)
      (runs : machine.phase = .proper false ram) :
      Turn platform machine (.bootcountInc save)
        ⟨machine.store
            (if ram.Upgrading then
              envSave save ram.bootcountInc machine.disk.env
            else machine.disk.env),
          .proper true ram.bootcountInc⟩
  | boots {ram : Env} (save : Save)
      (runs : machine.phase = .proper true ram)
      (allowed : ¬ ram.BootcountError) :
      Turn platform machine (.bootCommand save)
        { machine with phase := .linux ⟨ram.abBoot, Chosen.proper⟩ }
  | bootsAlternative {ram : Env} (save : Save)
      (runs : machine.phase = .proper true ram)
      (exceeded : ram.BootcountError) :
      Turn platform machine (.bootCommand save)
        ⟨machine.store (envSave save ram.altbootcmd machine.disk.env),
          .linux ⟨ram.altbootcmd.abBoot, Chosen.proper⟩⟩

section Calls

variable
    (platform : Platform) {machine : Machine} {spl : Spl}

/-- The deciding call of `spl_mmc_fs_boot_partition`. -/
theorem step_picks {pc : SplPc} (runs : machine.phase = .spl pc spl)
    (live : spl.Live) (undecided : spl.abPart = 0) (save : Save) :
    machine.step platform (.fsBootPartition save) =
      ⟨machine.store
          (if (spl.env machine.disk.env).InTrial then
            envSave save (spl.env machine.disk.env).picked machine.disk.env
          else machine.disk.env),
        .spl (pc.afterAnswer (spl.afterPick (spl.env machine.disk.env)).abPart)
          (spl.afterPick (spl.env machine.disk.env))⟩ := by
  have init : (machine.board platform).envInit = true := rfl
  have equal :=
    splMmcFsBootPartition_undecided init live undecided save machine.disk.env
  rw [board_loaded] at equal
  simp only [step, runs, equal]
  rfl

/-- Any later call of `spl_mmc_fs_boot_partition`. -/
theorem step_asksAgain {pc : SplPc} (runs : machine.phase = .spl pc spl)
    (decided : spl.abPart ≠ 0) (save : Save) :
    machine.step platform (.fsBootPartition save) =
      { machine with phase := .spl (pc.afterAnswer spl.abPart) spl } := by
  simp only [step, runs, splMmcFsBootPartition_decided decided]
  rfl

theorem step_disarms (runs : machine.phase = .spl .picked spl)
    (live : spl.Live) (save : Save) :
    machine.step platform (.startUboot save) =
      ⟨machine.store
          (if (spl.env machine.disk.env).getYesno .bootOs = 1 then
            envSave save (spl.env machine.disk.env).disarmed machine.disk.env
          else machine.disk.env),
        .spl
          (.decided
            (decide ((spl.env machine.disk.env).getYesno .bootOs = 1)))
          (spl.afterDisarm (spl.env machine.disk.env))⟩ := by
  have init : (machine.board platform).envInit = true := rfl
  have equal := splStartUboot_of_live init live save machine.disk.env
  rw [board_loaded] at equal
  have answer :
      decide
          ((if (spl.env machine.disk.env).getYesno .bootOs = 1 then (0 : Int)
            else 1) = 0) =
        decide ((spl.env machine.disk.env).getYesno .bootOs = 1) := by
    split_ifs with armed <;> simp [armed]
  simp only [step, runs, equal, answer]
  rfl

/-- The first `spl_mcore_stage`. -/
theorem step_stages {falcon : Bool}
    (runs : machine.phase = .spl (.loaded falcon) spl) (live : spl.Live)
    (first : spl.mcoreDone = false) (save : Save) :
    machine.step platform (.mcoreStage save) =
      ⟨machine.store
          (if slotLetter ((spl.env machine.disk.env).get .mcoreTry) = none
          then machine.disk.env
          else envSave save (spl.env machine.disk.env).untried
            machine.disk.env),
        .spl (.loaded falcon)
          (spl.afterStage (machine.board platform)
            (spl.env machine.disk.env))⟩ := by
  have init : (machine.board platform).envInit = true := rfl
  have equal := splMcoreStage_of_live init live first save machine.disk.env
  rw [board_loaded] at equal
  simp only [step, runs, equal]
  rfl

end Calls

/-- Every step of the boot chain is one of the listed turns. -/
theorem turn (platform : Platform) {machine : Machine}
    (live : machine.Live) {act : Act} (ofBoot : act.OfBoot) :
    Turn platform machine act (machine.step platform act) := by
  obtain ⟨disk, phase⟩ := machine
  cases act with
  | reset => exact .reset
  | fsBootPartition save =>
      cases phase with
      | spl pc spl =>
          by_cases decided : spl.abPart = 0
          · rw [step_picks platform rfl live decided]
            exact .picks save rfl decided
          · rw [step_asksAgain platform rfl decided]
            exact .asksAgain save rfl decided
      | proper counted ram => exact .idle _
      | linux boot => exact .idle _
  | startUboot save =>
      cases phase with
      | spl pc spl =>
          cases pc with
          | picked =>
              rw [step_disarms platform rfl live]
              exact .disarms save rfl
          | start => exact .idle _
          | decided falcon => exact .idle _
          | loaded falcon => exact .idle _
      | proper counted ram => exact .idle _
      | linux boot => exact .idle _
  | loadOs found =>
      rcases phase with ⟨_ | _ | (_ | _) | falcon, spl⟩ | ⟨counted, ram⟩ | boot
      case spl.decided.true => exact .loadsOs found rfl
      all_goals exact .idle _
  | loadUboot =>
      rcases phase with ⟨_ | _ | (_ | _) | falcon, spl⟩ | ⟨counted, ram⟩ | boot
      case spl.decided.false => exact .loadsUboot rfl
      all_goals exact .idle _
  | mcoreStage save =>
      cases phase with
      | spl pc spl =>
          cases pc with
          | loaded falcon =>
              cases done : spl.mcoreDone with
              | true =>
                  simp only [step, splMcoreStage_done done]
                  exact .idle _
              | false =>
                  rw [step_stages platform rfl live done]
                  exact .stages save rfl done
          | start => exact .idle _
          | picked => exact .idle _
          | decided falcon => exact .idle _
      | proper counted ram => exact .idle _
      | linux boot => exact .idle _
  | leaveSpl =>
      cases phase with
      | spl pc spl =>
          cases pc with
          | loaded falcon =>
              simp only [step]
              cases done : spl.mcoreDone with
              | false => exact .idle _
              | true =>
                  cases falcon with
                  | true => exact .entersKernel rfl done
                  | false => exact .entersProper rfl done
          | start => exact .idle _
          | picked => exact .idle _
          | decided falcon => exact .idle _
      | proper counted ram => exact .idle _
      | linux boot => exact .idle _
  | bootcountInc save =>
      rcases phase with ⟨pc, spl⟩ | ⟨_ | _, ram⟩ | boot
      case proper.false => exact .counts save rfl
      all_goals exact .idle _
  | bootCommand save =>
      rcases phase with ⟨pc, spl⟩ | ⟨_ | _, ram⟩ | boot
      case proper.true =>
        by_cases exceeded : ram.BootcountError
        · simp only [step, KmmYocto.bootCommand, if_pos exceeded]
          exact .bootsAlternative save rfl exceeded
        · simp only [step, KmmYocto.bootCommand, if_neg exceeded]
          exact .boots save rfl exceeded
      all_goals exact .idle _
  | ab command ctx => exact absurd ofBoot not_false
  | falconRearm completed => exact absurd ofBoot not_false

theorem Turn.live {platform : Platform} {machine next : Machine} {act : Act}
    (turn : Turn platform machine act next) (live : machine.Live) :
    next.Live := by
  have awake :
      ∀ {pc : SplPc} {spl : Spl}, machine.phase = .spl pc spl → spl.Live := by
    intro pc spl runs
    rw [Live, runs] at live
    exact live
  cases turn with
  | idle => exact live
  | reset => simp [Live, Spl.Live, Spl.start]
  | asksAgain save runs decided => exact awake runs
  | picks save runs undecided => exact Spl.live_afterPick _ _
  | disarms save runs => exact Spl.live_afterDisarm _ _
  | loadsOs found runs => exact awake runs
  | loadsUboot runs => exact awake runs
  | stages save runs first => exact Spl.live_afterStage _ _ _
  | entersKernel runs done => trivial
  | entersProper runs done => trivial
  | counts save runs => trivial
  | boots save runs allowed => trivial
  | bootsAlternative save runs exceeded => trivial

/-- A booted Linux is left by a reset only. -/
theorem Turn.of_linux {platform : Platform} {disk : Disk} {boot : LinuxBoot}
    {next : Machine} {act : Act}
    (turn : Turn platform ⟨disk, .linux boot⟩ act next) :
    next = ⟨disk, .linux boot⟩ ∨ next = ⟨disk, .spl .start Spl.start⟩ := by
  cases turn with
  | idle => exact .inl rfl
  | reset => exact .inr rfl
  | asksAgain save runs decided => cases runs
  | picks save runs undecided => cases runs
  | disarms save runs => cases runs
  | loadsOs found runs => cases runs
  | loadsUboot runs => cases runs
  | stages save runs first => cases runs
  | entersKernel runs done => cases runs
  | entersProper runs done => cases runs
  | counts save runs => cases runs
  | boots save runs allowed => cases runs
  | bootsAlternative save runs exceeded => cases runs

/-- A turn changes the two copies of the environment as listed. -/
theorem Turn.bootMoves {platform : Platform} {machine next : Machine}
    {act : Act} (turn : Turn platform machine act next) :
    BootMoves machine.workEnv machine.disk.env next.workEnv
      next.disk.env := by
  cases turn with
  | idle => exact .kept
  | reset => exact .reloaded
  | asksAgain save runs decided =>
      rw [workEnv, runs]
      exact .kept
  | @picks pc spl save runs undecided =>
      rw [workEnv, runs]
      show BootMoves _ _ (spl.env machine.disk.env).picked _
      split_ifs with trial
      · exact .changed .pick save
      · exact .changed .pick .failed
  | @disarms spl save runs =>
      rw [workEnv, runs]
      show BootMoves _ _ (spl.env machine.disk.env).disarmed _
      split_ifs with armed
      · exact .changed .disarm save
      · exact .changed .disarm .failed
  | loadsOs found runs =>
      rw [workEnv, runs]
      exact .kept
  | loadsUboot runs =>
      rw [workEnv, runs]
      exact .kept
  | @stages falcon spl save runs first =>
      rw [workEnv, runs]
      show BootMoves _ _ (spl.env machine.disk.env).untried _
      split_ifs with ticket
      · exact .changed .untry .failed
      · exact .changed .untry save
  | entersKernel runs done => exact .reloaded
  | entersProper runs done => exact .reloaded
  | @counts ram save runs =>
      rw [workEnv, runs]
      show BootMoves _ _ ram.bootcountInc _
      split_ifs with upgrading
      · exact .changed .count save
      · exact .changed .count .failed
  | boots save runs allowed => exact .reloaded
  | @bootsAlternative ram save runs exceeded =>
      have applied : Change.alt.apply ram = ram.altbootcmd :=
        if_pos exceeded
      rw [workEnv, runs, ← applied]
      exact .switched .alt save

/-- A turn touches no part of the disk but the environment. -/
theorem Turn.disk_eq {platform : Platform} {machine next : Machine}
    {act : Act} (turn : Turn platform machine act next) :
    next.disk = { machine.disk with env := next.disk.env } := by
  cases turn <;> rfl

/-! ## Commands and falcon-rearm -/

/-- A command that runs, with what it finds and the Linux it runs in. -/
structure Issued where
  command : AbCommand
  ctx : Ctx
  boot : LinuxBoot

/-- The command a step runs; outside Linux there is none. -/
def issued (machine : Machine) : Act → Option Issued
  | .ab command ctx =>
      match machine.phase with
      | .linux boot => some ⟨command, ctx, boot⟩
      | .spl _ _ => none
      | .proper _ _ => none
  | _ => none

/-- The session a command ends in. -/
def session (platform : Platform) (machine : Machine) (issued : Issued) :
    Session Disk Write :=
  (machine.runAb platform issued.boot issued.command issued.ctx).2

/-- The phase after a command. -/
def phaseAfter (boot : LinuxBoot) (rebooting : Bool) : Phase :=
  if rebooting then .spl .start Spl.start else .linux boot

/-- The device after a command. -/
def afterCommand (platform : Platform) (machine : Machine)
    (issued : Issued) : Machine where
  disk := (machine.session platform issued).store
  phase := phaseAfter issued.boot (machine.session platform issued).rebooting

/-- The device after falcon-rearm. -/
def rearmed (machine : Machine) : Machine where
  disk := machine.store (machine.disk.env.set .bootOs "yes")
  phase := machine.phase

/-- After a command the working copy is the stored one. -/
@[simp]
theorem workEnv_afterCommand (platform : Platform) (machine : Machine)
    (issued : Issued) :
    (machine.afterCommand platform issued).workEnv =
      (machine.session platform issued).store.env := by
  simp only [afterCommand, phaseAfter]
  split_ifs <;> rfl

theorem workEnv_rearmed {machine : Machine} {boot : LinuxBoot}
    (inLinux : machine.phase = .linux boot) :
    machine.rearmed.workEnv = machine.disk.env.set .bootOs "yes" := by
  simp only [workEnv, rearmed, inLinux, store]

theorem step_of_issued (platform : Platform) {machine : Machine} {act : Act}
    {issued : Issued} (runs : machine.issued act = some issued) :
    machine.step platform act = machine.afterCommand platform issued := by
  obtain ⟨disk, phase⟩ := machine
  cases act with
  | ab command ctx =>
      cases phase with
      | linux boot =>
          obtain rfl := Option.some.inj runs
          rfl
      | spl pc spl => cases runs
      | proper counted ram => cases runs
  | _ => cases runs

/-- A step is a turn of the boot chain, a command or a completed falcon-rearm. -/
theorem step_cases (platform : Platform) {machine : Machine}
    (live : machine.Live) (act : Act) :
    (machine.issued act = none ∧
        Turn platform machine act (machine.step platform act)) ∨
      (∃ issued : Issued,
        act = .ab issued.command issued.ctx ∧
          machine.phase = .linux issued.boot ∧
          machine.issued act = some issued ∧
          machine.step platform act =
            machine.afterCommand platform issued) ∨
      (∃ boot,
        act = .falconRearm true ∧ machine.phase = .linux boot ∧
          machine.issued act = none ∧
          machine.step platform act = machine.rearmed) := by
  obtain ⟨disk, phase⟩ := machine
  cases act with
  | ab command ctx =>
      cases phase with
      | spl pc spl => exact .inl ⟨rfl, .idle _⟩
      | proper counted ram => exact .inl ⟨rfl, .idle _⟩
      | linux boot =>
          exact .inr (.inl ⟨⟨command, ctx, boot⟩, rfl, rfl, rfl, rfl⟩)
  | falconRearm completed =>
      cases phase with
      | spl pc spl => exact .inl ⟨rfl, .idle _⟩
      | proper counted ram => exact .inl ⟨rfl, .idle _⟩
      | linux boot =>
          cases completed with
          | true => exact .inr (.inr ⟨boot, rfl, rfl, rfl, rfl⟩)
          | false => exact .inl ⟨rfl, .idle _⟩
  | reset => exact .inl ⟨rfl, turn platform live trivial⟩
  | fsBootPartition save => exact .inl ⟨rfl, turn platform live trivial⟩
  | startUboot save => exact .inl ⟨rfl, turn platform live trivial⟩
  | loadOs found => exact .inl ⟨rfl, turn platform live trivial⟩
  | loadUboot => exact .inl ⟨rfl, turn platform live trivial⟩
  | mcoreStage save => exact .inl ⟨rfl, turn platform live trivial⟩
  | leaveSpl => exact .inl ⟨rfl, turn platform live trivial⟩
  | bootcountInc save => exact .inl ⟨rfl, turn platform live trivial⟩
  | bootCommand save => exact .inl ⟨rfl, turn platform live trivial⟩

theorem step_live (platform : Platform) {machine : Machine}
    (live : machine.Live) (act : Act) :
    (machine.step platform act).Live := by
  rcases step_cases platform live act with
    ⟨-, turn⟩ | ⟨issued, -, -, -, equal⟩ | ⟨boot, -, inLinux, -, equal⟩
  · exact turn.live live
  · rw [equal, Live, afterCommand, phaseAfter]
    split_ifs
    · simp [Spl.Live, Spl.start]
    · trivial
  · rw [equal, Live, rearmed, inLinux]
    trivial

theorem after_live (platform : Platform) {machine : Machine}
    (live : machine.Live) (acts : List Act) :
    (machine.after platform acts).Live := by
  induction acts generalizing machine with
  | nil => exact live
  | cons act rest induction =>
      exact induction (machine.step_live platform live act)

end Machine

end KmmYocto
