import KmmYocto.LinuxView
import KmmYocto.TrialBound

/-!
# The Linux part of the device

The boot chain and the Linux commands do to the Linux part of the device what
they do to the device: neither the M-core's variables nor its firmware are
looked at.  One step is an exception, the SPL's save of a consumed
`mcore_try`, which stores the whole RAM copy.

A reboot for the M-core is seen as well; outside a Linux trial it leads back
to the Linux that was left if the boot takes the same way.
-/

namespace KmmYocto

/-! ## The Linux part of the device -/

namespace Env

variable
    (env : Env)

theorem linuxPart_countTry : env.countTry.linuxPart = env.linuxPart.countTry :=
  env.linuxPart_set _ _ rfl

theorem linuxPart_fallBack :
    env.fallBack.linuxPart = env.linuxPart.fallBack := by
  rw [fallBack, linuxPart_set _ _ _ rfl, linuxPart_set _ _ _ rfl,
    linuxPart_set _ _ _ rfl]
  rfl

theorem linuxPart_picked : env.picked.linuxPart = env.linuxPart.picked := by
  have sameTrial : env.linuxPart.InTrial ↔ env.InTrial := Iff.rfl
  have sameLimit : env.linuxPart.Exhausted ↔ env.Exhausted := Iff.rfl
  simp only [picked, sameTrial, sameLimit]
  split_ifs
  · exact env.linuxPart_fallBack
  · exact env.linuxPart_countTry
  · rfl

theorem linuxPart_disarmed :
    env.disarmed.linuxPart = env.linuxPart.disarmed := by
  have sameTicket :
      env.linuxPart.getYesno .bootOs = env.getYesno .bootOs := rfl
  simp only [disarmed, sameTicket]
  split_ifs
  · exact env.linuxPart_set _ _ rfl
  · rfl

/-- Consuming the M-core's ticket is not seen. -/
@[simp]
theorem linuxPart_untried : env.untried.linuxPart = env.linuxPart := by
  rw [linuxPart_eq_iff]
  intro name ofLinux
  apply env.get_untried_of_ne
  rintro rfl
  cases ofLinux

theorem linuxPart_bootcountInc :
    env.bootcountInc.linuxPart = env.linuxPart.bootcountInc :=
  env.linuxPart_set _ _ rfl

theorem linuxPart_altbootcmd :
    env.altbootcmd.linuxPart = env.linuxPart.altbootcmd :=
  linuxPart_setAll (by simp [EnvVar.isMcore]) env

end Env

/-- The SPL without what it knows of the M-core. -/
def Spl.linuxPart (spl : Spl) : Spl :=
  { spl with
    ram := spl.ram.linuxPart
    mcoreLoaded := none
    mcoreTried := none
    mcoreVer := 0
    staged := none }

/-- What later commands of the Linux side read of `/chosen`. -/
def Chosen.linuxPart (chosen : Chosen) : Chosen :=
  { Chosen.proper with
    falcon := chosen.falcon
    abSlot := chosen.abSlot }

def Phase.linuxPart : Phase → Phase
  | .spl pc running => .spl pc running.linuxPart
  | .proper counted ram => .proper counted ram.linuxPart
  | .linux boot => .linux ⟨boot.running, boot.chosen.linuxPart⟩

/-- The device without the M-core's variables, files and traces. -/
def Machine.linuxPart (machine : Machine) : Machine where
  disk := machine.disk.linuxPart
  phase := machine.phase.linuxPart

theorem Disk.linuxPart_linuxPart (disk : Disk) :
    disk.linuxPart.linuxPart = disk.linuxPart := by
  simp [Disk.linuxPart]

theorem Spl.linuxPart_linuxPart (spl : Spl) :
    spl.linuxPart.linuxPart = spl.linuxPart := by
  simp [Spl.linuxPart]

theorem Machine.linuxPart_linuxPart (machine : Machine) :
    machine.linuxPart.linuxPart = machine.linuxPart := by
  obtain ⟨disk, ⟨pc, spl⟩ | ⟨counted, ram⟩ | boot⟩ := machine
  · simp only [Machine.linuxPart, Disk.linuxPart_linuxPart, Phase.linuxPart,
      Spl.linuxPart_linuxPart]
  · simp only [Machine.linuxPart, Disk.linuxPart_linuxPart, Phase.linuxPart,
      Env.linuxPart_linuxPart]
  · simp only [Machine.linuxPart, Disk.linuxPart_linuxPart, Phase.linuxPart]
    rfl

theorem Spl.linuxPart_env (spl : Spl) (stored : Env) :
    (spl.env stored).linuxPart = spl.linuxPart.env stored.linuxPart := by
  rw [Spl.env, Spl.env]
  cases state : spl.abEnvState <;> simp [Spl.linuxPart, state]

/-- Saves that are made alike, of copies that look alike, store alike. -/
theorem Env.linuxPart_saved {condition other : Prop} [Decidable condition]
    [Decidable other] (agree : condition ↔ other) {ram otherRam : Env}
    (sameRam : ram.linuxPart = otherRam.linuxPart) (save : Save)
    (stored : Env) :
    (if condition then envSave save ram stored else stored).linuxPart =
      (if other then envSave save otherRam stored.linuxPart
        else stored.linuxPart).linuxPart := by
  by_cases holds : condition
  · rw [if_pos holds, if_pos (agree.mp holds)]
    cases save with
    | stored => exact sameRam
    | failed => exact (linuxPart_linuxPart stored).symm
  · rw [if_neg holds, if_neg (mt agree.mpr holds), linuxPart_linuxPart]

/-! ## One step -/

/-- The SPL with its payload loaded, if it is what runs. -/
def Machine.loadedSpl (machine : Machine) : Option Spl :=
  match machine.phase with
  | .spl (.loaded _) spl => some spl
  | _ => none

/-- The act is a call of `spl_mcore_stage` whose save is stored. -/
def Act.storesStage : Act → Bool
  | .mcoreStage .stored => true
  | _ => false

/--
When the SPL's save of a consumed `mcore_try` is stored, the RAM copy holds
nothing of the Linux side that is not stored yet.
-/
def Machine.StageSaved (machine : Machine) (act : Act) : Prop :=
  act.storesStage = true → ∀ spl ∈ machine.loadedSpl,
    spl.mcoreDone = false →
      slotLetter ((spl.env machine.disk.env).get .mcoreTry) ≠ none →
        (spl.env machine.disk.env).linuxPart = machine.disk.env.linuxPart

instance (machine : Machine) (act : Act) :
    Decidable (machine.StageSaved act) :=
  inferInstanceAs (Decidable (_ = true → ∀ spl ∈ machine.loadedSpl, _))

/-- The act is a command of the M-core. -/
def Act.isMcore : Act → Bool
  | .ab command _ => command.isMcore
  | _ => false

namespace Machine

variable
    (platform : Platform) {machine : Machine} {spl : Spl}

theorem linuxPart_congr {left right : Machine}
    (sameDisk : left.disk.linuxPart = right.disk.linuxPart)
    (samePhase : left.phase.linuxPart = right.phase.linuxPart) :
    left.linuxPart = right.linuxPart := by
  rw [linuxPart, linuxPart, sameDisk, samePhase]

/-- Storing environments that look alike leaves devices that look alike. -/
theorem linuxPart_stored {env other : Env} {phase otherPhase : Phase}
    (sameEnv : env.linuxPart = other.linuxPart)
    (samePhase : phase.linuxPart = otherPhase.linuxPart) :
    linuxPart ⟨machine.store env, phase⟩ =
      linuxPart ⟨machine.linuxPart.store other, otherPhase⟩ := by
  simp only [linuxPart, store, Disk.linuxPart, sameEnv, samePhase]

theorem linuxPart_afterPick (spl : Spl) (env : Env) :
    (spl.afterPick env).linuxPart =
      spl.linuxPart.afterPick env.linuxPart := by
  have sameSlot :
      env.linuxPart.picked.get .abSlot = env.picked.get .abSlot := by
    rw [← env.linuxPart_picked]
    rfl
  simp only [Spl.afterPick, Spl.linuxPart, env.linuxPart_picked, sameSlot]
  rfl

/-- Picking the partition. -/
theorem linuxPart_fsBootPartition (live : machine.Live) (save : Save) :
    (machine.step platform (.fsBootPartition save)).linuxPart =
      (machine.linuxPart.step platform (.fsBootPartition save)).linuxPart := by
  obtain ⟨disk, ⟨pc, spl⟩ | ⟨counted, ram⟩ | boot⟩ := machine
  · by_cases undecided : spl.abPart = 0
    · rw [step_picks platform rfl live undecided,
        @step_picks platform (Machine.linuxPart ⟨disk, .spl pc spl⟩)
          spl.linuxPart pc rfl live undecided]
      have sameWork :
          spl.linuxPart.env (Machine.linuxPart ⟨disk, .spl pc spl⟩).disk.env =
            (spl.env disk.env).linuxPart :=
        (spl.linuxPart_env disk.env).symm
      rw [sameWork, ← linuxPart_afterPick]
      apply linuxPart_stored
      · apply Env.linuxPart_saved Iff.rfl
        rw [← Env.linuxPart_picked, Env.linuxPart_linuxPart]
      · simp only [Phase.linuxPart, Spl.linuxPart_linuxPart]
        rfl
    · rw [step_asksAgain platform rfl undecided,
        @step_asksAgain platform (Machine.linuxPart ⟨disk, .spl pc spl⟩)
          spl.linuxPart pc rfl undecided]
      simp only [linuxPart, Disk.linuxPart_linuxPart, Phase.linuxPart,
        Spl.linuxPart_linuxPart]
      rfl
  · exact (linuxPart_linuxPart _).symm
  · exact (linuxPart_linuxPart _).symm

theorem linuxPart_afterDisarm (spl : Spl) (env : Env) :
    (spl.afterDisarm env).linuxPart =
      spl.linuxPart.afterDisarm env.linuxPart := by
  simp only [Spl.afterDisarm, Spl.linuxPart, env.linuxPart_disarmed]

/-- The dead-man switch. -/
theorem linuxPart_startUboot (live : machine.Live) (save : Save) :
    (machine.step platform (.startUboot save)).linuxPart =
      (machine.linuxPart.step platform (.startUboot save)).linuxPart := by
  obtain ⟨disk, ⟨pc, spl⟩ | ⟨counted, ram⟩ | boot⟩ := machine
  · cases pc with
    | picked =>
        rw [step_disarms platform rfl live,
          @step_disarms platform (Machine.linuxPart ⟨disk, .spl .picked spl⟩)
            spl.linuxPart rfl live]
        have sameWork :
            spl.linuxPart.env
                (Machine.linuxPart ⟨disk, .spl .picked spl⟩).disk.env =
              (spl.env disk.env).linuxPart :=
          (spl.linuxPart_env disk.env).symm
        rw [sameWork, ← linuxPart_afterDisarm]
        apply linuxPart_stored
        · apply Env.linuxPart_saved Iff.rfl
          rw [← Env.linuxPart_disarmed, Env.linuxPart_linuxPart]
        · simp only [Phase.linuxPart, Spl.linuxPart_linuxPart]
          rfl
    | start => exact (linuxPart_linuxPart _).symm
    | decided falcon => exact (linuxPart_linuxPart _).symm
    | loaded falcon => exact (linuxPart_linuxPart _).symm
  · exact (linuxPart_linuxPart _).symm
  · exact (linuxPart_linuxPart _).symm

theorem linuxPart_afterStage (spl : Spl) (board other : Board)
    (env : Env) :
    (spl.afterStage board env).linuxPart =
      (spl.linuxPart.afterStage other env.linuxPart).linuxPart := by
  simp only [Spl.afterStage, Spl.linuxPart, Env.linuxPart_untried,
    Env.linuxPart_linuxPart]

/-- Staging the firmware. -/
theorem linuxPart_mcoreStage (live : machine.Live) (save : Save)
    (saved : machine.StageSaved (.mcoreStage save)) :
    (machine.step platform (.mcoreStage save)).linuxPart =
      (machine.linuxPart.step platform (.mcoreStage save)).linuxPart := by
  obtain ⟨disk, ⟨pc, spl⟩ | ⟨counted, ram⟩ | boot⟩ := machine
  · cases pc with
    | loaded falcon =>
        cases done : spl.mcoreDone with
        | true =>
            have doneToo : spl.linuxPart.mcoreDone = true := done
            show linuxPart ⟨store _ _, .spl _ _⟩ =
              linuxPart ⟨store _ _, .spl _ _⟩
            rw [splMcoreStage_done done, splMcoreStage_done doneToo]
            exact
              linuxPart_congr disk.linuxPart_linuxPart.symm
                (congrArg (Phase.spl _) spl.linuxPart_linuxPart.symm)
        | false =>
            rw [step_stages platform rfl live done,
              @step_stages platform
                (Machine.linuxPart ⟨disk, .spl (.loaded falcon) spl⟩)
                spl.linuxPart falcon rfl live done]
            have sameWork :
                spl.linuxPart.env
                    (Machine.linuxPart ⟨disk, .spl (.loaded falcon) spl⟩).disk.env =
                  (spl.env disk.env).linuxPart :=
              (spl.linuxPart_env disk.env).symm
            rw [sameWork]
            apply linuxPart_stored
            · rw [if_pos (show slotLetter ((spl.env disk.env).linuxPart.get
                .mcoreTry) = none from rfl)]
              show _ = disk.env.linuxPart.linuxPart
              rw [Env.linuxPart_linuxPart]
              split_ifs with ticket
              · rfl
              · cases save with
                | stored =>
                    rw [envSave_stored, Env.linuxPart_untried]
                    exact saved rfl spl rfl done ticket
                | failed => rfl
            · simp only [Phase.linuxPart]
              rw [linuxPart_afterStage]
    | start => exact (linuxPart_linuxPart _).symm
    | picked => exact (linuxPart_linuxPart _).symm
    | decided falcon => exact (linuxPart_linuxPart _).symm
  · exact (linuxPart_linuxPart _).symm
  · exact (linuxPart_linuxPart _).symm

/-- Leaving the SPL, for the kernel or for U-Boot proper. -/
theorem linuxPart_leaveSpl :
    (machine.step platform .leaveSpl).linuxPart =
      (machine.linuxPart.step platform .leaveSpl).linuxPart := by
  obtain ⟨disk, ⟨pc, spl⟩ | ⟨counted, ram⟩ | boot⟩ := machine
  · cases pc with
    | loaded falcon =>
        show
          (if spl.mcoreDone then if falcon then _ else _
            else _ : Machine).linuxPart =
            (if spl.mcoreDone then if falcon then _ else _
              else _ : Machine).linuxPart
        split_ifs
        · exact linuxPart_congr disk.linuxPart_linuxPart.symm rfl
        · exact
            linuxPart_congr disk.linuxPart_linuxPart.symm
              (congrArg (Phase.proper false) (Env.linuxPart_linuxPart _).symm)
        · exact (linuxPart_linuxPart _).symm
    | start => exact (linuxPart_linuxPart _).symm
    | picked => exact (linuxPart_linuxPart _).symm
    | decided falcon => exact (linuxPart_linuxPart _).symm
  · exact (linuxPart_linuxPart _).symm
  · exact (linuxPart_linuxPart _).symm

/-- U-Boot proper counts the boot. -/
theorem linuxPart_bootcountInc (save : Save) :
    (machine.step platform (.bootcountInc save)).linuxPart =
      (machine.linuxPart.step platform (.bootcountInc save)).linuxPart := by
  obtain ⟨disk, ⟨pc, spl⟩ | ⟨_ | _, ram⟩ | boot⟩ := machine
  · exact (linuxPart_linuxPart _).symm
  · apply linuxPart_stored
    · apply Env.linuxPart_saved Iff.rfl
      rw [← Env.linuxPart_bootcountInc, Env.linuxPart_linuxPart]
    · show Phase.proper true ram.bootcountInc.linuxPart =
        .proper true ram.linuxPart.bootcountInc.linuxPart
      rw [← Env.linuxPart_bootcountInc, Env.linuxPart_linuxPart]
  · exact (linuxPart_linuxPart _).symm
  · exact (linuxPart_linuxPart _).symm

/-- U-Boot proper boots the slot, or the other one. -/
theorem linuxPart_bootCommand (save : Save) :
    (machine.step platform (.bootCommand save)).linuxPart =
      (machine.linuxPart.step platform (.bootCommand save)).linuxPart := by
  obtain ⟨disk, ⟨pc, spl⟩ | ⟨_ | _, ram⟩ | boot⟩ := machine
  · exact (linuxPart_linuxPart _).symm
  · exact (linuxPart_linuxPart _).symm
  · have sameSlot : ram.linuxPart.altbootcmd.abBoot = ram.altbootcmd.abBoot := by
      rw [← ram.linuxPart_altbootcmd]
      rfl
    show linuxPart ⟨store _ (KmmYocto.bootCommand save ram disk.env).2,
        .linux ⟨(KmmYocto.bootCommand save ram disk.env).1, Chosen.proper⟩⟩ =
      linuxPart
        ⟨store _
            (KmmYocto.bootCommand save ram.linuxPart disk.env.linuxPart).2,
          .linux
            ⟨(KmmYocto.bootCommand save ram.linuxPart disk.env.linuxPart).1,
              Chosen.proper⟩⟩
    by_cases exceeded : ram.BootcountError
    · rw [KmmYocto.bootCommand, if_pos exceeded, KmmYocto.bootCommand,
        if_pos (show ram.linuxPart.BootcountError from exceeded), sameSlot]
      apply linuxPart_stored
      · cases save with
        | stored =>
            rw [envSave_stored, envSave_stored, ← Env.linuxPart_altbootcmd,
              Env.linuxPart_linuxPart]
        | failed => exact (Env.linuxPart_linuxPart _).symm
      · rfl
    · rw [KmmYocto.bootCommand, if_neg exceeded, KmmYocto.bootCommand,
        if_neg (show ¬ ram.linuxPart.BootcountError from exceeded)]
      exact linuxPart_congr disk.linuxPart_linuxPart.symm rfl
  · exact (linuxPart_linuxPart _).symm

theorem linuxPart_phaseAfter (boot : LinuxBoot) {rebooting other : Bool}
    (same : rebooting = other) :
    (phaseAfter boot rebooting).linuxPart =
      (phaseAfter ⟨boot.running, boot.chosen.linuxPart⟩ other).linuxPart := by
  subst same
  cases rebooting with
  | true => rfl
  | false => rfl

/-- A Linux command. -/
theorem linuxPart_ab {command : AbCommand} (ctx : Ctx)
    (ofLinux : command.isMcore = false) :
    (machine.step platform (.ab command ctx)).linuxPart =
      (machine.linuxPart.step platform (.ab command ctx)).linuxPart := by
  obtain ⟨disk, ⟨pc, spl⟩ | ⟨_ | _, ram⟩ | boot⟩ := machine
  · exact (linuxPart_linuxPart _).symm
  · exact (linuxPart_linuxPart _).symm
  · exact (linuxPart_linuxPart _).symm
  · have same :
        Ab.SameLinux (command.script platform ctx boot)
          (command.script platform ctx
            ⟨boot.running, boot.chosen.linuxPart⟩) := by
      cases command with
      | linuxTryBegin =>
          exact
            (Ab.sameLinux_linuxTryBegin platform ctx rfl).bind fun _ =>
              Script.sameView_pure _
      | linuxTryRoot arguments stream =>
          exact Ab.sameLinux_linuxTryRoot platform ctx arguments stream
      | linuxTryBoot image key =>
          exact Ab.sameLinux_linuxTryBoot platform ctx image key
      | linuxTryArm noReboot =>
          exact Ab.sameLinux_linuxTryArm ctx rfl noReboot
      | linuxCommit force =>
          exact Ab.sameLinux_linuxCommit ctx rfl rfl rfl force
      | linuxRollback noReboot =>
          exact Ab.sameLinux_linuxRollback ctx rfl noReboot
      | _ => cases ofLinux
    obtain ⟨-, sameStore, sameReboot⟩ :=
      same.exec disk.linuxPart_linuxPart.symm
    exact linuxPart_congr sameStore (linuxPart_phaseAfter boot sameReboot)

/-- falcon-rearm. -/
theorem linuxPart_falconRearm (completed : Bool) :
    (machine.step platform (.falconRearm completed)).linuxPart =
      (machine.linuxPart.step platform (.falconRearm completed)).linuxPart := by
  obtain ⟨disk, ⟨pc, spl⟩ | ⟨_ | _, ram⟩ | boot⟩ := machine
  · exact (linuxPart_linuxPart _).symm
  · exact (linuxPart_linuxPart _).symm
  · exact (linuxPart_linuxPart _).symm
  · cases completed with
    | false => exact (linuxPart_linuxPart _).symm
    | true =>
        apply linuxPart_stored
        · show (disk.env.set .bootOs "yes").linuxPart =
            (disk.env.linuxPart.set .bootOs "yes").linuxPart
          rw [← disk.env.linuxPart_set _ _ rfl, Env.linuxPart_linuxPart]
        · rfl

/-- The Linux part of the device takes every Linux step by itself. -/
theorem linuxPart_step (live : machine.Live) {act : Act}
    (ofLinux : act.isMcore = false) (saved : machine.StageSaved act) :
    (machine.step platform act).linuxPart =
      (machine.linuxPart.step platform act).linuxPart := by
  cases act with
  | reset =>
      simp only [step, linuxPart, Disk.linuxPart_linuxPart]
  | fsBootPartition save =>
      exact linuxPart_fsBootPartition platform live save
  | startUboot save => exact linuxPart_startUboot platform live save
  | loadOs found =>
      rcases machine with
        ⟨disk, ⟨_ | _ | (_ | _) | falcon, spl⟩ | ⟨counted, ram⟩ | boot⟩
      case spl.decided.true =>
        exact
          linuxPart_congr disk.linuxPart_linuxPart.symm
            (congrArg (Phase.spl _) spl.linuxPart_linuxPart.symm)
      all_goals exact (linuxPart_linuxPart _).symm
  | loadUboot =>
      rcases machine with
        ⟨disk, ⟨_ | _ | (_ | _) | falcon, spl⟩ | ⟨counted, ram⟩ | boot⟩
      case spl.decided.false =>
        exact
          linuxPart_congr disk.linuxPart_linuxPart.symm
            (congrArg (Phase.spl _) spl.linuxPart_linuxPart.symm)
      all_goals exact (linuxPart_linuxPart _).symm
  | mcoreStage save => exact linuxPart_mcoreStage platform live save saved
  | leaveSpl => exact linuxPart_leaveSpl platform
  | bootcountInc save => exact linuxPart_bootcountInc platform save
  | bootCommand save => exact linuxPart_bootCommand platform save
  | ab command ctx => exact linuxPart_ab platform ctx ofLinux
  | falconRearm completed => exact linuxPart_falconRearm platform completed

end Machine

/-! ## Reboots for the M-core -/

/-- The acts from a reset to a Linux booted by falcon, and its falcon-rearm. -/
def isFalconWay : List Act → Bool
  | [.fsBootPartition _, .startUboot _, .loadOs true, .mcoreStage _,
      .leaveSpl, .falconRearm true] => true
  | _ => false

/-- The acts from a reset to a Linux booted by U-Boot proper. -/
def isProperWay : List Act → Bool
  | [.fsBootPartition _, .startUboot _, .loadUboot, .mcoreStage _, .leaveSpl,
      .bootcountInc _, .bootCommand _] => true
  | _ => false

/--
The device is in no Linux trial, and the way leads back to the Linux that is
left: by falcon, with the ticket for it, or by U-Boot proper, without one.
-/
def LeadsBack (env : Env) (boot : LinuxBoot) (way : List Act) : Prop :=
  ¬ env.InTrial ∧
    ((isFalconWay way = true ∧ env.get .bootOs = some "yes" ∧
        slotChar (env.get .abSlot) = boot.running ∧
        boot.chosen.falcon = true ∧
        boot.chosen.abSlot = some boot.running) ∨
      (isProperWay way = true ∧ env.getYesno .bootOs ≠ 1 ∧
        ¬ env.Upgrading ∧ env.abBoot = boot.running ∧
        boot.chosen.falcon = false ∧ boot.chosen.abSlot = none))

instance (env : Env) (boot : LinuxBoot) (way : List Act) :
    Decidable (LeadsBack env boot way) :=
  inferInstanceAs (Decidable (_ ∧ (_ ∨ _)))

/-- But for the ticket of falcon, the Linux side of the environments agrees. -/
def Env.AgreesButTicket (env other : Env) : Prop :=
  ∀ name, name.isMcore = false → name ≠ .bootOs →
    other.get name = env.get name

namespace Env.AgreesButTicket

variable
    {env other : Env}

theorem refl (env : Env) : env.AgreesButTicket env :=
  fun _ _ _ => rfl

theorem disarmed (agrees : env.AgreesButTicket other) :
    env.AgreesButTicket other.disarmed :=
  fun name ofLinux notTicket =>
    (other.get_disarmed_of_ne notTicket).trans
      (agrees name ofLinux notTicket)

theorem untried (agrees : env.AgreesButTicket other) :
    env.AgreesButTicket other.untried := by
  intro name ofLinux notTicket
  rw [← agrees name ofLinux notTicket]
  apply other.get_untried_of_ne
  rintro rfl
  cases ofLinux

theorem envSave {ram : Env} (ofRam : env.AgreesButTicket ram)
    (agrees : env.AgreesButTicket other) (save : Save) :
    env.AgreesButTicket (KmmYocto.envSave save ram other) := by
  cases save with
  | stored => exact ofRam
  | failed => exact agrees

/-- falcon-rearm puts the ticket back. -/
theorem rearmed (agrees : env.AgreesButTicket other)
    (armed : env.get .bootOs = some "yes") :
    (other.set .bootOs "yes").linuxPart = env.linuxPart := by
  rw [linuxPart_eq_iff]
  intro name ofLinux
  by_cases ticket : name = .bootOs
  · subst ticket
    rw [armed, get_set_self]
    rfl
  · rw [get_set_of_ne _ _ ticket]
    exact agrees name ofLinux ticket

end Env.AgreesButTicket

namespace Machine

section Ways

variable
    (platform : Platform) {disk : Disk}

/-- Outside a trial the SPL follows `ab_slot` and stores nothing. -/
theorem step_picks_settled (settled : ¬ disk.env.InTrial) (save : Save) :
    step platform ⟨disk, .spl .start Spl.start⟩ (.fsBootPartition save) =
      ⟨disk, .spl .picked (Spl.start.afterPick disk.env)⟩ := by
  rw [step_picks platform rfl Spl.live_start rfl]
  rw [Spl.env_start, if_neg settled,
    SplPc.start_afterAnswer (Spl.abPart_afterPick_pos _ _)]
  rfl

/-- What a boot by falcon has stored outside a trial. -/
def storedByFalcon (env : Env) (disarm stage : Save) : Env :=
  if slotLetter (env.disarmed.get .mcoreTry) = none then
    envSave disarm env.disarmed env
  else envSave stage env.disarmed.untried (envSave disarm env.disarmed env)

theorem agreesButTicket_storedByFalcon (env : Env) (disarm stage : Save) :
    env.AgreesButTicket (storedByFalcon env disarm stage) := by
  have ofDisarmed := (Env.AgreesButTicket.refl env).disarmed
  have unarmed := ofDisarmed.envSave (.refl env) disarm
  rw [storedByFalcon]
  split_ifs
  · exact unarmed
  · exact ofDisarmed.untried.envSave unarmed stage

/-- The SPL calls of a boot by falcon, up to the jump. -/
theorem after_falcon (settled : ¬ disk.env.InTrial)
    (ticket : disk.env.getYesno .bootOs = 1) (pick disarm stage : Save) :
    ∃ spl : Spl,
      spl.mcoreDone = true ∧
        spl.abPart = (slotChar (disk.env.get .abSlot)).bootpart ∧
        spl.abSlotC = some (slotChar (disk.env.get .abSlot)) ∧
        Trace.run (step platform) ⟨disk, .spl .start Spl.start⟩
            [.fsBootPartition pick, .startUboot disarm, .loadOs true,
              .mcoreStage stage] =
          ⟨{ disk with env := storedByFalcon disk.env disarm stage },
            .spl (.loaded true) spl⟩ := by
  have kept : disk.env.picked = disk.env := by
    rw [Env.picked, if_neg settled]
  have disarms :
      step platform ⟨disk, .spl .picked (Spl.start.afterPick disk.env)⟩
          (.startUboot disarm) =
        ⟨{ disk with env := envSave disarm disk.env.disarmed disk.env },
          .spl (.decided true)
            ((Spl.start.afterPick disk.env).afterDisarm disk.env)⟩ := by
    rw [step_disarms platform rfl (Spl.live_afterPick _ _),
      Spl.env_afterPick, kept, if_pos ticket, decide_eq_true ticket]
    rfl
  simp only [Trace.run_cons, Trace.run_nil]
  rw [step_picks_settled platform settled, disarms]
  refine ⟨_, ?_, ?_, ?_,
    step_stages platform rfl (Spl.live_afterDisarm _ _) rfl stage⟩
  · rfl
  · show ((slotChar (disk.env.picked.get .abSlot)).bootpart : Int) = _
    rw [kept]
  · show some (slotChar (disk.env.picked.get .abSlot)) = _
    rw [kept]

/-- A boot by falcon, with its falcon-rearm, leads to the slot of `ab_slot`. -/
theorem linuxPart_falconWay {way : List Act} (byFalcon : isFalconWay way = true)
    (settled : ¬ disk.env.InTrial)
    (armed : disk.env.get .bootOs = some "yes") :
    (after platform ⟨disk, .spl .start Spl.start⟩ way).linuxPart =
      linuxPart
        ⟨disk,
          .linux
            ⟨slotChar (disk.env.get .abSlot),
              { Chosen.proper with
                falcon := true
                abSlot := some (slotChar (disk.env.get .abSlot)) }⟩⟩ := by
  unfold isFalconWay at byFalcon
  split at byFalcon
  · next pick disarm stage =>
      have ticket : disk.env.getYesno .bootOs = 1 := by
        rw [Env.getYesno, armed]
        decide
      obtain ⟨spl, done, part, slot, jumps⟩ :=
        after_falcon platform settled ticket pick disarm stage
      simp only [Trace.run_cons, Trace.run_nil] at jumps
      simp only [after, Trace.run_cons, Trace.run_nil, jumps]
      simp only [step, done, if_true, part, slotOfPart_bootpart, abFixupFdt,
        slot]
      apply linuxPart_congr
      · simp only [store, Disk.linuxPart,
          (agreesButTicket_storedByFalcon disk.env disarm stage).rearmed armed]
      · rfl
  · cases byFalcon

/-- What the SPL has stored if it neither counts nor disarms. -/
def storedByStage (env : Env) (stage : Save) : Env :=
  if slotLetter (env.get .mcoreTry) = none then env
  else envSave stage env.untried env

theorem linuxPart_storedByStage (env : Env) (stage : Save) :
    (storedByStage env stage).linuxPart = env.linuxPart := by
  rw [storedByStage]
  split_ifs
  · rfl
  · cases stage with
    | stored => exact env.linuxPart_untried
    | failed => rfl

/-- The SPL calls of a boot by U-Boot proper, up to the jump. -/
theorem after_proper (settled : ¬ disk.env.InTrial)
    (unarmed : disk.env.getYesno .bootOs ≠ 1) (pick disarm stage : Save) :
    ∃ spl : Spl,
      spl.mcoreDone = true ∧
        Trace.run (step platform) ⟨disk, .spl .start Spl.start⟩
            [.fsBootPartition pick, .startUboot disarm, .loadUboot,
              .mcoreStage stage] =
          ⟨{ disk with env := storedByStage disk.env stage },
            .spl (.loaded false) spl⟩ := by
  have kept : disk.env.picked = disk.env := by
    rw [Env.picked, if_neg settled]
  have notDisarmed : disk.env.disarmed = disk.env := by
    rw [Env.disarmed, if_neg unarmed]
  have goesOn :
      step platform ⟨disk, .spl .picked (Spl.start.afterPick disk.env)⟩
          (.startUboot disarm) =
        ⟨disk,
          .spl (.decided false)
            ((Spl.start.afterPick disk.env).afterDisarm disk.env)⟩ := by
    rw [step_disarms platform rfl (Spl.live_afterPick _ _),
      Spl.env_afterPick, kept, if_neg unarmed, decide_eq_false unarmed]
    rfl
  simp only [Trace.run_cons, Trace.run_nil]
  rw [step_picks_settled platform settled, goesOn]
  have stages :=
    @step_stages platform
      ⟨disk,
        .spl (.loaded false)
          ((Spl.start.afterPick disk.env).afterDisarm disk.env)⟩
      _ false rfl (Spl.live_afterDisarm _ _) rfl stage
  rw [Spl.env_afterDisarm, notDisarmed] at stages
  exact ⟨_, rfl, stages⟩

/-- Outside an upgrade U-Boot proper stores nothing and boots `ab_slot`. -/
theorem after_uboot {spl : Spl} (done : spl.mcoreDone = true)
    (noUpgrade : ¬ disk.env.Upgrading) (count boot : Save) :
    Trace.run (step platform) ⟨disk, .spl (.loaded false) spl⟩
        [.leaveSpl, .bootcountInc count, .bootCommand boot] =
      ⟨disk, .linux ⟨disk.env.abBoot, Chosen.proper⟩⟩ := by
  have notOver : ¬ disk.env.bootcountInc.BootcountError := by
    intro exceeded
    apply noUpgrade
    have upgrading := exceeded.upgrading
    rw [Env.Upgrading, Env.getUlong,
      disk.env.get_bootcountInc_of_ne (by decide)] at upgrading
    exact upgrading
  have sameSlot : disk.env.bootcountInc.abBoot = disk.env.abBoot := by
    rw [Env.abBoot, Env.envget, disk.env.get_bootcountInc_of_ne (by decide)]
    rfl
  simp only [Trace.run_cons, Trace.run_nil, step, done, if_true,
    Bool.false_eq_true, if_false, KmmYocto.bootcountInc,
    KmmYocto.bootCommand, if_neg noUpgrade, if_neg notOver, sameSlot]
  rfl

/-- A boot by U-Boot proper leads to the slot of `ab_slot` as well. -/
theorem linuxPart_properWay {way : List Act} (byProper : isProperWay way = true)
    (settled : ¬ disk.env.InTrial) (unarmed : disk.env.getYesno .bootOs ≠ 1)
    (noUpgrade : ¬ disk.env.Upgrading) :
    (after platform ⟨disk, .spl .start Spl.start⟩ way).linuxPart =
      linuxPart ⟨disk, .linux ⟨disk.env.abBoot, Chosen.proper⟩⟩ := by
  unfold isProperWay at byProper
  split at byProper
  · next pick disarm stage count boot =>
      obtain ⟨spl, done, jumps⟩ :=
        after_proper platform settled unarmed pick disarm stage
      have sameStored := linuxPart_storedByStage disk.env stage
      have stillNone : ¬ (storedByStage disk.env stage).Upgrading := by
        show ¬ (storedByStage disk.env stage).linuxPart.Upgrading
        rw [sameStored]
        exact noUpgrade
      have boots :=
        @after_uboot platform
          { disk with env := storedByStage disk.env stage } spl done stillNone
          count boot
      simp only [Trace.run_cons, Trace.run_nil] at jumps boots
      simp only [after, Trace.run_cons, Trace.run_nil, jumps]
      rw [boots]
      apply linuxPart_congr
      · simp only [Disk.linuxPart, sameStored]
      · show Phase.linux ⟨(storedByStage disk.env stage).linuxPart.abBoot, _⟩ =
          .linux ⟨disk.env.linuxPart.abBoot, _⟩
        rw [sameStored]
  · cases byProper

end Ways

end Machine

end KmmYocto
