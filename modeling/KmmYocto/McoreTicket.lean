import KmmYocto.Tickets
import KmmYocto.TrialWrites

/-!
# A trial of an M-core firmware is one-shot

`ab mcore update` and `ab mcore rollback` arm a trial by setting `mcore_try`.
The SPL deletes the variable and saves the environment before it reads the
file, so the trial is used by one boot at most, whatever happens afterwards.

To the steps of the device this module adds a power cut inside a command: the
first writes of the command are made, and the SPL starts.  The files on p3 may
be lost or corrupted at any time.  A power cut inside `spl_mcore_stage` is a
reset before the call if the environment is not saved yet, and right after it
if it is: what is staged is gone with the reset.
-/

namespace KmmYocto

/-! ## What a command writes to the environment -/

/-- The command is `ab mcore update` or `ab mcore rollback`. -/
def AbCommand.armsMcore : AbCommand → Bool
  | .mcoreUpdate _ _ => true
  | .mcoreRollback _ => true
  | _ => false

/-- The command writes no environment variable. -/
def AbCommand.sparesEnv : AbCommand → Bool
  | .linuxTryBegin => true
  | .linuxTryRoot _ _ => true
  | .linuxTryBoot _ _ => true
  | _ => false

theorem Moves.not_wrote {ctx : Ctx} {boot : LinuxBoot} {disk : Disk}
    {command : AbCommand} {wrote : Bool} {env : Env} {file : Option LinuxTry}
    (moves : Moves ctx boot disk command wrote env file)
    (spares : command.sparesEnv = true) : wrote = false := by
  cases moves with
  | nothing => rfl
  | begun => rfl
  | armed => cases spares
  | committed => cases spares
  | rolledBack => cases spares
  | forgotten => rfl
  | returned => cases spares
  | mcore ofMcore =>
      cases command with
      | mcoreUpdate => cases spares
      | mcoreRollback => cases spares
      | mcoreConfirm => cases spares
      | _ => cases ofMcore

/-- What an environment write of a command does to the M-core's variables. -/
inductive McoreWrite (env : Env) : AbCommand → Env → Prop where
  | ofLinux (command : AbCommand) (slot fallback trial : String) :
      McoreWrite env command (env.setTrial slot fallback trial)
  | arms {command : AbCommand} (armsMcore : command.armsMcore = true)
      (tried : Slot) :
      McoreWrite env command (env.set .mcoreTry tried.name)
  | confirms (healthy : Bool) (tried : Slot) :
      McoreWrite env (.mcoreConfirm healthy) (env.set .mcoreSlot tried.name)

/-- A script that writes no environment makes no such write. -/
theorem McoreWrite.of_noEnv {disk : Disk} {command : AbCommand}
    {writes : List Write} (noEnv : writes.any Write.isEnv = false) :
    ∀ env, Write.env env ∈ writes → McoreWrite disk.env command env := by
  intro env member
  rw [List.any_eq_false] at noEnv
  exact absurd rfl (noEnv _ member)

namespace Ab

variable
    (platform : Platform) (ctx : Ctx) (boot : LinuxBoot) (disk : Disk)

theorem mcoreWrite_linuxTryArm (noReboot : Bool) :
    Script.Ends (linuxTryArm ctx boot noReboot) ⟨disk, [], false⟩
      fun _ later => ∀ env, Write.env env ∈ later.writes →
        McoreWrite disk.env (.linuxTryArm noReboot) env := by
  simp only [linuxTryArm, Script.ends_bind, ends_tryTarget]
  cases disk.linuxTry with
  | none => simp
  | some file =>
      have trial := @McoreWrite.ofLinux disk.env (.linuxTryArm noReboot)
        file.toSlot.name boot.running.name "1"
      simp [wroteEnv, trial]

theorem mcoreWrite_linuxCommit (force : Bool) :
    Script.Ends (linuxCommit ctx boot force) ⟨disk, [], false⟩
      fun _ later => ∀ env, Write.env env ∈ later.writes →
        McoreWrite disk.env (.linuxCommit force) env := by
  have trial :=
    @McoreWrite.ofLinux disk.env (.linuxCommit force)
      boot.running.name boot.running.name "0"
  simp only [linuxCommit, Script.ends_bind, ends_lock, ends_envget,
    Script.ends_ite, Script.ends_require, Script.ends_read,
    ends_envset_trial]
  constructor
  · intro _
    constructor
    · intro _
      constructor
      · intro _
        apply ends_mbrSet <;> simp
      · simp
    · intro _
      constructor
      · intro _
        constructor
        · intro _
          constructor
          · intro _
            apply ends_mbrSet <;> simp [wroteEnv, trial]
          · simp
        · simp
      · simp
  · simp

theorem mcoreWrite_linuxRollback (noReboot : Bool) :
    Script.Ends (linuxRollback ctx boot noReboot) ⟨disk, [], false⟩
      fun _ later => ∀ env, Write.env env ∈ later.writes →
        McoreWrite disk.env (.linuxRollback noReboot) env := by
  have trial := @McoreWrite.ofLinux disk.env (.linuxRollback noReboot)
  simp only [linuxRollback, Script.ends_bind, ends_lock, ends_envget,
    Script.ends_ite, Script.ends_require, Script.ends_read,
    Script.ends_persist, ends_envset_trial, ends_maybeReboot]
  constructor
  · intro _
    constructor
    · intro _
      constructor
      · intro _
        apply ends_mbrSet <;> simp [wroteEnv, trial]
      · simp
    · intro _
      constructor
      · intro _
        constructor
        · intro _
          simp [wroteEnv, Medium.apply, Disk.apply, trial]
        · simp
      · simp
  · simp

theorem mcoreWrite_mcoreUpdate (file : Option (List UInt8))
    (noReboot : Bool) :
    Script.Ends (mcoreUpdate platform ctx file noReboot) ⟨disk, [], false⟩
      fun _ later => ∀ env, Write.env env ∈ later.writes →
        McoreWrite disk.env (.mcoreUpdate file noReboot) env := by
  have armed :=
    @McoreWrite.arms disk.env (.mcoreUpdate file noReboot) rfl
  cases file with
  | none => simp [mcoreUpdate]
  | some bytes =>
      simp [mcoreUpdate, wroteEnv, Medium.apply, Disk.apply, armed]

theorem mcoreWrite_mcoreRollback (noReboot : Bool) :
    Script.Ends (mcoreRollback platform ctx noReboot) ⟨disk, [], false⟩
      fun _ later => ∀ env, Write.env env ∈ later.writes →
        McoreWrite disk.env (.mcoreRollback noReboot) env := by
  have armed :=
    @McoreWrite.arms disk.env (.mcoreRollback noReboot) rfl
  simp [mcoreRollback, wroteEnv, armed]

theorem mcoreWrite_mcoreConfirm (healthy : Bool) :
    Script.Ends (mcoreConfirm ctx boot healthy) ⟨disk, [], false⟩
      fun _ later => ∀ env, Write.env env ∈ later.writes →
        McoreWrite disk.env (.mcoreConfirm healthy) env := by
  have confirmed := @McoreWrite.confirms disk.env healthy
  rw [mcoreConfirm]
  cases boot.chosen.mcoreTry with
  | none => simp
  | some tried => simp [wroteEnv, confirmed]

end Ab

/-- Whatever a command writes to the environment is one of the listed writes. -/
theorem AbCommand.mcoreWrite (platform : Platform) (ctx : Ctx)
    (boot : LinuxBoot) (command : AbCommand) (disk : Disk) :
    Script.Ends (command.script platform ctx boot) ⟨disk, [], false⟩
      fun _ later => ∀ env, Write.env env ∈ later.writes →
        McoreWrite disk.env command env := by
  have moves :=
    Machine.abMoves platform ⟨disk, .linux boot⟩ boot command ctx
  cases command with
  | linuxTryBegin => exact McoreWrite.of_noEnv (moves.not_wrote rfl)
  | linuxTryRoot arguments stream =>
      exact McoreWrite.of_noEnv (moves.not_wrote rfl)
  | linuxTryBoot image key =>
      exact McoreWrite.of_noEnv (moves.not_wrote rfl)
  | linuxTryArm noReboot => exact Ab.mcoreWrite_linuxTryArm ctx boot disk _
  | linuxCommit force => exact Ab.mcoreWrite_linuxCommit ctx boot disk _
  | linuxRollback noReboot =>
      exact Ab.mcoreWrite_linuxRollback ctx boot disk _
  | mcoreUpdate file noReboot =>
      exact Ab.mcoreWrite_mcoreUpdate platform ctx disk _ _
  | mcoreRollback noReboot =>
      exact Ab.mcoreWrite_mcoreRollback platform ctx disk _
  | mcoreConfirm healthy => exact Ab.mcoreWrite_mcoreConfirm ctx boot disk _

/-- A command that arms no M-core trial leaves `mcore_try` alone. -/
theorem McoreWrite.get_mcoreTry {env written : Env} {command : AbCommand}
    (write : McoreWrite env command written)
    (armsNone : command.armsMcore = false) :
    written.get .mcoreTry = env.get .mcoreTry := by
  cases write with
  | ofLinux _ slot fallback trial =>
      exact env.get_setTrial_of_ne slot fallback trial (by decide) (by decide)
        (by decide) (by decide)
  | arms armsMcore tried =>
      rw [armsNone] at armsMcore
      cases armsMcore
  | confirms healthy tried => exact env.get_set_of_ne _ (by decide)

/-- The environment after some writes is the last one written, if one was. -/
theorem Disk.env_replay (disk : Disk) (writes : List Write) :
    (writes.any Write.isEnv = false ∧
        (Script.replay disk writes).env = disk.env) ∨
      (writes.any Write.isEnv = true ∧
        Write.env (Script.replay disk writes).env ∈ writes) := by
  induction writes using List.reverseRecOn with
  | nil => exact .inl ⟨rfl, rfl⟩
  | append_singleton front write induction =>
      have replayed :
          Script.replay disk (front ++ [write]) =
            (Script.replay disk front).apply write :=
        Script.replay_append disk front [write]
      cases write with
      | env env =>
          rw [replayed]
          exact .inr ⟨by simp [Write.isEnv], by simp [Disk.apply]⟩
      | _ =>
          rw [replayed]
          simpa [Write.isEnv, Disk.apply] using induction

/-! ## Steps with power cuts -/

/-- A step, or a command that a power cut stops after some of its writes. -/
inductive CutAct where
  | whole (act : Act)
  | cut (command : AbCommand) (ctx : Ctx) (taken : Nat)
  /-- The M-core files on p3 change to anything. -/
  | corrupt (files : Slot → Option (List UInt8))

namespace Machine

/-- The next state of the device. -/
def cutStep (platform : Platform) (machine : Machine) : CutAct → Machine
  | .whole act => machine.step platform act
  | .cut command ctx taken =>
      match machine.phase with
      | .linux boot =>
          let session := (machine.runAb platform boot command ctx).2
          ⟨Script.replay machine.disk (session.writes.take taken),
            .spl .start Spl.start⟩
      | _ => machine
  | .corrupt files =>
      { machine with disk := { machine.disk with mcore := files } }

/-- The command of a step, with the writes it gets to. -/
def performed (platform : Platform) (machine : Machine) :
    CutAct → Option (AbCommand × List Write)
  | .whole (.ab command ctx) =>
      match machine.phase with
      | .linux boot =>
          some (command, (machine.runAb platform boot command ctx).2.writes)
      | _ => none
  | .cut command ctx taken =>
      match machine.phase with
      | .linux boot =>
          some
            (command,
              (machine.runAb platform boot command ctx).2.writes.take taken)
      | _ => none
  | _ => none

/-- The slot for which the step arms a trial by writing `mcore_try`. -/
def armsMcore (platform : Platform) (machine : Machine) (act : CutAct) :
    Option Slot :=
  match machine.performed platform act with
  | some (command, writes) =>
      if command.armsMcore = true ∧ writes.any Write.isEnv = true then
        (machine.cutStep platform act).disk.env.mcoreTicket
      else none
  | none => none

/-- The step is the first `spl_mcore_stage` of its SPL run. -/
def stages (machine : Machine) : CutAct → Bool
  | .whole (.mcoreStage _) =>
      match machine.phase with
      | .spl (.loaded _) spl => !spl.mcoreDone
      | _ => false
  | _ => false

/-- The step is such a call, and `mcore_try` is set in the SPL's environment. -/
def takesMcoreTry (machine : Machine) (act : CutAct) : Bool :=
  machine.stages act && machine.workEnv.mcoreTicket.isSome

/-- What the running SPL has staged for the M7. -/
def staged (machine : Machine) : Option (List UInt8) :=
  match machine.phase with
  | .spl _ spl => spl.staged
  | _ => none

/-- The payload in the file of a slot, if the file is valid. -/
def payload (platform : Platform) (machine : Machine) (slot : Slot) :
    Option (List UInt8) :=
  ((machine.board platform).firmware slot).map fun firmware =>
    firmware.payload

end Machine

namespace Env

/-- The slot that `mcore_slot` names, if it is a or b. -/
def mcoreConfirmed (env : Env) : Option Slot :=
  if env.get .mcoreSlot = some "a" then some .a
  else if env.get .mcoreSlot = some "b" then some .b
  else none

/-- `mcore_slot` is a slot or not set. -/
def NamesMcore (env : Env) : Prop :=
  env.get .mcoreSlot = env.mcoreConfirmed.map Slot.name

theorem NamesMcore.slotLetter {env : Env} (names : env.NamesMcore) :
    slotLetter (env.get .mcoreSlot) = env.mcoreConfirmed := by
  rw [names]
  rcases env.mcoreConfirmed with _ | _ | _ <;> rfl

theorem NamesMcore.congr {left right : Env} (names : left.NamesMcore)
    (agree : right.get .mcoreSlot = left.get .mcoreSlot) :
    right.NamesMcore := by
  rw [NamesMcore, mcoreConfirmed, agree]
  exact names

theorem namesMcore_set (env : Env) (slot : Slot) :
    (env.set .mcoreSlot slot.name).NamesMcore := by
  cases slot <;> simp [NamesMcore, mcoreConfirmed, Slot.name]

/-- `mcore_pick` leaves no ticket behind. -/
theorem mcoreTicket_untried (env : Env) : env.untried.mcoreTicket = none := by
  rw [untried]
  split_ifs with ticket
  · exact ticket
  · rw [mcoreTicket, get_delete_self]
    rfl

/-- A step of the boot chain keeps the M-core ticket or takes it. -/
theorem mcoreTicket_change (change : Change) (env : Env) :
    (change.apply env).mcoreTicket = env.mcoreTicket ∨
      (change.apply env).mcoreTicket = none := by
  have kept : ∀ {after : Env}, after.get .mcoreTry = env.get .mcoreTry →
      after.mcoreTicket = env.mcoreTicket := by
    intro after agree
    rw [mcoreTicket, agree, mcoreTicket]
  cases change with
  | pick =>
      exact .inl
        (kept (env.get_picked_of_ne (by decide) (by decide) (by decide)))
  | disarm => exact .inl (kept (env.get_disarmed_of_ne (by decide)))
  | untry => exact .inr env.mcoreTicket_untried
  | count => exact .inl (kept (env.get_bootcountInc_of_ne (by decide)))
  | alt =>
      refine .inl (kept ?_)
      simp only [Change.apply]
      split_ifs
      · exact env.get_altbootcmd_of_ne (by decide) (by decide) (by decide)
      · rfl

end Env

/-! ## One step -/

/-- The removal of the ticket is not saved although the call returns. -/
def CutAct.losesSave : CutAct → Bool
  | .whole (.mcoreStage .failed) => true
  | _ => false

namespace Machine

variable
    (platform : Platform) {machine : Machine}

theorem cutStep_live (live : machine.Live) (act : CutAct) :
    (machine.cutStep platform act).Live := by
  cases act with
  | whole act => exact step_live platform live act
  | cut command ctx taken =>
      rw [cutStep]
      cases phase : machine.phase with
      | spl pc spl => exact live
      | proper counted ram => exact live
      | linux boot => exact Spl.live_start
  | corrupt files => exact live

/-- What the writes of a command, all or the first ones, leave in the store. -/
theorem env_replay_command (boot : LinuxBoot) (command : AbCommand)
    (ctx : Ctx) {writes : List Write}
    (ofCommand : ∀ write ∈ writes,
      write ∈ (machine.runAb platform boot command ctx).2.writes) :
    (writes.any Write.isEnv = false ∧
        (Script.replay machine.disk writes).env = machine.disk.env) ∨
      (writes.any Write.isEnv = true ∧
        McoreWrite machine.disk.env command
          (Script.replay machine.disk writes).env) := by
  rcases machine.disk.env_replay writes with ⟨none, kept⟩ | ⟨some, last⟩
  · exact .inl ⟨none, kept⟩
  · exact
      .inr ⟨some,
        command.mcoreWrite platform ctx boot machine.disk _
          (ofCommand _ last)⟩

/-- A step changes the environment as the boot chain, falcon-rearm or a command. -/
theorem cutStep_cases (live : machine.Live) (act : CutAct) :
    (machine.performed platform act = none ∧
        BootMoves machine.workEnv machine.disk.env
          (machine.cutStep platform act).workEnv
          (machine.cutStep platform act).disk.env) ∨
      (machine.performed platform act = none ∧
        (machine.cutStep platform act).workEnv =
          (machine.cutStep platform act).disk.env ∧
        (machine.cutStep platform act).disk.env =
          machine.disk.env.set .bootOs "yes") ∨
      ∃ command writes,
        machine.performed platform act = some (command, writes) ∧
          (machine.cutStep platform act).workEnv =
            (machine.cutStep platform act).disk.env ∧
          ((writes.any Write.isEnv = false ∧
              (machine.cutStep platform act).disk.env = machine.disk.env) ∨
            (writes.any Write.isEnv = true ∧
              McoreWrite machine.disk.env command
                (machine.cutStep platform act).disk.env)) := by
  cases act with
  | whole act =>
      rcases step_cases platform live act with
        ⟨silent, turn⟩ | ⟨issued, rfl, inLinux, -, equal⟩ |
          ⟨boot, rfl, inLinux, -, equal⟩
      · refine .inl ⟨?_, turn.bootMoves⟩
        cases act with
        | ab command ctx =>
            cases phase : machine.phase with
            | linux boot =>
                simp only [issued, phase] at silent
                cases silent
            | spl pc spl => simp only [performed, phase]
            | proper counted ram => simp only [performed, phase]
        | _ => rfl
      · refine .inr (.inr
          ⟨issued.command, (machine.session platform issued).writes, ?_⟩)
        rw [cutStep, equal, workEnv_afterCommand]
        have replayed :
            (machine.session platform issued).store =
              Script.replay machine.disk
                (machine.session platform issued).writes :=
          issued.command.replays platform issued.ctx issued.boot machine.disk
        refine ⟨?_, rfl, ?_⟩
        · simp only [performed, inLinux]
          rfl
        · rw [afterCommand, replayed]
          exact env_replay_command platform issued.boot issued.command
            issued.ctx fun _ member => member
      · refine .inr (.inl ⟨rfl, ?_, ?_⟩)
        · rw [cutStep, equal, workEnv_rearmed inLinux]
          rfl
        · rw [cutStep, equal]
          rfl
  | cut command ctx taken =>
      rcases machine with ⟨disk, ⟨pc, spl⟩ | ⟨counted, ram⟩ | boot⟩
      · exact .inl ⟨rfl, .kept⟩
      · exact .inl ⟨rfl, .kept⟩
      · refine .inr (.inr ⟨command, _, rfl, rfl, ?_⟩)
        exact env_replay_command platform boot command ctx
          fun _ member => List.mem_of_mem_take member
  | corrupt files => exact .inl ⟨rfl, .kept⟩

/-- The ticket is neither lost in a save nor armed anew. -/
structure Undisturbed (machine : Machine) (act : CutAct) : Prop where
  saved : act.losesSave = false
  alone : machine.armsMcore platform act = none

instance (machine : Machine) (act : CutAct) :
    Decidable (Undisturbed platform machine act) :=
  decidable_of_iff
    (act.losesSave = false ∧ machine.armsMcore platform act = none)
    ⟨fun both => ⟨both.1, both.2⟩, fun quiet => ⟨quiet.saved, quiet.alone⟩⟩

/-- The tickets of both copies of the environment meet the property. -/
structure Tickets (property : Option Slot → Prop) (machine : Machine) :
    Prop where
  live : machine.Live
  work : property machine.workEnv.mcoreTicket
  stored : property machine.disk.env.mcoreTicket

/-- Between two armings a ticket can only be taken. -/
theorem Tickets.step {property : Option Slot → Prop}
    (ofNone : property none) (tickets : machine.Tickets property)
    {act : CutAct} (alone : machine.armsMcore platform act = none) :
    (machine.cutStep platform act).Tickets property := by
  have live := cutStep_live platform tickets.live act
  rcases cutStep_cases platform tickets.live act with
    ⟨-, moves⟩ | ⟨-, work, stored⟩ |
      ⟨command, writes, performs, work, stored⟩
  · have closed : ∀ change env, property (Env.mcoreTicket env) →
        property (Change.apply change env).mcoreTicket := by
      intro change env holds
      rcases env.mcoreTicket_change change with kept | taken
      · rwa [kept]
      · rwa [taken]
    obtain ⟨ofWork, ofStored⟩ :=
      moves.keeps closed tickets.work tickets.stored
    exact ⟨live, ofWork, ofStored⟩
  · have kept :
        (machine.cutStep platform act).disk.env.mcoreTicket =
          machine.disk.env.mcoreTicket := by
      rw [stored, Env.mcoreTicket, Env.get_set_of_ne _ _ (by decide),
        Env.mcoreTicket]
    have holds := tickets.stored
    rw [← kept] at holds
    exact ⟨live, by rwa [work], holds⟩
  · have holds :
        property (machine.cutStep platform act).disk.env.mcoreTicket := by
      rcases stored with ⟨-, kept⟩ | ⟨wrote, write⟩
      · rw [kept]
        exact tickets.stored
      · cases armsTry : command.armsMcore with
        | false =>
            rw [Env.mcoreTicket, write.get_mcoreTry armsTry]
            exact tickets.stored
        | true =>
            rw [armsMcore, performs] at alone
            simp only [armsTry, wrote, and_self, if_true] at alone
            rw [alone]
            exact ofNone
    exact ⟨live, by rwa [work], holds⟩

/-- Both copies name the same confirmed slot, or none. -/
structure McoreSound (machine : Machine) : Prop where
  live : machine.Live
  names : machine.disk.env.NamesMcore
  agree : machine.workEnv.get .mcoreSlot = machine.disk.env.get .mcoreSlot

theorem McoreSound.step (sound : machine.McoreSound) (act : CutAct) :
    (machine.cutStep platform act).McoreSound := by
  have live := cutStep_live platform sound.live act
  rcases cutStep_cases platform sound.live act with
    ⟨-, moves⟩ | ⟨-, work, stored⟩ |
      ⟨command, writes, performs, work, stored⟩
  · have closed : ∀ change env,
        Env.get env .mcoreSlot = machine.disk.env.get .mcoreSlot →
          (Change.apply change env).get .mcoreSlot =
            machine.disk.env.get .mcoreSlot := by
      intro change env agree
      rw [change.get_mcoreSlot, agree]
    obtain ⟨ofWork, ofStored⟩ := moves.keeps closed sound.agree rfl
    exact ⟨live, sound.names.congr ofStored, ofWork.trans ofStored.symm⟩
  · have kept :
        (machine.cutStep platform act).disk.env.get .mcoreSlot =
          machine.disk.env.get .mcoreSlot := by
      rw [stored, Env.get_set_of_ne _ _ (by decide)]
    exact ⟨live, sound.names.congr kept, by rw [work]⟩
  · have names : (machine.cutStep platform act).disk.env.NamesMcore := by
      rcases stored with ⟨-, kept⟩ | ⟨-, write⟩
      · rw [kept]
        exact sound.names
      · generalize (machine.cutStep platform act).disk.env = written at write
        cases write with
        | ofLinux _ slot fallback trial =>
            exact sound.names.congr
              (Env.get_setTrial_of_ne _ slot fallback trial (by decide)
                (by decide) (by decide) (by decide))
        | arms _ tried =>
            exact sound.names.congr (Env.get_set_of_ne _ _ (by decide))
        | confirms healthy tried =>
            exact Env.namesMcore_set machine.disk.env tried
    exact ⟨live, names, by rw [work]⟩

theorem shipped_mcoreSound (disk : Disk) (chosen : Chosen) :
    (shipped disk chosen).McoreSound :=
  ⟨trivial, rfl, rfl⟩

/-! ## The call that stages -/

/-- The call that stages, with the SPL it runs in. -/
theorem exists_of_stages {act : CutAct} (stages : machine.stages act = true) :
    ∃ save falcon spl,
      act = .whole (.mcoreStage save) ∧
        machine.phase = .spl (.loaded falcon) spl ∧
          spl.mcoreDone = false := by
  obtain ⟨disk, phase⟩ := machine
  rcases act with act | ⟨command, ctx, taken⟩ | files
  · cases act with
    | mcoreStage save =>
        rcases phase with ⟨_ | _ | _ | falcon, spl⟩ | ⟨counted, ram⟩ | boot
        case spl.loaded =>
          refine ⟨save, falcon, spl, rfl, rfl, ?_⟩
          simpa [Machine.stages] using stages
        all_goals cases stages
    | _ => cases stages
  · cases stages
  · cases stages

/-- What the first call stages: the ticket's file, or else the confirmed one. -/
theorem staged_of_stages (sound : machine.McoreSound) {act : CutAct}
    (stages : machine.stages act = true) :
    (machine.cutStep platform act).staged =
      (machine.workEnv.mcoreTicket <|>
        machine.disk.env.mcoreConfirmed).bind (machine.payload platform) := by
  obtain ⟨save, falcon, spl, rfl, runs, first⟩ := exists_of_stages stages
  have live : spl.Live := by
    have live := sound.live
    rwa [Live, runs] at live
  have work : machine.workEnv = spl.env machine.disk.env := by
    rw [workEnv, runs]
  have confirmed :
      slotLetter (machine.workEnv.get .mcoreSlot) =
        machine.disk.env.mcoreConfirmed := by
    rw [sound.agree, sound.names.slotLetter]
  rw [cutStep, step_stages platform runs live first save, ← work]
  simp only [staged, Spl.afterStage, Spl.found, confirmed,
    ← Env.mcoreTicket.eq_1]
  cases machine.workEnv.mcoreTicket <|> machine.disk.env.mcoreConfirmed with
  | none => rfl
  | some slot =>
      simp only [Option.bind_some, payload, Option.map_map]
      rfl

/-- A saved call that takes a ticket leaves none behind. -/
theorem spent_of_takes (live : machine.Live) {act : CutAct}
    (takes : machine.takesMcoreTry act = true)
    (saved : act.losesSave = false) :
    (machine.cutStep platform act).Tickets (· = none) := by
  simp only [takesMcoreTry, Bool.and_eq_true] at takes
  obtain ⟨save, falcon, spl, rfl, runs, first⟩ := exists_of_stages takes.1
  refine ⟨cutStep_live platform live _, ?_, ?_⟩
  · have splLive : spl.Live := by rwa [Live, runs] at live
    rw [cutStep, step_stages platform runs splLive first save]
    exact Env.mcoreTicket_untried _
  · have splLive : spl.Live := by rwa [Live, runs] at live
    have ticket : slotLetter ((spl.env machine.disk.env).get .mcoreTry) ≠
        none := by
      have present := takes.2
      rw [workEnv, runs] at present
      exact Option.isSome_iff_ne_none.mp present
    cases save with
    | failed => cases saved
    | stored =>
        rw [cutStep, step_stages platform runs splLive first, if_neg ticket]
        exact Env.mcoreTicket_untried _

theorem not_takes_of_spent (spent : machine.Tickets (· = none))
    (act : CutAct) : machine.takesMcoreTry act = false := by
  rw [takesMcoreTry, spent.work, Option.isSome_none, Bool.and_false]

/-- Outside its first call the SPL leaves what it has staged alone. -/
theorem staged_kept (live : machine.Live) {act : CutAct}
    (notStaging : machine.stages act = false)
    (inSpl : act ≠ .whole .reset ∧ act ≠ .whole .leaveSpl) :
    (machine.cutStep platform act).staged = machine.staged := by
  cases act with
  | cut command ctx taken =>
      rcases machine with ⟨disk, ⟨pc, spl⟩ | ⟨counted, ram⟩ | boot⟩ <;> rfl
  | corrupt files => rfl
  | whole act =>
      rw [cutStep]
      rcases step_cases platform live act with
        ⟨-, turn⟩ | ⟨issued, rfl, inLinux, -, equal⟩ |
          ⟨boot, rfl, inLinux, -, equal⟩
      · generalize machine.step platform act = next at turn
        cases turn with
        | idle => rfl
        | reset => exact absurd rfl inSpl.1
        | asksAgain save runs decided => simp only [staged, runs]
        | picks save runs undecided => simp only [staged, runs, Spl.afterPick]
        | disarms save runs => simp only [staged, runs, Spl.afterDisarm]
        | loadsOs found runs => simp only [staged, runs]
        | loadsUboot runs => simp only [staged, runs]
        | stages save runs first =>
            simp only [stages, runs, first] at notStaging
            cases notStaging
        | entersKernel runs done => exact absurd rfl inSpl.2
        | entersProper runs done => exact absurd rfl inSpl.2
        | counts save runs => simp only [staged, runs]
        | boots save runs allowed => simp only [staged, runs]
        | bootsAlternative save runs exceeded => simp only [staged, runs]
      · rw [equal, afterCommand, phaseAfter, staged, staged, inLinux]
        split_ifs <;> rfl
      · rw [equal, rearmed, staged, staged, inLinux]

/-! ## One trial -/

/--
At most one boot stages the tried slot because of `mcore_try`, and every later
one stages the file of `mcore_slot`, or nothing.
-/
structure OneShot (platform : Platform) (tried : Slot) (start : Machine)
    (acts : List CutAct) : Prop where
  once : Trace.count (cutStep platform) takesMcoreTry start acts ≤ 1
  trial :
    Trace.Along (cutStep platform)
      (fun machine act => machine.takesMcoreTry act = true →
        (machine.cutStep platform act).staged =
          machine.payload platform tried)
      start acts
  later : ∀ front act back, acts = front ++ act :: back →
    0 < Trace.count (cutStep platform) takesMcoreTry start front →
      (Trace.run (cutStep platform) start front).stages act = true →
        (Trace.run (cutStep platform) start (front ++ [act])).staged =
          (Trace.run (cutStep platform) start
              front).disk.env.mcoreConfirmed.bind
            ((Trace.run (cutStep platform) start front).payload platform)
  kept :
    Trace.Along (cutStep platform)
      (fun machine act => machine.stages act = false →
        act ≠ .whole .reset ∧ act ≠ .whole .leaveSpl →
          (machine.cutStep platform act).staged = machine.staged)
      start acts

/-- The step that arms a trial leaves its ticket in both copies. -/
theorem tickets_of_arms (live : machine.Live) {act : CutAct} {tried : Slot}
    (arms : machine.armsMcore platform act = some tried) :
    (machine.cutStep platform act).Tickets
      fun ticket => ticket = none ∨ ticket = some tried := by
  have liveNext := cutStep_live platform live act
  rcases cutStep_cases platform live act with
    ⟨silent, -⟩ | ⟨silent, -, -⟩ | ⟨command, writes, performs, work, -⟩
  · rw [armsMcore, silent] at arms
    cases arms
  · rw [armsMcore, silent] at arms
    cases arms
  · rw [armsMcore, performs] at arms
    simp only at arms
    split_ifs at arms
    refine ⟨liveNext, ?_, .inr arms⟩
    rw [work]
    exact .inr arms

/-- With the ticket spent the confirmed slot is staged, or nothing. -/
theorem staged_of_spent (sound : machine.McoreSound)
    (spent : machine.Tickets (· = none)) {act : CutAct}
    (stages : machine.stages act = true) :
    (machine.cutStep platform act).staged =
      machine.disk.env.mcoreConfirmed.bind (machine.payload platform) := by
  rw [staged_of_stages platform sound stages, spent.work]
  rfl

/-- What holds while `tried` is on trial: no other slot has a ticket. -/
structure OnMcoreTrial (tried : Slot) (machine : Machine) : Prop where
  sound : machine.McoreSound
  tickets : machine.Tickets fun ticket => ticket = none ∨ ticket = some tried

section Trial

variable
    {tried : Slot}

theorem OnMcoreTrial.step (trial : machine.OnMcoreTrial tried) {act : CutAct}
    (quiet : Undisturbed platform machine act) :
    (machine.cutStep platform act).OnMcoreTrial tried :=
  ⟨trial.sound.step platform act,
    trial.tickets.step platform (.inl rfl) quiet.alone⟩

/-- The call that takes the trial's ticket stages the tried slot. -/
theorem OnMcoreTrial.staged (trial : machine.OnMcoreTrial tried) {act : CutAct}
    (takes : machine.takesMcoreTry act = true) :
    (machine.cutStep platform act).staged = machine.payload platform tried := by
  simp only [takesMcoreTry, Bool.and_eq_true] at takes
  rw [staged_of_stages platform trial.sound takes.1]
  rcases trial.tickets.work with spent | own
  · rw [spent] at takes
    cases takes.2
  · rw [own]
    rfl

/-- One call of the run takes the ticket, and none is left from there on. -/
theorem OnMcoreTrial.count_takesMcoreTry {start : Machine} {acts : List CutAct}
    (trial : start.OnMcoreTrial tried)
    (undisturbed :
      Trace.Along (cutStep platform) (Undisturbed platform) start acts) :
    Trace.count (cutStep platform) takesMcoreTry start acts ≤ 1 ∧
      (0 < Trace.count (cutStep platform) takesMcoreTry start acts →
        (Trace.run (cutStep platform) start acts).Tickets (· = none)) := by
  have keeps : ∀ machine act, OnMcoreTrial tried machine →
      Undisturbed platform machine act →
        (machine.cutStep platform act).OnMcoreTrial tried :=
    fun _ _ trial quiet => trial.step platform quiet
  apply Trace.count_le_one_of_spent _ _ _ keeps trial undisturbed
  · intro machine act spent quiet
    exact @Tickets.step platform _ (· = none) rfl spent _ quiet.alone
  · intro machine act trial quiet takes
    exact spent_of_takes platform trial.sound.live takes quiet.saved
  · intro machine act spent
    exact not_takes_of_spent spent act

/-- A trial that nothing disturbs is one-shot. -/
theorem OnMcoreTrial.oneShot {start : Machine} {acts : List CutAct}
    (trial : start.OnMcoreTrial tried)
    (undisturbed :
      Trace.Along (cutStep platform) (Undisturbed platform) start acts) :
    OneShot platform tried start acts := by
  have keeps : ∀ machine act, OnMcoreTrial tried machine →
      Undisturbed platform machine act →
        (machine.cutStep platform act).OnMcoreTrial tried :=
    fun _ _ trial quiet => trial.step platform quiet
  constructor
  case once => exact (trial.count_takesMcoreTry platform undisturbed).1
  case trial =>
    apply Trace.along_of_invariant keeps _ trial undisturbed
    intro machine act trial _ takes
    exact trial.staged platform takes
  case later =>
    rintro front act back rfl used staging
    rw [Trace.along_append] at undisturbed
    have spent := (trial.count_takesMcoreTry platform undisturbed.1).2 used
    have still : (Trace.run (cutStep platform) start front).McoreSound :=
      Trace.run_of_step (fun _ act held => held.step platform act) trial.sound
        front
    rw [Trace.run_append, Trace.run_cons, Trace.run_nil]
    exact staged_of_spent platform still spent staging
  case kept =>
    apply Trace.along_of_invariant keeps _ trial undisturbed
    intro machine act trial _ notStaging inSpl
    exact staged_kept platform trial.sound.live notStaging inSpl

end Trial

/--
From the shipped state, with resets and power cuts anywhere and whatever
happens to the files on p3, a trial of an M-core firmware is one-shot until the
next one is armed.
-/
theorem mcoreTrial_oneShot (platform : Platform) (disk : Disk)
    (chosen : Chosen) (before : List CutAct) (arm : CutAct)
    (acts : List CutAct) {tried : Slot}
    (arms :
      (Trace.run (cutStep platform) (shipped disk chosen) before).armsMcore
        platform arm = some tried)
    (undisturbed : Trace.Along (cutStep platform) (Undisturbed platform)
      (Trace.run (cutStep platform) (shipped disk chosen) (before ++ [arm]))
      acts) :
    OneShot platform tried
      (Trace.run (cutStep platform) (shipped disk chosen) (before ++ [arm]))
      acts := by
  have reached :
      (Trace.run (cutStep platform) (shipped disk chosen)
        before).McoreSound :=
    Trace.run_of_step (fun _ act sound => sound.step platform act)
      (shipped_mcoreSound disk chosen) before
  rw [Trace.run_append] at undisturbed ⊢
  generalize Trace.run (cutStep platform) (shipped disk chosen) before =
    armed at arms reached undisturbed ⊢
  have trial : (armed.cutStep platform arm).OnMcoreTrial tried :=
    ⟨reached.step platform arm, tickets_of_arms platform reached.live arms⟩
  exact trial.oneShot platform undisturbed

/-- A trial whose command is cut after its last write, and two boots. -/
def mcoreTrialRun : List CutAct :=
  let boot := (BootSaves.mk .stored .stored .stored).acts true
  (boot ++ boot).map .whole

/-- The two writes of the command are made; the first boot uses the trial. -/
theorem mcoreTrialRun_oneShot :
    Trace.count (cutStep Bench.platform) takesMcoreTry
        (Trace.run (cutStep Bench.platform) (shipped Bench.disk Chosen.proper)
          [.cut (.mcoreUpdate (some (Bench.firmware 1)) true) Bench.ctx 2])
        mcoreTrialRun = 1 ∧
      OneShot Bench.platform .a
        (Trace.run (cutStep Bench.platform) (shipped Bench.disk Chosen.proper)
          [.cut (.mcoreUpdate (some (Bench.firmware 1)) true) Bench.ctx 2])
        mcoreTrialRun :=
  ⟨by decide +kernel,
    mcoreTrial_oneShot Bench.platform Bench.disk Chosen.proper []
      (.cut (.mcoreUpdate (some (Bench.firmware 1)) true) Bench.ctx 2)
      mcoreTrialRun (by decide +kernel) (by decide +kernel)⟩

end Machine

end KmmYocto
