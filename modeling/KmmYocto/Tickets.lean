import KmmYocto.FalconTicket

/-!
# The three tickets of one boot

One run of the SPL can use three tickets: `boot_os` for a boot by falcon, a
try of a pending upgrade, and `mcore_try`.  Each is taken out of the RAM copy
and the whole copy is saved, so a failed save is repaired by a later save of
the same run and by nothing else: no failure stops the use of a ticket.
-/

namespace KmmYocto

/-- Outcomes of the three `env_save` calls one SPL run can make. -/
structure BootSaves where
  pick : Save
  disarm : Save
  stage : Save

/-- One SPL run up to the jump; `found` says whether falcon.itb is there. -/
def BootSaves.acts (saves : BootSaves) (found : Bool) : List Act :=
  [.reset, .fsBootPartition saves.pick, .startUboot saves.disarm,
    .loadOs found, .loadUboot, .mcoreStage saves.stage]

namespace Env

/-- The M-core slot to be tried. -/
def mcoreTicket (env : Env) : Option Slot :=
  slotLetter (env.get .mcoreTry)

/-- The boot is a counted try of a pending upgrade. -/
def CountedTry (env : Env) : Prop :=
  env.InTrial ∧ ¬ env.Exhausted

instance (env : Env) : Decidable env.CountedTry :=
  inferInstanceAs (Decidable (_ ∧ _))

/-- The working copy at the end of an SPL run. -/
def afterSpl (env : Env) : Env :=
  env.picked.disarmed.untried

@[simp]
theorem armed_picked (env : Env) : env.picked.Armed ↔ env.Armed :=
  armed_congr (get_picked_of_ne env (by decide) (by decide) (by decide))

@[simp]
theorem mcoreTicket_disarmed_picked (env : Env) :
    env.picked.disarmed.mcoreTicket = env.mcoreTicket := by
  rw [mcoreTicket, get_disarmed_of_ne _ (by decide),
    get_picked_of_ne env (by decide) (by decide) (by decide), mcoreTicket]

/-- The stored block at the end of an SPL run. -/
def storedAfterSpl (env : Env) (saves : BootSaves) : Env :=
  let first :=
    if env.InTrial then envSave saves.pick env.picked env else env
  let second :=
    if env.Armed then envSave saves.disarm env.picked.disarmed first
    else first
  if env.mcoreTicket = none then second
  else envSave saves.stage env.afterSpl second

end Env

namespace Machine

variable
    (platform : Platform)

/-- The SPL's memory at the end of its run. -/
def splAtJump (machine : Machine) : Spl :=
  ((Spl.start.afterPick machine.disk.env).afterDisarm
    machine.disk.env.picked).afterStage (machine.board platform)
      machine.disk.env.picked.disarmed

/-- The loaders do not touch the environment. -/
theorem run_loads {machine : Machine} {spl : Spl} {falcon : Bool}
    (runs : machine.phase = .spl (.decided falcon) spl) (found : Bool) :
    (machine.step platform (.loadOs found)).step platform .loadUboot =
      { machine with phase := .spl (.loaded (falcon && found)) spl } := by
  obtain ⟨disk, phase⟩ := machine
  obtain rfl : phase = .spl (.decided falcon) spl := runs
  cases falcon <;> cases found <;> rfl

/-- An SPL run up to the jump, for any environment and any saves. -/
theorem after_bootSaves (machine : Machine) (saves : BootSaves)
    (found : Bool) :
    machine.after platform (saves.acts found) =
      ⟨machine.store (machine.disk.env.storedAfterSpl saves),
        .spl (.loaded (decide machine.disk.env.Armed && found))
          (machine.splAtJump platform)⟩ := by
  let env := machine.disk.env
  let first := if env.InTrial then envSave saves.pick env.picked env else env
  let second :=
    if env.picked.Armed then envSave saves.disarm env.picked.disarmed first
    else first
  have restarted :
      (machine.step platform .reset).phase = .spl .start Spl.start :=
    rfl
  have picks :
      (machine.step platform .reset).step platform
          (.fsBootPartition saves.pick) =
        ⟨machine.store first,
          .spl (SplPc.start.afterAnswer (Spl.start.afterPick env).abPart)
            (Spl.start.afterPick env)⟩ :=
    step_picks platform restarted Spl.live_start rfl saves.pick
  rw [SplPc.start_afterAnswer (Spl.abPart_afterPick_pos _ _)] at picks
  have disarms :
      (Machine.mk (machine.store first)
          (.spl .picked (Spl.start.afterPick env))).step platform
          (.startUboot saves.disarm) =
        ⟨machine.store second,
          .spl (.decided (decide env.picked.Armed))
            ((Spl.start.afterPick env).afterDisarm env.picked)⟩ :=
    step_disarms platform rfl (Spl.live_afterPick _ _) saves.disarm
  have stages :
      (Machine.mk (machine.store second)
          (.spl (.loaded (decide env.picked.Armed && found))
            ((Spl.start.afterPick env).afterDisarm env.picked))).step
          platform (.mcoreStage saves.stage) =
        ⟨machine.store
            (if env.picked.disarmed.mcoreTicket = none then second
            else envSave saves.stage env.afterSpl second),
          .spl (.loaded (decide env.picked.Armed && found))
            (machine.splAtJump platform)⟩ :=
    step_stages platform rfl (Spl.live_afterDisarm _ _) rfl saves.stage
  simp only [BootSaves.acts, after, Trace.run_cons, Trace.run_nil]
  rw [picks, disarms, run_loads platform rfl, stages]
  simp only [second, first, env, Env.armed_picked,
    Env.mcoreTicket_disarmed_picked, Env.storedAfterSpl]

end Machine

/-! ## Which saves reach the store -/

namespace Env

variable
    {env : Env} {saves : BootSaves}

/-- The copy of the last save that succeeded. -/
theorem storedAfterSpl_eq (env : Env) (saves : BootSaves) :
    env.storedAfterSpl saves =
      if env.mcoreTicket ≠ none ∧ saves.stage = .stored then env.afterSpl
      else if env.Armed ∧ saves.disarm = .stored then env.picked.disarmed
      else if saves.pick = .stored then env.picked
      else env := by
  have first :
      (if env.InTrial then envSave saves.pick env.picked env else env) =
        if saves.pick = .stored then env.picked else env := by
    cases saves.pick with
    | stored =>
        by_cases trial : env.InTrial
        · simp [trial]
        · simp [trial, picked]
    | failed => simp
  simp only [storedAfterSpl, first]
  cases saves.stage <;> cases saves.disarm <;>
    by_cases ticket : env.mcoreTicket = none <;>
      by_cases armed : env.Armed <;> simp [ticket, armed]

/-- A save that follows the dead-man switch reaches the store. -/
def DisarmStored (env : Env) (saves : BootSaves) : Prop :=
  (env.mcoreTicket ≠ none ∧ saves.stage = .stored) ∨
    (env.Armed ∧ saves.disarm = .stored)

/-- A save that follows the counting of the try reaches the store. -/
def CountStored (env : Env) (saves : BootSaves) : Prop :=
  env.DisarmStored saves ∨ saves.pick = .stored

theorem not_armed_afterSpl (env : Env) : ¬ env.afterSpl.Armed := by
  rw [afterSpl, armed_congr (get_untried_of_ne _ (by decide))]
  exact disarmed_getYesno env.picked

/-- A taken ticket shows as used exactly if one of its saves was stored. -/
theorem not_armed_storedAfterSpl (armed : env.Armed) :
    ¬ (env.storedAfterSpl saves).Armed ↔ env.DisarmStored saves := by
  rw [storedAfterSpl_eq, DisarmStored]
  split_ifs with stage disarm pick
  · exact iff_of_true (not_armed_afterSpl env) (.inl stage)
  · exact iff_of_true (disarmed_getYesno env.picked) (.inr disarm)
  · refine iff_of_false ?_ (not_or.mpr ⟨stage, disarm⟩)
    rw [armed_picked]
    exact not_not.mpr armed
  · exact
      iff_of_false (not_not.mpr armed) (not_or.mpr ⟨stage, disarm⟩)

theorem getUlong_congr {left right : Env} {name : EnvVar}
    (agree : left.get name = right.get name) (default : Nat) :
    left.getUlong name default = right.getUlong name default := by
  rw [getUlong, getUlong, agree]

/-- Counting a try writes its number, but never more than nine. -/
theorem bootcount_picked (counted : env.CountedTry) :
    env.picked.getUlong .bootcount 0 = min env.nextTry 9 := by
  rw [picked, if_pos counted.1, if_neg counted.2]
  simp [countTry, getUlong]

/-- The count in the store after a counted try. -/
theorem bootcount_storedAfterSpl (saves : BootSaves)
    (counted : env.CountedTry) :
    (¬ env.CountStored saves ∧
        (env.storedAfterSpl saves).getUlong .bootcount 0 =
          env.getUlong .bootcount 0) ∨
      (env.CountStored saves ∧
        (env.storedAfterSpl saves).getUlong .bootcount 0 =
          min env.nextTry 9) := by
  have disarmed :
      env.picked.disarmed.getUlong .bootcount 0 = min env.nextTry 9 := by
    rw [getUlong_congr (get_disarmed_of_ne _ (by decide)),
      bootcount_picked counted]
  rw [storedAfterSpl_eq, CountStored, DisarmStored]
  split_ifs with stage disarm pick
  · refine .inr ⟨.inl (.inl stage), ?_⟩
    rw [afterSpl, getUlong_congr (get_untried_of_ne _ (by decide)), disarmed]
  · exact .inr ⟨.inl (.inr disarm), disarmed⟩
  · exact .inr ⟨.inr pick, bootcount_picked counted⟩
  · exact
      .inl ⟨not_or.mpr ⟨not_or.mpr ⟨stage, disarm⟩, pick⟩, rfl⟩

/-- The count grows exactly if it is stored and was below nine. -/
theorem bootcount_lt_storedAfterSpl (counted : env.CountedTry) :
    env.getUlong .bootcount 0 <
        (env.storedAfterSpl saves).getUlong .bootcount 0 ↔
      env.getUlong .bootcount 0 < 9 ∧ env.CountStored saves := by
  have next : env.nextTry = (env.getUlong .bootcount 0 + 1) % 2 ^ 64 := rfl
  rcases bootcount_storedAfterSpl saves counted with
    ⟨lost, equal⟩ | ⟨stored, equal⟩
  · rw [equal]
    simp [lost]
  · rw [equal, next]
    simp only [stored, and_true]
    omega

/-- The try of an M-core firmware is gone from the store if its save is. -/
theorem mcoreTry_storedAfterSpl {slot : Slot}
    (ticket : env.mcoreTicket = some slot) :
    (env.storedAfterSpl saves).get .mcoreTry = none ↔
      saves.stage = .stored := by
  have present : env.get .mcoreTry ≠ none := by
    intro missing
    rw [mcoreTicket, missing] at ticket
    cases ticket
  have kept :
      env.picked.disarmed.get .mcoreTry = env.get .mcoreTry := by
    rw [get_disarmed_of_ne _ (by decide),
      get_picked_of_ne env (by decide) (by decide) (by decide)]
  rw [storedAfterSpl_eq]
  split_ifs with stage disarm pick
  · have still : slotLetter (env.picked.disarmed.get .mcoreTry) ≠ none := by
      rw [kept]
      exact stage.1
    have gone : env.afterSpl.get .mcoreTry = none := by
      rw [afterSpl, untried, if_neg still, get_delete_self]
    exact iff_of_true gone stage.2
  all_goals
    have failed : saves.stage ≠ .stored :=
      fun stored => stage ⟨by simp [ticket], stored⟩
    refine iff_of_false ?_ failed
  · rwa [kept]
  · rwa [get_picked_of_ne env (by decide) (by decide) (by decide)]
  · exact present

end Env

/-! ## The tickets of one boot -/

namespace Machine

/-- The SPL has taken the boot for a counted try. -/
def countsTry (machine : Machine) : Bool :=
  match machine.phase with
  | .spl _ spl => spl.abTry
  | _ => false

/-- The SPL has staged the firmware that `mcore_try` names. -/
def stagesTry (machine : Machine) : Bool :=
  match machine.phase with
  | .spl _ spl => spl.mcoreTried.isSome && spl.staged.isSome
  | _ => false

/-- Whatever ticket the run uses, the stored block shows it as used. -/
structure TicketsUsedFirst (platform : Platform) (machine : Machine)
    (saves : BootSaves) (found : Bool) : Prop where
  falcon :
    (machine.after platform (saves.acts found)).handsOff .leaveSpl = true →
      ¬ (machine.after platform (saves.acts found)).disk.env.Armed
  counted :
    (machine.after platform (saves.acts found)).countsTry = true →
      machine.disk.env.getUlong .bootcount 0 <
        (machine.after platform (saves.acts found)).disk.env.getUlong
          .bootcount 0
  staged :
    (machine.after platform (saves.acts found)).stagesTry = true →
      (machine.after platform (saves.acts found)).disk.env.get .mcoreTry =
        none

/-- The saves that the tickets of this boot depend on reach the store. -/
structure SavesSuffice (platform : Platform) (machine : Machine)
    (saves : BootSaves) (found : Bool) : Prop where
  falcon :
    machine.disk.env.Armed → found = true →
      machine.disk.env.DisarmStored saves
  counted :
    machine.disk.env.CountedTry →
      machine.disk.env.getUlong .bootcount 0 < 9 ∧
        machine.disk.env.CountStored saves
  staged :
    ∀ slot, machine.disk.env.mcoreTicket = some slot →
      ((machine.board platform).firmware slot).isSome = true →
        saves.stage = .stored

section AtJump

variable
    (platform : Platform) (machine : Machine) (saves : BootSaves)
    (found : Bool)

theorem handsOff_atJump :
    (machine.after platform (saves.acts found)).handsOff .leaveSpl = true ↔
      machine.disk.env.Armed ∧ found = true := by
  rw [after_bootSaves]
  by_cases armed : machine.disk.env.Armed
  · rw [decide_eq_true armed]
    cases found with
    | true => exact iff_of_true rfl ⟨armed, rfl⟩
    | false => exact iff_of_false nofun nofun
  · rw [decide_eq_false armed]
    exact iff_of_false nofun fun used => armed used.1

theorem countsTry_atJump :
    (machine.after platform (saves.acts found)).countsTry = true ↔
      machine.disk.env.CountedTry := by
  rw [after_bootSaves]
  simp [countsTry, splAtJump, Spl.afterStage, Spl.afterDisarm,
    Spl.afterPick, Spl.start, Env.CountedTry]

theorem stagesTry_atJump :
    (machine.after platform (saves.acts found)).stagesTry = true ↔
      ∃ slot, machine.disk.env.mcoreTicket = some slot ∧
        ((machine.board platform).firmware slot).isSome = true := by
  have ticket := machine.disk.env.mcoreTicket_disarmed_picked
  rw [Env.mcoreTicket] at ticket
  rw [after_bootSaves]
  simp only [stagesTry, splAtJump, Spl.afterStage, Spl.found, ticket]
  cases machine.disk.env.mcoreTicket with
  | none => simp [Spl.afterDisarm, Spl.afterPick, Spl.start]
  | some slot => simp

theorem env_atJump :
    (machine.after platform (saves.acts found)).disk.env =
      machine.disk.env.storedAfterSpl saves := by
  rw [after_bootSaves]
  rfl

end AtJump

/--
For every environment and every outcome of the saves, a boot uses its tickets
only after they are marked as used exactly if the saves it depends on reach
the store, and a counted try starts from a count below nine.
-/
theorem ticketsUsedFirst_iff (platform : Platform) (machine : Machine)
    (saves : BootSaves) (found : Bool) :
    machine.TicketsUsedFirst platform saves found ↔
      machine.SavesSuffice platform saves found := by
  constructor
  · rintro ⟨falcon, counted, staged⟩
    rw [handsOff_atJump, env_atJump] at falcon
    rw [countsTry_atJump, env_atJump] at counted
    rw [stagesTry_atJump, env_atJump] at staged
    refine ⟨?_, ?_, ?_⟩
    · intro armed present
      exact
        (Env.not_armed_storedAfterSpl armed).mp (falcon ⟨armed, present⟩)
    · intro counts
      exact (Env.bootcount_lt_storedAfterSpl counts).mp (counted counts)
    · intro slot ticket valid
      exact
        (Env.mcoreTry_storedAfterSpl ticket).mp
          (staged ⟨slot, ticket, valid⟩)
  · rintro ⟨falcon, counted, staged⟩
    refine ⟨?_, ?_, ?_⟩
    · rw [handsOff_atJump, env_atJump]
      rintro ⟨armed, present⟩
      exact (Env.not_armed_storedAfterSpl armed).mpr (falcon armed present)
    · rw [countsTry_atJump, env_atJump]
      intro counts
      exact (Env.bootcount_lt_storedAfterSpl counts).mpr (counted counts)
    · rw [stagesTry_atJump, env_atJump]
      rintro ⟨slot, ticket, valid⟩
      exact
        (Env.mcoreTry_storedAfterSpl ticket).mpr (staged slot ticket valid)

/-- On a store that refuses the dead-man's save, falcon is used all the same. -/
theorem not_ticketsUsedFirst :
    ¬ ∀ platform machine saves found,
      TicketsUsedFirst platform machine saves found := by
  intro used
  have gone :=
    (used Bench.platform
      (Bench.machine.after Bench.platform [.falconRearm true])
      ⟨.failed, .failed, .failed⟩ true).falcon (by decide +kernel)
  exact absurd gone (by decide +kernel)

end Machine

end KmmYocto
