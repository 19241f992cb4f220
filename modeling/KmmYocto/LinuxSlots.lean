import KmmYocto.CommandEffects
import KmmYocto.BootEffects

/-!
# The state of the Linux A/B set

What the environment says about the Linux slots is one of a few states: a
confirmed slot, or a trial of one slot with the other one to return to.  A
`SlotState` carries that the two slots of a trial differ, so a trial with
nowhere to return to cannot be built.  `Env.Holds` connects the state to the
strings of the environment, and every change that the boot chain makes to the
environment either keeps the state or ends its trial.
-/

namespace KmmYocto

/-- Which slot boots, and which one a failed trial returns to. -/
structure SlotState where
  slot : Slot
  fallback : Slot
  trial : Bool
  distinct : trial = true → slot ≠ fallback

namespace SlotState

/-- The slot the device keeps if nothing is committed. -/
def confirmed (state : SlotState) : Slot :=
  if state.trial then state.fallback else state.slot

/-- The trial is over and has failed. -/
def settle (state : SlotState) : SlotState where
  slot := state.confirmed
  fallback := state.fallback
  trial := false
  distinct := nofun

/-- A trial of `target` that returns to `running`. -/
def arm (target running : Slot) (distinct : target ≠ running) :
    SlotState where
  slot := target
  fallback := running
  trial := true
  distinct := fun _ => distinct

/-- The running slot is confirmed. -/
def commit (running : Slot) : SlotState where
  slot := running
  fallback := running
  trial := false
  distinct := nofun

@[simp]
theorem slot_settle (state : SlotState) :
    state.settle.slot = state.confirmed :=
  rfl

@[simp]
theorem fallback_settle (state : SlotState) :
    state.settle.fallback = state.fallback :=
  rfl

@[simp]
theorem trial_settle (state : SlotState) : state.settle.trial = false :=
  rfl

/-- During a trial the slot to return to is the confirmed one. -/
theorem confirmed_of_trial {state : SlotState}
    (trial : state.trial = true) :
    state.confirmed = state.fallback :=
  if_pos trial

theorem confirmed_of_not_trial {state : SlotState}
    (settled : state.trial = false) :
    state.confirmed = state.slot := by
  simp [confirmed, settled]

end SlotState

namespace Env

/-- The environment spells out the state. -/
structure Holds (env : Env) (state : SlotState) : Prop where
  slot : env.get .abSlot = some state.slot.name
  fallback : env.get .abFallbackSlot = some state.fallback.name
  trial : env.get .upgradeAvailable =
    some (if state.trial then "1" else "0")

/-- The confirmed slot, as a script would read it. -/
def confirmedSlot (env : Env) : String :=
  if env.envget .upgradeAvailable = "1" then env.envget .abFallbackSlot
  else env.envget .abSlot

@[simp]
theorem slotChar_name (slot : Slot) : slotChar (some slot.name) = slot := by
  cases slot <;> decide

@[simp]
theorem slotLetter_name (slot : Slot) :
    slotLetter (some slot.name) = some slot := by
  cases slot <;> decide

namespace Holds

variable
    {env : Env} {state : SlotState}

theorem envget_abSlot (holds : env.Holds state) :
    env.envget .abSlot = state.slot.name := by
  rw [envget, holds.slot, Option.getD_some]

theorem envget_abFallbackSlot (holds : env.Holds state) :
    env.envget .abFallbackSlot = state.fallback.name := by
  rw [envget, holds.fallback, Option.getD_some]

theorem envget_upgradeAvailable (holds : env.Holds state) :
    env.envget .upgradeAvailable = "1" ↔ state.trial = true := by
  rw [envget, holds.trial, Option.getD_some]
  cases state.trial <;> decide

/-- The SPL reads the flag of the trial as it is meant. -/
theorem inTrial (holds : env.Holds state) :
    env.InTrial ↔ state.trial = true := by
  rw [InTrial, getYesno, holds.trial]
  cases state.trial <;> decide

/-- U-Boot proper reads it the same way. -/
theorem upgrading (holds : env.Holds state) :
    env.Upgrading ↔ state.trial = true := by
  rw [Upgrading, getUlong, holds.trial]
  cases state.trial <;> decide

theorem fallbackName_eq (holds : env.Holds state) :
    env.fallbackName = state.fallback.name := by
  rw [fallbackName, holds.fallback, slotLetter_name]
  rfl

theorem slotChar_eq (holds : env.Holds state) :
    slotChar (env.get .abSlot) = state.slot := by
  rw [holds.slot, slotChar_name]

theorem abBoot_eq (holds : env.Holds state) :
    env.abBoot = state.slot := by
  rw [abBoot, holds.envget_abSlot]
  cases state.slot <;> decide

theorem confirmedSlot_eq (holds : env.Holds state) :
    env.confirmedSlot = state.confirmed.name := by
  rw [confirmedSlot]
  split_ifs with trial
  · rw [SlotState.confirmed_of_trial (holds.envget_upgradeAvailable.mp trial),
      holds.envget_abFallbackSlot]
  · have settled : state.trial = false :=
      Bool.eq_false_iff.mpr (mt holds.envget_upgradeAvailable.mpr trial)
    rw [SlotState.confirmed_of_not_trial settled, holds.envget_abSlot]

/-- Two environments that agree on the three variables hold the same state. -/
theorem of_agree {other : Env} (holds : env.Holds state)
    (slot : other.get .abSlot = env.get .abSlot)
    (fallback : other.get .abFallbackSlot = env.get .abFallbackSlot)
    (trial : other.get .upgradeAvailable = env.get .upgradeAvailable) :
    other.Holds state where
  slot := slot.trans holds.slot
  fallback := fallback.trans holds.fallback
  trial := trial.trans holds.trial

theorem fallBack (holds : env.Holds state) (trial : state.trial = true) :
    env.fallBack.Holds state.settle where
  slot := by
    rw [get_abSlot_fallBack, holds.fallbackName_eq, SlotState.slot_settle,
      SlotState.confirmed_of_trial trial]
  fallback := by
    rw [get_fallBack_of_ne env (by decide) (by decide) (by decide)]
    exact holds.fallback
  trial := by
    simp [Env.fallBack]

/-- Picking a partition keeps the state or ends the trial. -/
theorem picked (holds : env.Holds state) :
    env.picked.Holds state ∨ env.picked.Holds state.settle := by
  rw [Env.picked]
  split_ifs with trial exhausted
  · exact .inr (holds.fallBack (holds.inTrial.mp trial))
  · exact .inl
      (holds.of_agree (get_countTry_of_ne env (by decide))
        (get_countTry_of_ne env (by decide))
        (get_countTry_of_ne env (by decide)))
  · exact .inl holds

theorem disarmed (holds : env.Holds state) : env.disarmed.Holds state :=
  holds.of_agree (get_disarmed_of_ne env (by decide))
    (get_disarmed_of_ne env (by decide))
    (get_disarmed_of_ne env (by decide))

theorem untried (holds : env.Holds state) : env.untried.Holds state :=
  holds.of_agree (get_untried_of_ne env (by decide))
    (get_untried_of_ne env (by decide))
    (get_untried_of_ne env (by decide))

theorem bootcountInc (holds : env.Holds state) :
    env.bootcountInc.Holds state :=
  holds.of_agree (get_bootcountInc_of_ne env (by decide))
    (get_bootcountInc_of_ne env (by decide))
    (get_bootcountInc_of_ne env (by decide))

theorem altbootcmd (holds : env.Holds state) (trial : state.trial = true) :
    env.altbootcmd.Holds state.settle where
  slot := by
    simp [Env.altbootcmd, holds.envget_abFallbackSlot,
      SlotState.confirmed_of_trial trial]
  fallback := by
    simpa [Env.altbootcmd] using holds.fallback
  trial := by
    simp [Env.altbootcmd]

/-- The state a command writes. -/
theorem setTrial (env : Env) (slot fallback : Slot) (trial : Bool)
    (distinct : trial = true → slot ≠ fallback) :
    (env.setTrial slot.name fallback.name (if trial then "1" else "0")).Holds
      ⟨slot, fallback, trial, distinct⟩ where
  slot := by simp [Env.setTrial]
  fallback := by simp [Env.setTrial]
  trial := by cases trial <;> simp [Env.setTrial]

end Holds

/-- The environment holds a state whose confirmed slot is `confirmed`. -/
def Confirms (env : Env) (confirmed : Slot) : Prop :=
  ∃ state : SlotState, env.Holds state ∧ state.confirmed = confirmed

/-- With a limit exceeded, U-Boot proper is in a trial. -/
theorem BootcountError.upgrading {env : Env} (exceeded : env.BootcountError) :
    env.Upgrading := by
  by_contra notUpgrading
  have count : env.bootcountLoad = 0 := if_neg notUpgrading
  have exceeds := exceeded.2
  omega

/-- No change of the boot chain moves the confirmed slot. -/
theorem Confirms.change {env : Env} {confirmed : Slot} (change : Change)
    (confirms : env.Confirms confirmed) :
    (change.apply env).Confirms confirmed := by
  obtain ⟨state, holds, rfl⟩ := confirms
  cases change with
  | pick =>
      rcases holds.picked with kept | settled
      · exact ⟨state, kept, rfl⟩
      · exact ⟨state.settle, settled, rfl⟩
  | disarm => exact ⟨state, holds.disarmed, rfl⟩
  | untry => exact ⟨state, holds.untried, rfl⟩
  | count => exact ⟨state, holds.bootcountInc, rfl⟩
  | alt =>
      simp only [Change.apply]
      split_ifs with exceeded
      · exact
          ⟨state.settle,
            holds.altbootcmd (holds.upgrading.mp exceeded.upgrading), rfl⟩
      · exact ⟨state, holds, rfl⟩

/-- Setting a variable outside the three keeps the confirmed slot. -/
theorem Confirms.set {env : Env} {confirmed : Slot}
    (confirms : env.Confirms confirmed) {name : EnvVar} (value : String)
    (notSlot : EnvVar.abSlot ≠ name) (notFallback : .abFallbackSlot ≠ name)
    (notTrial : .upgradeAvailable ≠ name) :
    (env.set name value).Confirms confirmed := by
  obtain ⟨state, holds, rfl⟩ := confirms
  exact
    ⟨state,
      holds.of_agree (get_set_of_ne env value notSlot)
        (get_set_of_ne env value notFallback)
        (get_set_of_ne env value notTrial),
      rfl⟩

theorem Confirms.confirmedSlot_eq {env : Env} {confirmed : Slot}
    (confirms : env.Confirms confirmed) :
    env.confirmedSlot = confirmed.name := by
  obtain ⟨state, holds, rfl⟩ := confirms
  exact holds.confirmedSlot_eq

/-- During a trial the fallback is the confirmed slot and not the tried one. -/
theorem Confirms.trial {env : Env} {confirmed : Slot}
    (confirms : env.Confirms confirmed)
    (trial : env.envget .upgradeAvailable = "1") :
    env.envget .abFallbackSlot ≠ env.envget .abSlot ∧
      env.envget .abFallbackSlot = confirmed.name := by
  obtain ⟨state, holds, rfl⟩ := confirms
  have inTrial := holds.envget_upgradeAvailable.mp trial
  rw [holds.envget_abFallbackSlot, holds.envget_abSlot,
    SlotState.confirmed_of_trial inTrial]
  refine ⟨?_, rfl⟩
  rw [ne_eq, Slot.name_inj]
  exact (state.distinct inTrial).symm

end Env

/-! ## The commands on the state -/

/-- Arming a trial of another slot confirms the running one. -/
theorem Env.confirms_arm (env : Env) {target running : Slot}
    (distinct : target ≠ running) :
    (env.setTrial target.name running.name "1").Confirms running :=
  ⟨SlotState.arm target running distinct,
    Holds.setTrial env target running true fun _ => distinct, rfl⟩

/-- A commit confirms the running slot. -/
theorem Env.confirms_commit (env : Env) (running : Slot) :
    (env.setTrial running.name running.name "0").Confirms running :=
  ⟨SlotState.commit running,
    Holds.setTrial env running running false nofun, rfl⟩

/-- A rollback during a trial confirms what was confirmed before. -/
theorem Env.Confirms.rollback {env : Env} {confirmed : Slot}
    (confirms : env.Confirms confirmed)
    (trial : env.envget .upgradeAvailable = "1") :
    (env.setTrial (env.envget .abFallbackSlot)
      (env.envget .abFallbackSlot) "0").Confirms confirmed := by
  rw [(confirms.trial trial).2]
  exact env.confirms_commit confirmed

/-- Outside a trial `ab_slot` is the confirmed slot. -/
theorem Env.Confirms.settled {env : Env} {confirmed : Slot}
    (confirms : env.Confirms confirmed)
    (settled : env.envget .upgradeAvailable ≠ "1") :
    env.envget .abSlot = confirmed.name := by
  have read := confirms.confirmedSlot_eq
  rwa [Env.confirmedSlot, if_neg settled] at read

end KmmYocto
