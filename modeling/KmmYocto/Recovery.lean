import KmmYocto.SlotContents
import KmmYocto.TrialBound

/-!
# The way back to a settled device

Whatever a device has been through, failed saves, interrupted sessions and
power cuts among it, two boots end any trial, and the second one is a boot of
the confirmed slot.  Whether a system comes up there is up to what the slot
holds.  The first boot may end anywhere: in the trial, in a kernel that hangs,
in U-Boot or in the SPL.

What a run can write into the environment is the invariant: slots are named,
the flag of the trial is 0 or 1, and the count is at most the number of steps.
-/

namespace KmmYocto

namespace Env

/-- No trial is pending, and the slot is the one to boot. -/
structure Rests (env : Env) (slot : Slot) : Prop where
  slot : env.get .abSlot = some slot.name
  noTrial : env.get .upgradeAvailable = some "0"
  limit : env.get .bootlimit = some "1"

/-- A trial is pending that returns to the slot, with this count. -/
structure Tries (env : Env) (fallback : Slot) (count : Nat) : Prop where
  named : ∃ slot : Slot, env.get .abSlot = some slot.name
  fallback : env.get .abFallbackSlot = some fallback.name
  trial : env.get .upgradeAvailable = some "1"
  limit : env.get .bootlimit = some "1"
  count : env.getUlong .bootcount 0 = count

/-- What a run of so many steps leaves in the environment. -/
structure Sane (env : Env) (steps : Nat) : Prop where
  slot : ∃ slot : Slot, env.get .abSlot = some slot.name
  fallback : ∃ slot : Slot, env.get .abFallbackSlot = some slot.name
  trial : env.get .upgradeAvailable = some "0" ∨
    env.get .upgradeAvailable = some "1"
  limit : env.get .bootlimit = some "1"
  count : env.getUlong .bootcount 0 ≤ steps

section Readings

variable
    {env other : Env} {slot fallback : Slot} {count steps : Nat}

theorem Rests.not_inTrial (rests : env.Rests slot) : ¬ env.InTrial := by
  rw [InTrial, getYesno, rests.noTrial]
  decide

theorem Rests.picked (rests : env.Rests slot) : env.picked = env :=
  if_neg rests.not_inTrial

theorem Rests.not_upgrading (rests : env.Rests slot) : ¬ env.Upgrading := by
  rw [Upgrading, getUlong, rests.noTrial]
  decide

theorem Rests.of_agree (rests : env.Rests slot)
    (sameSlot : other.get .abSlot = env.get .abSlot)
    (sameTrial : other.get .upgradeAvailable = env.get .upgradeAvailable)
    (sameLimit : other.get .bootlimit = env.get .bootlimit) :
    other.Rests slot :=
  ⟨sameSlot.trans rests.slot, sameTrial.trans rests.noTrial,
    sameLimit.trans rests.limit⟩

theorem Rests.disarmed (rests : env.Rests slot) : env.disarmed.Rests slot :=
  rests.of_agree (get_disarmed_of_ne env (by decide))
    (get_disarmed_of_ne env (by decide)) (get_disarmed_of_ne env (by decide))

theorem Rests.untried (rests : env.Rests slot) : env.untried.Rests slot :=
  rests.of_agree (get_untried_of_ne env (by decide))
    (get_untried_of_ne env (by decide)) (get_untried_of_ne env (by decide))

theorem Rests.bootcountInc (rests : env.Rests slot) :
    env.bootcountInc.Rests slot :=
  rests.of_agree (get_bootcountInc_of_ne env (by decide))
    (get_bootcountInc_of_ne env (by decide))
    (get_bootcountInc_of_ne env (by decide))

theorem Rests.not_bootcountError (rests : env.Rests slot) :
    ¬ env.BootcountError := by
  rintro ⟨-, exceeds⟩
  rw [bootcountLoad, if_neg rests.not_upgrading] at exceeds
  exact Nat.not_lt_zero _ exceeds

theorem abBoot_of_named (named : env.get .abSlot = some slot.name) :
    env.abBoot = slot := by
  rw [abBoot, envget, named]
  cases slot <;> rfl

theorem slotChar_of_named (named : env.get .abSlot = some slot.name) :
    slotChar (env.get .abSlot) = slot := by
  rw [named, slotChar_name]

theorem Tries.inTrial (tries : env.Tries fallback count) : env.InTrial := by
  rw [InTrial, getYesno, tries.trial]
  decide

theorem Tries.upgrading (tries : env.Tries fallback count) :
    env.Upgrading := by
  rw [Upgrading, getUlong, tries.trial]
  decide

theorem Tries.getUlong_bootlimit (tries : env.Tries fallback count)
    (default : Nat) : env.getUlong .bootlimit default = 1 := by
  rw [getUlong, tries.limit]
  rfl

/-- The first try is counted. -/
theorem Tries.picked_first (tries : env.Tries fallback 0) :
    env.picked.Tries fallback 1 := by
  have next : env.nextTry = 1 := by
    rw [nextTry, tries.count]
    decide
  have allowed : ¬ env.Exhausted := by
    rw [Exhausted, next, tries.getUlong_bootlimit]
    decide
  have counted : env.picked = env.countTry := by
    rw [picked, if_pos tries.inTrial, if_neg allowed]
  have kept {name : EnvVar} (distinct : name ≠ .bootcount) :
      env.picked.get name = env.get name := by
    rw [counted, get_countTry_of_ne env distinct]
  obtain ⟨slot, named⟩ := tries.named
  refine
    ⟨⟨slot, (kept (by decide)).trans named⟩,
      (kept (by decide)).trans tries.fallback,
      (kept (by decide)).trans tries.trial,
      (kept (by decide)).trans tries.limit, ?_⟩
  rw [counted, countTry, next]
  simp [getUlong]

/-- Any later one ends the trial. -/
theorem Tries.picked_later (tries : env.Tries fallback count)
    (counted : 1 ≤ count) (small : count + 1 < 2 ^ 64) :
    env.picked.Rests fallback := by
  have exhausted : env.Exhausted := by
    rw [Exhausted, nextTry, tries.count, tries.getUlong_bootlimit]
    omega
  rw [picked, if_pos tries.inTrial, if_pos exhausted]
  refine ⟨?_, by simp [fallBack], ?_⟩
  · rw [get_abSlot_fallBack, fallbackName, tries.fallback, slotLetter_name]
    rfl
  · rw [get_fallBack_of_ne env (by decide) (by decide) (by decide)]
    exact tries.limit

/-- Boots that have nothing to do with the trial leave it alone. -/
theorem Tries.of_agree (tries : env.Tries fallback count)
    (agree : ∀ name, name ≠ .mcoreTry → name ≠ .bootOs →
      other.get name = env.get name) :
    other.Tries fallback count := by
  obtain ⟨slot, named⟩ := tries.named
  refine
    ⟨⟨slot, (agree _ (by decide) (by decide)).trans named⟩,
      (agree _ (by decide) (by decide)).trans tries.fallback,
      (agree _ (by decide) (by decide)).trans tries.trial,
      (agree _ (by decide) (by decide)).trans tries.limit, ?_⟩
  rw [getUlong, agree _ (by decide) (by decide)]
  exact tries.count

/-- U-Boot proper counts a second time and gives up. -/
theorem Tries.altbootcmd (tries : env.Tries fallback 1) :
    env.bootcountInc.BootcountError ∧
      env.bootcountInc.altbootcmd.Rests fallback := by
  have kept {name : EnvVar} (distinct : name ≠ .bootcount) :
      env.bootcountInc.get name = env.get name :=
    get_bootcountInc_of_ne env distinct
  have upgrading : env.bootcountInc.Upgrading := by
    rw [Upgrading, getUlong, kept (by decide), ← getUlong]
    exact tries.upgrading
  have load : env.bootcountLoad = 1 := by
    rw [bootcountLoad, if_pos tries.upgrading, tries.count]
  have limit (default : Nat) :
      env.bootcountInc.getUlong .bootlimit default = 1 := by
    rw [getUlong, kept (by decide), ← getUlong]
    exact tries.getUlong_bootlimit default
  refine ⟨⟨by rw [limit]; decide, ?_⟩, ⟨?_, ?_, ?_⟩⟩
  · rw [bootcountLoad, if_pos upgrading, limit, Env.bootcountInc, load,
      getUlong_setUlong]
    decide
  · simp [Env.altbootcmd, envget, kept, tries.fallback]
  · simp [Env.altbootcmd]
  · rw [get_altbootcmd_of_ne _ (by decide) (by decide) (by decide),
      kept (by decide)]
    exact tries.limit

/-! What the steps of a run keep -/

theorem Sane.more (sane : env.Sane steps) : env.Sane (steps + 1) :=
  { sane with count := sane.count.trans (Nat.le_succ steps) }

/-- Only the count has changed. -/
theorem Sane.counted (sane : env.Sane steps)
    (agree : ∀ name, name ≠ .bootcount → name ≠ .bootOs →
      name ≠ .mcoreTry → name ≠ .mcoreSlot → other.get name = env.get name)
    (count : other.getUlong .bootcount 0 ≤ steps + 1) :
    other.Sane (steps + 1) := by
  obtain ⟨slot, named⟩ := sane.slot
  obtain ⟨fallback, returns⟩ := sane.fallback
  have kept (name : EnvVar)
      (others : name ≠ .bootcount ∧ name ≠ .bootOs ∧ name ≠ .mcoreTry ∧
        name ≠ .mcoreSlot) : other.get name = env.get name :=
    agree name others.1 others.2.1 others.2.2.1 others.2.2.2
  refine
    ⟨⟨slot, (kept _ (by decide)).trans named⟩,
      ⟨fallback, (kept _ (by decide)).trans returns⟩, ?_,
      (kept _ (by decide)).trans sane.limit, count⟩
  rw [kept .upgradeAvailable (by decide)]
  exact sane.trial

/-- Not even the count has changed. -/
theorem Sane.of_agree (sane : env.Sane steps)
    (agree : ∀ name, name ≠ .bootOs → name ≠ .mcoreTry →
      name ≠ .mcoreSlot → other.get name = env.get name) :
    other.Sane (steps + 1) := by
  apply sane.counted
  · exact fun name _ => agree name
  · rw [getUlong, agree .bootcount (by decide) (by decide) (by decide),
      ← getUlong]
    exact sane.more.count

/-- The trial is over or begins, and the count starts again. -/
theorem Sane.setTrial (limit : env.get .bootlimit = some "1")
    (slot fallback : Slot) {trial : String}
    (flag : trial = "0" ∨ trial = "1") :
    (env.setTrial slot.name fallback.name trial).Sane (steps + 1) where
  slot := ⟨slot, by simp [Env.setTrial]⟩
  fallback := ⟨fallback, by simp [Env.setTrial]⟩
  trial := by rcases flag with rfl | rfl <;> simp [Env.setTrial]
  limit := by
    rw [get_setTrial_of_ne _ _ _ _ (by decide) (by decide) (by decide)
      (by decide), limit]
  count := by
    have zero : simpleStrtoul "0" = 0 := by decide
    simp [Env.setTrial, getUlong, zero]

theorem Sane.fallbackName_eq (sane : env.Sane steps) :
    ∃ fallback : Slot, env.get .abFallbackSlot = some fallback.name ∧
      env.fallbackName = fallback.name ∧
        env.envget .abFallbackSlot = fallback.name := by
  obtain ⟨fallback, returns⟩ := sane.fallback
  refine ⟨fallback, returns, ?_, ?_⟩
  · rw [fallbackName, returns, slotLetter_name]
    rfl
  · rw [envget, returns]
    rfl

theorem Sane.picked (sane : env.Sane steps) : env.picked.Sane (steps + 1) := by
  rw [Env.picked]
  split_ifs with trial exhausted
  · obtain ⟨fallback, returns, name, -⟩ := sane.fallbackName_eq
    have zero : simpleStrtoul "0" = 0 := by decide
    refine ⟨⟨fallback, ?_⟩, ⟨fallback, ?_⟩, .inl ?_, ?_, ?_⟩
    · rw [get_abSlot_fallBack, name]
    · rwa [get_fallBack_of_ne env (by decide) (by decide) (by decide)]
    · simp [Env.fallBack]
    · rw [get_fallBack_of_ne env (by decide) (by decide) (by decide)]
      exact sane.limit
    · simp [Env.fallBack, getUlong, zero]
  · apply sane.counted
    · exact fun name distinct _ _ _ => get_countTry_of_ne env distinct
    · have count := sane.count
      have next : env.nextTry ≤ steps + 1 :=
        (Nat.mod_le _ _).trans (by omega)
      simp only [countTry, getUlong, get_set_self, digitString_ne_empty,
        if_false, simpleStrtoul_digitString]
      omega
  · exact sane.more

/-- What the boot chain does to a copy of the environment. -/
theorem Sane.change (sane : env.Sane steps) (change : Change) :
    (change.apply env).Sane (steps + 1) := by
  cases change with
  | pick => exact sane.picked
  | disarm =>
      exact sane.of_agree fun _ notOs _ _ => get_disarmed_of_ne env notOs
  | untry =>
      exact sane.of_agree fun _ _ notTry _ => get_untried_of_ne env notTry
  | count =>
      apply sane.counted
      · exact fun name distinct _ _ _ => get_bootcountInc_of_ne env distinct
      · have count := sane.count
        have load : env.bootcountLoad ≤ steps := by
          rw [bootcountLoad]
          split_ifs
          · exact count
          · exact Nat.zero_le _
        rw [Change.apply, Env.bootcountInc, getUlong_setUlong]
        exact
          (Nat.mod_le _ _).trans ((Nat.mod_le _ _).trans (by omega))
  | alt =>
      simp only [Change.apply]
      split_ifs with exceeded
      · obtain ⟨fallback, returns, -, read⟩ := sane.fallbackName_eq
        have zero : simpleStrtoul "0" = 0 := by decide
        refine ⟨⟨fallback, ?_⟩, ⟨fallback, ?_⟩, .inl ?_, ?_, ?_⟩
        · simp [Env.altbootcmd, read]
        · rwa [get_altbootcmd_of_ne _ (by decide) (by decide) (by decide)]
        · simp [Env.altbootcmd]
        · rw [get_altbootcmd_of_ne _ (by decide) (by decide) (by decide)]
          exact sane.limit
        · simp [Env.altbootcmd, getUlong, zero]
      · exact sane.more

/-- What a command does to the stored one. -/
theorem Sane.moves {ctx : Ctx} {boot : LinuxBoot} {disk : Disk}
    (sane : disk.env.Sane steps) {command : AbCommand} {wrote : Bool}
    {file : Option LinuxTry}
    (moves : Moves ctx boot disk command wrote env file) :
    env.Sane (steps + 1) := by
  cases moves with
  | nothing => exact sane.more
  | begun => exact sane.more
  | armed => exact .setTrial sane.limit _ _ (.inr rfl)
  | committed => exact .setTrial sane.limit _ _ (.inl rfl)
  | rolledBack =>
      obtain ⟨fallback, -, -, read⟩ := sane.fallbackName_eq
      rw [read]
      exact .setTrial sane.limit _ _ (.inl rfl)
  | forgotten => exact sane.more
  | returned => exact .setTrial sane.limit _ _ (.inr rfl)
  | mcore _ own value =>
      apply sane.of_agree
      intro name _ notTry notSlot
      apply get_set_of_ne
      rcases own with rfl | rfl
      · exact notTry
      · exact notSlot

end Readings

end Env

/-! ## A boot -/

/-- What a boot leaves in the environment, wherever it ends. -/
inductive Env.BootLeaves (env : Env) : Env → Prop where
  | hung : BootLeaves env env.disarmed
  | falcon : BootLeaves env env.disarmed.untried
  | exceeded
      (exceeds : env.disarmed.untried.bootcountInc.BootcountError) :
      BootLeaves env env.disarmed.untried.bootcountInc.altbootcmd
  | proper
      (within : ¬ env.disarmed.untried.bootcountInc.BootcountError) :
      BootLeaves env
        (if env.disarmed.untried.Upgrading then
          env.disarmed.untried.bootcountInc
        else env.disarmed.untried)

namespace Env.BootLeaves

variable
    {env left : Env} {slot fallback : Slot}

theorem rests (leaves : env.BootLeaves left) (rests : env.Rests slot) :
    left.Rests slot := by
  have ram := rests.disarmed.untried
  cases leaves with
  | hung => exact rests.disarmed
  | falcon => exact ram
  | exceeded exceeds => exact absurd exceeds ram.bootcountInc.not_bootcountError
  | proper within =>
      rw [if_neg ram.not_upgrading]
      exact ram

/-- U-Boot proper ends the trial; the other ways leave it open. -/
theorem tries (leaves : env.BootLeaves left)
    (tries : env.Tries fallback 1) :
    left.Rests fallback ∨ left.Tries fallback 1 := by
  have disarmed : env.disarmed.Tries fallback 1 :=
    tries.of_agree fun name _ notOs => get_disarmed_of_ne env notOs
  have ram : env.disarmed.untried.Tries fallback 1 :=
    disarmed.of_agree fun name notTry _ => get_untried_of_ne _ notTry
  obtain ⟨exceeded, ended⟩ := ram.altbootcmd
  cases leaves with
  | hung => exact .inr disarmed
  | falcon => exact .inr ram
  | exceeded exceeds => exact .inl ended
  | proper within => exact absurd exceeded within

/-- The ticket for the falcon way is used up. -/
theorem unarmed (leaves : env.BootLeaves left) : left.falconArmed = false := by
  have used : env.disarmed.falconArmed = false := by
    rw [disarmed]
    split_ifs with armed
    · simp [falconArmed, getYesno]
    · exact decide_eq_false armed
  have kept {other : Env}
      (same : other.get .bootOs = env.disarmed.get .bootOs) :
      other.falconArmed = false := by
    rw [← used, falconArmed, falconArmed, getYesno, getYesno, same]
  have ram : env.disarmed.untried.get .bootOs =
      env.disarmed.get .bootOs :=
    get_untried_of_ne _ (by decide)
  have counted : env.disarmed.untried.bootcountInc.get .bootOs =
      env.disarmed.get .bootOs :=
    (get_bootcountInc_of_ne _ (by decide)).trans ram
  cases leaves with
  | hung => exact used
  | falcon => exact kept ram
  | exceeded exceeds =>
      exact
        kept
          ((get_altbootcmd_of_ne _ (by decide) (by decide)
            (by decide)).trans counted)
  | proper within =>
      split_ifs
      · exact kept counted
      · exact kept ram

end Env.BootLeaves

theorem Env.falconArmed_picked (env : Env) :
    env.picked.falconArmed = env.falconArmed := by
  rw [falconArmed, falconArmed, getYesno, getYesno,
    env.get_picked_of_ne (by decide) (by decide) (by decide)]

namespace Deployed

section Boots

variable
    (platform : Platform) {payloads : Payloads} {device : Deployed}
    {slot fallback : Slot}

/-- Where nothing is pending, the slot's own system decides. -/
theorem settled_start_iff {read : BootTree → Option CommandLine} {disk : Disk}
    {chosen : Chosen} (rests : disk.env.Rests slot) :
    (start payloads read ⟨disk, .linux ⟨slot, chosen⟩⟩).Settled slot ↔
      ∃ cmdline ∈ read (disk.boot slot),
        payloads.Starts disk.root slot cmdline := by
  have named : disk.env.envget .abSlot = slot.name := by
    rw [Env.envget, rests.slot]
    rfl
  have noTrial : disk.env.envget .upgradeAvailable ≠ "1" := by
    rw [Env.envget, rests.noTrial]
    decide
  cases found : read (disk.boot slot) with
  | none =>
      rw [start_none found]
      constructor
      · rintro ⟨-, ⟨cmdline, ⟨⟩, -⟩, -⟩
      · rintro ⟨cmdline, ⟨⟩, -⟩
  | some cmdline =>
      rw [start_some found]
      constructor
      · rintro ⟨-, ⟨other, up, running, baseDev⟩, -⟩
        simp only at up
        split_ifs at up with comesUp
        · obtain rfl := Option.some.inj up
          exact ⟨cmdline, rfl, comesUp, running, baseDev⟩
        · cases up
      · rintro ⟨other, same, comesUp, running, baseDev⟩
        obtain rfl := Option.some.inj same
        rw [if_pos comesUp, running]
        exact
          ⟨⟨chosen, rfl⟩, ⟨cmdline, rfl, running, baseDev⟩, named, noTrial,
            rests.limit⟩

theorem disk_start (read : BootTree → Option CommandLine) (disk : Disk)
    (boot : LinuxBoot) :
    (start payloads read ⟨disk, .linux boot⟩).machine.disk = disk :=
  (machine_start read _).1

/-- A boot touches nothing but the environment. -/
theorem disk_boot :
    ∃ env, device.machine.disk.env.picked.BootLeaves env ∧
      (device.after platform payloads Machine.boot).machine.disk =
        { device.machine.disk with env } := by
  cases missing : (device.pickedFalcon payloads).isSome with
  | true =>
      obtain ⟨chosen, -, -, boots⟩ := after_boot_falcon platform missing
      rw [boots, disk_start]
      exact ⟨_, .falcon, rfl⟩
  | false =>
      rw [Option.isSome_eq_false_iff, Option.isNone_iff_eq_none] at missing
      cases loaded : payloads.uboot device.pickedTree with
      | true =>
          rw [after_boot_proper platform missing loaded]
          by_cases exceeds : device.handedEnv.bootcountInc.BootcountError
          · simp only [if_pos exceeds, disk_start]
            exact ⟨_, .exceeded exceeds, rfl⟩
          · simp only [if_neg exceeds, disk_start]
            exact ⟨_, .proper exceeds, rfl⟩
      | false =>
          rw [after_boot_hangs platform missing loaded]
          exact ⟨_, .hung, rfl⟩

/-- Without a trial the boot is one of the slot, on the way that is armed. -/
theorem settled_boot_iff (rests : device.machine.disk.env.picked.Rests slot) :
    (device.after platform payloads Machine.boot).Settled slot ↔
      payloads.Boots device.machine.disk slot
        device.machine.disk.env.picked.falconArmed := by
  have picked : device.machine.pickedSlot = slot :=
    Env.slotChar_of_named rests.slot
  have tree : device.pickedTree = device.machine.disk.boot slot :=
    congrArg device.machine.disk.boot picked
  have ram : device.handedEnv.Rests slot := rests.disarmed.untried
  cases found : device.pickedFalcon payloads with
  | some cmdline =>
      obtain ⟨chosen, -, -, boots⟩ :=
        @after_boot_falcon platform payloads device
          (Option.isSome_of_eq_some found)
      rw [pickedFalcon, tree] at found
      have kernel := found
      rw [Payloads.armedFalcon] at kernel
      split_ifs at kernel
      rw [picked] at boots
      rw [boots, settled_start_iff ram, Payloads.Boots, Payloads.kernel, found,
        Option.some_or]
      simp only [kernel]
  | none =>
      cases loaded : payloads.uboot device.pickedTree with
      | true =>
          have boots := after_boot_proper platform found loaded
          simp only [if_neg ram.bootcountInc.not_bootcountError,
            if_neg ram.not_upgrading,
            Env.abBoot_of_named ram.bootcountInc.slot] at boots
          rw [pickedFalcon, tree] at found
          rw [tree] at loaded
          rw [boots, settled_start_iff ram, Payloads.Boots, Payloads.kernel,
            found, loaded, Option.none_or, if_pos rfl]
      | false =>
          have hangs := after_boot_hangs platform found loaded
          rw [pickedFalcon, tree] at found
          rw [tree] at loaded
          rw [hangs, Payloads.Boots, Payloads.kernel, found, loaded]
          constructor
          · rintro ⟨⟨chosen, ⟨⟩⟩, -⟩
          · rintro ⟨cmdline, ⟨⟩, -⟩

/-- A boot begins with a reset, so what is up afterwards came up in it. -/
theorem reads_boot : (device.after platform payloads Machine.boot).Reads := by
  have off : (device.step platform payloads .reset).Reads := by
    rintro cmdline ⟨⟩
  exact
    off.after
      [.fsBootPartition .stored, .startUboot .stored, .loadOs true, .loadUboot,
        .mcoreStage .stored, .leaveSpl, .bootcountInc .stored,
        .bootCommand .stored]

/-- falcon-rearm needs a system that is up. -/
theorem disk_rearm (reads : device.Reads) (completed : Bool) :
    (device.step platform payloads (.falconRearm completed)).machine.disk =
      { device.machine.disk with
        env :=
          if (completed && device.system.isSome) = true then
            device.machine.disk.env.set .bootOs "yes"
          else device.machine.disk.env } := by
  obtain ⟨⟨disk, phase⟩, system⟩ := device
  cases system with
  | none =>
      rw [Option.isSome_none, Bool.and_false, if_neg Bool.false_ne_true]
      rfl
  | some cmdline =>
      obtain ⟨chosen, inLinux⟩ := reads cmdline rfl
      obtain rfl : phase = .linux ⟨cmdline.running, chosen⟩ := inLinux
      cases completed <;> rfl

/-- After a boot that the next one ends, what the slot holds decides. -/
theorem settled_again_iff {env : Env}
    (same :
      (device.after platform payloads Machine.boot).machine.disk =
        { device.machine.disk with env })
    (unarmed : env.falconArmed = false) (rearm : Bool)
    (ends : ∀ later : Env,
      (∀ name, name ≠ .bootOs → later.get name = env.get name) →
        later.picked.Rests slot) :
    let once := device.after platform payloads Machine.boot
    (once.after platform payloads (.falconRearm rearm :: Machine.boot)).Settled
        slot ↔
      payloads.Boots device.machine.disk slot
        (rearm && once.system.isSome) := by
  intro once
  let again := once.step platform payloads (.falconRearm rearm)
  let later : Env :=
    if (rearm && once.system.isSome) = true then env.set .bootOs "yes" else env
  have disk : again.machine.disk = { device.machine.disk with env := later } := by
    have rearmed :=
      @disk_rearm platform payloads once
        (@reads_boot platform payloads device) rearm
    rwa [same] at rearmed
  have armed : later.falconArmed = (rearm && once.system.isSome) := by
    simp only [later]
    split_ifs with both
    · rw [both]
      simp [Env.falconArmed, Env.getYesno]
    · rw [unarmed]
      exact (Bool.eq_false_iff.mpr both).symm
  have agree : ∀ name, name ≠ .bootOs → later.get name = env.get name := by
    intro name notOs
    simp only [later]
    split_ifs
    · exact Env.get_set_of_ne _ _ notOs
    · rfl
  have rests : again.machine.disk.env.picked.Rests slot := by
    rw [disk]
    exact ends later agree
  have boots := @settled_boot_iff platform payloads again slot rests
  rw [disk] at boots
  simp only [Env.falconArmed_picked, armed] at boots
  exact boots

/-- Two boots end in the confirmed slot, if it boots. -/
theorem settled_twice_iff
    (pending : device.machine.disk.env.picked.Rests slot ∨
      device.machine.disk.env.picked.Tries slot 1)
    (rearm : Bool) :
    let once := device.after platform payloads Machine.boot
    (once.after platform payloads (.falconRearm rearm :: Machine.boot)).Settled
        slot ↔
      payloads.Boots device.machine.disk slot
        (rearm && once.system.isSome) := by
  obtain ⟨env, leaves, same⟩ :=
    @disk_boot platform payloads device
  apply settled_again_iff platform same leaves.unarmed
  intro later agree
  have left : env.Rests slot ∨ env.Tries slot 1 := by
    rcases pending with rests | tries
    · exact .inl (leaves.rests rests)
    · exact leaves.tries tries
  rcases left with rests | tries
  · have kept : later.Rests slot :=
      rests.of_agree (agree _ (by decide)) (agree _ (by decide))
        (agree _ (by decide))
    rwa [kept.picked]
  · have kept : later.Tries slot 1 :=
      tries.of_agree fun name _ notOs => agree name notOs
    exact kept.picked_later le_rfl (by decide)

end Boots

end Deployed

namespace Machine

/-! ## Every reachable state -/

/-- Both copies of the environment are what so many steps can leave. -/
structure Sane (machine : Machine) (steps : Nat) : Prop where
  live : machine.Live
  work : machine.workEnv.Sane steps
  stored : machine.disk.env.Sane steps

theorem sane_shipped (disk : Disk) (chosen : Chosen) :
    (Machine.shipped disk chosen).Sane 0 := by
  have shipped : shippedEnv.Sane 0 :=
    ⟨⟨.a, rfl⟩, ⟨.a, rfl⟩, .inl rfl, rfl, by decide⟩
  exact ⟨trivial, shipped, shipped⟩

theorem sane_bootMoves {work stored nextWork nextStored : Env} {steps : Nat}
    (moves : BootMoves work stored nextWork nextStored)
    (ofWork : work.Sane steps) (ofStored : stored.Sane steps) :
    nextWork.Sane (steps + 1) ∧ nextStored.Sane (steps + 1) := by
  have saved (change : Change) (save : Save) :
      (envSave save (change.apply work) stored).Sane (steps + 1) := by
    cases save with
    | stored => exact ofWork.change change
    | failed => exact ofStored.more
  cases moves with
  | kept => exact ⟨ofWork.more, ofStored.more⟩
  | reloaded => exact ⟨ofStored.more, ofStored.more⟩
  | changed change save => exact ⟨ofWork.change change, saved change save⟩
  | switched change save => exact ⟨saved change save, saved change save⟩

theorem Sane.step (platform : Platform) {machine : Machine} {steps : Nat}
    (sane : machine.Sane steps) (act : Act) :
    (machine.step platform act).Sane (steps + 1) := by
  have live := step_live platform sane.live act
  rcases step_cases platform sane.live act with
    ⟨-, turn⟩ | ⟨issued, -, -, -, equal⟩ | ⟨boot, -, inLinux, -, equal⟩
  · obtain ⟨work, stored⟩ :=
      sane_bootMoves turn.bootMoves sane.work sane.stored
    exact ⟨live, work, stored⟩
  · have stored :=
      sane.stored.moves
        (abMoves platform machine issued.boot issued.command issued.ctx)
    refine ⟨live, ?_, ?_⟩
    · rw [equal, workEnv_afterCommand]
      exact stored
    · rw [equal]
      exact stored
  · have stored :
        (machine.disk.env.set .bootOs "yes").Sane (steps + 1) :=
      sane.stored.of_agree fun _ notOs _ _ => Env.get_set_of_ne _ _ notOs
    refine ⟨live, ?_, ?_⟩
    · rw [equal, workEnv_rearmed inLinux]
      exact stored
    · rw [equal]
      exact stored

end Machine

namespace Deployed

/-- The renaming of the running slot is not seen. -/
theorem sane_of_sameButRunning {machine other : Machine} {steps : Nat}
    (same : machine.SameButRunning other) (sane : other.Sane steps) :
    machine.Sane steps where
  live := live_of_sameButRunning same sane.live
  work := by
    rw [workEnv_of_sameButRunning same]
    exact sane.work
  stored := by
    rw [same.1]
    exact sane.stored

theorem sane_after (platform : Platform) (payloads : Payloads)
    (disk : Disk) (chosen : Chosen) (cmdline : CommandLine)
    (acts : List Act) :
    ((shipped disk chosen cmdline).after platform payloads acts).machine.Sane
      acts.length := by
  have sane :=
    @machine_after platform payloads (shipped disk chosen cmdline)
      Machine.Sane sane_of_sameButRunning
      (fun act sane => sane.step platform act) 0
      (Machine.sane_shipped disk chosen) acts
  rwa [Nat.zero_add] at sane

/--
From every state that a device can come to, whatever was cut, refused or not
saved, take two boots whose saves are stored, with or without a falcon-rearm
after the first.  The device ends settled, in the confirmed slot and out of any
trial, exactly if that slot boots: by its `falcon.itb` if the first boot came
up and was rearmed and this loads, else by its `u-boot.itb` and
`extlinux.conf`, into a system that comes up and names the slot.
-/
theorem recovers (platform : Platform) (payloads : Payloads) (disk : Disk)
    (chosen : Chosen) (cmdline : CommandLine) {acts : List Act}
    (short : acts.length + 1 < 2 ^ 64) (rearm : Bool) :
    let device := (shipped disk chosen cmdline).after platform payloads acts
    let once := device.after platform payloads Machine.boot
    ∃ running : Slot,
      device.machine.disk.env.confirmedSlot = running.name ∧
        ((once.after platform payloads
            (.falconRearm rearm :: Machine.boot)).Settled running ↔
          payloads.Boots device.machine.disk running
            (rearm && once.system.isSome)) := by
  intro device once
  have stored : device.machine.disk.env.Sane acts.length :=
    (sane_after platform payloads disk chosen cmdline acts).stored
  obtain ⟨slot, named⟩ := stored.slot
  rcases stored.trial with settled | pending
  · have rests : device.machine.disk.env.Rests slot :=
      ⟨named, settled, stored.limit⟩
    refine ⟨slot, ?_, settled_twice_iff platform (.inl ?_) rearm⟩
    · simp [Env.confirmedSlot, Env.envget, settled, named]
    · rwa [rests.picked]
  · obtain ⟨fallback, returns⟩ := stored.fallback
    have count := stored.count
    have tries :
        device.machine.disk.env.Tries fallback
          (device.machine.disk.env.getUlong .bootcount 0) :=
      ⟨⟨slot, named⟩, returns, pending, stored.limit, rfl⟩
    refine ⟨fallback, ?_, settled_twice_iff platform ?_ rearm⟩
    · simp [Env.confirmedSlot, Env.envget, pending, returns]
    · rcases Nat.eq_zero_or_pos
          (device.machine.disk.env.getUlong .bootcount 0) with
        zero | counted
      · rw [zero] at tries
        exact .inr tries.picked_first
      · exact .inl (tries.picked_later counted (by omega))

end Deployed

namespace Bench

/-- A session arms a trial of slot b, which is empty. -/
def emptyTrial : List Act :=
  [.falconRearm true, .ab .linuxTryBegin ctx, .ab (.linuxTryArm false) ctx]

/-- The first boot hangs in the SPL, the second one is of slot a. -/
theorem emptyTrial_recovers :
    let device := deployed.after platform payloads emptyTrial
    let once := device.after platform payloads Machine.boot
    once.system.isNone = true ∧
      (once.after platform payloads
          (.falconRearm true :: Machine.boot)).Settled .a := by
  intro device once
  have hangs : once.system.isSome = false := by decide +kernel
  have kernel : payloads.kernel slotImage false = some (slotLine .a) :=
    words_bootargs .a
  have tree : device.machine.disk.boot .a = slotImage := rfl
  have boots :
      payloads.Boots device.machine.disk .a (true && once.system.isSome) := by
    rw [hangs, Payloads.Boots, tree]
    exact
      ⟨slotLine .a, kernel, by decide +kernel, running_slotLine .a,
        by decide +kernel⟩
  obtain ⟨running, confirmed, settles⟩ :=
    @Deployed.recovers platform payloads filledDisk Chosen.proper (slotLine .a)
      emptyTrial (by decide) true
  cases running with
  | a => exact ⟨Option.isSome_eq_false_iff.mp hangs, settles.mpr boots⟩
  | b => exact absurd confirmed (by decide +kernel)

end Bench

end KmmYocto
