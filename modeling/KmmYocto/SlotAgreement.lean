import KmmYocto.LinuxPart

/-!
# Two readers of `ab_slot`

The SPL looks at the first character of `ab_slot`, U-Boot proper compares the
whole string, and both write a fallback that the other reads at a later boot.
They take a value for the same slot unless it starts with a `b` and goes on.
A slot on which both agree outside a trial is the slot of every boot that
follows, by falcon or by U-Boot proper, whatever the saves of these boots do.
-/

namespace KmmYocto

/-- The value is `b`, or the SPL does not take it for slot b either. -/
def ReadAlike (value : Option String) : Prop :=
  value.getD "" = "b" ∨ slotChar value = .a

instance (value : Option String) : Decidable (ReadAlike value) :=
  inferInstanceAs (Decidable (_ ∨ _))

namespace Env

variable
    {env : Env} {slot : Slot}

/-- The slot is the one of `ab_slot` to both readers, and no trial runs. -/
structure Agrees (env : Env) (slot : Slot) : Prop where
  spl : slotChar (env.get .abSlot) = slot
  proper : env.abBoot = slot
  notInTrial : ¬ env.InTrial
  notUpgrading : ¬ env.Upgrading

theorem abBoot_eq_slotChar_iff :
    env.abBoot = slotChar (env.get .abSlot) ↔ ReadAlike (env.get .abSlot) := by
  rw [ReadAlike, abBoot, envget]
  split_ifs with isB
  · rw [or_iff_left_of_imp fun _ => isB, iff_true_right isB]
    have stored : env.get .abSlot = some "b" := get_of_envget isB (by decide)
    rw [stored]
    decide
  · rw [or_iff_right isB]
    exact eq_comm

/-- The two variables alone decide whether the readers agree. -/
theorem Agrees.of_get_eq {other : Env} (agrees : env.Agrees slot)
    (sameSlot : other.get .abSlot = env.get .abSlot)
    (sameTrial : other.get .upgradeAvailable = env.get .upgradeAvailable) :
    other.Agrees slot where
  spl := by
    rw [sameSlot]
    exact agrees.spl
  proper := by
    rw [abBoot, envget, sameSlot]
    exact agrees.proper
  notInTrial := by
    rw [InTrial, getYesno, sameTrial]
    exact agrees.notInTrial
  notUpgrading := by
    rw [Upgrading, getUlong, sameTrial]
    exact agrees.notUpgrading

theorem not_bootcountError (notUpgrading : ¬ env.Upgrading) :
    ¬ env.BootcountError := by
  rw [BootcountError, bootcountLoad, if_neg notUpgrading]
  exact fun exceeded => Nat.not_lt_zero _ exceeded.2

/-- Outside a trial no change of the boot chain touches what the two read. -/
theorem Agrees.apply (change : Change) (agrees : env.Agrees slot) :
    (change.apply env).Agrees slot := by
  cases change with
  | pick =>
      rw [Change.apply, picked, if_neg agrees.notInTrial]
      exact agrees
  | disarm =>
      exact agrees.of_get_eq (get_disarmed_of_ne env (by decide))
        (get_disarmed_of_ne env (by decide))
  | untry =>
      exact agrees.of_get_eq (get_untried_of_ne env (by decide))
        (get_untried_of_ne env (by decide))
  | count =>
      exact agrees.of_get_eq (get_bootcountInc_of_ne env (by decide))
        (get_bootcountInc_of_ne env (by decide))
  | alt =>
      rw [Change.apply, if_neg (not_bootcountError agrees.notUpgrading)]
      exact agrees

/-- A trial that has been ended on the value of `ab_slot`. -/
theorem agrees_iff_of_ended
    (ended : env.get .upgradeAvailable = some "0") :
    env.Agrees slot ↔
      slotChar (env.get .abSlot) = slot ∧ env.abBoot = slot := by
  have notInTrial : ¬ env.InTrial := by
    rw [InTrial, getYesno, ended]
    decide
  have notUpgrading : ¬ env.Upgrading := by
    rw [Upgrading, getUlong, ended]
    decide
  exact ⟨fun agrees => ⟨agrees.spl, agrees.proper⟩,
    fun both => ⟨both.1, both.2, notInTrial, notUpgrading⟩⟩

/-! ## The two fallbacks -/

theorem ended_fallBack (env : Env) :
    env.fallBack.get .upgradeAvailable = some "0" := by
  simp [fallBack]

theorem ended_altbootcmd (env : Env) :
    env.altbootcmd.get .upgradeAvailable = some "0" := by
  simp [altbootcmd]

theorem slotChar_fallbackName (env : Env) :
    slotChar (some env.fallbackName) =
      slotChar (env.get .abFallbackSlot) := by
  rw [fallbackName]
  cases env.get .abFallbackSlot with
  | none => decide
  | some text =>
      split_ifs with unknown
      · have notB : text.toList.head? ≠ some 'b' := by
          intro startsB
          simp [slotLetter, startsB] at unknown
        simp [slotChar, notB]
      · rfl

/-- The SPL's fallback is read alike exactly if the stored value is. -/
theorem readAlike_fallbackName :
    ReadAlike (some env.fallbackName) ↔
      ReadAlike (env.get .abFallbackSlot) := by
  rw [ReadAlike, ReadAlike, slotChar_fallbackName, Option.getD_some,
    fallbackName]
  cases stored : env.get .abFallbackSlot with
  | none => decide
  | some text =>
      split_ifs with unknown
      · have notB : text ≠ "b" := by
          rintro rfl
          exact absurd unknown (by decide)
        simp [notB]
      · rfl

theorem get_abSlot_altbootcmd (env : Env) :
    slotChar (env.altbootcmd.get .abSlot) =
        slotChar (env.get .abFallbackSlot) ∧
      (ReadAlike (env.altbootcmd.get .abSlot) ↔
        ReadAlike (env.get .abFallbackSlot)) := by
  have copied :
      env.altbootcmd.get .abSlot =
        if env.envget .abFallbackSlot = "" then none
        else some (env.envget .abFallbackSlot) := by
    simp [altbootcmd]
  rw [copied, envget]
  cases env.get .abFallbackSlot with
  | none => simp
  | some text =>
      by_cases empty : text = ""
      · subst empty
        decide
      · simp [empty]

end Env

/-! ## The boots that follow -/

/-- The step is one of a boot or of falcon-rearm, and no command. -/
def Act.NoCommand : Act → Prop
  | .ab _ _ => False
  | _ => True

/-- What runs is on its way to the slot, or there. -/
def Phase.Follows (slot : Slot) : Phase → Prop
  | .spl pc memory =>
      (pc = .start ∧ memory.abPart = 0) ∨ memory.abPart = slot.bootpart
  | .proper _ _ => True
  | .linux boot => boot.running = slot

theorem Phase.Follows.decided {slot : Slot} {pc : SplPc} {memory : Spl}
    (onWay : (Phase.spl pc memory).Follows slot) (past : pc ≠ .start) :
    memory.abPart = slot.bootpart :=
  onWay.resolve_left fun first => past first.1

namespace Machine

/-- The slot the running program has settled on, if it has. -/
def chosen (machine : Machine) : Option Slot :=
  match machine.phase with
  | .spl _ spl => if spl.abPart = 0 then none else some (slotOfPart spl.abPart)
  | .proper _ _ => none
  | .linux boot => some boot.running

/-- The stored and the working environment agree, and so does what runs. -/
structure Agreed (machine : Machine) (slot : Slot) : Prop where
  live : machine.Live
  work : machine.workEnv.Agrees slot
  stored : machine.disk.env.Agrees slot
  follows : machine.phase.Follows slot

/--
The slot is booted now, both readers find it stored, and every later boot
chooses it.
-/
structure SettlesOn (platform : Platform) (machine : Machine) (slot : Slot) :
    Prop where
  booted : machine.chosen = some slot
  spl : slotChar (machine.disk.env.get .abSlot) = slot
  proper : machine.disk.env.abBoot = slot
  later : ∀ acts : List Act, (∀ act ∈ acts, act.NoCommand) →
    ∀ other, (machine.after platform acts).chosen = some other → other = slot

section Boots

variable
    {platform : Platform} {machine : Machine} {slot : Slot}

theorem Turn.follows {next : Machine} {act : Act}
    (turn : Turn platform machine act next) (agreed : machine.Agreed slot) :
    next.phase.Follows slot := by
  have onWay := agreed.follows
  have work := agreed.work
  cases turn with
  | idle => exact onWay
  | reset => exact Or.inl ⟨rfl, rfl⟩
  | asksAgain save runs decided =>
      rw [runs] at onWay
      exact Or.inr (onWay.resolve_left fun both => decided both.2)
  | @picks pc spl save runs undecided =>
      rw [workEnv, runs] at work
      have picks := (work.apply .pick).spl
      exact Or.inr (congrArg (fun chosen : Slot => (chosen.bootpart : Int)) picks)
  | disarms save runs =>
      rw [runs] at onWay
      exact Or.inr (onWay.decided (by simp))
  | loadsOs found runs =>
      rw [runs] at onWay
      exact Or.inr (onWay.decided (by simp))
  | loadsUboot runs =>
      rw [runs] at onWay
      exact Or.inr (onWay.decided (by simp))
  | stages save runs first =>
      rw [runs] at onWay
      exact Or.inr (onWay.decided (by simp))
  | @entersKernel spl runs done =>
      rw [runs] at onWay
      have decided : spl.abPart = slot.bootpart := onWay.decided (by simp)
      show slotOfPart spl.abPart = slot
      rw [decided, slotOfPart_bootpart]
  | entersProper runs done => trivial
  | counts save runs => trivial
  | boots save runs allowed =>
      rw [workEnv, runs] at work
      exact work.proper
  | bootsAlternative save runs exceeded =>
      rw [workEnv, runs] at work
      exact absurd exceeded (Env.not_bootcountError work.notUpgrading)

/-- What agrees on a slot stays with it through every step of a boot. -/
theorem Agreed.step {act : Act} (noCommand : act.NoCommand)
    (agreed : machine.Agreed slot) :
    (machine.step platform act).Agreed slot := by
  by_cases ofBoot : act.OfBoot
  · have taken := turn platform agreed.live ofBoot
    have closed : ∀ change env, Env.Agrees env slot →
        Env.Agrees (Change.apply change env) slot :=
      fun change _ agrees => agrees.apply change
    have both := taken.bootMoves.keeps closed agreed.work agreed.stored
    exact ⟨taken.live agreed.live, both.1, both.2, taken.follows agreed⟩
  · cases act with
    | ab command ctx => exact noCommand.elim
    | falconRearm completed =>
        obtain ⟨disk, phase⟩ := machine
        cases phase with
        | linux boot =>
            cases completed with
            | true =>
                have kept : (disk.env.set .bootOs "yes").Agrees slot :=
                  agreed.stored.of_get_eq
                    (Env.get_set_of_ne _ _ (by decide))
                    (Env.get_set_of_ne _ _ (by decide))
                exact ⟨trivial, kept, kept, agreed.follows⟩
            | false => exact agreed
        | spl pc spl => exact agreed
        | proper counted ram => exact agreed
    | _ => exact absurd trivial ofBoot

theorem Agreed.after {acts : List Act}
    (noCommands : ∀ act ∈ acts, act.NoCommand)
    (agreed : machine.Agreed slot) :
    (machine.after platform acts).Agreed slot := by
  induction acts generalizing machine with
  | nil => exact agreed
  | cons act rest induction =>
      rw [after, Trace.run_cons]
      exact induction (fun later member =>
        noCommands later (List.mem_cons_of_mem _ member))
        (agreed.step (noCommands act List.mem_cons_self))

theorem Agreed.chosen_eq {other : Slot} (agreed : machine.Agreed slot)
    (chooses : machine.chosen = some other) : other = slot := by
  have onWay := agreed.follows
  rw [chosen] at chooses
  cases runs : machine.phase with
  | spl pc spl =>
      simp only [runs] at chooses
      rw [runs] at onWay
      split_ifs at chooses with undecided
      have decided : spl.abPart = slot.bootpart :=
        onWay.resolve_left fun both => undecided both.2
      rw [decided, slotOfPart_bootpart] at chooses
      exact (Option.some.inj chooses).symm
  | proper counted ram => simp [runs] at chooses
  | linux boot =>
      simp only [runs] at chooses
      rw [runs] at onWay
      exact (Option.some.inj chooses).symm.trans onWay

/-- A slot both readers agree on is the slot of every boot that follows. -/
theorem settlesOn_of_agreed (agreed : machine.Agreed slot)
    (chooses : machine.chosen = some slot) :
    machine.SettlesOn platform slot where
  booted := chooses
  spl := agreed.stored.spl
  proper := agreed.stored.proper
  later := fun _ noCommands _ boots =>
    (agreed.after noCommands).chosen_eq boots

end Boots

/-! ## One slot for both -/

/-- The SPL from a reset. -/
def poweredOn (disk : Disk) : Machine :=
  ⟨disk, .spl .start Spl.start⟩

/-- U-Boot proper as the SPL enters it. -/
def inProper (disk : Disk) : Machine :=
  ⟨disk, .proper false disk.env⟩

/-- The SPL finds the tries of a trial used up. -/
def SplExhausted (env : Env) : Prop :=
  env.InTrial ∧ env.Exhausted

/-- U-Boot proper does, once it has counted this boot. -/
def ProperExhausted (env : Env) : Prop :=
  env.bootcountInc.BootcountError

/--
The SPL and U-Boot proper choose the same slot: outside a trial both follow
`ab_slot` to it, and the fallbacks of an exhausted trial settle on it.
-/
structure ChoosesAlike (platform : Platform) (disk : Disk) : Prop where
  outside : ¬ disk.env.InTrial → ∀ save,
    (splMmcFsBootPartition ((poweredOn disk).board platform) save disk.env
      Spl.start).value = disk.env.abBoot.bootpart
  exhausted : ∃ slot,
    (SplExhausted disk.env →
      ((poweredOn disk).step platform (.fsBootPartition .stored)).SettlesOn
        platform slot) ∧
      (ProperExhausted disk.env → ∀ count,
        ((inProper disk).after platform
          [.bootcountInc count, .bootCommand .stored]).SettlesOn
          platform slot)

section Choosing

variable
    {platform : Platform} {disk : Disk}

theorem outside_iff (settled : ¬ disk.env.InTrial) (save : Save) :
    (splMmcFsBootPartition ((poweredOn disk).board platform) save disk.env
        Spl.start).value = disk.env.abBoot.bootpart ↔
      ReadAlike (disk.env.get .abSlot) := by
  have kept : disk.env.picked = disk.env := by
    rw [Env.picked, if_neg settled]
  rw [splMmcFsBootPartition_undecided rfl Spl.live_start rfl]
  simp only [board_loaded, Spl.env_start, kept]
  rw [Int.natCast_inj, Slot.bootpart_inj, ← Env.abBoot_eq_slotChar_iff]
  exact eq_comm

theorem step_fallBack (exhausted : SplExhausted disk.env) :
    (poweredOn disk).step platform (.fsBootPartition .stored) =
      ⟨{ disk with env := disk.env.fallBack },
        .spl .picked (Spl.start.afterPick disk.env)⟩ := by
  have fallsBack : disk.env.picked = disk.env.fallBack := by
    rw [Env.picked, if_pos exhausted.1, if_pos exhausted.2]
  rw [poweredOn, step_picks platform rfl Spl.live_start rfl]
  rw [Spl.env_start, if_pos exhausted.1, envSave_stored, fallsBack,
    SplPc.start_afterAnswer (Spl.abPart_afterPick_pos _ _)]
  rfl

/-- The SPL's fallback settles on a slot exactly if its value is read alike. -/
theorem settlesOn_fallBack_iff (exhausted : SplExhausted disk.env)
    {slot : Slot} :
    ((poweredOn disk).step platform (.fsBootPartition .stored)).SettlesOn
        platform slot ↔
      slotChar (disk.env.get .abFallbackSlot) = slot ∧
        ReadAlike (disk.env.get .abFallbackSlot) := by
  have fallsBack : disk.env.picked = disk.env.fallBack := by
    rw [Env.picked, if_pos exhausted.1, if_pos exhausted.2]
  have read :
      slotChar (disk.env.fallBack.get .abSlot) =
        slotChar (disk.env.get .abFallbackSlot) := by
    rw [Env.get_abSlot_fallBack, Env.slotChar_fallbackName]
  rw [step_fallBack exhausted]
  constructor
  · intro settles
    have ofSpl : slotChar (disk.env.fallBack.get .abSlot) = slot := settles.spl
    have same : disk.env.fallBack.abBoot =
        slotChar (disk.env.fallBack.get .abSlot) :=
      settles.proper.trans ofSpl.symm
    rw [Env.abBoot_eq_slotChar_iff, Env.get_abSlot_fallBack,
      Env.readAlike_fallbackName] at same
    exact ⟨read.symm.trans ofSpl, same⟩
  · rintro ⟨rfl, alike⟩
    rw [← Env.readAlike_fallbackName, ← Env.get_abSlot_fallBack,
      ← Env.abBoot_eq_slotChar_iff, read] at alike
    have agrees :
        disk.env.fallBack.Agrees
          (slotChar (disk.env.get .abFallbackSlot)) :=
      (Env.agrees_iff_of_ended disk.env.ended_fallBack).mpr ⟨read, alike⟩
    have part :
        (Spl.start.afterPick disk.env).abPart =
          (slotChar (disk.env.get .abFallbackSlot)).bootpart := by
      rw [← read, ← fallsBack]
      rfl
    have working :
        (Spl.start.afterPick disk.env).env disk.env.fallBack =
          disk.env.fallBack := by
      rw [Spl.env_afterPick, fallsBack]
    refine settlesOn_of_agreed
      ⟨Spl.live_afterPick _ _, ?_, agrees, .inr part⟩ ?_
    · rw [workEnv]
      exact working ▸ agrees
    · have decided : (Spl.start.afterPick disk.env).abPart ≠ 0 :=
        (Spl.abPart_afterPick_pos _ _).ne'
      simp only [chosen]
      rw [if_neg decided, part, slotOfPart_bootpart]

theorem after_altbootcmd (exhausted : ProperExhausted disk.env)
    (count : Save) :
    (inProper disk).after platform
        [.bootcountInc count, .bootCommand .stored] =
      ⟨{ disk with env := disk.env.bootcountInc.altbootcmd },
        .linux
          ⟨disk.env.bootcountInc.altbootcmd.abBoot, Chosen.proper⟩⟩ := by
  have exceeded : disk.env.bootcountInc.BootcountError := exhausted
  simp only [after, Trace.run_cons, Trace.run_nil, inProper, step,
    KmmYocto.bootcountInc, KmmYocto.bootCommand, if_pos exceeded]
  rfl

/-- `altbootcmd` settles on a slot exactly if its value is read alike. -/
theorem settlesOn_altbootcmd_iff (exhausted : ProperExhausted disk.env)
    (count : Save) {slot : Slot} :
    ((inProper disk).after platform
        [.bootcountInc count, .bootCommand .stored]).SettlesOn
        platform slot ↔
      slotChar (disk.env.get .abFallbackSlot) = slot ∧
        ReadAlike (disk.env.get .abFallbackSlot) := by
  have counted :
      disk.env.bootcountInc.get .abFallbackSlot =
        disk.env.get .abFallbackSlot :=
    disk.env.get_bootcountInc_of_ne (by decide)
  have copied := disk.env.bootcountInc.get_abSlot_altbootcmd
  rw [counted] at copied
  rw [after_altbootcmd exhausted]
  constructor
  · intro settles
    have ofSpl :
        slotChar (disk.env.bootcountInc.altbootcmd.get .abSlot) = slot :=
      settles.spl
    have same := settles.proper.trans ofSpl.symm
    rw [Env.abBoot_eq_slotChar_iff] at same
    exact ⟨copied.1.symm.trans ofSpl, copied.2.mp same⟩
  · rintro ⟨rfl, alike⟩
    have same :=
      (Env.abBoot_eq_slotChar_iff.mpr (copied.2.mpr alike)).trans copied.1
    have agrees :=
      (Env.agrees_iff_of_ended
        disk.env.bootcountInc.ended_altbootcmd).mpr ⟨copied.1, same⟩
    exact settlesOn_of_agreed ⟨trivial, agrees, agrees, same⟩
      (congrArg some same)

end Choosing

end Machine

end KmmYocto
