import KmmYocto.Mbr
import KmmYocto.McoreImage

/-!
# Slot selection, dead-man switch and M-core staging in the SPL

The board code of the SPL keeps a handful of static variables and one copy of
the environment in RAM.  Three functions read that copy, change it and write
the whole block back with `env_save`:

* `spl_mmc_fs_boot_partition` picks the BOOT partition, counts a try and
  falls back once the tries are used up;
* `spl_start_uboot` takes the falcon path only with `boot_os=yes` and takes
  that ticket away;
* `spl_mcore_stage` consumes `mcore_try` and stages a firmware for the M7.

Each function is modelled on the static variables, the RAM copy and the
stored block, with the outcome of its `env_save` call as an argument.
-/

namespace KmmYocto

/-- Outcome of one `env_save` call; a failed one leaves the stored block alone. -/
inductive Save where
  | stored
  | failed
deriving DecidableEq, Repr

/-- The block the store holds after `env_save` of the RAM copy. -/
def envSave (save : Save) (ram stored : Env) : Env :=
  match save with
  | .stored => ram
  | .failed => stored

@[simp]
theorem envSave_stored (ram stored : Env) : envSave .stored ram stored = ram :=
  rfl

@[simp]
theorem envSave_failed (ram stored : Env) : envSave .failed ram stored = stored :=
  rfl

/-- What the SPL finds on the board besides the stored environment. -/
structure Board where
  /-- `env_init()` succeeds. -/
  envInit : Bool
  /-- One of the two stored copies has a valid checksum. -/
  envValid : Bool
  /-- What `env_load()` installs when neither copy is valid. -/
  defaultEnv : Env
  mbr : Mbr
  /-- Logical partitions, as `part_get_info` reports them. -/
  logical : Nat → Option Bool
  /-- `fat_register_device` finds the M-core partition p3. -/
  mcorePart : Bool
  /-- `mcore-a.img` and `mcore-b.img` on p3. -/
  mcoreFile : Slot → Option (List UInt8)
  crc32 : List UInt8 → Nat

/-- `ab_env_state`: 0, 1 and -1. -/
inductive EnvState where
  | unread
  | ready
  | unusable
deriving DecidableEq, Repr

/-- The RAM copy of the environment and the static variables of the SPL. -/
structure Spl where
  ram : Env
  abEnvState : EnvState
  /-- `ab_slot_c`; `none` is 0, the MBR was followed. -/
  abSlotC : Option Slot
  abTry : Bool
  /-- `ab_part`; 0 is undecided. -/
  abPart : Int
  mcoreDone : Bool
  mcoreLoaded : Option Slot
  mcoreTried : Option Slot
  mcoreVer : Nat
  /-- Payload at `M7_STAGING`; `none` is the invalidated area. -/
  staged : Option (List UInt8)

/-- Static variables at the start of an SPL run. -/
def Spl.start : Spl where
  ram := ⟨fun _ => none⟩
  abEnvState := .unread
  abSlotC := none
  abTry := false
  abPart := 0
  mcoreDone := false
  mcoreLoaded := none
  mcoreTried := none
  mcoreVer := 0
  staged := none

/-- Result of an SPL function: its value, the SPL's memory and the store. -/
structure SplResult (α : Type) where
  value : α
  spl : Spl
  stored : Env

/-- `spl_ab_env_ready`: read the environment once.  `env_load` is not checked. -/
def splAbEnvReady (board : Board) (stored : Env) (spl : Spl) :
    SplResult Bool :=
  match spl.abEnvState with
  | .unread =>
      if board.envInit then
        let loaded := if board.envValid then stored else board.defaultEnv
        ⟨true, { spl with ram := loaded, abEnvState := .ready }, stored⟩
      else
        ⟨false, { spl with abEnvState := .unusable }, stored⟩
  | .ready => ⟨true, spl, stored⟩
  | .unusable => ⟨false, spl, stored⟩

/-! ## Picking the BOOT partition -/

/-- `(slot && *slot == 'b') ? 'b' : 'a'`. -/
def slotChar (value : Option String) : Slot :=
  match value with
  | some text => if text.toList.head? = some 'b' then .b else .a
  | none => .a

/-- `*t == 'a' || *t == 'b'`: the slot a variable names, if it names one. -/
def slotLetter (value : Option String) : Option Slot :=
  match value with
  | some text =>
      if text.toList.head? = some 'a' then some .a
      else if text.toList.head? = some 'b' then some .b
      else none
  | none => none

/-- `spl_mmc_fs_boot_partition`; the value is a partition number or an error. -/
def splMmcFsBootPartition (board : Board) (save : Save)
    (stored : Env) (spl : Spl) : SplResult Int :=
  if spl.abPart ≠ 0 then ⟨spl.abPart, spl, stored⟩
  else
    let ready := splAbEnvReady board stored spl
    let spl := ready.spl
    if ¬ ready.value then
      let part := board.mbr.splMmcFirstBootablePartition board.logical
      ⟨part, { spl with abPart := part }, stored⟩
    else
      let slot := spl.ram.get .abSlot
      if spl.ram.getYesno .upgradeAvailable = 1 then
        let cnt := (spl.ram.getUlong .bootcount 0 + 1) % 2 ^ 64
        let lim := spl.ram.getUlong .bootlimit 1
        if cnt > lim then
          let fb := spl.ram.get .abFallbackSlot
          let fb := if slotLetter fb = none then "a" else fb.getD "a"
          let ram :=
            ((spl.ram.set .abSlot fb).set .upgradeAvailable "0").set
              .bootcount "0"
          let slotC := slotChar (some fb)
          ⟨slotC.bootpart,
            { spl with ram, abSlotC := slotC, abPart := slotC.bootpart },
            envSave save ram stored⟩
        else
          let ram := spl.ram.set .bootcount (Env.digitString cnt)
          let slotC := slotChar slot
          ⟨slotC.bootpart,
            { spl with
              ram, abTry := true, abSlotC := slotC, abPart := slotC.bootpart },
            envSave save ram stored⟩
      else
        let slotC := slotChar slot
        ⟨slotC.bootpart,
          { spl with abSlotC := slotC, abPart := slotC.bootpart },
          stored⟩

/-! ## The dead-man switch -/

/-- `spl_start_uboot`: 0 is falcon, 1 is U-Boot proper. -/
def splStartUboot (board : Board) (save : Save)
    (stored : Env) (spl : Spl) : SplResult Int :=
  let ready := splAbEnvReady board stored spl
  let spl := ready.spl
  if ¬ ready.value then ⟨1, spl, stored⟩
  else if spl.ram.getYesno .bootOs ≠ 1 then ⟨1, spl, stored⟩
  else
    let ram := spl.ram.set .bootOs "no"
    -- a failed save only prints a warning
    ⟨0, { spl with ram }, envSave save ram stored⟩

/-! ## Staging the M-core firmware -/

/-- `mcore_pick`: consume `mcore_try`, or follow `mcore_slot`. -/
def mcorePick (board : Board) (save : Save)
    (stored : Env) (spl : Spl) : SplResult (Option Slot) :=
  let ready := splAbEnvReady board stored spl
  let spl := ready.spl
  if ¬ ready.value then ⟨none, spl, stored⟩
  else
    match slotLetter (spl.ram.get .mcoreTry) with
    | some tried =>
        let ram := spl.ram.delete .mcoreTry
        ⟨some tried, { spl with ram, mcoreTried := some tried },
          envSave save ram stored⟩
    | none => ⟨slotLetter (spl.ram.get .mcoreSlot), spl, stored⟩

/-- `spl_mcore_stage`. -/
def splMcoreStage (board : Board) (save : Save)
    (stored : Env) (spl : Spl) : SplResult Unit :=
  if spl.mcoreDone then ⟨(), spl, stored⟩
  else
    let picked :=
      mcorePick board save stored { spl with mcoreDone := true, staged := none }
    let spl := picked.spl
    match picked.value with
    | none => ⟨(), spl, picked.stored⟩
    | some sel =>
        if ¬ board.mcorePart then ⟨(), spl, picked.stored⟩
        else
          match (board.mcoreFile sel).bind
              (McoreImage.splCheck board.crc32) with
          | none => ⟨(), spl, picked.stored⟩
          | some firmware =>
              ⟨(),
                { spl with
                  staged := some firmware.payload
                  mcoreLoaded := some sel
                  mcoreVer := firmware.version },
                picked.stored⟩

/-! ## What the kernel is told -/

/-- The properties the falcon path writes into `/chosen`. -/
structure Chosen where
  /-- `ab,boot-path` is `falcon`. -/
  falcon : Bool
  abSlot : Option Slot
  abTry : Bool
  mcoreSlot : Option Slot
  mcoreVersion : Option Nat
  mcoreTry : Option Slot

/-- U-Boot proper writes none of the properties. -/
def Chosen.proper : Chosen where
  falcon := false
  abSlot := none
  abTry := false
  mcoreSlot := none
  mcoreVersion := none
  mcoreTry := none

/-- `ab_fixup_fdt` and `spl_mcore_fixup_fdt`. -/
def abFixupFdt (spl : Spl) : Chosen where
  falcon := true
  abSlot := spl.abSlotC
  abTry := spl.abTry
  mcoreSlot := spl.mcoreLoaded
  mcoreVersion := spl.mcoreLoaded.map fun _ => spl.mcoreVer
  mcoreTry := spl.mcoreTried

/-! ## The same functions on the environment they work on -/

namespace Env

/-- The SPL takes the boot for an OTA try. -/
abbrev InTrial (env : Env) : Prop :=
  env.getYesno .upgradeAvailable = 1

/-- The number this boot has among the tries, as the SPL counts it. -/
def nextTry (env : Env) : Nat :=
  (env.getUlong .bootcount 0 + 1) % 2 ^ 64

/-- The tries are used up. -/
abbrev Exhausted (env : Env) : Prop :=
  env.nextTry > env.getUlong .bootlimit 1

/-- `ab_fallback_slot` if it names a slot, else `a`. -/
def fallbackName (env : Env) : String :=
  if slotLetter (env.get .abFallbackSlot) = none then "a"
  else (env.get .abFallbackSlot).getD "a"

/-- Back to the fallback slot, out of the trial. -/
def fallBack (env : Env) : Env :=
  ((env.set .abSlot env.fallbackName).set .upgradeAvailable "0").set
    .bootcount "0"

/-- One more try counted. -/
def countTry (env : Env) : Env :=
  env.set .bootcount (digitString env.nextTry)

/-- The environment after `spl_mmc_fs_boot_partition` has decided. -/
def picked (env : Env) : Env :=
  if env.InTrial then
    if env.Exhausted then env.fallBack else env.countTry
  else env

/-- The environment after `spl_start_uboot`. -/
def disarmed (env : Env) : Env :=
  if env.getYesno .bootOs = 1 then env.set .bootOs "no" else env

/-- The environment after `mcore_pick`. -/
def untried (env : Env) : Env :=
  if slotLetter (env.get .mcoreTry) = none then env
  else env.delete .mcoreTry

theorem fallbackName_ne_empty (env : Env) : env.fallbackName ≠ "" := by
  rw [fallbackName]
  split_ifs with unnamed
  · decide
  · intro empty
    apply unnamed
    cases value : env.get .abFallbackSlot with
    | none => rfl
    | some text =>
        rw [value, Option.getD_some] at empty
        subst empty
        rfl

@[simp]
theorem get_abSlot_fallBack (env : Env) :
    env.fallBack.get .abSlot = some env.fallbackName := by
  simp [fallBack, fallbackName_ne_empty]

/-- Counting a try touches nothing but the counter. -/
theorem get_countTry_of_ne (env : Env) {name : EnvVar}
    (distinct : name ≠ .bootcount) :
    env.countTry.get name = env.get name := by
  simp [countTry, distinct]

/-- Falling back touches only the three variables of the trial. -/
theorem get_fallBack_of_ne (env : Env) {name : EnvVar}
    (notSlot : name ≠ .abSlot) (notTrial : name ≠ .upgradeAvailable)
    (notCount : name ≠ .bootcount) :
    env.fallBack.get name = env.get name := by
  simp [fallBack, notSlot, notTrial, notCount]

/-- Picking the partition touches only the three variables of the trial. -/
theorem get_picked_of_ne (env : Env) {name : EnvVar}
    (notSlot : name ≠ .abSlot) (notTrial : name ≠ .upgradeAvailable)
    (notCount : name ≠ .bootcount) :
    env.picked.get name = env.get name := by
  rw [picked]
  split_ifs
  · exact get_fallBack_of_ne env notSlot notTrial notCount
  · exact get_countTry_of_ne env notCount
  · rfl

theorem get_disarmed_of_ne (env : Env) {name : EnvVar}
    (notArmed : name ≠ .bootOs) :
    env.disarmed.get name = env.get name := by
  rw [disarmed]
  split_ifs
  · simp [notArmed]
  · rfl

theorem get_untried_of_ne (env : Env) {name : EnvVar}
    (notTry : name ≠ .mcoreTry) :
    env.untried.get name = env.get name := by
  rw [untried]
  split_ifs
  · rfl
  · simp [notTry]

/-- After the dead-man switch `boot_os` is not yes. -/
theorem disarmed_getYesno (env : Env) :
    env.disarmed.getYesno .bootOs ≠ 1 := by
  rw [disarmed]
  split_ifs with armed
  · simp [getYesno]
  · exact armed

end Env

/-- What `env_load` leaves in RAM: the stored block, or the default one. -/
def Board.loaded (board : Board) (stored : Env) : Env :=
  if board.envValid then stored else board.defaultEnv

@[simp]
theorem Board.loaded_of_invalid {board : Board}
    (invalid : board.envValid = false) (stored : Env) :
    board.loaded stored = board.defaultEnv := by
  simp [loaded, invalid]

namespace Spl

/-- The environment the SPL works on: the one it will load until it has. -/
def env (loaded : Env) (spl : Spl) : Env :=
  match spl.abEnvState with
  | .unread => loaded
  | .ready => spl.ram
  | .unusable => spl.ram

/-- `env_init` has not failed in this run. -/
def Live (spl : Spl) : Prop :=
  spl.abEnvState ≠ .unusable

end Spl

theorem splAbEnvReady_of_live {board : Board}
    (init : board.envInit = true) (stored : Env) {spl : Spl}
    (live : spl.Live) :
    splAbEnvReady board stored spl =
      ⟨true,
        { spl with ram := spl.env (board.loaded stored), abEnvState := .ready },
        stored⟩ := by
  cases spl with
  | mk ram abEnvState abSlotC abTry abPart =>
      cases abEnvState with
      | unread => simp [splAbEnvReady, Spl.env, init, Board.loaded]
      | ready => rfl
      | unusable => exact absurd rfl live

/-- Once decided, the partition is returned again and nothing is counted. -/
theorem splMmcFsBootPartition_decided {spl : Spl}
    (decided : spl.abPart ≠ 0) (board : Board) (save : Save) (stored : Env) :
    splMmcFsBootPartition board save stored spl =
      ⟨spl.abPart, spl, stored⟩ := by
  simp [splMmcFsBootPartition, decided]

/-- The deciding call, on the environment the SPL works on. -/
theorem splMmcFsBootPartition_undecided
    {board : Board} (init : board.envInit = true) {spl : Spl} (live : spl.Live)
    (undecided : spl.abPart = 0) (save : Save) (stored : Env) :
    splMmcFsBootPartition board save stored spl =
      let env := spl.env (board.loaded stored)
      let slot := slotChar (env.picked.get .abSlot)
      ⟨slot.bootpart,
        { spl with
          ram := env.picked
          abEnvState := .ready
          abSlotC := some slot
          abTry := spl.abTry || decide (env.InTrial ∧ ¬ env.Exhausted)
          abPart := slot.bootpart },
        if env.InTrial then envSave save env.picked stored else stored⟩ := by
  simp only [splMmcFsBootPartition, undecided, ne_eq, not_true_eq_false,
    if_false, splAbEnvReady_of_live init stored live]
  generalize spl.env (board.loaded stored) = env
  by_cases trial : env.InTrial
  · by_cases exhausted : env.Exhausted
    · have fallBack : env.picked = env.fallBack := by
        rw [Env.picked, if_pos trial, if_pos exhausted]
      have overLimit :
          (env.getUlong .bootcount 0 + 1) % 2 ^ 64 >
            env.getUlong .bootlimit 1 := exhausted
      rw [if_pos trial, if_pos overLimit, fallBack,
        Env.get_abSlot_fallBack]
      simp [trial, exhausted, Env.fallBack, Env.fallbackName]
    · have counted : env.picked = env.countTry := by
        rw [Env.picked, if_pos trial, if_neg exhausted]
      have withinLimit :
          ¬ (env.getUlong .bootcount 0 + 1) % 2 ^ 64 >
            env.getUlong .bootlimit 1 := exhausted
      have counts : decide (env.InTrial ∧ ¬ env.Exhausted) = true :=
        decide_eq_true ⟨trial, exhausted⟩
      rw [if_pos trial, if_neg withinLimit, counts, counted,
        Env.get_countTry_of_ne env (by decide)]
      simp [trial, Env.countTry, Env.nextTry]
  · have kept : env.picked = env := by
      rw [Env.picked, if_neg trial]
    rw [if_neg trial, kept]
    simp [trial]

/-- `spl_start_uboot`, on the environment the SPL works on. -/
theorem splStartUboot_of_live
    {board : Board} (init : board.envInit = true) {spl : Spl} (live : spl.Live)
    (save : Save) (stored : Env) :
    splStartUboot board save stored spl =
      let env := spl.env (board.loaded stored)
      ⟨if env.getYesno .bootOs = 1 then 0 else 1,
        { spl with ram := env.disarmed, abEnvState := .ready },
        if env.getYesno .bootOs = 1 then envSave save env.disarmed stored
        else stored⟩ := by
  simp only [splStartUboot, splAbEnvReady_of_live init stored live]
  generalize spl.env (board.loaded stored) = env
  by_cases armed : env.getYesno .bootOs = 1 <;>
    simp [armed, Env.disarmed]

/-- `mcore_pick`, on the environment the SPL works on. -/
theorem mcorePick_of_live
    {board : Board} (init : board.envInit = true) {spl : Spl} (live : spl.Live)
    (save : Save) (stored : Env) :
    mcorePick board save stored spl =
      let env := spl.env (board.loaded stored)
      let ticket := slotLetter (env.get .mcoreTry)
      ⟨ticket <|> slotLetter (env.get .mcoreSlot),
        { spl with
          ram := env.untried
          abEnvState := .ready
          mcoreTried := ticket <|> spl.mcoreTried },
        if ticket = none then stored
        else envSave save env.untried stored⟩ := by
  simp only [mcorePick, splAbEnvReady_of_live init stored live]
  generalize spl.env (board.loaded stored) = env
  cases ticket : slotLetter (env.get .mcoreTry) with
  | none => simp [Env.untried, ticket]
  | some tried => simp [Env.untried, ticket]

/-- The valid firmware of a slot, if the SPL can read one. -/
def Board.firmware (board : Board) (slot : Slot) :
    Option McoreImage.Firmware :=
  if board.mcorePart then
    (board.mcoreFile slot).bind (McoreImage.splCheck board.crc32)
  else none

/-- `spl_mcore_stage`, on the environment the SPL works on. -/
theorem splMcoreStage_of_live
    {board : Board} (init : board.envInit = true) {spl : Spl} (live : spl.Live)
    (first : spl.mcoreDone = false) (save : Save) (stored : Env) :
    splMcoreStage board save stored spl =
      let env := spl.env (board.loaded stored)
      let ticket := slotLetter (env.get .mcoreTry)
      let found :=
        (ticket <|> slotLetter (env.get .mcoreSlot)).bind fun sel =>
          (board.firmware sel).map fun firmware => (sel, firmware)
      ⟨(),
        { spl with
          ram := env.untried
          abEnvState := .ready
          mcoreDone := true
          mcoreTried := ticket <|> spl.mcoreTried
          staged := found.map fun pair => pair.2.payload
          mcoreLoaded := (found.map Prod.fst) <|> spl.mcoreLoaded
          mcoreVer := (found.map fun pair => pair.2.version).getD spl.mcoreVer },
        if ticket = none then stored
        else envSave save env.untried stored⟩ := by
  have liveNow :
      ({ spl with mcoreDone := true, staged := none } : Spl).Live := live
  have sameEnv :
      ({ spl with mcoreDone := true, staged := none } : Spl).env
          (board.loaded stored) =
        spl.env (board.loaded stored) := rfl
  simp only [splMcoreStage, first, mcorePick_of_live init liveNow, sameEnv]
  generalize spl.env (board.loaded stored) = env
  cases pick :
      (slotLetter (env.get .mcoreTry) <|> slotLetter (env.get .mcoreSlot)) with
  | none => simp
  | some sel =>
      by_cases present : board.mcorePart = true
      · cases checked :
            (board.mcoreFile sel).bind (McoreImage.splCheck board.crc32) with
        | none =>
            have unreadable : board.firmware sel = none := by
              rw [Board.firmware, if_pos present, checked]
            simp [present, checked, unreadable]
        | some firmware =>
            have readable : board.firmware sel = some firmware := by
              rw [Board.firmware, if_pos present, checked]
            simp [present, checked, readable]
      · have unreadable : board.firmware sel = none := by
          rw [Board.firmware, if_neg present]
        simp [present, unreadable]

/-- A second `spl_mcore_stage` in the same SPL run does nothing. -/
theorem splMcoreStage_done {spl : Spl} (done : spl.mcoreDone = true)
    (board : Board) (save : Save) (stored : Env) :
    splMcoreStage board save stored spl = ⟨(), spl, stored⟩ := by
  simp [splMcoreStage, done]

end KmmYocto
