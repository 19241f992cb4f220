import KmmYocto.LinuxSlots

/-!
# A damaged environment

When neither stored copy has a valid checksum, `env_load` installs the
built-in default environment and reports an error.  `spl_ab_env_ready` ignores
the error, so the SPL decides by the default environment and never looks at
the MBR.
-/

namespace KmmYocto

/-- The board's store is there, but neither copy is valid. -/
structure Board.Damaged (board : Board) : Prop where
  init : board.envInit = true
  invalid : board.envValid = false

/-- What the SPL answers from power-on: the partition, then falcon or proper. -/
def splAnswers (board : Board) (saves : Save × Save) (stored : Env) :
    Int × Int :=
  let picked := splMmcFsBootPartition board saves.1 stored Spl.start
  (picked.value,
    (splStartUboot board saves.2 picked.stored picked.spl).value)

/-- With a damaged store both answers come from the default environment. -/
theorem splAnswers_damaged {board : Board} (damaged : board.Damaged)
    (saves : Save × Save) (stored : Env) :
    splAnswers board saves stored =
      (((slotChar (board.defaultEnv.picked.get .abSlot)).bootpart : Int),
        if board.defaultEnv.getYesno .bootOs = 1 then 0 else 1) := by
  have picks :=
    splMmcFsBootPartition_undecided damaged.init Spl.live_start rfl saves.1
      stored
  simp only [Board.loaded_of_invalid damaged.invalid, Spl.env_start] at picks
  have read :
      board.defaultEnv.picked.getYesno .bootOs =
        board.defaultEnv.getYesno .bootOs := by
    rw [Env.getYesno, Env.getYesno,
      Env.get_picked_of_ne board.defaultEnv (by decide) (by decide)
        (by decide)]
  have live :
      (splMmcFsBootPartition board saves.1 stored Spl.start).spl.Live := by
    rw [picks]
    exact Spl.live_afterPick _ _
  have decides :=
    splStartUboot_of_live damaged.init live saves.2
      (splMmcFsBootPartition board saves.1 stored Spl.start).stored
  rw [splAnswers, decides, picks]
  simp only [Spl.env, read]

/-- The slot the default environment selects; without `ab_slot`, slot a. -/
theorem slotChar_picked_of_no_slot {env : Env}
    (noSlot : env.get .abSlot = none) :
    slotChar (env.picked.get .abSlot) =
      if env.InTrial ∧ env.Exhausted then slotChar (some env.fallbackName)
      else .a := by
  by_cases trial : env.InTrial
  · by_cases exhausted : env.Exhausted
    · rw [Env.picked, if_pos trial, if_pos exhausted,
        Env.get_abSlot_fallBack, if_pos ⟨trial, exhausted⟩]
    · rw [Env.picked, if_pos trial, if_neg exhausted,
        Env.get_countTry_of_ne env (by decide), noSlot]
      simp [exhausted, slotChar]
  · rw [Env.picked, if_neg trial, noSlot]
    simp [trial, slotChar]

/--
With a damaged store the SPL follows the flagged entry and stays out of falcon
exactly when the default environment selects that entry's slot (slot a, unless
it carries a used-up trial) and does not set `boot_os`.
-/
theorem splAnswers_follow_mbr_iff {board : Board} {slot : Slot}
    (damaged : board.Damaged) (noSlot : board.defaultEnv.get .abSlot = none)
    (only : board.mbr.OnlyFlagged slot) (saves : Save × Save)
    (stored : Env) :
    splAnswers board saves stored =
        (board.mbr.splMmcFirstBootablePartition board.logical, 1) ↔
      slot =
          (if board.defaultEnv.InTrial ∧ board.defaultEnv.Exhausted then
            slotChar (some board.defaultEnv.fallbackName)
          else .a) ∧
        board.defaultEnv.getYesno .bootOs ≠ 1 := by
  rw [splAnswers_damaged damaged,
    Mbr.splMmcFirstBootablePartition_of_onlyFlagged only,
    ← slotChar_picked_of_no_slot noSlot, Prod.mk.injEq]
  generalize slotChar (board.defaultEnv.picked.get .abSlot) = selected
  apply and_congr
  · rw [Int.natCast_inj, Slot.bootpart_inj]
    exact eq_comm
  · split_ifs with armed <;> simp [armed]

/-- A board whose store is damaged and whose MBR flags the slot. -/
def Bench.damagedBoard (slot : Slot) : Board where
  envInit := true
  envValid := false
  defaultEnv := Bench.platform.defaultEnv
  mbr := Bench.mbr slot
  logical := Bench.platform.logical
  mcorePart := true
  mcoreFile _ := none
  crc32 := Bench.platform.crc32

/-- On a device that runs slot b, the flagged entry is not followed. -/
theorem splAnswers_damaged_not_mbr :
    ¬ ∀ board slot, board.Damaged → board.defaultEnv.get .abSlot = none →
      board.mbr.OnlyFlagged slot → ∀ saves stored,
        splAnswers board saves stored =
          (board.mbr.splMmcFirstBootablePartition board.logical, 1) := by
  intro follows
  have answers :=
    follows (Bench.damagedBoard .b) .b ⟨rfl, rfl⟩ rfl
      (Bench.mbr_onlyFlagged .b) (.stored, .stored) shippedEnv
  exact absurd answers (by decide +kernel)

/-- On a device that runs slot a, it is. -/
theorem splAnswers_damaged_a :
    splAnswers (Bench.damagedBoard .a) (.stored, .stored) shippedEnv =
      ((Bench.damagedBoard .a).mbr.splMmcFirstBootablePartition
        (Bench.damagedBoard .a).logical, 1) :=
  (@splAnswers_follow_mbr_iff (Bench.damagedBoard .a) .a ⟨rfl, rfl⟩ rfl
    (Bench.mbr_onlyFlagged .a) (.stored, .stored) shippedEnv).mpr
    (by decide +kernel)

end KmmYocto
