import KmmYocto.Trace
import KmmYocto.KeyedLines
import KmmYocto.FirstSplit

/-!
# The standard EEPROM settings of the RPi5

`eeprom-setup` copies the configuration of the bootloader, puts each of its
settings in place with grep, sed and echo, and stages the result; the
bootloader applies it on the next reboot.  If nothing differs, it removes the
files of an update from `/boot`.

`echo` appends behind the last character, so a configuration whose last line
is not ended would lose the last line and the setting.
-/

namespace KmmYocto

namespace EepromSetup

/-- A text in lines; the last one may lack its line break. -/
structure Conf where
  lines : List (List Char)
  ended : Bool
deriving DecidableEq

/-- `SETTINGS`. -/
def settings : List (List Char) :=
  ["BOOT_ORDER=0xf16", "PSU_MAX_CURRENT=5000", "DISABLE_HDMI=1",
    "boot_partition=1", "BOOT_UART=1", "POWER_OFF_ON_HALT=0"].map String.toList

/-- `${kv%%=*}`. -/
def key (kv : List Char) : List Char :=
  FirstSplit.upTo '=' kv

/-- The line matches `^${key}=`. -/
def matchesKey (name line : List Char) : Bool :=
  (name ++ ['=']).isPrefixOf line

/-- The body of the loop over `SETTINGS`. -/
def put (conf : Conf) (kv : List Char) : Conf :=
  if conf.lines.any (matchesKey (key kv)) then
    { conf with
      lines := conf.lines.map fun line =>
        if matchesKey (key kv) line then kv else line }
  else if conf.ended = true ∨ conf.lines = [] then
    { lines := conf.lines ++ [kv], ended := true }
  else
    { lines := conf.lines.dropLast ++ [conf.lines.getLastD [] ++ kv]
      ended := true }

/-- `$new`. -/
def configured (conf : Conf) : Conf :=
  settings.foldl put conf

/-- The bootloader's configuration, and the update on `/boot`. -/
structure Pi where
  config : Conf
  /-- `pieeprom.upd` with its companions. -/
  upd : Option Conf

/-- What happens to the board. -/
inductive Event where
  | setup (check : Bool)
  /-- A reboot, in which the bootloader takes the update or fails to. -/
  | reboot (taken : Bool)
deriving DecidableEq

/-- `eeprom-setup`, with `--check` or without. -/
def eepromSetup (check : Bool) (pi : Pi) : Pi :=
  let new := configured pi.config
  if new = pi.config then { pi with upd := none }
  else if check then pi
  else { pi with upd := some new }

/-- The bootloader applies an update and leaves its files. -/
def reboot (taken : Bool) (pi : Pi) : Pi :=
  if taken then { pi with config := pi.upd.getD pi.config } else pi

def step (pi : Pi) : Event → Pi
  | .setup check => eepromSetup check pi
  | .reboot taken => reboot taken pi

/-! ## Lines and keys -/

/-- The key of a line that has the form of a setting. -/
def owner (line : List Char) : Option (List Char) :=
  if '=' ∈ line then some (key line) else none

theorem owner_append {name rest : List Char} (plain : '=' ∉ name) :
    owner (name ++ '=' :: rest) = some name := by
  rw [owner, if_pos (List.mem_append_right _ List.mem_cons_self), key,
    FirstSplit.upTo_append plain]

/-- grep finds the lines of the key. -/
theorem matchesKey_iff {name line : List Char} (plain : '=' ∉ name) :
    matchesKey name line = true ↔ owner line = some name := by
  rw [matchesKey, List.isPrefixOf_iff_prefix]
  constructor
  · rintro ⟨rest, rfl⟩
    rw [List.append_assoc]
    exact owner_append plain
  · intro found
    rw [owner] at found
    split_ifs at found with holds
    obtain rfl := Option.some.inj found
    refine ⟨FirstSplit.past '=' line, ?_⟩
    rw [List.append_assoc]
    exact FirstSplit.upTo_append_past holds

/-! ## Putting the settings in place -/

/-- A setting has a key. -/
theorem owner_setting : ∀ kv ∈ settings, owner kv = some (key kv) := by
  intro kv member
  have holds : ∀ kv ∈ settings, '=' ∈ kv := by decide +kernel
  exact if_pos (holds kv member)

theorem settings_distinct :
    settings.Pairwise fun first second =>
      ¬ KeyedLines.Same owner first second := by
  decide +kernel

/-- On a text that ends its last line, a setting is put among the lines. -/
theorem put_eq {conf : Conf} (ended : conf.ended = true) {kv : List Char}
    (found : owner kv = some (key kv)) :
    put conf kv = ⟨KeyedLines.upsert owner conf.lines kv, true⟩ := by
  have same : ∀ line, matchesKey (key kv) line = true ↔
      KeyedLines.Same owner kv line := by
    intro line
    rw [key, matchesKey_iff FirstSplit.sep_notMem_upTo, KeyedLines.Same,
      found, key]
  have every : (conf.lines.any (matchesKey (key kv))) =
      conf.lines.any fun line => decide (KeyedLines.Same owner kv line) := by
    refine congrArg (conf.lines.any ·) (funext fun line => ?_)
    rw [Bool.eq_iff_iff, same, decide_eq_true_eq]
  rw [put, KeyedLines.upsert, every]
  split_ifs with present appends
  · simp only [same, ended]
  · rfl
  · exact absurd (.inl ended) appends

theorem configured_eq {conf : Conf} (ended : conf.ended = true) :
    configured conf = ⟨KeyedLines.upsertAll owner conf.lines settings, true⟩ := by
  have loop : ∀ (list : List (List Char)) (conf : Conf),
      (∀ kv ∈ list, owner kv = some (key kv)) → conf.ended = true →
        list.foldl put conf =
          ⟨KeyedLines.upsertAll owner conf.lines list, true⟩ := by
    intro list
    induction list with
    | nil =>
        intro conf _ ended
        rw [List.foldl_nil, KeyedLines.upsertAll, List.foldl_nil, ← ended]
    | cons kv rest induction =>
        intro conf keys ended
        rw [List.forall_mem_cons] at keys
        rw [List.foldl_cons, put_eq ended keys.1, induction _ keys.2 rfl]
        rfl
  exact loop settings conf owner_setting ended

/-- Putting the settings in place again changes nothing. -/
theorem configured_configured {conf : Conf} (ended : conf.ended = true) :
    configured (configured conf) = configured conf := by
  rw [configured_eq ended, configured_eq rfl,
    KeyedLines.upsertAll_upsertAll settings_distinct]

/-- The line belongs to none of the settings. -/
def foreign (line : List Char) : Bool :=
  settings.all fun kv => ! decide (KeyedLines.Same owner kv line)

/-! ## From the first run to a configured board -/

section Run

variable
    {pi : Pi} {check : Bool}

/-- A run that finds the settings in place removes the update. -/
theorem eepromSetup_of_eq (same : configured pi.config = pi.config) :
    eepromSetup check pi = ⟨pi.config, none⟩ :=
  if_pos same

/-- A run that finds a difference stages the update, unless it only checks. -/
theorem eepromSetup_of_ne (differs : configured pi.config ≠ pi.config) :
    eepromSetup check pi =
      if check then pi else ⟨pi.config, some (configured pi.config)⟩ :=
  if_neg differs

/-- A board with the settings in place, and no update but this one. -/
def Settled (conf : Conf) (pi : Pi) : Prop :=
  pi.config = conf ∧ (pi.upd = none ∨ pi.upd = some conf)

/-- The update is on `/boot`, or the bootloader has taken it. -/
def Settling (first : Conf) (pi : Pi) : Prop :=
  pi.config = first ∧ pi.upd = some (configured first) ∨
    Settled (configured first) pi

variable
    {conf first : Conf}

theorem Settled.step (settled : Settled conf pi)
    (same : configured conf = conf) (event : Event) :
    Settled conf (EepromSetup.step pi event) := by
  obtain ⟨config, upd⟩ := pi
  obtain ⟨rfl, update⟩ := settled
  cases event with
  | setup check =>
      rw [EepromSetup.step, eepromSetup_of_eq same]
      exact ⟨rfl, .inl rfl⟩
  | reboot taken =>
      cases taken with
      | false => exact ⟨rfl, update⟩
      | true =>
          rcases update with none | some
          · exact ⟨by rw [EepromSetup.step, reboot, if_pos rfl, none]; rfl,
              .inl none⟩
          · exact ⟨by rw [EepromSetup.step, reboot, if_pos rfl, some]; rfl,
              .inr some⟩

theorem Settled.run (settled : Settled conf pi)
    (same : configured conf = conf) (events : List Event) :
    Settled conf (Trace.run EepromSetup.step pi events) :=
  @Trace.run_of_step _ _ EepromSetup.step (Settled conf)
    (fun _ event held => held.step same event) _ settled events

theorem Settling.step (settling : Settling first pi)
    (ended : first.ended = true) (event : Event) :
    Settling first (EepromSetup.step pi event) := by
  rcases settling with ⟨config, update⟩ | settled
  · cases event with
    | setup check =>
        rw [EepromSetup.step]
        by_cases same : configured pi.config = pi.config
        · rw [eepromSetup_of_eq same, config]
          rw [config] at same
          exact .inr ⟨same.symm, .inl rfl⟩
        · rw [eepromSetup_of_ne same]
          left
          split_ifs
          · exact ⟨config, update⟩
          · exact ⟨config, by rw [config]⟩
    | reboot taken =>
        cases taken with
        | false => exact .inl ⟨config, update⟩
        | true =>
            refine .inr ⟨?_, .inr update⟩
            rw [EepromSetup.step, reboot, if_pos rfl, update]
            rfl
  · exact .inr (settled.step (configured_configured ended) event)

/-- A reboot that takes the update ends the settling. -/
theorem Settling.settled_reboot (settling : Settling first pi)
    (ended : first.ended = true) :
    Settled (configured first) (EepromSetup.step pi (.reboot true)) := by
  rcases settling with ⟨-, update⟩ | settled
  · refine ⟨?_, .inr update⟩
    rw [EepromSetup.step, reboot, if_pos rfl, update]
    rfl
  · exact settled.step (configured_configured ended) (.reboot true)

/-- A run without `--check` starts the settling. -/
theorem settling_setup (pi : Pi) :
    Settling pi.config (EepromSetup.step pi (.setup false)) := by
  rw [EepromSetup.step]
  by_cases same : configured pi.config = pi.config
  · rw [eepromSetup_of_eq same]
    exact .inr ⟨same.symm, .inl rfl⟩
  · rw [eepromSetup_of_ne same]
    exact .inl ⟨rfl, rfl⟩

theorem settled_run (ended : pi.config.ended = true)
    (before after : List Event) :
    Settled (configured pi.config)
      (Trace.run EepromSetup.step pi
        (.setup false :: before ++ .reboot true :: after)) := by
  have staged :
      Settling pi.config
        (Trace.run EepromSetup.step pi (.setup false :: before)) :=
    @Trace.run_of_step _ _ EepromSetup.step (Settling pi.config)
      (fun _ event held => held.step ended event) _ (settling_setup pi) before
  rw [Trace.run_append, Trace.run_cons]
  exact
    (staged.settled_reboot ended).run (configured_configured ended) after

end Run

/--
A run of `eeprom-setup`, any runs and failed reboots, and a reboot that takes
the update: from then on, whatever follows, each setting is there and is every
line of its key, all other lines are as they were, no run stages anything else, and
the next run leaves `/boot` without update files.
-/
theorem settles (pi : Pi) (ended : pi.config.ended = true)
    (before after : List Event) :
    ∃ config upd,
      Trace.run step pi (.setup false :: before ++ .reboot true :: after) =
          ⟨config, upd⟩ ∧
        (∀ kv ∈ settings, KeyedLines.Meets owner config.lines kv) ∧
        config.lines.filter foreign = pi.config.lines.filter foreign ∧
        (upd = none ∨ upd = some config) ∧
        ∀ check, step ⟨config, upd⟩ (.setup check) = ⟨config, none⟩ := by
  obtain ⟨config, update⟩ := settled_run ended before after
  generalize Trace.run step pi
    (.setup false :: before ++ .reboot true :: after) = final at config update
  obtain ⟨conf, upd⟩ := final
  have lines : conf.lines =
      KeyedLines.upsertAll owner pi.config.lines settings := by
    rw [show conf = configured pi.config from config, configured_eq ended]
  refine ⟨conf, upd, rfl, ?_, ?_, ?_, ?_⟩
  · rw [lines]
    exact KeyedLines.meets_upsertAll settings_distinct
  · rw [lines]
    apply KeyedLines.filter_upsertAll
    intro kv member line same
    rw [foreign, List.all_eq_false]
    exact ⟨kv, member, by simp [same]⟩
  · rw [← show conf = configured pi.config from config] at update
    exact update
  · intro check
    have same : configured conf = conf := by
      rw [show conf = configured pi.config from config,
        configured_configured ended]
    exact @eepromSetup_of_eq ⟨conf, upd⟩ check same

end EepromSetup

namespace Bench

open EepromSetup

/-- A board with a setting that differs and a line of its own. -/
def newPi : Pi where
  config := ⟨["[all]".toList, "BOOT_UART=0".toList, "WAKE=1".toList], true⟩
  upd := none

theorem newPi_settles :
    ∃ config upd,
      Trace.run EepromSetup.step newPi
          (.setup false :: [.reboot false, .setup true] ++
            .reboot true :: [.setup false]) = ⟨config, upd⟩ ∧
        KeyedLines.Meets owner config.lines "BOOT_UART=1".toList := by
  obtain ⟨config, upd, final, meets, -⟩ :=
    settles newPi rfl [.reboot false, .setup true] [.setup false]
  exact ⟨config, upd, final, meets _ (by decide +kernel)⟩

end Bench

end KmmYocto
