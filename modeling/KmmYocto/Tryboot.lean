import KmmYocto.RunningSlot
import KmmYocto.Trace

/-!
# The slots of the RPi5

On the RPi5 the firmware chooses the slot: it reads `autoboot.txt` on p1 and
takes the partition under `[all]`, or the one under `[tryboot]` for the one boot
that follows on `reboot '0 tryboot'`.  `ab-commit` makes the running slot the
permanent one by writing the file anew with both names exchanged.

The new text is renamed over the old one, which the FAT does in one step; a
power cut leaves the one text or the other.  A write can also get lost without
an error, so `ab-commit` mounts p1 once more and reads the file back.  The
firmware is an argument, as is the file `autoboot.txt.new`, which nothing reads.
-/

namespace KmmYocto

/-- The partition that `autoboot.txt` names for a slot. -/
def Slot.autobootPart : Slot → Nat
  | .a => 2
  | .b => 3

namespace Tryboot

/-! ## `autoboot.txt` -/

/-- The lines that `ab-commit` writes to make a slot the permanent one. -/
def selector (slot : Slot) : List (List Char) :=
  ["[all]".toList, "tryboot_a_b=1".toList,
    "boot_partition=".toList ++ Nat.toDigits 10 slot.autobootPart,
    "[tryboot]".toList,
    "boot_partition=".toList ++ Nat.toDigits 10 slot.other.autobootPart]

/-- The file that `generate_autoboot_image` puts on p1. -/
def autobootTxt : List (List Char) :=
  ["[all]".toList, "tryboot_a_b=1".toList, "boot_partition=2".toList,
    "[tryboot]".toList, "boot_partition=3".toList]

/-- `/^\[all\]/,/^\[/`: the end is looked for from the next line on. -/
def allSection (inside : Bool) : List (List Char) → List (List Char)
  | [] => []
  | line :: rest =>
      if inside = true then
        line :: allSection (!"[".toList.isPrefixOf line) rest
      else if "[all]".toList.isPrefixOf line = true then
        line :: allSection true rest
      else allSection false rest

/-- `current` and `verify`: what sed prints first. -/
def bootPartition (lines : List (List Char)) : List Char :=
  ((allSection false lines).filterMap fun line =>
    line.dropPrefix? "boot_partition=".toList).headD []

/-! ## `ab-commit` -/

/-- What happens to `ab-commit`; `landed` is whether its text is on the disk. -/
inductive CommitFate where
  /-- A command fails, such as one of the mounts. -/
  | fails (landed : Bool)
  | cut (landed : Bool)
  | ended (landed : Bool)

inductive CommitResult where
  | succeeded
  | failed
  | stopped
deriving DecidableEq

/-- `SLOT`: `*root=*p6*` comes first. -/
def runningSlot (cmdline : CommandLine) : Option Slot :=
  match Text.after "root=".toList cmdline.text with
  | some rest =>
      if (Text.after "p6".toList rest).isSome then some .b
      else if (Text.after "p5".toList rest).isSome then some .a
      else none
  | none => none

/-- `ab-commit`: its exit status and the file it leaves on p1. -/
def abCommit (cmdline : CommandLine) (disk : List (List Char)) :
    CommitFate → CommitResult × List (List Char) :=
  fun fate =>
    match runningSlot cmdline with
    | none => (.failed, disk)
    | some slot =>
        let runBoot := Nat.toDigits 10 slot.autobootPart
        let stored (landed : Bool) :=
          if bootPartition disk ≠ runBoot ∧ landed = true then selector slot
          else disk
        match fate with
        | .fails landed => (.failed, stored landed)
        | .cut landed => (.stopped, stored landed)
        | .ended landed =>
            -- without a difference nothing is written, and nothing is read back
            if bootPartition disk = runBoot then (.succeeded, disk)
            else if bootPartition (stored landed) = runBoot then
              (.succeeded, stored landed)
            else (.failed, stored landed)

theorem autobootTxt_eq : autobootTxt = selector .a := by
  decide

@[simp]
theorem bootPartition_selector (slot : Slot) :
    bootPartition (selector slot) = Nat.toDigits 10 slot.autobootPart := by
  cases slot <;> decide

@[simp]
theorem toDigits_autobootPart_inj {slot other : Slot} :
    Nat.toDigits 10 slot.autobootPart = Nat.toDigits 10 other.autobootPart ↔
      slot = other := by
  cases slot <;> cases other <;> decide

/-- One of the two texts is left, the running slot's one after a success. -/
theorem abCommit_selector {cmdline : CommandLine} {slot : Slot}
    (knows : runningSlot cmdline = some slot) (named : Slot)
    (fate : CommitFate) :
    ((abCommit cmdline (selector named) fate).2 = selector named ∨
        (abCommit cmdline (selector named) fate).2 = selector slot) ∧
      ((abCommit cmdline (selector named) fate).1 = .succeeded →
        (abCommit cmdline (selector named) fate).2 = selector slot) := by
  simp only [abCommit, knows, bootPartition_selector, ne_eq,
    toDigits_autobootPart_inj]
  by_cases same : named = slot
  · subst same
    cases fate <;> simp
  · cases fate with
    | fails landed => cases landed <;> simp [same]
    | cut landed => cases landed <;> simp [same]
    | ended landed => cases landed <;> simp [same]

end Tryboot

/-! ## The board -/

/-- The firmware, and the command line that a slot is booted with. -/
structure PiFirmware where
  /-- The partition it boots, with the tryboot flag or without. -/
  select : Bool → List (List Char) → Option Nat
  cmdline : Slot → CommandLine

namespace PiFirmware

/-- The slot that a boot comes to. -/
def boots (firmware : PiFirmware) (tryboot : Bool) (disk : List (List Char)) :
    Option Slot :=
  match firmware.select tryboot disk with
  | some 2 => some .a
  | some 3 => some .b
  | _ => none

/-- The firmware reads the file as it is meant, and a slot knows its name. -/
structure Reads (firmware : PiFirmware) : Prop where
  all : ∀ slot,
    firmware.select false (Tryboot.selector slot) = some slot.autobootPart
  tryboot : ∀ slot,
    firmware.select true (Tryboot.selector slot) =
      some slot.other.autobootPart
  cmdline : ∀ slot,
    Tryboot.runningSlot (firmware.cmdline slot) = some slot

end PiFirmware

/-- An RPi5: the file on p1, and the slot that runs. -/
structure Pi5 where
  disk : List (List Char)
  running : Option Slot

/-- Any reset is a plain boot: the tryboot flag does not outlive it. -/
inductive Pi5Event where
  | boot (tryboot : Bool)
  | commit (fate : Tryboot.CommitFate)

namespace Pi5

/-- The board as it was flashed. -/
def flashed : Pi5 where
  disk := Tryboot.autobootTxt
  running := none

def step (firmware : PiFirmware) (pi : Pi5) : Pi5Event → Pi5
  | .boot tryboot => { pi with running := firmware.boots tryboot pi.disk }
  | .commit fate =>
      match pi.running with
      | none => pi
      | some slot =>
          let outcome := Tryboot.abCommit (firmware.cmdline slot) pi.disk fate
          { disk := outcome.2
            running := if outcome.1 = .stopped then none else some slot }

/-- `ab-commit` is run, and it succeeds. -/
def Succeeds (firmware : PiFirmware) (pi : Pi5) (fate : Tryboot.CommitFate) :
    Prop :=
  ∃ slot, pi.running = some slot ∧
    (Tryboot.abCommit (firmware.cmdline slot) pi.disk fate).1 = .succeeded

/-- The slot of every boot from now on that is not a tryboot. -/
def permanent (firmware : PiFirmware) (pi : Pi5) : Option Slot :=
  firmware.boots false pi.disk

/-- What a step does, whatever becomes of it. -/
structure Kept (firmware : PiFirmware) (pi : Pi5) (event : Pi5Event) :
    Prop where
  /-- There is a slot to boot, and a tryboot goes to the other one. -/
  boots : ∃ slot, pi.permanent firmware = some slot ∧
    firmware.boots true pi.disk = some slot.other
  /-- Only `ab-commit` changes the permanent slot, to the one that runs. -/
  changes :
    (pi.step firmware event).permanent firmware = pi.permanent firmware ∨
      (∃ fate, event = .commit fate) ∧
        (pi.step firmware event).permanent firmware = pi.running
  /-- If it succeeds, the running slot is the permanent one. -/
  succeeds : ∀ fate, event = .commit fate → pi.Succeeds firmware fate →
    (pi.step firmware event).permanent firmware = pi.running

variable {firmware : PiFirmware}

theorem boots_selector (reads : firmware.Reads) (slot : Slot) :
    firmware.boots false (Tryboot.selector slot) = some slot ∧
      firmware.boots true (Tryboot.selector slot) = some slot.other := by
  simp only [PiFirmware.boots, reads.all, reads.tryboot]
  cases slot <;> exact ⟨rfl, rfl⟩

/-- The file on p1 is one of the two texts. -/
def Named (pi : Pi5) : Prop :=
  ∃ slot, pi.disk = Tryboot.selector slot

theorem named_step (reads : firmware.Reads) {pi : Pi5} (named : pi.Named)
    (event : Pi5Event) : (pi.step firmware event).Named := by
  obtain ⟨slot, onDisk⟩ := named
  cases event with
  | boot tryboot => exact ⟨slot, onDisk⟩
  | commit fate =>
      cases runs : pi.running with
      | none => exact ⟨slot, by simp only [step, runs, onDisk]⟩
      | some running =>
          simp only [step, runs, onDisk, Named]
          obtain ⟨left | left, -⟩ :=
            Tryboot.abCommit_selector (reads.cmdline running) slot fate
          · exact ⟨slot, left⟩
          · exact ⟨running, left⟩

theorem kept_of_named (reads : firmware.Reads) {pi : Pi5} (named : pi.Named)
    (event : Pi5Event) : pi.Kept firmware event := by
  obtain ⟨slot, onDisk⟩ := named
  obtain ⟨plain, tryboot⟩ := boots_selector reads slot
  have before : pi.permanent firmware = some slot := by
    rw [permanent, onDisk, plain]
  refine ⟨⟨slot, before, by rw [onDisk, tryboot]⟩, ?_, ?_⟩
  · cases event with
    | boot tryboot => exact .inl rfl
    | commit fate =>
        cases runs : pi.running with
        | none => exact .inl (by simp only [step, runs])
        | some running =>
            rw [before]
            simp only [step, runs, permanent, onDisk]
            obtain ⟨left | left, -⟩ :=
              Tryboot.abCommit_selector (reads.cmdline running) slot fate
            · exact .inl (by rw [left, plain])
            · exact
                .inr ⟨⟨fate, rfl⟩, by rw [left, (boots_selector reads _).1]⟩
  · rintro fate rfl ⟨running, runs, succeeds⟩
    rw [onDisk] at succeeds
    have left :=
      (Tryboot.abCommit_selector (reads.cmdline running) slot fate).2 succeeds
    simp only [step, runs, permanent, onDisk]
    rw [left, (boots_selector reads running).1]

theorem named_flashed : flashed.Named :=
  ⟨.a, Tryboot.autobootTxt_eq⟩

theorem kept_along (reads : firmware.Reads) {pi : Pi5} (named : pi.Named)
    (events : List Pi5Event) :
    Trace.Along (step firmware) (Kept firmware) pi events := by
  induction events generalizing pi with
  | nil => trivial
  | cons event rest induction =>
      exact
        ⟨kept_of_named reads named event,
          induction (named_step reads named event)⟩

/--
From the first boot on, every step keeps what `Kept` says, and a slot that is
the permanent one is slot a or one from which `ab-commit` was called.
-/
theorem commits_safe (reads : firmware.Reads) (events : List Pi5Event) :
    Trace.Along (step firmware) (Kept firmware) flashed events ∧
      ∀ slot,
        (Trace.run (step firmware) flashed events).permanent firmware =
            some slot →
          slot = .a ∨
            ∃ front fate back, events = front ++ .commit fate :: back ∧
              (Trace.run (step firmware) flashed front).running =
                some slot := by
  have keeps (pi : Pi5) (event : Pi5Event) (held : pi.Named) :
      (pi.step firmware event).Named :=
    named_step reads held event
  have named (events : List Pi5Event) :
      (Trace.run (step firmware) flashed events).Named :=
    Trace.run_of_step keeps named_flashed events
  constructor
  · exact kept_along reads named_flashed events
  · induction events using List.reverseRecOn with
    | nil =>
        intro slot chosen
        refine .inl ?_
        rw [Trace.run_nil, permanent, flashed, Tryboot.autobootTxt_eq,
          (boots_selector reads .a).1] at chosen
        exact (Option.some.inj chosen).symm
    | append_singleton events event induction =>
        intro slot chosen
        rw [Trace.run_append] at chosen
        rcases (kept_of_named reads (named events) event).changes with
          same | ⟨⟨fate, rfl⟩, taken⟩
        · rw [Trace.run_cons, Trace.run_nil, same] at chosen
          rcases induction slot chosen with first |
            ⟨front, fate, back, rfl, runs⟩
          · exact .inl first
          · exact
              .inr
                ⟨front, fate, back ++ [event], by simp, runs⟩
        · rw [Trace.run_cons, Trace.run_nil, taken] at chosen
          exact .inr ⟨events, fate, [], rfl, chosen⟩

end Pi5

namespace Bench

/-- A setting counts under `[all]`, and under `[tryboot]` with the flag. -/
def piSelect (tryboot : Bool) (lines : List (List Char)) : Option Nat :=
  (lines.foldl
    (fun found line =>
      if line = "[all]".toList then (true, found.2)
      else if line = "[tryboot]".toList then (tryboot, found.2)
      else
        match found.1, line.dropPrefix? "boot_partition=".toList with
        | true, some [digit] => (true, some (digit.toNat - 48))
        | _, _ => found)
    (true, none)).2

def piFirmware : PiFirmware where
  select := piSelect
  cmdline
    | .a => ⟨["root=/dev/nvme0n1p5".toList, "ro".toList], by decide⟩
    | .b => ⟨["root=/dev/nvme0n1p6".toList, "ro".toList], by decide⟩

theorem piFirmware_reads : piFirmware.Reads where
  all := by decide
  tryboot := by decide
  cmdline := by decide

/-- Slot b is tried; its first commit gets lost, the second one is cut. -/
def piEvents : List Pi5Event :=
  [.boot false, .boot true, .commit (.ended false), .boot false, .boot true,
    .commit (.cut true), .boot false]

theorem piEvents_safe :
    (Trace.run (Pi5.step piFirmware) .flashed piEvents).running = some .b ∧
      Trace.Along (Pi5.step piFirmware) (Pi5.Kept piFirmware) .flashed
        piEvents :=
  ⟨by decide, (Pi5.commits_safe piFirmware_reads piEvents).1⟩

end Bench

end KmmYocto
