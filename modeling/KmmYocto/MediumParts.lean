import KmmYocto.PowerCut
import KmmYocto.Trace

/-!
# A medium in parts

Several scripts share a medium, and each keeps to a part of it: it writes
there and nowhere else, and what it does depends on nothing else.  Then what a
run of all of them, each cut at any write, leaves in a part is what the
scripts of that part leave there on their own, whatever the others do in
between.

That a script depends on one part is a relation between two runs of it: from
media that agree on the part, it ends alike and makes the same writes.  The
rules follow the script.
-/

namespace KmmYocto

universe u v w x y

namespace Script

variable
    {Store : Type u} {Write : Type v} {α β : Type w}
    [Medium Store Write] {agree : Store → Store → Prop}

/-- From media that agree, the scripts end alike and add the same writes. -/
def Alike (agree : Store → Store → Prop)
    (first second : Script Store Write α) : Prop :=
  ∀ left right, agree left.store right.store →
    (first left).1 = (second right).1 ∧
      ∃ more,
        (first left).2.writes = left.writes ++ more ∧
          (first left).2.store = replay left.store more ∧
            (second right).2.writes = right.writes ++ more ∧
              (second right).2.store = replay right.store more

theorem Alike.of_unchanged {first second : Script Store Write α}
    {result : Except String α}
    (unchanged : ∀ session,
      (first session).1 = result ∧
        (first session).2.store = session.store ∧
          (first session).2.writes = session.writes)
    (unchanged' : ∀ session,
      (second session).1 = result ∧
        (second session).2.store = session.store ∧
          (second session).2.writes = session.writes) :
    Alike agree first second := by
  intro left right _
  obtain ⟨result, store, writes⟩ := unchanged left
  obtain ⟨result', store', writes'⟩ := unchanged' right
  exact
    ⟨result.trans result'.symm, [], by simp [writes], by simp [store],
      by simp [writes'], by simp [store']⟩

theorem alike_pure (value : α) :
    Alike agree (pure value : Script Store Write α) (pure value) :=
  .of_unchanged (fun _ => ⟨rfl, rfl, rfl⟩) fun _ => ⟨rfl, rfl, rfl⟩

theorem alike_die (message : String) :
    Alike agree (die message : Script Store Write α) (die message) :=
  .of_unchanged (fun _ => ⟨rfl, rfl, rfl⟩) fun _ => ⟨rfl, rfl, rfl⟩

theorem alike_reboot :
    Alike agree (reboot : Script Store Write PUnit) reboot :=
  .of_unchanged (fun _ => ⟨rfl, rfl, rfl⟩) fun _ => ⟨rfl, rfl, rfl⟩

theorem alike_persist (write : Write) :
    Alike agree (persist write : Script Store Write PUnit) (persist write) :=
  fun _ _ _ => ⟨rfl, [write], rfl, rfl, rfl, rfl⟩

/-- The test may read the medium, but not what the two disagree on. -/
theorem alike_ite {condition condition' : Prop} [Decidable condition]
    [Decidable condition'] (same : condition ↔ condition')
    {first first' second second' : Script Store Write α}
    (ofFirst : Alike agree first first')
    (ofSecond : Alike agree second second') :
    Alike agree (if condition then first else second)
      (if condition' then first' else second') := by
  by_cases holds : condition
  · rw [if_pos holds, if_pos (same.mp holds)]
    exact ofFirst
  · rw [if_neg holds, if_neg fun other => holds (same.mpr other)]
    exact ofSecond

theorem alike_require {condition condition' : Prop} [Decidable condition]
    [Decidable condition'] (same : condition ↔ condition')
    (message : String) :
    Alike agree (require condition message : Script Store Write PUnit)
      (require condition' message) :=
  alike_ite same (alike_pure _) (alike_die _)

section Bind

variable
    (agree_apply : ∀ (left right : Store) (write : Write),
      agree left right →
        agree (Medium.apply left write) (Medium.apply right write))

include agree_apply

theorem agree_replay {left right : Store} (agrees : agree left right)
    (writes : List Write) :
    agree (replay left writes) (replay right writes) := by
  induction writes generalizing left right with
  | nil => exact agrees
  | cons write rest induction => exact induction (agree_apply _ _ write agrees)

theorem Alike.bind {first first' : Script Store Write α}
    {next next' : α → Script Store Write β}
    (ofFirst : Alike agree first first')
    (ofNext : ∀ value, Alike agree (next value) (next' value)) :
    Alike agree (first >>= next) (first' >>= next') := by
  intro left right agrees
  obtain ⟨results, front, writes, store, writes', store'⟩ :=
    ofFirst left right agrees
  rw [bind_apply, bind_apply]
  rcases ends : first left with ⟨result, middle⟩
  rcases ends' : first' right with ⟨result', middle'⟩
  simp only [ends, ends'] at results writes store writes' store'
  subst results
  cases result with
  | error message => exact ⟨rfl, front, writes, store, writes', store'⟩
  | ok value =>
      have still : agree middle.store middle'.store := by
        rw [store, store']
        exact agree_replay agree_apply agrees front
      obtain ⟨finals, back, last, lastStore, last', lastStore'⟩ :=
        ofNext value middle middle' still
      refine ⟨finals, front ++ back, ?_, ?_, ?_, ?_⟩
      · rw [last, writes, List.append_assoc]
      · rw [lastStore, store, replay_append]
      · rw [last', writes', List.append_assoc]
      · rw [lastStore', store', replay_append]

end Bind

/-- What follows a read may differ as far as the media do. -/
theorem alike_read_bind {γ : Type u}
    {next next' : Store → Script Store Write γ}
    (ofNext : ∀ left right, agree left right →
      Alike agree (next left) (next' right)) :
    Alike agree (read >>= next) (read >>= next') :=
  fun left right agrees => ofNext _ _ agrees left right agrees

/-- The writes that the script makes on the medium. -/
def written (script : Script Store Write α) (store : Store) : List Write :=
  (exec script store).2.writes

theorem Alike.written_eq {script script' : Script Store Write α}
    (alike : Alike agree script script') {left right : Store}
    (agrees : agree left right) :
    written script left = written script' right := by
  obtain ⟨-, more, writes, -, writes', -⟩ :=
    alike ⟨left, [], false⟩ ⟨right, [], false⟩ agrees
  exact writes.trans writes'.symm

end Script

/-! ## Parts -/

/-- A medium in parts, each with the writes that fall in it. -/
structure MediumParts (Store : Type u) (Write : Type v) (Part : Type x)
    [Medium Store Write] where
  /-- Two media hold the same in the part. -/
  agree : Part → Store → Store → Prop
  within : Part → Write → Prop
  agree_rfl : ∀ part store, agree part store store
  agree_trans : ∀ {part first second third},
    agree part first second → agree part second third →
      agree part first third
  agree_apply : ∀ {part left right} write,
    agree part left right →
      agree part (Medium.apply left write) (Medium.apply right write)
  /-- A write to one part is not seen in another one. -/
  agree_other : ∀ {part owner} store {write},
    within owner write → part ≠ owner →
      agree part (Medium.apply store write) store

namespace MediumParts

variable
    {Store : Type u} {Write : Type v} {Part : Type x} {Command : Type y}
    [Medium Store Write] (parts : MediumParts Store Write Part)

/-- The script writes to its part, and depends on nothing else. -/
structure Confined (part : Part) (script : Script Store Write PUnit) :
    Prop where
  writes : Script.WritesOnly (parts.within part) script
  alike : Script.Alike (parts.agree part) script script

theorem alike_bind {α β : Type w} {part : Part}
    {first first' : Script Store Write α}
    {next next' : α → Script Store Write β}
    (ofFirst : Script.Alike (parts.agree part) first first')
    (ofNext : ∀ value,
      Script.Alike (parts.agree part) (next value) (next' value)) :
    Script.Alike (parts.agree part) (first >>= next) (first' >>= next') :=
  ofFirst.bind (fun _ _ write => parts.agree_apply write) ofNext

theorem agree_replay {part : Part} {left right : Store}
    (agrees : parts.agree part left right) (writes : List Write) :
    parts.agree part (Script.replay left writes)
      (Script.replay right writes) :=
  Script.agree_replay (fun _ _ write => parts.agree_apply write) agrees writes

theorem agree_replay_other {part owner : Part} (other : part ≠ owner)
    (store : Store) {writes : List Write}
    (within : ∀ write ∈ writes, parts.within owner write) :
    parts.agree part (Script.replay store writes) store := by
  induction writes generalizing store with
  | nil => exact parts.agree_rfl part store
  | cons write rest induction =>
      rw [List.forall_mem_cons] at within
      exact
        parts.agree_trans (induction _ within.2)
          (parts.agree_other store within.1 other)

/-! ## Runs of all the commands -/

section Runs

variable
    (script : Command → Script Store Write PUnit)
    (owner : Command → Part)

/--
A command runs to its end, or is cut after so many writes.
-/
def cutStep (store : Store) (event : Command × Option Nat) : Store :=
  match event.2 with
  | none => (Script.exec (script event.1) store).2.store
  | some taken =>
      Script.replay store ((Script.written (script event.1) store).take taken)

variable
    {script owner}
    (confined : ∀ command, parts.Confined (owner command) (script command))

include confined

/-- A step makes the first writes of its command. -/
theorem cutStep_eq (store : Store) (event : Command × Option Nat) :
    cutStep script store event =
      let writes := Script.written (script event.1) store
      Script.replay store (writes.take (event.2.getD writes.length)) := by
  rcases event with ⟨command, _ | taken⟩
  · have whole := (confined command).writes.store_eq store false
    simp only [Option.getD_none, List.take_length]
    exact whole
  · rfl

/-- A step is not seen in the parts of others. -/
theorem agree_cutStep_other {part : Part} {event : Command × Option Nat}
    (other : part ≠ owner event.1) (store : Store) :
    parts.agree part (cutStep script store event) store := by
  have within := (confined event.1).writes.ends store false
  rw [parts.cutStep_eq confined]
  exact
    parts.agree_replay_other other store
      fun write member => within write (List.mem_of_mem_take member)

/-- In its own part, a step does the same to media that agree there. -/
theorem agree_cutStep {event : Command × Option Nat} {left right : Store}
    (agrees : parts.agree (owner event.1) left right) :
    parts.agree (owner event.1) (cutStep script left event)
      (cutStep script right event) := by
  have same := (confined event.1).alike.written_eq agrees
  rw [parts.cutStep_eq confined, parts.cutStep_eq confined, same]
  exact parts.agree_replay agrees _

/--
What a run leaves in a part is what the commands of the part leave there on
their own.
-/
theorem agree_run [DecidableEq Part] (part : Part) {left right : Store}
    (agrees : parts.agree part left right)
    (events : List (Command × Option Nat)) :
    parts.agree part
      (Trace.run (cutStep script) left events)
      (Trace.run (cutStep script) right
        (events.filter fun event => owner event.1 = part)) := by
  induction events generalizing left right with
  | nil => exact agrees
  | cons event rest induction =>
      rw [Trace.run_cons]
      by_cases own : owner event.1 = part
      · rw [List.filter_cons_of_pos (by simpa using own), Trace.run_cons]
        subst own
        exact induction (parts.agree_cutStep confined agrees)
      · rw [List.filter_cons_of_neg (by simpa using own)]
        exact
          induction
            (parts.agree_trans
              (parts.agree_cutStep_other confined (Ne.symm own) left) agrees)

end Runs

end MediumParts

end KmmYocto
