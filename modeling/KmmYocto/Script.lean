import Mathlib

/-!
# Scripts that stop at the first failure and write to a medium

A shell script under `set -e` is a computation that either runs to its end or
stops with a message, leaving behind whatever it has already written.  The
medium is abstract: a type of media, a type of writes, and the effect of one
write.  Every write is logged, so the medium after a script is the replay of
its log, and the media a power cut can leave are the replays of the prefixes.

The rules for postconditions are equivalences tagged for `simp`: they turn a
statement about a script into one about the tests it makes.
-/

namespace KmmYocto

universe u v w

/-- A medium on which the effect of one write is known. -/
class Medium (Store : Type u) (Write : outParam (Type v)) where
  apply : Store → Write → Store

/-- What a running script has done so far. -/
structure Session (Store : Type u) (Write : Type v) where
  store : Store
  /-- The writes so far, oldest first. -/
  writes : List Write
  /-- The script has asked for a reboot. -/
  rebooting : Bool

/-- A script with result `α`; `error` is a failure message. -/
def Script (Store : Type u) (Write : Type v) (α : Type w) :
    Type (max u v w) :=
  Session Store Write → Except String α × Session Store Write

namespace Script

variable
    {Store : Type u} {Write : Type v} {α β : Type w}

instance : Monad (Script Store Write) where
  pure value := fun session => (.ok value, session)
  bind first next := fun session =>
    match first session with
    | (.ok value, later) => next value later
    | (.error message, later) => (.error message, later)

theorem bind_apply (first : Script Store Write α)
    (next : α → Script Store Write β) (session : Session Store Write) :
    (first >>= next) session =
      match first session with
      | (.ok value, later) => next value later
      | (.error message, later) => (.error message, later) :=
  rfl

/-- Parts of a script may be regrouped. -/
instance : LawfulMonad (Script Store Write) :=
  LawfulMonad.mk' (Script Store Write)
    (fun script => by
      funext session
      show (script >>= pure) session = script session
      rw [bind_apply]
      rcases script session with ⟨result, later⟩
      cases result <;> rfl)
    (fun _ _ => rfl)
    (fun script middle last => by
      funext session
      simp only [bind_apply]
      rcases script session with ⟨result, later⟩
      cases result <;> rfl)

/-- `die`: stop with a message. -/
def die (message : String) : Script Store Write α :=
  fun session => (.error message, session)

/-- `[ condition ] || die message`. -/
def require (condition : Prop) [Decidable condition] (message : String) :
    Script Store Write PUnit :=
  if condition then pure PUnit.unit else die message

/-- Read the medium. -/
def read : Script Store Write Store :=
  fun session => (.ok session.store, session)

/-- Make one write. -/
def persist [Medium Store Write] (write : Write) :
    Script Store Write PUnit :=
  fun session =>
    (.ok PUnit.unit,
      { session with
        store := Medium.apply session.store write
        writes := session.writes ++ [write] })

/-- Ask for a reboot. -/
def reboot : Script Store Write PUnit :=
  fun session => (.ok PUnit.unit, { session with rebooting := true })

/-- Run a script from a medium. -/
def exec (script : Script Store Write α) (store : Store) :
    Except String α × Session Store Write :=
  script ⟨store, [], false⟩

/-! ## Postconditions -/

/-- The result and the session the script ends in meet `post`. -/
def Ends (script : Script Store Write α) (session : Session Store Write)
    (post : Except String α → Session Store Write → Prop) : Prop :=
  post (script session).1 (script session).2

theorem ends_iff (script : Script Store Write α)
    (session : Session Store Write)
    (post : Except String α → Session Store Write → Prop) :
    Ends script session post ↔
      post (script session).1 (script session).2 :=
  Iff.rfl

/-- A script's postcondition may be weakened. -/
theorem Ends.imp {script : Script Store Write α}
    {session : Session Store Write}
    {post weaker : Except String α → Session Store Write → Prop}
    (ends : Ends script session post)
    (implies : ∀ result later, post result later → weaker result later) :
    Ends script session weaker :=
  implies _ _ ends

@[simp]
theorem ends_pure (value : α) (session : Session Store Write)
    (post : Except String α → Session Store Write → Prop) :
    Ends (pure value : Script Store Write α) session post ↔
      post (.ok value) session :=
  Iff.rfl

@[simp]
theorem ends_bind (first : Script Store Write α)
    (next : α → Script Store Write β) (session : Session Store Write)
    (post : Except String β → Session Store Write → Prop) :
    Ends (first >>= next) session post ↔
      Ends first session fun result later =>
        match result with
        | .ok value => Ends (next value) later post
        | .error message => post (.error message) later := by
  simp only [Ends, bind_apply]
  rcases first session with ⟨result, later⟩
  cases result with
  | ok value => rfl
  | error message => rfl

@[simp]
theorem ends_die (message : String) (session : Session Store Write)
    (post : Except String α → Session Store Write → Prop) :
    Ends (die message : Script Store Write α) session post ↔
      post (.error message) session :=
  Iff.rfl

@[simp]
theorem ends_ite (condition : Prop) [Decidable condition]
    (first second : Script Store Write α) (session : Session Store Write)
    (post : Except String α → Session Store Write → Prop) :
    Ends (if condition then first else second) session post ↔
      (condition → Ends first session post) ∧
        (¬ condition → Ends second session post) := by
  by_cases holds : condition <;> simp [holds]

@[simp]
theorem ends_require (condition : Prop) [Decidable condition]
    (message : String) (session : Session Store Write)
    (post : Except String PUnit → Session Store Write → Prop) :
    Ends (require condition message) session post ↔
      (condition → post (.ok PUnit.unit) session) ∧
        (¬ condition → post (.error message) session) := by
  rw [require, ends_ite, ends_pure, ends_die]

@[simp]
theorem ends_read (session : Session Store Write)
    (post : Except String Store → Session Store Write → Prop) :
    Ends read session post ↔ post (.ok session.store) session :=
  Iff.rfl

@[simp]
theorem ends_persist [Medium Store Write] (write : Write)
    (session : Session Store Write)
    (post : Except String PUnit → Session Store Write → Prop) :
    Ends (persist write) session post ↔
      post (.ok PUnit.unit)
        { session with
          store := Medium.apply session.store write
          writes := session.writes ++ [write] } :=
  Iff.rfl

@[simp]
theorem ends_reboot (session : Session Store Write)
    (post : Except String PUnit → Session Store Write → Prop) :
    Ends reboot session post ↔
      post (.ok PUnit.unit) { session with rebooting := true } :=
  Iff.rfl

/-! ## The log -/

/-- The medium after the writes, in order. -/
def replay [Medium Store Write] (store : Store) (writes : List Write) :
    Store :=
  writes.foldl Medium.apply store

@[simp]
theorem replay_nil [Medium Store Write] (store : Store) :
    replay store [] = store :=
  rfl

@[simp]
theorem replay_append [Medium Store Write] (store : Store)
    (first second : List Write) :
    replay store (first ++ second) = replay (replay store first) second :=
  List.foldl_append

/--
The script adds only allowed writes to the log, and its medium is the replay
of what it adds.
-/
def WritesOnly [Medium Store Write] (allowed : Write → Prop)
    (script : Script Store Write α) : Prop :=
  ∀ session, Ends script session fun _ later =>
    ∃ more,
      later.writes = session.writes ++ more ∧
        later.store = replay session.store more ∧
          ∀ write ∈ more, allowed write

section WritesOnly

variable
    [Medium Store Write] {allowed : Write → Prop}

theorem WritesOnly.of_unchanged {script : Script Store Write α}
    (unchanged : ∀ session, Ends script session fun _ later =>
      later.store = session.store ∧ later.writes = session.writes) :
    WritesOnly allowed script := by
  intro session
  refine (unchanged session).imp ?_
  rintro result later ⟨sameStore, sameWrites⟩
  exact ⟨[], by simp [sameWrites], by simp [sameStore], by simp⟩

theorem writesOnly_pure (value : α) :
    WritesOnly allowed (pure value : Script Store Write α) :=
  .of_unchanged fun _ => ⟨rfl, rfl⟩

theorem writesOnly_die (message : String) :
    WritesOnly allowed (die message : Script Store Write α) :=
  .of_unchanged fun _ => ⟨rfl, rfl⟩

theorem writesOnly_require (condition : Prop) [Decidable condition]
    (message : String) :
    WritesOnly allowed
      (require condition message : Script Store Write PUnit) :=
  .of_unchanged fun session => by simp

theorem writesOnly_read :
    WritesOnly allowed (read : Script Store Write Store) :=
  .of_unchanged fun _ => ⟨rfl, rfl⟩

theorem writesOnly_reboot :
    WritesOnly allowed (reboot : Script Store Write PUnit) :=
  .of_unchanged fun _ => ⟨rfl, rfl⟩

theorem writesOnly_persist {write : Write} (permitted : allowed write) :
    WritesOnly allowed (persist write : Script Store Write PUnit) := by
  intro session
  refine ⟨[write], rfl, rfl, ?_⟩
  intro other member
  rw [List.mem_singleton.mp member]
  exact permitted

theorem WritesOnly.bind {first : Script Store Write α}
    {next : α → Script Store Write β}
    (ofFirst : WritesOnly allowed first)
    (ofNext : ∀ value, WritesOnly allowed (next value)) :
    WritesOnly allowed (first >>= next) := by
  intro session
  rw [ends_bind]
  refine (ofFirst session).imp ?_
  rintro result later ⟨front, writes, store, permitted⟩
  cases result with
  | error message => exact ⟨front, writes, store, permitted⟩
  | ok value =>
      refine (ofNext value later).imp ?_
      rintro final last ⟨back, lastWrites, lastStore, lastPermitted⟩
      refine ⟨front ++ back, ?_, ?_, ?_⟩
      · rw [lastWrites, writes, List.append_assoc]
      · rw [lastStore, store, replay_append]
      · intro write member
        rcases List.mem_append.mp member with early | late
        · exact permitted write early
        · exact lastPermitted write late

theorem WritesOnly.ite {condition : Prop} [Decidable condition]
    {first second : Script Store Write α}
    (ofFirst : WritesOnly allowed first)
    (ofSecond : WritesOnly allowed second) :
    WritesOnly allowed (if condition then first else second) := by
  split_ifs
  · exact ofFirst
  · exact ofSecond

theorem WritesOnly.mono {stronger : Write → Prop}
    {script : Script Store Write α}
    (implies : ∀ write, stronger write → allowed write)
    (writes : WritesOnly stronger script) : WritesOnly allowed script := by
  intro session
  refine (writes session).imp ?_
  rintro result later ⟨more, log, store, permitted⟩
  exact ⟨more, log, store, fun write member => implies _ (permitted _ member)⟩

/-- Run with an empty log, the script logs only allowed writes. -/
theorem WritesOnly.ends {script : Script Store Write α}
    (writes : WritesOnly allowed script) (store : Store)
    (rebooting : Bool) :
    Ends script ⟨store, [], rebooting⟩ fun _ later =>
      ∀ write ∈ later.writes, allowed write := by
  refine (writes ⟨store, [], rebooting⟩).imp ?_
  rintro result later ⟨more, log, -, permitted⟩ write member
  rw [log, List.nil_append] at member
  exact permitted write member

/-- Run with an empty log, the script leaves the replay of its log. -/
theorem WritesOnly.store_eq {script : Script Store Write α}
    (writes : WritesOnly allowed script) (store : Store)
    (rebooting : Bool) :
    Ends script ⟨store, [], rebooting⟩ fun _ later =>
      later.store = replay store later.writes := by
  refine (writes ⟨store, [], rebooting⟩).imp ?_
  rintro result later ⟨more, log, replayed, -⟩
  rw [replayed, log, List.nil_append]

end WritesOnly

end Script

end KmmYocto
