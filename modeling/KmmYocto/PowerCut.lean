import KmmYocto.Script

/-!
# Scripts that survive a power cut

A power cut stops a script between two writes and keeps what is written.  A
script survives power cuts for an invariant of the medium if the invariant
holds after every prefix of its writes.  The rules follow the script: an
invariant has to be shown once before and once after every write, and facts
about the medium are carried from one part to the next by postconditions.
-/

namespace KmmYocto.Script

universe u v w

variable
    {Store : Type u} {Write : Type v} {α β : Type w}
    [Medium Store Write] {inv : Store → Prop}

/--
The invariant holds after every prefix of the writes that the script makes,
and the script ends as `post` says.
-/
def Survives (inv : Store → Prop) (script : Script Store Write α)
    (session : Session Store Write)
    (post : Except String α → Session Store Write → Prop) : Prop :=
  Ends script session fun result later =>
    (∃ more,
      later.writes = session.writes ++ more ∧
        later.store = replay session.store more ∧
          ∀ cut, inv (replay session.store (more.take cut))) ∧
      post result later

theorem Survives.imp {script : Script Store Write α}
    {session : Session Store Write}
    {post weaker : Except String α → Session Store Write → Prop}
    (survives : Survives inv script session post)
    (implies : ∀ result later, post result later → weaker result later) :
    Survives inv script session weaker :=
  ⟨survives.1, implies _ _ survives.2⟩

/-- A script that survives leaves a medium that meets the invariant. -/
theorem Survives.kept {script : Script Store Write α}
    {session : Session Store Write}
    {post : Except String α → Session Store Write → Prop}
    (survives : Survives inv script session post) :
    Survives inv script session fun result later =>
      inv later.store ∧ post result later := by
  obtain ⟨⟨more, writes, store, kept⟩, after⟩ := survives
  refine ⟨⟨more, writes, store, kept⟩, ?_, after⟩
  have whole := kept more.length
  rwa [List.take_length, ← store] at whole

/-- A part that writes nothing survives where the invariant holds. -/
theorem Survives.of_unchanged {script : Script Store Write α}
    {session : Session Store Write}
    {post : Except String α → Session Store Write → Prop}
    (holds : inv session.store)
    (ends : Ends script session fun result later =>
      (later.store = session.store ∧ later.writes = session.writes) ∧
        post result later) :
    Survives inv script session post := by
  obtain ⟨⟨store, writes⟩, after⟩ := ends
  exact ⟨⟨[], by simp [writes], by simp [store], by simp [holds]⟩, after⟩

theorem survives_pure {value : α} {session : Session Store Write}
    {post : Except String α → Session Store Write → Prop}
    (holds : inv session.store) (after : post (.ok value) session) :
    Survives inv (pure value) session post :=
  .of_unchanged holds ⟨⟨rfl, rfl⟩, after⟩

theorem survives_die {message : String} {session : Session Store Write}
    {post : Except String α → Session Store Write → Prop}
    (holds : inv session.store) (after : post (.error message) session) :
    Survives inv (die message) session post :=
  .of_unchanged holds ⟨⟨rfl, rfl⟩, after⟩

theorem survives_require {condition : Prop} [Decidable condition]
    {message : String} {session : Session Store Write}
    {post : Except String PUnit → Session Store Write → Prop}
    (holds : inv session.store)
    (passes : condition → post (.ok PUnit.unit) session)
    (fails : ¬ condition → post (.error message) session) :
    Survives inv (require condition message) session post := by
  refine .of_unchanged holds ?_
  rw [ends_require]
  exact
    ⟨fun passed => ⟨⟨rfl, rfl⟩, passes passed⟩,
      fun failed => ⟨⟨rfl, rfl⟩, fails failed⟩⟩

theorem survives_read {session : Session Store Write}
    {post : Except String Store → Session Store Write → Prop}
    (holds : inv session.store) (after : post (.ok session.store) session) :
    Survives inv read session post :=
  .of_unchanged holds ⟨⟨rfl, rfl⟩, after⟩

theorem survives_reboot {session : Session Store Write}
    {post : Except String PUnit → Session Store Write → Prop}
    (holds : inv session.store)
    (after : post (.ok PUnit.unit) { session with rebooting := true }) :
    Survives inv reboot session post :=
  .of_unchanged holds ⟨⟨rfl, rfl⟩, after⟩

/-- One write survives if the invariant holds before and after it. -/
theorem survives_persist {write : Write} {session : Session Store Write}
    {post : Except String PUnit → Session Store Write → Prop}
    (before : inv session.store)
    (after : inv (Medium.apply session.store write))
    (ends : Ends (persist write) session post) :
    Survives inv (persist write) session post := by
  refine ⟨⟨[write], rfl, rfl, ?_⟩, ends⟩
  intro cut
  cases cut with
  | zero => exact before
  | succ cut =>
      rw [List.take_of_length_le (by simp)]
      exact after

/-- A cut of two parts is a cut of the first one or of the second one. -/
theorem survives_bind {first : Script Store Write α}
    {next : α → Script Store Write β} {session : Session Store Write}
    {post : Except String β → Session Store Write → Prop}
    (survives : Survives inv first session fun result later =>
      match result with
      | .ok value => Survives inv (next value) later post
      | .error message => post (.error message) later) :
    Survives inv (first >>= next) session post := by
  obtain ⟨⟨front, writes, store, kept⟩, after⟩ := survives
  rw [Survives, ends_bind, ends_iff]
  rcases firstEnds : first session with ⟨result, later⟩
  simp only [firstEnds] at writes store after
  cases result with
  | error message => exact ⟨⟨front, writes, store, kept⟩, after⟩
  | ok value =>
      obtain ⟨⟨back, lastWrites, lastStore, lastKept⟩, last⟩ := after
      refine ⟨⟨front ++ back, ?_, ?_, ?_⟩, last⟩
      · rw [lastWrites, writes, List.append_assoc]
      · rw [lastStore, store, replay_append]
      · intro cut
        rw [List.take_append, replay_append]
        by_cases early : cut ≤ front.length
        · rw [Nat.sub_eq_zero_of_le early, List.take_zero, replay_nil]
          exact kept cut
        · rw [List.take_of_length_le (by omega), ← store]
          exact lastKept _

theorem survives_ite {condition : Prop} [Decidable condition]
    {first second : Script Store Write α} {session : Session Store Write}
    {post : Except String α → Session Store Write → Prop}
    (ofFirst : condition → Survives inv first session post)
    (ofSecond : ¬ condition → Survives inv second session post) :
    Survives inv (if condition then first else second) session post := by
  split_ifs with holds
  · exact ofFirst holds
  · exact ofSecond holds

/-- The medium after a power cut of a whole script meets the invariant. -/
theorem Survives.cut {script : Script Store Write α} {store : Store}
    {rebooting : Bool}
    {post : Except String α → Session Store Write → Prop}
    (survives : Survives inv script ⟨store, [], rebooting⟩ post)
    (taken : Nat) :
    inv
      (replay store
        ((script ⟨store, [], rebooting⟩).2.writes.take taken)) := by
  obtain ⟨⟨more, writes, -, kept⟩, -⟩ := survives
  rw [writes, List.nil_append]
  exact kept taken

end KmmYocto.Script
