import Mathlib

/-!
# Runs of a total step function

A system is a total function `step : State → Event → State`; an event that is
not possible in a state leaves it unchanged.  A run is then a list of events,
and a property of every run is a property of every list.

The module collects the rules by which a property of one step becomes a
property of a whole run: invariants, invariants of runs whose steps all meet
a guard, a bound on how often a counted step can occur, and the projection of
a run to the part of it that a view can see.
-/

namespace KmmYocto.Trace

universe u v w x

variable
    {State : Type u}
    {Event : Type v}

/-- The state reached from `start` by taking the events in order. -/
def run (step : State → Event → State) (start : State)
    (events : List Event) : State :=
  events.foldl step start

@[simp]
theorem run_nil (step : State → Event → State) (start : State) :
    run step start [] = start :=
  rfl

@[simp]
theorem run_cons (step : State → Event → State) (start : State)
    (event : Event) (rest : List Event) :
    run step start (event :: rest) = run step (step start event) rest :=
  rfl

@[simp]
theorem run_append (step : State → Event → State) (start : State)
    (first second : List Event) :
    run step start (first ++ second) =
      run step (run step start first) second :=
  List.foldl_append

/-- Every step of the run meets `holds` in the state it is taken from. -/
def Along (step : State → Event → State)
    (holds : State → Event → Prop) : State → List Event → Prop
  | _, [] => True
  | state, event :: rest =>
      holds state event ∧ Along step holds (step state event) rest

instance Along.decidable (step : State → Event → State)
    (holds : State → Event → Prop)
    [∀ state event, Decidable (holds state event)] :
    ∀ start events, Decidable (Along step holds start events)
  | _, [] => .isTrue trivial
  | state, event :: rest =>
      letI := Along.decidable step holds (step state event) rest
      inferInstanceAs
        (Decidable
          (holds state event ∧ Along step holds (step state event) rest))

@[simp]
theorem along_nil (step : State → Event → State)
    (holds : State → Event → Prop) (start : State) :
    Along step holds start [] :=
  trivial

@[simp]
theorem along_cons (step : State → Event → State)
    (holds : State → Event → Prop) (start : State)
    (event : Event) (rest : List Event) :
    Along step holds start (event :: rest) ↔
      holds start event ∧ Along step holds (step start event) rest :=
  Iff.rfl

@[simp]
theorem along_append (step : State → Event → State)
    (holds : State → Event → Prop) (start : State)
    (first second : List Event) :
    Along step holds start (first ++ second) ↔
      Along step holds start first ∧
        Along step holds (run step start first) second := by
  induction first generalizing start with
  | nil => simp
  | cons event rest induction =>
      simp [induction, and_assoc]

/-- A property of the events alone is a property of each of them. -/
theorem along_event (step : State → Event → State) (holds : Event → Prop)
    (start : State) (events : List Event) :
    Along step (fun _ event => holds event) start events ↔
      ∀ event ∈ events, holds event := by
  induction events generalizing start with
  | nil => simp
  | cons event rest induction => simp [induction]

/-- Two properties hold along a run exactly if each of them does. -/
theorem along_and (step : State → Event → State)
    (first second : State → Event → Prop) (start : State)
    (events : List Event) :
    Along step (fun state event => first state event ∧ second state event)
        start events ↔
      Along step first start events ∧ Along step second start events := by
  induction events generalizing start with
  | nil => simp
  | cons event rest induction =>
      simp only [along_cons, induction]
      exact and_and_and_comm

/-- What does not hold at the start and holds at the end comes with a step. -/
theorem exists_step_of_run {step : State → Event → State}
    (holds : State → Prop) {start : State} {events : List Event}
    (before : ¬ holds start) (after : holds (run step start events)) :
    ∃ front event back,
      events = front ++ event :: back ∧ ¬ holds (run step start front) ∧
        holds (step (run step start front) event) := by
  induction events generalizing start with
  | nil => exact absurd after before
  | cons event rest induction =>
      by_cases now : holds (step start event)
      · exact ⟨[], event, rest, rfl, before, now⟩
      · obtain ⟨front, later, back, rfl, notYet, comes⟩ := induction now after
        exact ⟨event :: front, later, back, rfl, notYet, comes⟩

/-! ## Invariants of guarded runs -/

section Invariant

variable
    {step : State → Event → State}
    {invariant : State → Prop}
    {guard : State → Event → Prop}

/-- An invariant that every step keeps holds at the end of every run. -/
theorem run_of_step
    (keeps : ∀ state event, invariant state → invariant (step state event))
    {start : State} (initial : invariant start) (events : List Event) :
    invariant (run step start events) := by
  induction events generalizing start with
  | nil => exact initial
  | cons event rest induction => exact induction (keeps _ _ initial)

/-- An invariant that every guarded step keeps holds at the end of the run. -/
theorem run_invariant
    (keeps : ∀ state event,
      invariant state → guard state event → invariant (step state event))
    {start : State} {events : List Event}
    (initial : invariant start)
    (guarded : Along step guard start events) :
    invariant (run step start events) := by
  induction events generalizing start with
  | nil => exact initial
  | cons event rest induction =>
      exact induction (keeps _ _ initial guarded.1) guarded.2

/-- What an invariant gives of each guarded step holds along the run. -/
theorem along_of_invariant
    {holds : State → Event → Prop}
    (keeps : ∀ state event,
      invariant state → guard state event → invariant (step state event))
    (gives : ∀ state event,
      invariant state → guard state event → holds state event)
    {start : State} {events : List Event}
    (initial : invariant start)
    (guarded : Along step guard start events) :
    Along step holds start events := by
  induction events generalizing start with
  | nil => trivial
  | cons event rest induction =>
      exact
        ⟨gives _ _ initial guarded.1,
          induction (keeps _ _ initial guarded.1) guarded.2⟩

/--
If, wherever the invariant holds, a step has a property exactly when it meets
the guard, then a run has the property along it exactly when it is guarded.
-/
theorem along_iff_guarded
    {holds : State → Event → Prop}
    (keeps : ∀ state event,
      invariant state → guard state event → invariant (step state event))
    (agrees : ∀ state event,
      invariant state → (holds state event ↔ guard state event))
    {start : State} {events : List Event}
    (initial : invariant start) :
    Along step holds start events ↔ Along step guard start events := by
  induction events generalizing start with
  | nil => exact Iff.rfl
  | cons event rest induction =>
      rw [along_cons, along_cons, agrees start event initial]
      constructor
      · rintro ⟨guarded, along⟩
        exact ⟨guarded, (induction (keeps _ _ initial guarded)).mp along⟩
      · rintro ⟨guarded, along⟩
        exact ⟨guarded, (induction (keeps _ _ initial guarded)).mpr along⟩

/--
A state property that only a refilling step can undo, and that excludes a
second use, keeps a refill between any two uses.
-/
theorem exists_refill_of_spent
    {refills uses : State → Event → Prop} {spent : State → Prop}
    (stays : ∀ state event,
      spent state → invariant state → guard state event →
        ¬ refills state event → spent (step state event))
    (spends : ∀ state event,
      invariant state → guard state event → uses state event →
        spent (step state event))
    (blocks : ∀ state event, spent state → ¬ uses state event)
    (keeps : ∀ state event,
      invariant state → guard state event → invariant (step state event))
    {start : State} {before middle after : List Event} {first second : Event}
    (initial : invariant start)
    (guarded : Along step guard start
      (before ++ first :: middle ++ second :: after))
    (firstUse : uses (run step start before) first)
    (secondUse :
      uses (run step start (before ++ first :: middle)) second) :
    ∃ front refill back,
      middle = front ++ refill :: back ∧
        refills (run step start (before ++ first :: front)) refill := by
  simp only [List.append_assoc, List.cons_append, along_append,
    along_cons] at guarded
  simp only [run_append, run_cons] at secondUse ⊢
  obtain ⟨beforeGuarded, firstGuarded, middleGuarded, -⟩ := guarded
  have reached := run_invariant keeps initial beforeGuarded
  have spentNow := spends _ _ reached firstGuarded firstUse
  have sound := keeps _ _ reached firstGuarded
  generalize step (run step start before) first = state at *
  clear beforeGuarded firstGuarded firstUse reached
  induction middle generalizing state with
  | nil => exact absurd secondUse (blocks _ _ spentNow)
  | cons event later induction =>
      by_cases refill : refills state event
      · exact ⟨[], event, later, rfl, refill⟩
      · obtain ⟨front, found, back, rfl, refilled⟩ :=
          induction (step state event) secondUse middleGuarded.2
            (stays _ _ spentNow sound middleGuarded.1 refill)
            (keeps _ _ sound middleGuarded.1)
        exact ⟨event :: front, found, back, rfl, refilled⟩

end Invariant

/-! ## Counting steps -/

/-- How many steps of the run are `counted` in the state they are taken from. -/
def count (step : State → Event → State)
    (counted : State → Event → Bool) : State → List Event → Nat
  | _, [] => 0
  | state, event :: rest =>
      (counted state event).toNat + count step counted (step state event) rest

/--
If an abstract state can follow the run, and its potential pays for every
counted step as long as it stays open, then the potential it starts with
bounds the number of counted steps of a run that it leaves open.
-/
theorem count_le_of_simulation
    {Abstract : Type w}
    {step : State → Event → State}
    {relates : State → Abstract → Prop}
    {guard : State → Event → Prop}
    {counted : State → Event → Bool}
    (potential : Abstract → Nat) (isOpen : Abstract → Prop)
    (follows : ∀ state abstract event,
      relates state abstract → guard state event →
        ∃ next, relates (step state event) next ∧
          (isOpen next →
            isOpen abstract ∧
              potential next + (counted state event).toNat ≤
                potential abstract))
    {start : State} {abstract : Abstract} {events : List Event}
    (initial : relates start abstract)
    (guarded : Along step guard start events) :
    ∃ final, relates (run step start events) final ∧
      (isOpen final →
        isOpen abstract ∧
          potential final + count step counted start events ≤
            potential abstract) := by
  induction events generalizing start abstract with
  | nil => exact ⟨abstract, initial, fun stillOpen => ⟨stillOpen, Nat.le_refl _⟩⟩
  | cons event rest induction =>
      obtain ⟨next, related, paid⟩ :=
        follows start abstract event initial guarded.1
      obtain ⟨final, finalRelated, later⟩ := induction related guarded.2
      refine ⟨final, finalRelated, fun stillOpen => ?_⟩
      obtain ⟨nextOpen, laterPaid⟩ := later stillOpen
      obtain ⟨wasOpen, nowPaid⟩ := paid nextOpen
      refine ⟨wasOpen, ?_⟩
      simp only [count]
      omega

section Spent

variable
    {step : State → Event → State}
    {invariant spent : State → Prop}
    {guard : State → Event → Prop}
    {counted : State → Event → Bool}

/-- A spent state is left by no guarded step, and no step from it counts. -/
theorem count_of_spent
    (stays : ∀ state event,
      spent state → guard state event → spent (step state event))
    (blocks : ∀ state event, spent state → counted state event = false)
    {start : State} {events : List Event}
    (alreadySpent : spent start)
    (guarded : Along step guard start events) :
    count step counted start events = 0 ∧ spent (run step start events) := by
  induction events generalizing start with
  | nil => exact ⟨rfl, alreadySpent⟩
  | cons event rest induction =>
      have later := induction (stays _ _ alreadySpent guarded.1) guarded.2
      constructor
      · rw [count, blocks start event alreadySpent, later.1]
        rfl
      · exact later.2

/--
If a counted step spends what it needs, then a guarded run has at most one,
and what it needs stays spent from there on.
-/
theorem count_le_one_of_spent
    (stays : ∀ state event,
      spent state → guard state event → spent (step state event))
    (spends : ∀ state event,
      invariant state → guard state event → counted state event = true →
        spent (step state event))
    (blocks : ∀ state event, spent state → counted state event = false)
    (keeps : ∀ state event,
      invariant state → guard state event → invariant (step state event))
    {start : State} {events : List Event}
    (initial : invariant start)
    (guarded : Along step guard start events) :
    count step counted start events ≤ 1 ∧
      (0 < count step counted start events →
        spent (run step start events)) := by
  induction events generalizing start with
  | nil => exact ⟨Nat.zero_le _, fun some => absurd some (Nat.lt_irrefl 0)⟩
  | cons event rest induction =>
      cases counts : counted start event with
      | true =>
          have later :=
            count_of_spent stays blocks
              (spends _ _ initial guarded.1 counts) guarded.2
          rw [count, counts, later.1]
          exact ⟨Nat.le_refl 1, fun _ => later.2⟩
      | false =>
          have later := induction (keeps _ _ initial guarded.1) guarded.2
          rw [count, counts, Bool.toNat_false, Nat.zero_add]
          exact later

end Spent

/-! ## Projection to a view -/

section View

variable
    {View : Type w}
    {Label : Type x}
    {step : State → Event → State}
    {viewStep : View → Label → View}

/--
If each guarded event is either invisible and keeps the view, or shows as a
label and moves the view as that label does, then the view of the run is the
run of the labels from the view of the start.
-/
theorem view_run
    {guard : State → Event → Prop}
    (view : State → View)
    (label : Event → Option Label)
    (silent : ∀ state event,
      guard state event → label event = none →
        view (step state event) = view state)
    (shown : ∀ state event shownLabel,
      guard state event → label event = some shownLabel →
        view (step state event) = viewStep (view state) shownLabel)
    {start : State} {events : List Event}
    (guarded : Along step guard start events) :
    view (run step start events) =
      run viewStep (view start) (events.filterMap label) := by
  induction events generalizing start with
  | nil => rfl
  | cons event rest induction =>
      rw [run_cons, induction guarded.2]
      cases shows : label event with
      | none =>
          rw [List.filterMap_cons_none shows,
            silent start event guarded.1 shows]
      | some shownLabel =>
          rw [List.filterMap_cons_some shows, run_cons,
            shown start event shownLabel guarded.1 shows]

end View

end KmmYocto.Trace
