import KmmYocto.Script

/-!
# Two runs of a script, seen through a view

Two scripts show the same if, from media that look alike, they give the same
result and leave media that look alike.  The media may differ in what the view
leaves out, so what follows a read is compared for any two of them.
-/

namespace KmmYocto.Script

universe u v w x

variable
    {Store : Type u} {Write : Type v} {View : Type x} {α β : Type w}

/-- The media look alike, and a reboot is asked for in both or in neither. -/
structure LookAlike (view : Store → View)
    (left right : Session Store Write) : Prop where
  store : view left.store = view right.store
  rebooting : left.rebooting = right.rebooting

/-- From sessions that look alike, the scripts end alike. -/
def SameView (view : Store → View)
    (first second : Script Store Write α) : Prop :=
  ∀ left right, LookAlike view left right →
    (first left).1 = (second right).1 ∧
      LookAlike view (first left).2 (second right).2

variable
    {view : Store → View}

theorem sameView_pure (value : α) :
    SameView view (pure value : Script Store Write α) (pure value) :=
  fun _ _ alike => ⟨rfl, alike⟩

theorem sameView_die (message : String) :
    SameView view (die message : Script Store Write α) (die message) :=
  fun _ _ alike => ⟨rfl, alike⟩

theorem sameView_reboot :
    SameView view (reboot : Script Store Write PUnit) reboot :=
  fun _ _ alike => ⟨rfl, alike.store, rfl⟩

theorem sameView_persist [Medium Store Write] {write other : Write}
    (same : ∀ left right, view left = view right →
      view (Medium.apply left write) = view (Medium.apply right other)) :
    SameView view (persist write : Script Store Write PUnit)
      (persist other) :=
  fun _ _ alike => ⟨rfl, same _ _ alike.store, alike.rebooting⟩

theorem SameView.ite {condition other : Prop} [Decidable condition]
    [Decidable other] {first second firstOther secondOther :
      Script Store Write α}
    (agree : condition ↔ other)
    (ofFirst : SameView view first firstOther)
    (ofSecond : SameView view second secondOther) :
    SameView view (if condition then first else second)
      (if other then firstOther else secondOther) := by
  by_cases holds : condition
  · rw [if_pos holds, if_pos (agree.mp holds)]
    exact ofFirst
  · rw [if_neg holds, if_neg (mt agree.mpr holds)]
    exact ofSecond

theorem sameView_require {condition other : Prop} [Decidable condition]
    [Decidable other] (agree : condition ↔ other) (message : String) :
    SameView view
      (require condition message : Script Store Write PUnit)
      (require other message) :=
  .ite agree (sameView_pure _) (sameView_die message)

theorem SameView.bind {first second : Script Store Write α}
    {next nextOther : α → Script Store Write β}
    (ofFirst : SameView view first second)
    (ofNext : ∀ value, SameView view (next value) (nextOther value)) :
    SameView view (first >>= next) (second >>= nextOther) := by
  intro left right alike
  have same := ofFirst left right alike
  rw [bind_apply, bind_apply]
  generalize first left = ends at same ⊢
  generalize second right = otherEnds at same ⊢
  obtain ⟨result, later⟩ := ends
  obtain ⟨otherResult, otherLater⟩ := otherEnds
  obtain ⟨sameResult, laterAlike⟩ := same
  obtain rfl : result = otherResult := sameResult
  cases result with
  | ok value => exact ofNext value later otherLater laterAlike
  | error message => exact ⟨rfl, laterAlike⟩

/-- Run from media that look alike, the scripts end alike. -/
theorem SameView.exec {first second : Script Store Write α}
    (same : SameView view first second) {left right : Store}
    (alike : view left = view right) :
    (first.exec left).1 = (second.exec right).1 ∧
      LookAlike view (first.exec left).2 (second.exec right).2 :=
  same ⟨left, [], false⟩ ⟨right, [], false⟩ ⟨alike, rfl⟩

/-- What follows a read is compared for any two media that look alike. -/
theorem sameView_read_bind {Store : Type u} {view : Store → View}
    {γ : Type u} {next nextOther :
      Store → Script Store Write γ}
    (ofNext : ∀ left right, view left = view right →
      SameView view (next left) (nextOther right)) :
    SameView view (read >>= next) (read >>= nextOther) :=
  fun left right alike =>
    ofNext left.store right.store alike.store left right alike

end KmmYocto.Script
