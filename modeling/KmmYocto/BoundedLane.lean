import Mathlib

/-!
# A lane between two bounded queues

A producer fills one queue, a consumer empties another, and a program moves
items from the first to the second through a buffer of its own.

The flow of a lane is what it has given out, followed by what is under way.
The producer appends to it, the consumer and the program leave it as it is,
and what is thrown away leaves a part of it, in its order.
-/

namespace KmmYocto

universe u

/-- A queue that holds at most `capacity` items. -/
structure Fifo (α : Type u) (capacity : Nat) where
  items : List α
  fits : items.length ≤ capacity

namespace Fifo

variable
    {α : Type u} {capacity : Nat}

def empty : Fifo α capacity where
  items := []
  fits := Nat.zero_le _

/-- The room that is left. -/
def free (queue : Fifo α capacity) : Nat :=
  capacity - queue.items.length

/-- Append, if there is room. -/
def push (queue : Fifo α capacity) (added : List α) :
    Option (Fifo α capacity) :=
  if room : added.length ≤ queue.free then
    some
      { items := queue.items ++ added
        fits := by
          have fits := queue.fits
          rw [free] at room
          rw [List.length_append]
          omega }
  else none

/-- Remove from the head. -/
def drop (queue : Fifo α capacity) (count : Nat) : Fifo α capacity where
  items := queue.items.drop count
  fits := (List.drop_sublist count queue.items).length_le.trans queue.fits

theorem push_eq_some {queue after : Fifo α capacity} {added : List α} :
    queue.push added = some after ↔
      added.length ≤ queue.free ∧ after.items = queue.items ++ added := by
  rw [push]
  split_ifs with room
  · rw [Option.some.injEq]
    constructor
    · rintro rfl
      exact ⟨room, rfl⟩
    · rintro ⟨-, items⟩
      cases after
      exact (Fifo.mk.injEq .. ▸ items.symm)
  · exact iff_of_false nofun fun both => room both.1

theorem exists_push {queue : Fifo α capacity} {added : List α}
    (room : added.length ≤ queue.free) :
    ∃ after, queue.push added = some after :=
  ⟨_, dif_pos room⟩

theorem free_drop (queue : Fifo α capacity) (count : Nat) :
    queue.free ≤ (queue.drop count).free := by
  simp only [free, drop, List.length_drop]
  omega

end Fifo

/-- Two queues, and what the consumer has had. -/
structure Lane (α : Type u) (srcCapacity dstCapacity : Nat) where
  src : Fifo α srcCapacity
  dst : Fifo α dstCapacity
  delivered : List α

namespace Lane

variable
    {α : Type u} {srcCapacity dstCapacity : Nat}

/-- A lane that nothing has entered. -/
def start : Lane α srcCapacity dstCapacity where
  src := .empty
  dst := .empty
  delivered := []

/-- What the first queue takes in; an item that finds no room is lost. -/
def accepted (lane : Lane α srcCapacity dstCapacity) (item : α) : List α :=
  if [item].length ≤ lane.src.free then [item] else []

/-- The producer. -/
def arrive (lane : Lane α srcCapacity dstCapacity) (item : α) :
    Lane α srcCapacity dstCapacity :=
  match lane.src.push [item] with
  | some src => { lane with src }
  | none => lane

/-- The consumer. -/
def take (lane : Lane α srcCapacity dstCapacity) (count : Nat) :
    Lane α srcCapacity dstCapacity :=
  { lane with
    dst := lane.dst.drop count
    delivered := lane.delivered ++ lane.dst.items.take count }

/-- Remove items from the first queue, to read them or to throw them away. -/
def dropSrc (lane : Lane α srcCapacity dstCapacity) (count : Nat) :
    Lane α srcCapacity dstCapacity :=
  { lane with src := lane.src.drop count }

/-- Throw the second queue away. -/
def clearDst (lane : Lane α srcCapacity dstCapacity) :
    Lane α srcCapacity dstCapacity :=
  { lane with dst := .empty }

/-- Write the buffer of the program; without room the program is stuck. -/
def write (lane : Lane α srcCapacity dstCapacity) (buffer : List α) :
    Option (Lane α srcCapacity dstCapacity) :=
  (lane.dst.push buffer).map fun dst => { lane with dst }

/-- What was given out and what is under way, oldest first. -/
def flow (lane : Lane α srcCapacity dstCapacity) (held : List α) : List α :=
  lane.delivered ++ (lane.dst.items ++ (held ++ lane.src.items))

section Flow

variable
    (lane : Lane α srcCapacity dstCapacity) (held : List α)

theorem flow_arrive (item : α) :
    (lane.arrive item).flow held = lane.flow held ++ lane.accepted item := by
  rw [arrive, accepted]
  cases pushed : lane.src.push [item] with
  | none =>
      rw [if_neg, List.append_nil]
      intro room
      obtain ⟨after, some⟩ := Fifo.exists_push room
      rw [pushed] at some
      cases some
  | some src =>
      obtain ⟨room, items⟩ := Fifo.push_eq_some.mp pushed
      rw [if_pos room]
      simp only [flow, items, List.append_assoc]

theorem flow_take (count : Nat) :
    (lane.take count).flow held = lane.flow held := by
  simp only [flow, take, Fifo.drop, List.append_assoc]
  rw [← List.append_assoc (lane.dst.items.take count), List.take_append_drop]

/-- What is read is under way in the hands of the program. -/
theorem flow_read (count : Nat) :
    (lane.dropSrc count).flow (lane.src.items.take count) = lane.flow [] := by
  simp only [flow, dropSrc, Fifo.drop, List.take_append_drop, List.nil_append]

theorem flow_write {lane after : Lane α srcCapacity dstCapacity}
    {held : List α} (written : lane.write held = some after) :
    after.flow [] = lane.flow held := by
  obtain ⟨dst, pushed, rfl⟩ := Option.map_eq_some_iff.mp written
  obtain ⟨-, items⟩ := Fifo.push_eq_some.mp pushed
  simp only [flow, items, List.append_assoc, List.nil_append]

theorem flow_dropSrc (count : Nat) :
    ((lane.dropSrc count).flow held).Sublist (lane.flow held) :=
  (List.Sublist.refl _).append
    ((List.Sublist.refl _).append
      ((List.Sublist.refl _).append (List.drop_sublist _ _)))

theorem flow_clearDst : (lane.clearDst.flow held).Sublist (lane.flow held) :=
  (List.Sublist.refl _).append
    ((List.nil_sublist _).append (List.Sublist.refl _))

end Flow

/-- The producer leaves what was there. -/
theorem length_src_arrive (lane : Lane α srcCapacity dstCapacity) (item : α) :
    lane.src.items.length ≤ (lane.arrive item).src.items.length := by
  rw [arrive]
  cases pushed : lane.src.push [item] with
  | none => exact le_rfl
  | some src =>
      obtain ⟨-, items⟩ := Fifo.push_eq_some.mp pushed
      simp only [items, List.length_append]
      exact Nat.le_add_right _ _

theorem dst_arrive (lane : Lane α srcCapacity dstCapacity) (item : α) :
    (lane.arrive item).dst = lane.dst := by
  rw [arrive]
  cases lane.src.push [item] with
  | none => rfl
  | some src => rfl

end Lane

end KmmYocto
