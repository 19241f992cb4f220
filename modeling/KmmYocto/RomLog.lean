import KmmYocto.AbSpl
import Mathlib

/-!
# The event log of the ROM

The log is a sequence of events, each a header word and as many parameter
words as the top byte of the header asks for.  A zero word ends it, or the
limit of 128 words.  `spl_active_copy` walks over it from header to header.
-/

namespace KmmYocto.AbSpl

open StateTransition (Reaches eval mem_eval)
open Relation (ReflTransGen)

/-! ## The log -/

/-- How many words an event takes, by its header. -/
def eventWords (header : Nat) : Nat :=
  if header / 2 ^ 24 ∈ [0x80, 0x81, 0x82, 0x8f, 0x90, 0x91, 0x9f] then 2
  else if header / 2 ^ 24 ∈ [0xa0, 0xc0] then 3
  else 1

/-- What an event says about the copy that was booted. -/
def eventCopy (header : Nat) : Option SplCopy :=
  if header / 2 ^ 24 = 0x50 then some .a
  else if header / 2 ^ 24 = 0x51 then some .b
  else none

structure RomEvent where
  header : Nat
  params : List Nat
  header_ne : header ≠ 0
  header_lt : header < 2 ^ 32
  /-- A parameter may be any word. -/
  length_params : params.length + 1 = eventWords header

namespace RomEvent

def words (event : RomEvent) : List Nat :=
  event.header :: event.params

@[simp]
theorem length_words (event : RomEvent) :
    event.words.length = eventWords event.header :=
  event.length_params

end RomEvent

/-- The words of a log, with the zero word that ends it. -/
def logWords (events : List RomEvent) : List Nat :=
  events.flatMap RomEvent.words ++ [0]

/--
The memory holds a log.  Behind the limit it may hold anything, so that a log
may also be cut off there, before its zero word or within an event.
-/
def HoldsLog (devmem : Nat → Nat) (ptr : Nat) (events : List RomEvent) :
    Prop :=
  ∀ k < 128, ∀ word ∈ (logWords events)[k]?, devmem (ptr + k * 4) = word

/-- Where the next event starts. -/
def wordCount (events : List RomEvent) : Nat :=
  (events.flatMap RomEvent.words).length

/-- The headers with their positions. -/
def headers : Nat → List RomEvent → List (Nat × Nat)
  | _, [] => []
  | i, event :: rest =>
      (i, event.header) :: headers (i + event.words.length) rest

/-- The last copy that an event names whose header is within the limit. -/
def lastCopy (events : List RomEvent) : Option SplCopy :=
  (((headers 0 events).filter (·.1 < 128)).filterMap
    (eventCopy ·.2)).getLast?

/-- The pointer is in the OCRAM and aligned. -/
def LogPointer (ptr : Nat) : Prop :=
  0x00900000 ≤ ptr ∧ ptr < 0x00b00000 ∧ ptr % 4 = 0

instance (ptr : Nat) : Decidable (LogPointer ptr) :=
  inferInstanceAs (Decidable (_ ∧ _ ∧ _))

/-- What the GPR flag says. -/
def gprCopy (devmem : Nat → Nat) : SplCopy :=
  if devmem 0x30390098 &&& 0x40000000 ≠ 0 then .b else .a

@[simp]
theorem wordCount_append (past rest : List RomEvent) :
    wordCount (past ++ rest) = wordCount past + wordCount rest := by
  simp [wordCount]

@[simp]
theorem wordCount_singleton (event : RomEvent) :
    wordCount [event] = eventWords event.header := by
  simp [wordCount]

theorem headers_append (i : Nat) (past rest : List RomEvent) :
    headers i (past ++ rest) =
      headers i past ++ headers (i + wordCount past) rest := by
  induction past generalizing i with
  | nil => simp [headers, wordCount]
  | cons event past ih =>
      rw [List.cons_append, headers, headers, ih, List.cons_append]
      simp only [wordCount, List.flatMap_cons, List.length_append,
        Nat.add_assoc]

theorem le_of_mem_headers {i : Nat} {events : List RomEvent}
    {header : Nat × Nat} (member : header ∈ headers i events) :
    i ≤ header.1 := by
  induction events generalizing i with
  | nil => simp [headers] at member
  | cons event rest ih =>
      rcases List.mem_cons.mp member with rfl | later
      · exact le_rfl
      · exact le_trans (Nat.le_add_right _ _) (ih later)

/-- An event within the limit has the last word on the copy. -/
theorem lastCopy_append_singleton {past : List RomEvent}
    (within : wordCount past < 128) (event : RomEvent) :
    lastCopy (past ++ [event]) =
      (eventCopy event.header).or (lastCopy past) := by
  rw [lastCopy, headers_append, List.filter_append, List.filterMap_append,
    List.getLast?_append, ← lastCopy]
  congr 1
  simp only [headers, Nat.zero_add, List.filter_cons, within, decide_true,
    if_true, List.filter_nil]
  cases named : eventCopy event.header with
  | none => simp [named]
  | some copy => simp [named]

/-- Events behind the limit say nothing. -/
theorem lastCopy_append_of_le {past : List RomEvent}
    (behind : 128 ≤ wordCount past) (rest : List RomEvent) :
    lastCopy (past ++ rest) = lastCopy past := by
  have cut :
      (headers (0 + wordCount past) rest).filter (·.1 < 128) = [] := by
    refine List.filter_eq_nil_iff.mpr ?_
    intro header member
    have := le_of_mem_headers member
    simp only [decide_eq_true_eq]
    omega
  rw [lastCopy, headers_append, List.filter_append, cut, List.append_nil,
    lastCopy]

/-- In memory, an event is followed by the next one or by the end. -/
theorem HoldsLog.devmem_eq {devmem : Nat → Nat} {ptr : Nat}
    {past rest : List RomEvent} (holds : HoldsLog devmem ptr (past ++ rest))
    (within : wordCount past < 128) :
    devmem (ptr + wordCount past * 4) =
      (rest.head?.map RomEvent.header).getD 0 := by
  refine holds _ within _ ?_
  rw [logWords, List.flatMap_append, List.append_assoc, wordCount,
    List.getElem?_append_right le_rfl, Nat.sub_self]
  cases rest with
  | nil => rfl
  | cons event rest => rfl

/-! ## The loop -/

/-- The variables of the `while` loop. -/
structure LogLoop where
  i : Nat
  active : Option SplCopy

/-- One round of the loop. -/
def logStep (devmem : Nat → Nat) (ptr : Nat) (loop : LogLoop) :
    Option LogLoop :=
  if loop.i < 128 then
    let value := devmem (ptr + loop.i * 4)
    let kind := value / 2 ^ 24
    if value = 0 then none
    else if kind ∈ [0x80, 0x81, 0x82, 0x8f, 0x90, 0x91, 0x9f] then
      some { loop with i := loop.i + 2 }
    else if kind ∈ [0xa0, 0xc0] then some { loop with i := loop.i + 3 }
    else if kind = 0x50 then some ⟨loop.i + 1, some .a⟩
    else if kind = 0x51 then some ⟨loop.i + 1, some .b⟩
    else some { loop with i := loop.i + 1 }
  else none

/-- The loop from its start. -/
def logLoop (devmem : Nat → Nat) (ptr : Nat) : Part LogLoop :=
  eval (logStep devmem ptr) ⟨0, none⟩

variable {devmem : Nat → Nat} {ptr : Nat}

theorem eventWords_pos (header : Nat) : 0 < eventWords header := by
  unfold eventWords
  split_ifs <;> omega

/-- A round goes on by the words of the event. -/
theorem logStep_eq (loop : LogLoop) :
    logStep devmem ptr loop =
      if loop.i < 128 ∧ devmem (ptr + loop.i * 4) ≠ 0 then
        some
          ⟨loop.i + eventWords (devmem (ptr + loop.i * 4)),
            (eventCopy (devmem (ptr + loop.i * 4))).or loop.active⟩
      else none := by
  unfold logStep eventWords eventCopy
  split_ifs <;> simp_all

theorem scanLog_succ (left i : Nat) (active : Option SplCopy) :
    scanLog devmem ptr (left + 1) i active =
      if i < 128 ∧ devmem (ptr + i * 4) ≠ 0 then
        scanLog devmem ptr left (i + eventWords (devmem (ptr + i * 4)))
          ((eventCopy (devmem (ptr + i * 4))).or active)
      else active := by
  rw [scanLog]
  unfold eventWords eventCopy
  split_ifs <;> simp_all

/-- The loop ends, and what it ends with is what `scanLog` computes. -/
theorem exists_mem_eval (devmem : Nat → Nat) (ptr left i : Nat)
    (active : Option SplCopy) (enough : 128 ≤ i + left) :
    ∃ final ∈ eval (logStep devmem ptr) ⟨i, active⟩,
      final.active = scanLog devmem ptr left i active := by
  induction left generalizing i active with
  | zero =>
      have stop : logStep devmem ptr ⟨i, active⟩ = none := by
        rw [logStep_eq, if_neg]
        simp only
        omega
      exact ⟨_, mem_eval.mpr ⟨ReflTransGen.refl, stop⟩, rfl⟩
  | succ left ih =>
      rw [scanLog_succ]
      by_cases goesOn : i < 128 ∧ devmem (ptr + i * 4) ≠ 0
      · have positive := eventWords_pos (devmem (ptr + i * 4))
        obtain ⟨final, member, result⟩ :=
          ih (i + eventWords (devmem (ptr + i * 4)))
            ((eventCopy (devmem (ptr + i * 4))).or active) (by omega)
        obtain ⟨reaches, stop⟩ := mem_eval.mp member
        refine ⟨final, mem_eval.mpr ⟨reaches.head ?_, stop⟩, ?_⟩
        · rw [logStep_eq, if_pos goesOn]
          exact rfl
        · rw [result, if_pos goesOn]
      · refine ⟨⟨i, active⟩, mem_eval.mpr ⟨ReflTransGen.refl, ?_⟩, ?_⟩
        · rw [logStep_eq, if_neg goesOn]
        · rw [if_neg goesOn]

/-! ## The loop over a log -/

/-- The loop is at a header or at the end, and knows the events before it. -/
def AtEvent (events : List RomEvent) (loop : LogLoop) : Prop :=
  ∃ past rest, events = past ++ rest ∧ loop.i = wordCount past ∧
    loop.active = lastCopy past

variable {events : List RomEvent}

/-- What the loop reads is the header of the next event, or the end. -/
theorem AtEvent.devmem_eq {loop : LogLoop} {past rest : List RomEvent}
    (holds : HoldsLog devmem ptr events) (split : events = past ++ rest)
    (index : loop.i = wordCount past) (within : loop.i < 128) :
    devmem (ptr + loop.i * 4) =
      (rest.head?.map RomEvent.header).getD 0 := by
  subst split
  rw [index] at within ⊢
  exact holds.devmem_eq within

theorem AtEvent.step (holds : HoldsLog devmem ptr events)
    {loop next : LogLoop} (atEvent : AtEvent events loop)
    (step : next ∈ logStep devmem ptr loop) : AtEvent events next := by
  obtain ⟨past, rest, split, index, active⟩ := atEvent
  rw [logStep_eq] at step
  split_ifs at step with goesOn
  · obtain rfl := Option.mem_some_iff.mp step
    have read := AtEvent.devmem_eq holds split index goesOn.1
    cases rest with
    | nil => exact absurd read goesOn.2
    | cons event rest =>
        have header : devmem (ptr + loop.i * 4) = event.header := read
        refine ⟨past ++ [event], rest, by simp [split], ?_, ?_⟩
        · rw [wordCount_append, wordCount_singleton, ← index, ← header]
        · rw [lastCopy_append_singleton (by omega), header, active]
  · exact absurd step (by simp)

theorem AtEvent.of_reaches (holds : HoldsLog devmem ptr events)
    {loop : LogLoop} (reaches : Reaches (logStep devmem ptr) ⟨0, none⟩ loop) :
    AtEvent events loop := by
  induction reaches with
  | refl => exact ⟨[], events, rfl, rfl, rfl⟩
  | tail _ step ih => exact ih.step holds step

/-- Where the loop ends, it has seen all events within the limit. -/
theorem AtEvent.active_eq (holds : HoldsLog devmem ptr events)
    {final : LogLoop} (atEvent : AtEvent events final)
    (stop : logStep devmem ptr final = none) :
    final.active = lastCopy events := by
  obtain ⟨past, rest, split, index, active⟩ := atEvent
  rw [logStep_eq] at stop
  split_ifs at stop with goesOn
  by_cases within : final.i < 128
  · have read := AtEvent.devmem_eq holds split index within
    cases rest with
    | nil => rw [active, split, List.append_nil]
    | cons event rest =>
        exact absurd ⟨within, read ▸ event.header_ne⟩ goesOn
  · rw [active, split, lastCopy_append_of_le (by omega)]

theorem splActiveCopy_eq (devmem : Nat → Nat) :
    splActiveCopy devmem =
      if LogPointer (devmem 0x9e0) then
        (scanLog devmem (devmem 0x9e0) 128 0 none).getD (gprCopy devmem)
      else gprCopy devmem := by
  by_cases pointer : LogPointer (devmem 0x9e0)
  · rw [if_pos pointer]
    unfold LogPointer at pointer
    unfold splActiveCopy
    simp only
    rw [if_pos pointer]
    cases scanLog devmem (devmem 0x9e0) 128 0 none with
    | none => rfl
    | some copy => rfl
  · rw [if_neg pointer]
    unfold LogPointer at pointer
    unfold splActiveCopy
    simp only
    rw [if_neg pointer]
    rfl

/--
`spl_active_copy` answers with the last event of the log that names a copy,
it looks at nothing but headers and the end of the log, and it terminates.
-/
theorem splActiveCopy_romLog (devmem : Nat → Nat) :
    (LogPointer (devmem 0x9e0) →
      ∀ events, HoldsLog devmem (devmem 0x9e0) events →
        splActiveCopy devmem = (lastCopy events).getD (gprCopy devmem) ∧
          ∀ loop, Reaches (logStep devmem (devmem 0x9e0)) ⟨0, none⟩ loop →
            AtEvent events loop) ∧
      (¬ LogPointer (devmem 0x9e0) →
        splActiveCopy devmem = gprCopy devmem) ∧
      ∃ final ∈ logLoop devmem (devmem 0x9e0),
        splActiveCopy devmem =
          if LogPointer (devmem 0x9e0) then
            final.active.getD (gprCopy devmem)
          else gprCopy devmem := by
  obtain ⟨final, member, result⟩ :=
    exists_mem_eval devmem (devmem 0x9e0) 128 0 none (by decide)
  have answer := splActiveCopy_eq devmem
  refine ⟨?_, ?_, ⟨final, member, result ▸ answer⟩⟩
  · intro pointer events holds
    obtain ⟨reaches, stop⟩ := mem_eval.mp member
    refine ⟨?_, fun loop => AtEvent.of_reaches holds⟩
    rw [answer, if_pos pointer, ← result,
      (AtEvent.of_reaches holds reaches).active_eq holds stop]
  · intro pointer
    rw [answer, if_neg pointer]

/-! ## A memory with a log -/

/-- What the ROM leaves behind. -/
def romMemory (ptr gpr : Nat) (events : List RomEvent) (address : Nat) :
    Nat :=
  if address = 0x9e0 then ptr
  else if address = 0x30390098 then gpr
  else (logWords events).getD ((address - ptr) / 4) 0

/-- Every log can be at every valid pointer. -/
theorem holdsLog_romMemory {ptr : Nat} (pointer : LogPointer ptr) (gpr : Nat)
    (events : List RomEvent) :
    HoldsLog (romMemory ptr gpr events) ptr events := by
  intro k within word member
  obtain ⟨low, high, -⟩ := pointer
  rw [romMemory, if_neg (by omega), if_neg (by omega),
    Nat.add_sub_cancel_left, Nat.mul_div_cancel k (by decide),
    List.getD_eq_getElem?_getD, Option.mem_def.mp member, Option.getD_some]

/-- The parameters look like the end of the log and like an event of B. -/
def primaryLog : List RomEvent :=
  [⟨0x80000000, [0], by decide, by decide, by decide⟩,
    ⟨0x50000001, [], by decide, by decide, by decide⟩,
    ⟨0xa0000000, [0, 0x51000001], by decide, by decide, by decide⟩]

theorem splActiveCopy_primaryLog :
    splActiveCopy (romMemory 0x00900000 0x40000000 primaryLog) = .a := by
  have read := ((splActiveCopy_romLog
    (romMemory 0x00900000 0x40000000 primaryLog)).1 (by decide) primaryLog
      (holdsLog_romMemory (by decide) _ _)).1
  have last : lastCopy primaryLog = some .a := by decide
  rw [read, last, Option.getD_some]

end KmmYocto.AbSpl
