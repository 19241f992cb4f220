import KmmYocto.ByteMemory
import KmmYocto.Trace

/-!
# The libc of the M4 firmware

`libc_min.c` has what rpmsg-lite needs of a libc: an allocator that never frees
and the plain loops of the memory and string functions.

The allocator counts in the 32 bits of the M4, so a request can wrap.  The
blocks that a run hands out are apart and inside the heap exactly if no request
that was granted is larger than the heap.
-/

namespace KmmYocto

/-! ## `malloc` -/

/-- A block that was handed out: its offset in the heap and what was asked. -/
structure HeapBlock where
  offset : Nat
  size : Nat
deriving DecidableEq, Repr

/-- `heap_off`, and the blocks, oldest first. -/
structure LibcHeap where
  heapOff : UInt32
  blocks : List HeapBlock
deriving DecidableEq, Repr

namespace LibcHeap

/-- `sizeof(heap)`. -/
def heapSize : UInt32 := 16 * 1024

/-- `(size + 7) & ~(size_t)7`. -/
def rounded (size : UInt32) : UInt32 :=
  (size + 7) &&& ~~~7

/-- `malloc`: the offset in the heap, if there is one. -/
def malloc (heap : LibcHeap) (size : UInt32) : Option UInt32 × LibcHeap :=
  if heap.heapOff + rounded size > heapSize then (none, heap)
  else
    (some heap.heapOff,
      { heapOff := heap.heapOff + rounded size
        blocks := heap.blocks ++ [⟨heap.heapOff.toNat, size.toNat⟩] })

def start : LibcHeap where
  heapOff := 0
  blocks := []

/-- The heap after these requests. -/
def after (sizes : List UInt32) : LibcHeap :=
  Trace.run (fun heap size => (heap.malloc size).2) start sizes

/-- The blocks are aligned, inside the heap and apart. -/
structure Sound (heap : LibcHeap) : Prop where
  aligned : ∀ block ∈ heap.blocks, block.offset % 8 = 0
  inside : ∀ block ∈ heap.blocks,
    block.offset + block.size ≤ heapSize.toNat
  apart : heap.blocks.Pairwise fun earlier later =>
    earlier.offset + earlier.size ≤ later.offset

theorem toNat_heapSize : heapSize.toNat = 16384 :=
  rfl

/-- A size is rounded up to a multiple of eight, modulo the word. -/
theorem toNat_rounded (size : UInt32) :
    (rounded size).toNat = (size.toNat + 7) % 2 ^ 32 / 8 * 8 := by
  have mask : rounded size = (size + 7) >>> 3 <<< 3 := by
    apply UInt32.toBitVec_inj.mp
    rw [rounded, UInt32.toBitVec_and, UInt32.toBitVec_not,
      UInt32.toBitVec_shiftLeft, UInt32.toBitVec_shiftRight]
    generalize (size + 7).toBitVec = bits
    apply BitVec.eq_of_getElem_eq
    intro i inside
    interval_cases i <;> simp
  rw [mask, UInt32.toNat_shiftLeft, UInt32.toNat_shiftRight,
    UInt32.toNat_add]
  have three : (3 : UInt32).toNat % 32 = 3 := rfl
  have seven : (7 : UInt32).toNat = 7 := rfl
  rw [three, seven, Nat.shiftRight_eq_div_pow, Nat.shiftLeft_eq]
  omega

/-- What holds of a heap whose requests were all small. -/
structure Keeps (heap : LibcHeap) : Prop where
  sound : heap.Sound
  multiple : heap.heapOff.toNat % 8 = 0
  bounded : heap.heapOff.toNat ≤ 16384
  below : ∀ block ∈ heap.blocks,
    block.offset + block.size ≤ heap.heapOff.toNat

theorem keeps_start : start.Keeps where
  sound := ⟨nofun, nofun, .nil⟩
  multiple := rfl
  bounded := by decide
  below := nofun

/-- A request adds one block or none. -/
theorem blocks_malloc (heap : LibcHeap) (size : UInt32) :
    (heap.malloc size).2 = heap ∨
      (heap.malloc size).2.blocks =
        heap.blocks ++ [⟨heap.heapOff.toNat, size.toNat⟩] := by
  rw [malloc]
  split_ifs
  · exact .inl rfl
  · exact .inr rfl

/-- A granted request that is not larger than the heap keeps the blocks apart. -/
theorem Keeps.malloc {heap : LibcHeap} (keeps : heap.Keeps) {size : UInt32}
    (small : size.toNat ≤ 16384) : (heap.malloc size).2.Keeps := by
  have bounded := keeps.bounded
  have multiple := keeps.multiple
  have round : (rounded size).toNat = (size.toNat + 7) / 8 * 8 := by
    rw [toNat_rounded, Nat.mod_eq_of_lt (by omega)]
  have total :
      (heap.heapOff + rounded size).toNat =
        heap.heapOff.toNat + (size.toNat + 7) / 8 * 8 := by
    rw [UInt32.toNat_add, round, Nat.mod_eq_of_lt (by omega)]
  rw [LibcHeap.malloc]
  split_ifs with full
  · exact keeps
  · have fits : heap.heapOff.toNat + (size.toNat + 7) / 8 * 8 ≤ 16384 := by
      rw [gt_iff_lt, UInt32.lt_iff_toNat_lt, not_lt, total] at full
      exact full
    have all : ∀ {holds : HeapBlock → Prop},
        (∀ block ∈ heap.blocks, holds block) →
          holds ⟨heap.heapOff.toNat, size.toNat⟩ →
            ∀ block ∈ heap.blocks ++ [⟨heap.heapOff.toNat, size.toNat⟩],
              holds block := by
      intro holds old new block member
      rcases List.mem_append.mp member with early | last
      · exact old block early
      · rw [List.mem_singleton.mp last]
        exact new
    refine
      { sound := ⟨all keeps.sound.aligned multiple, all keeps.sound.inside ?_, ?_⟩
        multiple := ?_
        bounded := ?_
        below := all (fun block member => ?_) ?_ }
    · rw [toNat_heapSize]
      show heap.heapOff.toNat + size.toNat ≤ 16384
      omega
    · rw [List.pairwise_append]
      refine ⟨keeps.sound.apart, List.pairwise_singleton _ _, ?_⟩
      intro earlier member later last
      rw [List.mem_singleton.mp last]
      exact keeps.below earlier member
    · show (heap.heapOff + rounded size).toNat % 8 = 0
      omega
    · show (heap.heapOff + rounded size).toNat ≤ 16384
      omega
    · show _ ≤ (heap.heapOff + rounded size).toNat
      have below := keeps.below block member
      omega
    · show
        heap.heapOff.toNat + size.toNat ≤
          (heap.heapOff + rounded size).toNat
      omega

/-- Where every granted request is small, the heap keeps its shape. -/
theorem keeps_after (sizes : List UInt32)
    (small : ∀ block ∈ (after sizes).blocks, block.size ≤ 16384) :
    (after sizes).Keeps := by
  induction sizes using List.reverseRecOn with
  | nil => exact keeps_start
  | append_singleton sizes size induction =>
      have last :
          after (sizes ++ [size]) = ((after sizes).malloc size).2 := by
        rw [after, Trace.run_append]
        rfl
      rw [last] at small ⊢
      rcases blocks_malloc (after sizes) size with refused | granted
      · rw [refused] at small ⊢
        exact induction small
      · rw [granted] at small
        have before :=
          induction fun block member =>
            small block (List.mem_append_left _ member)
        exact
          before.malloc
            (small _ (List.mem_append_right _ (List.mem_singleton_self _)))

/--
The blocks of a run are aligned, inside the heap and apart exactly if no
granted request was larger than the heap.
-/
theorem sound_after_iff (sizes : List UInt32) :
    (after sizes).Sound ↔
      ∀ block ∈ (after sizes).blocks, block.size ≤ heapSize.toNat := by
  constructor
  · intro sound block member
    exact (Nat.le_add_left _ _).trans (sound.inside block member)
  · intro small
    exact (keeps_after sizes small).sound

/-- A request of nearly the whole word moves the heap back into the first block. -/
example :
    (after [16, 0xFFFFFFF8, 8]).blocks =
      [⟨0, 16⟩, ⟨16, 0xFFFFFFF8⟩, ⟨8, 8⟩] := by
  decide

end LibcHeap

/-! ## Memory and strings -/

namespace Memory

/-- `memcpy`: one byte after the other, upwards. -/
def memcpyLoop (mem : Memory) (dst src : Nat) : Nat → Memory
  | 0 => mem
  | n + 1 =>
      memcpyLoop (mem.writeBytes dst [mem.byte src]) (dst + 1) (src + 1) n

/-- `memcmp`. -/
def memcmp (mem : Memory) (a b : Nat) : Nat → Int
  | 0 => 0
  | n + 1 =>
      if mem.byte a ≠ mem.byte b then
        (mem.byte a).toNat - (mem.byte b).toNat
      else mem.memcmp (a + 1) (b + 1) n

/-- `strlen` with so many turns of its loop. -/
def strlen (mem : Memory) : Nat → Nat → Option Nat
  | 0, _ => none
  | turns + 1, s =>
      if mem.byte s = 0 then some 0
      else (mem.strlen turns (s + 1)).map (· + 1)

/-- `strncpy`; `padding` is the second loop. -/
def strncpyLoop (mem : Memory) (padding : Bool) (dst src : Nat) :
    Nat → Memory
  | 0 => mem
  | n + 1 =>
      if padding = false ∧ mem.byte src ≠ 0 then
        strncpyLoop (mem.writeBytes dst [mem.byte src]) false (dst + 1)
          (src + 1) n
      else strncpyLoop (mem.writeBytes dst [0]) true (dst + 1) src n

/-- `strncpy`. -/
def strncpy (mem : Memory) (dst src n : Nat) : Memory :=
  mem.strncpyLoop false dst src n

/-- `strcmp` with so many turns of its loop. -/
def strcmp (mem : Memory) : Nat → Nat → Nat → Option Int
  | 0, _, _ => none
  | turns + 1, a, b =>
      if mem.byte a ≠ 0 ∧ mem.byte a = mem.byte b then
        mem.strcmp turns (a + 1) (b + 1)
      else some ((mem.byte a).toNat - (mem.byte b).toNat)

/-- `strncmp`. -/
def strncmp (mem : Memory) (a b : Nat) : Nat → Int
  | 0 => 0
  | n + 1 =>
      if mem.byte a ≠ mem.byte b ∨ mem.byte a = 0 then
        (mem.byte a).toNat - (mem.byte b).toNat
      else mem.strncmp (a + 1) (b + 1) n

/-- A string with its zero lies at the address. -/
def HoldsString (mem : Memory) : Nat → List UInt8 → Prop
  | address, [] => mem.byte address = 0
  | address, c :: rest =>
      mem.byte address = c ∧ c ≠ 0 ∧ mem.HoldsString (address + 1) rest

/-- The sign of a comparison. -/
structure Compares (result : Int) (left right : List UInt8) : Prop where
  zero : result = 0 ↔ left = right
  negative : result < 0 ↔ left < right

section Compares

variable
    {left right : List UInt8} {c d : UInt8}

theorem compares_refl (bytes : List UInt8) : Compares 0 bytes bytes where
  zero := by simp
  negative := iff_of_false (by decide) (List.lt_irrefl _)

/-- The first bytes that differ decide. -/
theorem compares_of_ne (differs : c ≠ d) (left right : List UInt8) :
    Compares ((c.toNat : Int) - d.toNat) (c :: left) (d :: right) where
  zero := by
    have values : c.toNat ≠ d.toNat := fun same =>
      differs (UInt8.toNat_inj.mp same)
    refine iff_of_false (by omega) fun same => ?_
    exact differs (List.cons.inj same).1
  negative := by
    rw [List.cons_lt_cons_iff, UInt8.lt_iff_toNat_lt]
    have other : ¬ (c = d ∧ left < right) := fun both => differs both.1
    constructor
    · intro less
      exact .inl (by omega)
    · rintro (less | same)
      · omega
      · exact absurd same other

theorem Compares.cons {result : Int} (compares : Compares result left right)
    (c : UInt8) : Compares result (c :: left) (c :: right) where
  zero := by rw [compares.zero, List.cons_inj_right]
  negative := by simp [compares.negative]

theorem compares_nil_cons (c : UInt8) (nonzero : c ≠ 0) (right : List UInt8) :
    Compares ((0 : UInt8).toNat - (c.toNat : Int)) [] (c :: right) where
  zero := by
    have value : c.toNat ≠ 0 := fun same =>
      nonzero (UInt8.toNat_inj.mp same)
    refine iff_of_false ?_ (by simp)
    show (0 : Int) - c.toNat ≠ 0
    omega
  negative := by
    have value : c.toNat ≠ 0 := fun same =>
      nonzero (UInt8.toNat_inj.mp same)
    refine iff_of_true ?_ (List.nil_lt_cons c right)
    show (0 : Int) - c.toNat < 0
    omega

theorem compares_cons_nil (c : UInt8) (nonzero : c ≠ 0) (left : List UInt8) :
    Compares (c.toNat - ((0 : UInt8).toNat : Int)) (c :: left) [] where
  zero := by
    have value : c.toNat ≠ 0 := fun same =>
      nonzero (UInt8.toNat_inj.mp same)
    refine iff_of_false ?_ (by simp)
    show (c.toNat : Int) - 0 ≠ 0
    omega
  negative := by
    refine iff_of_false ?_ (List.not_lt_nil _)
    show ¬ (c.toNat : Int) - 0 < 0
    omega

end Compares

section Strings

variable
    {mem : Memory}

theorem compares_memcmp (a b n : Nat) :
    Compares (mem.memcmp a b n) (mem.readBytes a n) (mem.readBytes b n) := by
  have cons : ∀ address n : Nat,
      mem.readBytes address (n + 1) =
        mem.byte address :: mem.readBytes (address + 1) n := by
    intro address n
    simp only [readBytes, List.range_succ_eq_map, List.map_cons,
      List.map_map, Nat.add_zero, List.cons.injEq, true_and]
    apply List.map_congr_left
    intro offset _
    show mem.byte _ = mem.byte _
    congr 1
    omega
  induction n generalizing a b with
  | zero => exact compares_refl _
  | succ n induction =>
      rw [memcmp, cons, cons]
      split_ifs with differs
      · exact compares_of_ne differs _ _
      · rw [not_not.mp differs]
        exact (induction (a + 1) (b + 1)).cons _

theorem strlen_eq {s : Nat} {text : List UInt8}
    (holds : mem.HoldsString s text) {turns : Nat}
    (enough : text.length < turns) : mem.strlen turns s = some text.length := by
  induction text generalizing s turns with
  | nil =>
      obtain ⟨turns, rfl⟩ := Nat.exists_eq_add_of_lt enough
      exact if_pos holds
  | cons c rest induction =>
      obtain ⟨first, nonzero, others⟩ := holds
      cases turns with
      | zero => cases enough
      | succ turns =>
          rw [strlen, first, if_neg nonzero,
            induction others (Nat.lt_of_succ_lt_succ enough)]
          rfl

theorem compares_strcmp {a b : Nat} {left right : List UInt8}
    (holdsLeft : mem.HoldsString a left)
    (holdsRight : mem.HoldsString b right) {turns : Nat}
    (enough : left.length < turns) :
    ∃ result, mem.strcmp turns a b = some result ∧
      Compares result left right := by
  induction left generalizing a b right turns with
  | nil =>
      obtain ⟨turns, rfl⟩ := Nat.exists_eq_add_of_lt enough
      have ends : mem.byte a = 0 := holdsLeft
      refine ⟨_, if_neg fun both => both.1 ends, ?_⟩
      rw [ends]
      cases right with
      | nil =>
          have same : mem.byte b = 0 := holdsRight
          rw [same]
          exact compares_refl _
      | cons d others =>
          obtain ⟨rfl, nonzero, -⟩ := holdsRight
          exact compares_nil_cons _ nonzero others
  | cons c rest induction =>
      obtain ⟨rfl, nonzero, others⟩ := holdsLeft
      cases turns with
      | zero => cases enough
      | succ turns =>
          rw [strcmp]
          cases right with
          | nil =>
              have ends : mem.byte b = 0 := holdsRight
              rw [ends, if_neg fun both => nonzero both.2]
              exact ⟨_, rfl, compares_cons_nil _ nonzero rest⟩
          | cons d othersRight =>
              obtain ⟨rfl, nonzeroRight, holds⟩ := holdsRight
              split_ifs with same
              · obtain ⟨result, returns, compares⟩ :=
                  induction others holds (Nat.lt_of_succ_lt_succ enough)
                rw [same.2]
                exact ⟨result, returns, compares.cons _⟩
              · refine ⟨_, rfl, compares_of_ne (fun equal => ?_) _ _⟩
                exact same ⟨nonzero, equal⟩

theorem compares_strncmp {a b : Nat} {left right : List UInt8}
    (holdsLeft : mem.HoldsString a left)
    (holdsRight : mem.HoldsString b right) (n : Nat) :
    Compares (mem.strncmp a b n) (left.take n) (right.take n) := by
  induction n generalizing a b left right with
  | zero => exact compares_refl _
  | succ n induction =>
      rw [strncmp]
      cases left with
      | nil =>
          have ends : mem.byte a = 0 := holdsLeft
          rw [if_pos (.inr ends), ends]
          cases right with
          | nil =>
              have same : mem.byte b = 0 := holdsRight
              rw [same]
              exact compares_refl _
          | cons d others =>
              obtain ⟨rfl, nonzero, -⟩ := holdsRight
              exact compares_nil_cons _ nonzero _
      | cons c rest =>
          obtain ⟨rfl, nonzero, others⟩ := holdsLeft
          cases right with
          | nil =>
              have ends : mem.byte b = 0 := holdsRight
              rw [ends, if_pos (.inl nonzero)]
              exact compares_cons_nil _ nonzero _
          | cons d othersRight =>
              obtain ⟨rfl, nonzeroRight, holds⟩ := holdsRight
              split_ifs with differs
              · exact
                  compares_of_ne (differs.resolve_right nonzero) _ _
              · rw [not_or, not_not] at differs
                rw [differs.1]
                exact (induction others holds).cons _

/-! ### Copies -/

theorem byte_writeBytes_singleton (mem : Memory) (address : Nat) (c : UInt8)
    (queried : Nat) :
    (mem.writeBytes address [c]).byte queried =
      if queried = address then c else mem.byte queried := by
  split_ifs with same
  · have inside : 0 < [c].length := Nat.one_pos
    rw [same]
    exact byte_writeBytes_inside inside
  · apply byte_writeBytes_outside
    rw [List.length_singleton]
    omega

/-- A write outside a string does not touch it. -/
theorem HoldsString.write {s : Nat} {text : List UInt8}
    (holds : mem.HoldsString s text) {address : Nat}
    (outside : address < s ∨ s + text.length < address) (c : UInt8) :
    (mem.writeBytes address [c]).HoldsString s text := by
  induction text generalizing s with
  | nil =>
      show (mem.writeBytes address [c]).byte s = 0
      rw [byte_writeBytes_singleton, if_neg (by rintro rfl; simp at outside)]
      exact holds
  | cons first rest induction =>
      rw [List.length_cons] at outside
      obtain ⟨equal, nonzero, others⟩ := holds
      refine ⟨?_, nonzero, induction others (by omega)⟩
      rw [byte_writeBytes_singleton, if_neg (by omega)]
      exact equal

/-- A copy upwards reads nothing that it has written, if it starts below. -/
theorem byte_memcpyLoop {dst src n : Nat}
    (apart : dst ≤ src ∨ src + n ≤ dst) (queried : Nat) :
    (mem.memcpyLoop dst src n).byte queried =
      if dst ≤ queried ∧ queried < dst + n then
        mem.byte (src + (queried - dst))
      else mem.byte queried := by
  induction n generalizing mem dst src with
  | zero =>
      rw [if_neg (by omega)]
      rfl
  | succ n induction =>
      rw [memcpyLoop, induction (by omega)]
      simp only [byte_writeBytes_singleton]
      by_cases first : queried = dst
      · subst first
        rw [if_neg (by omega), if_pos rfl, if_pos (by omega), Nat.sub_self,
          Nat.add_zero]
      · by_cases inside : dst ≤ queried ∧ queried < dst + (n + 1)
        · rw [if_pos (by omega), if_pos inside, if_neg (by omega)]
          congr 1
          omega
        · rw [if_neg (by omega), if_neg inside, if_neg first]

/-- Between ranges that a copy upwards can take, `memcpy` is a copy. -/
theorem memcpyLoop_eq_copy {dst src n : Nat}
    (apart : dst ≤ src ∨ src + n ≤ dst) :
    mem.memcpyLoop dst src n = mem.copy dst src n := by
  have same : (mem.memcpyLoop dst src n).byte = (mem.copy dst src n).byte := by
    funext queried
    rw [byte_memcpyLoop apart]
    by_cases inside : dst ≤ queried ∧ queried < dst + n
    · obtain ⟨offset, rfl⟩ := Nat.exists_eq_add_of_le inside.1
      have small : offset < n := by omega
      rw [if_pos inside, copy, byte_writeBytes_inside (by simpa using small),
        List.getD_eq_getElem _ _ (by simpa using small)]
      simp [readBytes]
    · rw [if_neg inside, copy, byte_writeBytes_outside]
      rw [length_readBytes]
      omega
  cases h : mem.memcpyLoop dst src n
  cases h' : mem.copy dst src n
  rw [h, h'] at same
  exact congrArg Memory.mk same

theorem byte_strncpyLoop_padding (dst src n queried : Nat) :
    (mem.strncpyLoop true dst src n).byte queried =
      if dst ≤ queried ∧ queried < dst + n then 0 else mem.byte queried := by
  induction n generalizing mem dst with
  | zero =>
      rw [if_neg (by omega)]
      rfl
  | succ n induction =>
      rw [strncpyLoop, if_neg (by simp), induction]
      simp only [byte_writeBytes_singleton]
      split_ifs <;> first | rfl | omega

/-- The string as far as it fits, then zeros; and nothing else changes. -/
theorem byte_strncpy {dst src n : Nat} {text : List UInt8}
    (holds : mem.HoldsString src text)
    (apart : dst + n ≤ src ∨ src + text.length < dst) (queried : Nat) :
    (mem.strncpy dst src n).byte queried =
      if dst ≤ queried ∧ queried < dst + n then text.getD (queried - dst) 0
      else mem.byte queried := by
  rw [strncpy]
  induction n generalizing mem dst src text with
  | zero =>
      rw [if_neg (by omega)]
      rfl
  | succ n induction =>
      cases text with
      | nil =>
          have ends : mem.byte src = 0 := holds
          rw [strncpyLoop, if_neg fun both => both.2 ends,
            byte_strncpyLoop_padding]
          simp only [byte_writeBytes_singleton, List.getD_nil]
          split_ifs <;> first | rfl | omega
      | cons c rest =>
          have kept := holds
          obtain ⟨rfl, nonzero, -⟩ := kept
          rw [List.length_cons] at apart
          have outside : dst < src ∨ src + (mem.byte src :: rest).length < dst := by
            simp
            omega
          obtain ⟨-, -, others⟩ := holds.write outside (mem.byte src)
          rw [strncpyLoop, if_pos ⟨rfl, nonzero⟩, induction others (by omega)]
          simp only [byte_writeBytes_singleton]
          by_cases first : queried = dst
          · subst first
            rw [if_neg (by omega), if_pos rfl, if_pos (by omega), Nat.sub_self]
            rfl
          · by_cases inside : dst ≤ queried ∧ queried < dst + (n + 1)
            · obtain ⟨offset, equal⟩ :
                  ∃ offset, queried - dst = offset + 1 :=
                ⟨queried - dst - 1, by omega⟩
              rw [if_pos (by omega), if_pos inside, equal, List.getD_cons_succ]
              congr 1
              omega
            · rw [if_neg (by omega), if_neg inside, if_neg first]

/-- A range with the bytes of a string and a zero holds the string. -/
theorem holdsString_of_bytes {address : Nat} {text : List UInt8}
    (nonzero : ∀ c ∈ text, c ≠ 0)
    (bytes : ∀ i ≤ text.length, mem.byte (address + i) = text.getD i 0) :
    mem.HoldsString address text := by
  induction text generalizing address with
  | nil => exact bytes 0 le_rfl
  | cons c rest induction =>
      rw [List.forall_mem_cons] at nonzero
      refine ⟨bytes 0 (Nat.zero_le _), nonzero.1, induction nonzero.2 ?_⟩
      intro i inside
      have shifted := bytes (i + 1) (Nat.succ_le_succ inside)
      rw [List.getD_cons_succ] at shifted
      rw [← shifted]
      congr 1
      omega

theorem HoldsString.nonzero {address : Nat} {text : List UInt8}
    (holds : mem.HoldsString address text) : ∀ c ∈ text, c ≠ 0 := by
  induction text generalizing address with
  | nil => nofun
  | cons c rest induction =>
      rw [List.forall_mem_cons]
      exact ⟨holds.2.1, induction holds.2.2⟩

/--
On strings, `strlen` counts, `strcmp` and `strncmp` order as the strings and
their first characters are ordered, and `memcmp` as the bytes; `memcpy` to a place
below or clear of the source is a copy; and `strncpy` leaves the string as far
as it fits, zeros in the rest of its room, and everything else as it was, so a
shorter string is there as a string.
-/
theorem strings_exact {a b : Nat} {left right : List UInt8}
    (holdsLeft : mem.HoldsString a left)
    (holdsRight : mem.HoldsString b right) (n : Nat) :
    mem.strlen (left.length + 1) a = some left.length ∧
      (∃ result, mem.strcmp (left.length + 1) a b = some result ∧
        Compares result left right) ∧
      Compares (mem.strncmp a b n) (left.take n) (right.take n) ∧
      Compares (mem.memcmp a b n) (mem.readBytes a n) (mem.readBytes b n) ∧
      (∀ dst, dst ≤ a ∨ a + n ≤ dst →
        mem.memcpyLoop dst a n = mem.copy dst a n) ∧
      ∀ dst, dst + n ≤ a ∨ a + left.length < dst →
        (∀ queried,
          (mem.strncpy dst a n).byte queried =
            if dst ≤ queried ∧ queried < dst + n then
              left.getD (queried - dst) 0
            else mem.byte queried) ∧
          (left.length < n →
            (mem.strncpy dst a n).HoldsString dst left) := by
  refine
    ⟨strlen_eq holdsLeft (Nat.lt_succ_self _),
      compares_strcmp holdsLeft holdsRight (Nat.lt_succ_self _),
      compares_strncmp holdsLeft holdsRight n, compares_memcmp a b n,
      fun _ => memcpyLoop_eq_copy,
      fun dst apart => ⟨byte_strncpy holdsLeft apart, fun fits => ?_⟩⟩
  apply holdsString_of_bytes holdsLeft.nonzero
  intro i inside
  rw [byte_strncpy holdsLeft apart, if_pos (by omega),
    Nat.add_sub_cancel_left]

end Strings

end Memory

namespace Bench

/-- The names "ab" and "ac" at the addresses 16 and 32. -/
def namesMemory : Memory where
  byte address :=
    if address = 16 ∨ address = 32 then 97
    else if address = 17 then 98
    else if address = 33 then 99
    else 0

theorem namesMemory_strncmp :
    namesMemory.strncmp 16 32 2 < 0 ∧
      (namesMemory.strncpy 64 16 8).HoldsString 64 [97, 98] ∧
        (namesMemory.strncpy 64 16 8).byte 71 = 0 := by
  have first : namesMemory.HoldsString 16 [97, 98] :=
    ⟨rfl, by decide, rfl, by decide, rfl⟩
  have second : namesMemory.HoldsString 32 [97, 99] :=
    ⟨rfl, by decide, rfl, by decide, rfl⟩
  have exact := Memory.strings_exact first second
  obtain ⟨padded, string⟩ := (exact 8).2.2.2.2.2 64 (by decide)
  exact
    ⟨(exact 2).2.2.1.negative.mpr (by decide), string (by decide),
      (padded 71).trans (by decide)⟩

end Bench

end KmmYocto
