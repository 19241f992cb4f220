import KmmYocto.ByteMemory

/-!
# A part of A64

Three instructions of A64: `movz` and `movk` on 64-bit registers, and `br`.
An instruction is a 32-bit word in memory; the encodings are those of the
architecture, and any other word has no meaning here.

A program that is in memory runs from its first word as far as there is no
branch in it.  `run_loaded` says where it gets to.
-/

namespace KmmYocto.A64

/-- A general register; 31 is the zero register. -/
abbrev Reg := BitVec 5

inductive Instr where
  /-- `movz xd, #imm, lsl #(16 * hw)` -/
  | movz (hw : BitVec 2) (imm : BitVec 16) (rd : Reg)
  /-- `movk xd, #imm, lsl #(16 * hw)` -/
  | movk (hw : BitVec 2) (imm : BitVec 16) (rd : Reg)
  /-- `br xn` -/
  | br (rn : Reg)
deriving DecidableEq, Repr

/-- The registers and the memory. -/
structure Cpu where
  /-- The general registers; what it has for 31 is not used. -/
  regs : Reg → BitVec 64
  sp : BitVec 64
  nzcv : BitVec 4
  pc : BitVec 64
  mem : Memory

/-! ## Instruction words -/

namespace Instr

def encode : Instr → BitVec 32
  | movz hw imm rd => 0b110100101#9 ++ hw ++ imm ++ rd
  | movk hw imm rd => 0b111100101#9 ++ hw ++ imm ++ rd
  | br rn => 0b1101011000011111000000#22 ++ rn ++ 0#5

def decode (word : BitVec 32) : Option Instr :=
  let opcode := word.extractLsb' 23 9
  let hw := word.extractLsb' 21 2
  let imm := word.extractLsb' 5 16
  let low := word.extractLsb' 0 5
  if opcode = 0b110100101 then some (.movz hw imm low)
  else if opcode = 0b111100101 then some (.movk hw imm low)
  else if word.extractLsb' 10 22 = 0b1101011000011111000000 ∧ low = 0 then
    some (.br (word.extractLsb' 5 5))
  else none

/-- The fields of a word that moves an immediate. -/
theorem fields_mov (opcode : BitVec 9) (hw : BitVec 2) (imm : BitVec 16)
    (rd : Reg) :
    let word : BitVec 32 := opcode ++ hw ++ imm ++ rd
    word.extractLsb' 23 9 = opcode ∧ word.extractLsb' 21 2 = hw ∧
      word.extractLsb' 5 16 = imm ∧ word.extractLsb' 0 5 = rd := by
  refine ⟨?_, ?_, ?_, BitVec.extractLsb'_append_eq_right⟩
  · rw [BitVec.extractLsb'_append_eq_of_le (by decide),
      BitVec.extractLsb'_append_eq_of_le (by decide)]
    exact BitVec.extractLsb'_append_eq_left
  · rw [BitVec.extractLsb'_append_eq_of_le (by decide),
      BitVec.extractLsb'_append_eq_of_le (by decide)]
    exact BitVec.extractLsb'_append_eq_right
  · rw [BitVec.extractLsb'_append_eq_of_le (by decide)]
    exact BitVec.extractLsb'_append_eq_right

/-- The fields of a word that branches. -/
theorem fields_br (opcode : BitVec 22) (rn low : Reg) :
    let word : BitVec 32 := opcode ++ rn ++ low
    word.extractLsb' 23 9 = opcode.extractLsb' 13 9 ∧
      word.extractLsb' 10 22 = opcode ∧ word.extractLsb' 5 5 = rn ∧
        word.extractLsb' 0 5 = low := by
  refine ⟨?_, ?_, ?_, BitVec.extractLsb'_append_eq_right⟩
  · rw [BitVec.extractLsb'_append_eq_of_le (by decide),
      BitVec.extractLsb'_append_eq_of_le (by decide)]
  · rw [BitVec.extractLsb'_append_eq_of_le (by decide)]
    exact BitVec.extractLsb'_append_eq_left
  · rw [BitVec.extractLsb'_append_eq_of_le (by decide)]
    exact BitVec.extractLsb'_append_eq_right

theorem decode_encode (instr : Instr) :
    decode instr.encode = some instr := by
  cases instr with
  | movz hw imm rd =>
      obtain ⟨opcode, shift, value, target⟩ :=
        fields_mov 0b110100101#9 hw imm rd
      rw [encode, decode, opcode, shift, value, target]
      rfl
  | movk hw imm rd =>
      obtain ⟨opcode, shift, value, target⟩ :=
        fields_mov 0b111100101#9 hw imm rd
      rw [encode, decode, opcode, shift, value, target]
      rfl
  | br rn =>
      obtain ⟨opcode, kind, source, low⟩ :=
        fields_br 0b1101011000011111000000#22 rn 0#5
      rw [encode, decode, opcode, kind, source, low]
      rfl

/-- A branch ends a run of instructions. -/
def Straight : Instr → Prop
  | br _ => False
  | _ => True

end Instr

/-! ## Execution -/

namespace Cpu

def read (cpu : Cpu) (r : Reg) : BitVec 64 :=
  if r = 31 then 0 else cpu.regs r

def write (cpu : Cpu) (r : Reg) (value : BitVec 64) : Cpu :=
  if r = 31 then cpu
  else { cpu with regs := Function.update cpu.regs r value }

/-- The instruction, with the program counter of the next. -/
def exec (cpu : Cpu) : Instr → Cpu
  | .movz hw imm rd =>
      { cpu.write rd (imm.setWidth 64 <<< (16 * hw.toNat)) with
        pc := cpu.pc + 4 }
  | .movk hw imm rd =>
      { cpu.write rd
          ((cpu.read rd &&& ~~~ (0xffff#64 <<< (16 * hw.toNat))) |||
            imm.setWidth 64 <<< (16 * hw.toNat)) with
        pc := cpu.pc + 4 }
  | .br rn => { cpu with pc := cpu.read rn }

/-- The word at the program counter, which has to be aligned. -/
def fetch (cpu : Cpu) : Option (BitVec 32) :=
  if cpu.pc.toNat % 4 = 0 then
    some (BitVec.ofNat 32 (cpu.mem.read32 cpu.pc.toNat))
  else none

/-- One instruction. -/
def step (cpu : Cpu) : Option Cpu :=
  cpu.fetch.bind fun word => (Instr.decode word).map cpu.exec

/-- A number of instructions. -/
def run : Nat → Cpu → Option Cpu
  | 0, cpu => some cpu
  | count + 1, cpu => cpu.step.bind (run count)

variable {cpu : Cpu}

section Frame

variable (cpu : Cpu) (instr : Instr)

/-- Only the general registers and the program counter change. -/
theorem exec_eq :
    cpu.exec instr =
      { cpu with
        regs := (cpu.exec instr).regs
        pc := (cpu.exec instr).pc } := by
  cases instr with
  | br rn => rfl
  | movz hw imm rd =>
      simp only [exec, write]
      split <;> rfl
  | movk hw imm rd =>
      simp only [exec, write]
      split <;> rfl

@[simp]
theorem exec_mem : (cpu.exec instr).mem = cpu.mem := by
  rw [exec_eq]

@[simp]
theorem exec_sp : (cpu.exec instr).sp = cpu.sp := by
  rw [exec_eq]

@[simp]
theorem exec_nzcv : (cpu.exec instr).nzcv = cpu.nzcv := by
  rw [exec_eq]

end Frame

theorem exec_pc {instr : Instr} (straight : instr.Straight) :
    (cpu.exec instr).pc = cpu.pc + 4 := by
  cases instr with
  | br rn => exact straight.elim
  | _ => rfl

theorem run_add (first second : Nat) (cpu : Cpu) :
    run (first + second) cpu = (run first cpu).bind (run second) := by
  induction first generalizing cpu with
  | zero => rw [Nat.zero_add, run, Option.bind_some]
  | succ first induction =>
      rw [Nat.add_right_comm, run, run, Option.bind_assoc]
      congr 1
      funext next
      exact induction next

end Cpu

/-! ## Programs in memory -/

/-- The memory holds the instructions from an address on. -/
def Loaded (mem : Memory) : BitVec 64 → List Instr → Prop
  | _, [] => True
  | base, instr :: rest =>
      (base.toNat % 4 = 0 ∧ mem.read32 base.toNat = instr.encode.toNat) ∧
        Loaded mem (base + 4) rest

theorem step_loaded {cpu : Cpu} {instr : Instr} {rest : List Instr}
    (loaded : Loaded cpu.mem cpu.pc (instr :: rest)) :
    cpu.step = some (cpu.exec instr) := by
  obtain ⟨⟨aligned, word⟩, -⟩ := loaded
  rw [Cpu.step, Cpu.fetch, if_pos aligned, Option.bind_some, word,
    BitVec.ofNat_toNat, BitVec.setWidth_eq, Instr.decode_encode,
    Option.map_some]

/-- Without a branch the program counter goes on word by word. -/
theorem pc_foldl {cpu : Cpu} {done : List Instr}
    (straight : ∀ instr ∈ done, instr.Straight) :
    (done.foldl Cpu.exec cpu).pc =
      cpu.pc + BitVec.ofNat 64 (4 * done.length) := by
  induction done generalizing cpu with
  | nil => simp
  | cons instr done induction =>
      have later : ∀ each ∈ done, each.Straight :=
        fun each member => straight each (List.mem_cons_of_mem _ member)
      rw [List.foldl_cons, induction later,
        Cpu.exec_pc (straight instr (by simp)), List.length_cons,
        Nat.mul_add_one, Nat.add_comm (4 * _) 4, BitVec.ofNat_add,
        BitVec.add_assoc]
      rfl

/-- A program is executed in order up to its first branch. -/
theorem run_loaded {cpu : Cpu} {done rest : List Instr}
    (straight : ∀ instr ∈ done, instr.Straight)
    (loaded : Loaded cpu.mem cpu.pc (done ++ rest)) :
    Cpu.run done.length cpu = some (done.foldl Cpu.exec cpu) ∧
      Loaded (done.foldl Cpu.exec cpu).mem (done.foldl Cpu.exec cpu).pc
        rest := by
  induction done generalizing cpu with
  | nil => exact ⟨rfl, loaded⟩
  | cons instr done induction =>
      have later : Loaded (cpu.exec instr).mem (cpu.exec instr).pc
          (done ++ rest) := by
        rw [Cpu.exec_mem, Cpu.exec_pc (straight instr (by simp))]
        exact loaded.2
      obtain ⟨runs, left⟩ :=
        induction
          (fun each member => straight each (List.mem_cons_of_mem _ member))
          later
      refine ⟨?_, left⟩
      rw [List.length_cons, Cpu.run, step_loaded loaded, Option.bind_some,
        runs, List.foldl_cons]

/-- The words that were written are the program. -/
theorem loaded_writeWords {mem : Memory} {base : BitVec 64}
    {program : List Instr} (aligned : base.toNat % 4 = 0)
    (room : base.toNat + 4 * program.length ≤ 2 ^ 64) :
    Loaded
      (mem.writeWords base.toNat (program.map (·.encode.toNat))) base
      program := by
  induction program generalizing mem base with
  | nil => trivial
  | cons instr rest induction =>
      refine ⟨⟨aligned, ?_⟩, ?_⟩
      · rw [List.map_cons, Memory.writeWords,
          Memory.read32_writeWords_before (by omega)]
        exact Memory.read32_write32 _ _ instr.encode.isLt
      · cases rest with
        | nil => trivial
        | cons second rest =>
            rw [List.length_cons, List.length_cons] at room
            have next : (base + 4).toNat = base.toNat + 4 := by
              rw [BitVec.toNat_add]
              exact Nat.mod_eq_of_lt (by simp; omega)
            rw [List.map_cons, Memory.writeWords, ← next]
            exact induction (by omega) (by rw [List.length_cons]; omega)

end KmmYocto.A64
