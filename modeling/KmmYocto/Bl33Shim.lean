import KmmYocto.A64

/-!
# The BL33 shim

BL31 jumps to a fixed address.  The SPL leaves eight instructions there that
load the registers of the kernel's boot protocol and branch to the kernel.
The function is the same for the 8MM and the 8MP; both call it with their
`FALCON_SHIM_ADDR` and `FALCON_KERNEL_ADDR`.

Flushing the data cache has no effect on what memory holds.
-/

namespace KmmYocto

open A64 (Cpu Instr Reg)

/-- `FALCON_SHIM_ADDR` -/
def falconShimAddr : BitVec 64 := 0x40200000

/-- `FALCON_KERNEL_ADDR` -/
def falconKernelAddr : BitVec 64 := 0x40400000

/-- The words that `emit_bl33_shim` writes. -/
def bl33ShimWords (fdt kernel : BitVec 64) : List (BitVec 32) :=
  [ -- movz x0, #lo16
    0xd2800000#32 ||| ((fdt &&& 0xffff) <<< 5).setWidth 32,
    -- movk x0, #hi16, lsl #16
    0xf2a00000#32 ||| (((fdt >>> 16) &&& 0xffff) <<< 5).setWidth 32,
    -- movz x16, #lo16
    0xd2800010#32 ||| ((kernel &&& 0xffff) <<< 5).setWidth 32,
    -- movk x16, #hi16, lsl #16
    0xf2a00010#32 ||| (((kernel >>> 16) &&& 0xffff) <<< 5).setWidth 32,
    0xd2800001,
    0xd2800002,
    0xd2800003,
    -- br x16
    0xd61f0200]

/-- `emit_bl33_shim`. -/
def emitBl33Shim (mem : Memory) (shim fdt kernel : BitVec 64) : Memory :=
  mem.writeWords shim.toNat ((bl33ShimWords fdt kernel).map (·.toNat))

/-- What the words mean. -/
def bl33Shim (fdt kernel : BitVec 64) : List Instr :=
  [.movz 0 (fdt.extractLsb' 0 16) 0, .movk 1 (fdt.extractLsb' 16 16) 0,
    .movz 0 (kernel.extractLsb' 0 16) 16,
    .movk 1 (kernel.extractLsb' 16 16) 16,
    .movz 0 0 1, .movz 0 0 2, .movz 0 0 3, .br 16]

/-! ## The immediate fields -/

/-- A half of an address shifted into its field. -/
theorem setWidth_half (value : BitVec 64) :
    ((value &&& 0xffff) <<< 5).setWidth 32 =
      (value.extractLsb' 0 16).setWidth 32 <<< 5 := by
  ext i inside
  interval_cases i <;> simp

/-- A field put next to the bits around it. -/
theorem or_field (high : BitVec 11) (imm : BitVec 16) (rd : Reg) :
    (high ++ 0#16 ++ rd : BitVec 32) ||| imm.setWidth 32 <<< 5 =
      high ++ imm ++ rd := by
  apply BitVec.eq_of_getLsbD_eq
  intro i inside
  simp only [BitVec.getLsbD_or, BitVec.getLsbD_append,
    BitVec.getLsbD_shiftLeft, BitVec.getLsbD_setWidth]
  by_cases low : i < 5
  · simp [low]
  have field : i - 5 < 32 := by omega
  by_cases middle : i - 5 < 16
  · simp [low, middle, field, inside]
  · have outside : imm.getLsbD (i - 5) = false :=
      BitVec.getLsbD_of_ge _ _ (by omega)
    simp [low, middle, outside]

/-- The low half of an address as an immediate. -/
theorem or_low_half {word : BitVec 32} {high : BitVec 11} {rd : Reg}
    (fields : word = high ++ 0#16 ++ rd) (value : BitVec 64) :
    word ||| ((value &&& 0xffff) <<< 5).setWidth 32 =
      high ++ value.extractLsb' 0 16 ++ rd := by
  rw [fields, setWidth_half, or_field]

/-- The high half of an address as an immediate. -/
theorem or_high_half {word : BitVec 32} {high : BitVec 11} {rd : Reg}
    (fields : word = high ++ 0#16 ++ rd) (value : BitVec 64) :
    word ||| (((value >>> 16) &&& 0xffff) <<< 5).setWidth 32 =
      high ++ value.extractLsb' 16 16 ++ rd := by
  have shifted :
      (value >>> 16).extractLsb' 0 16 = value.extractLsb' 16 16 := by
    ext i inside
    simp
  rw [or_low_half fields, shifted]

/-- The words are the encoded instructions. -/
theorem bl33ShimWords_eq (fdt kernel : BitVec 64) :
    bl33ShimWords fdt kernel = (bl33Shim fdt kernel).map Instr.encode := by
  have movz0 : 0xd2800000#32 = 0b11010010100#11 ++ 0#16 ++ 0#5 := by decide
  have movk0 : 0xf2a00000#32 = 0b11110010101#11 ++ 0#16 ++ 0#5 := by decide
  have movz16 : 0xd2800010#32 = 0b11010010100#11 ++ 0#16 ++ 16#5 := by
    decide
  have movk16 : 0xf2a00010#32 = 0b11110010101#11 ++ 0#16 ++ 16#5 := by
    decide
  rw [bl33ShimWords, or_low_half movz0, or_high_half movk0,
    or_low_half movz16, or_high_half movk16]
  rfl

/-- The two halves of an address that fits into 32 bits. -/
theorem movk_movz {value : BitVec 64} (fits : value.toNat < 2 ^ 32) :
    ((value.extractLsb' 0 16).setWidth 64 &&& ~~~ (0xffff#64 <<< 16)) |||
        (value.extractLsb' 16 16).setWidth 64 <<< 16 =
      value := by
  apply BitVec.eq_of_getLsbD_eq
  intro i inside
  simp only [BitVec.getLsbD_or, BitVec.getLsbD_and, BitVec.getLsbD_not,
    BitVec.getLsbD_shiftLeft, BitVec.getLsbD_setWidth,
    BitVec.getLsbD_extractLsb']
  by_cases low : i < 16
  · simp [low, inside]
  by_cases high : i < 32
  · have field : i - 16 < 16 := by omega
    have position : 16 + (i - 16) = i := by omega
    have within : i - 16 < 64 := by omega
    simp [low, inside, field, position, within]
  · have beyond : value.getLsbD i = false :=
      Nat.testBit_lt_two_pow
        (lt_of_lt_of_le fits (Nat.pow_le_pow_right (by decide) (by omega)))
    have field : ¬ i - 16 < 16 := by omega
    simp [low, beyond, field]

/-! ## The registers of the kernel -/

/-- The machine starts the kernel. -/
structure StartsKernel (fdt kernel : BitVec 64) (before after : Cpu) :
    Prop where
  pc : after.pc = kernel
  x0 : after.regs 0 = fdt
  x1 : after.regs 1 = 0
  x2 : after.regs 2 = 0
  x3 : after.regs 3 = 0
  others :
    ∀ r : Reg, r ∉ [0, 1, 2, 3, 16] → after.regs r = before.regs r
  sp : after.sp = before.sp
  nzcv : after.nzcv = before.nzcv
  mem : after.mem = before.mem

/-- The registers after the eight instructions. -/
theorem regs_foldl {fdt kernel : BitVec 64} (fdtFits : fdt.toNat < 2 ^ 32)
    (kernelFits : kernel.toNat < 2 ^ 32) (cpu : Cpu) :
    ((bl33Shim fdt kernel).foldl Cpu.exec cpu).regs =
      Function.update (Function.update (Function.update (Function.update
        (Function.update cpu.regs 0 fdt) 16 kernel) 1 0) 2 0) 3 0 := by
  have fdtWhole := movk_movz fdtFits
  have kernelWhole := movk_movz kernelFits
  have mask : ~~~ (0xffff#64 <<< 16) = 0xffffffff0000ffff#64 := by decide
  rw [mask] at fdtWhole kernelWhole
  simp [bl33Shim, Cpu.exec, Cpu.read, Cpu.write, fdtWhole, kernelWhole]

theorem startsKernel_foldl {fdt kernel : BitVec 64}
    (fdtFits : fdt.toNat < 2 ^ 32) (kernelFits : kernel.toNat < 2 ^ 32)
    (cpu : Cpu) :
    StartsKernel fdt kernel cpu
      ((bl33Shim fdt kernel).foldl Cpu.exec cpu) := by
  have regs := regs_foldl fdtFits kernelFits cpu
  exact
    { pc := by
        -- `br` leaves the registers as they are
        have target :
            ((bl33Shim fdt kernel).foldl Cpu.exec cpu).pc =
              ((bl33Shim fdt kernel).foldl Cpu.exec cpu).regs 16 :=
          rfl
        rw [target, regs]
        simp
      x0 := by
        rw [regs]
        simp
      x1 := by
        rw [regs]
        simp
      x2 := by
        rw [regs]
        simp
      x3 := by
        rw [regs]
        simp
      others := by
        intro r outside
        simp only [List.mem_cons, List.not_mem_nil, or_false, not_or]
          at outside
        obtain ⟨not0, not1, not2, not3, not16⟩ := outside
        rw [regs, Function.update_of_ne not3, Function.update_of_ne not2,
          Function.update_of_ne not1, Function.update_of_ne not16,
          Function.update_of_ne not0]
      sp := by simp [bl33Shim]
      nzcv := by simp [bl33Shim]
      mem := by simp [bl33Shim] }

/-! ## The run -/

/-- The memory holds the shim as a program. -/
theorem loaded_emitBl33Shim (mem : Memory) {shim : BitVec 64}
    (fdt kernel : BitVec 64) (aligned : shim.toNat % 4 = 0)
    (room : shim.toNat + 32 ≤ 2 ^ 64) :
    A64.Loaded (emitBl33Shim mem shim fdt kernel) shim
      (bl33Shim fdt kernel) := by
  rw [emitBl33Shim, bl33ShimWords_eq, List.map_map]
  exact A64.loaded_writeWords aligned room

theorem straight_take (fdt kernel : BitVec 64) :
    ∀ instr ∈ (bl33Shim fdt kernel).take 7, instr.Straight := by
  simp [bl33Shim, Instr.Straight]

/--
The shim that was written for an FDT and a kernel starts that kernel, from
every state, with the eighth instruction.
-/
theorem run_emitBl33Shim {shim fdt kernel : BitVec 64}
    (aligned : shim.toNat % 4 = 0) (room : shim.toNat + 32 ≤ 2 ^ 64)
    (fdtFits : fdt.toNat < 2 ^ 32) (kernelFits : kernel.toNat < 2 ^ 32)
    (mem : Memory) (cpu : Cpu) (start : cpu.pc = shim)
    (written : cpu.mem = emitBl33Shim mem shim fdt kernel) :
    (∀ k < 8, ∃ within, Cpu.run k cpu = some within ∧
        within.pc = shim + BitVec.ofNat 64 (4 * k)) ∧
      ∃ after, Cpu.run 8 cpu = some after ∧
        StartsKernel fdt kernel cpu after := by
  have loaded : A64.Loaded cpu.mem cpu.pc (bl33Shim fdt kernel) := by
    rw [written, start]
    exact loaded_emitBl33Shim mem fdt kernel aligned room
  constructor
  · intro k inside
    have straight :
        ∀ instr ∈ (bl33Shim fdt kernel).take k, instr.Straight := by
      intro instr member
      refine straight_take fdt kernel instr ?_
      exact List.take_subset_take_left _ (by omega) member
    have length : ((bl33Shim fdt kernel).take k).length = k := by
      rw [List.length_take]
      exact min_eq_left (le_of_lt inside)
    rw [← List.take_append_drop k (bl33Shim fdt kernel)] at loaded
    have runs := (A64.run_loaded straight loaded).1
    rw [length] at runs
    refine ⟨_, runs, ?_⟩
    rw [A64.pc_foldl straight, length, start]
  · refine ⟨_, ?_, startsKernel_foldl fdtFits kernelFits cpu⟩
    rw [← List.take_append_drop 7 (bl33Shim fdt kernel)] at loaded
    obtain ⟨runs, branch⟩ :=
      A64.run_loaded (straight_take fdt kernel) loaded
    have seven : ((bl33Shim fdt kernel).take 7).length = 7 := rfl
    rw [seven] at runs
    rw [Cpu.run_add 7 1, runs, Option.bind_some, Cpu.run,
      A64.step_loaded branch]
    rfl

/-- As the SPL of both boards calls it, with an FDT at 0x43210000. -/
theorem run_emitBl33Shim_falcon :
    let cpu : Cpu :=
      { regs := fun _ => 0xffffffffffffffff
        sp := 0
        nzcv := 0
        pc := falconShimAddr
        mem :=
          emitBl33Shim ⟨fun _ => 0⟩ falconShimAddr 0x43210000
            falconKernelAddr }
    (∀ k < 8, ∃ within, Cpu.run k cpu = some within ∧
        within.pc = falconShimAddr + BitVec.ofNat 64 (4 * k)) ∧
      ∃ after, Cpu.run 8 cpu = some after ∧
        StartsKernel 0x43210000 falconKernelAddr cpu after :=
  run_emitBl33Shim (by decide) (by decide) (by decide) (by decide) ⟨fun _ => 0⟩
    _ rfl rfl

end KmmYocto
