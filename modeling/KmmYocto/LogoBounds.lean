import KmmYocto.LogoDraw

/-!
# The bounds of the logo

`spl_splash_try_logo` trusts a header once four comparisons hold, which it
makes with `u32` sums and a `u32` product.  Both may wrap, and what the loops
then touch lies outside the mask or outside the framebuffer.

The counters of the loops are `int`; they are taken as the 32 bits that the
comparisons with `u32` see.  What the memory behind the file holds is an
argument.
-/

namespace KmmYocto.Logo

open McoreImage (le32 le32_lt)
open StateTransition (Reaches eval mem_eval)
open Relation (ReflTransGen)

/-- What the loops touch. -/
inductive LogoAccess where
  /-- A byte of the mask is read. -/
  | mask (index : Int)
  /-- A word of the framebuffer is written. -/
  | pixel (index : Int)
deriving DecidableEq, Repr

/-- A header that was accepted, and the memory behind it. -/
structure SplLogo where
  w : Nat
  h : Nat
  x : Nat
  y : Nat
  w_lt : w < 2 ^ 32
  h_lt : h < 2 ^ 32
  x_lt : x < 2 ^ 32
  y_lt : y < 2 ^ 32
  /-- How much of the mask was read from the file. -/
  size : Nat
  bits : Int → UInt8

/--
The checks of `spl_splash_try_logo` on what `fat_read_file` reads; `stale` is
what the memory behind the header holds otherwise.
-/
def splLogo (content : List UInt8) (stale : Int → UInt8) : Option SplLogo :=
  let b := content.take (64 * 1024)
  let got := b.length
  let w := le32 b 4
  let h := le32 b 8
  let x := le32 b 12
  let y := le32 b 16
  if got < 20 ∨ le32 b 0 ≠ 0x4f474f4c ∨
      (w = 0 ∨ h = 0 ∨ (x + w) % 2 ^ 32 > 800 ∨ (y + h) % 2 ^ 32 > 480 ∨
        got < (20 + (w * h + 7) % 2 ^ 32 / 8) % 2 ^ 32) then
    none
  else
    some
      { w, h, x, y
        w_lt := le32_lt b 4
        h_lt := le32_lt b 8
        x_lt := le32_lt b 12
        y_lt := le32_lt b 16
        size := got - 20
        bits := fun k =>
          if 0 ≤ k ∧ k < got - 20 then b.getD (20 + k.toNat) 0 else stale k }

/-- The variables of the loops, and what was touched so far. -/
structure LogoLoop where
  row : Nat
  col : Nat
  log : List LogoAccess

namespace SplLogo

/-- The bit at an `int i`. -/
def bit (logo : SplLogo) (i : Int) : Bool :=
  logo.bits (i / 8) &&& bitMask (i % 8).toNat != 0

/-- The body of the inner loop. -/
def accesses (logo : SplLogo) (row col : Nat) : List LogoAccess :=
  let i := int32 (row * logo.w + col : Nat)
  .mask (i / 8) ::
    if logo.bit i = true then
      [.pixel (((logo.y + row) * 800 % 2 ^ 32 : Nat) + logo.x + int32 col)]
    else []

/-- One round of the inner loop, or the end of a row. -/
def loopStep (logo : SplLogo) (loop : LogoLoop) : Option LogoLoop :=
  if loop.row < logo.h then
    if loop.col < logo.w then
      some
        { loop with
          col := (loop.col + 1) % 2 ^ 32
          log := loop.log ++ logo.accesses loop.row loop.col }
    else some { loop with row := (loop.row + 1) % 2 ^ 32, col := 0 }
  else none

/-- The two loops from their start. -/
def loops (logo : SplLogo) : Part LogoLoop :=
  eval logo.loopStep ⟨0, 0, []⟩

end SplLogo

/-- Within the part of the mask that was read, or within the framebuffer. -/
def LogoAccess.InBounds (size : Nat) : LogoAccess → Prop
  | .mask index => 0 ≤ index ∧ index < size
  | .pixel index => 0 ≤ index ∧ index < 800 * 480

/-- The loops end, and all they touch is within bounds. -/
def SplLogo.Safe (logo : SplLogo) : Prop :=
  ∃ final ∈ logo.loops, ∀ access ∈ final.log, access.InBounds logo.size

/--
The mask was read as far as the whole product asks, and every pixel that is
lit lies on the panel.
-/
structure SplLogo.Fits (logo : SplLogo) : Prop where
  mask : logo.w * logo.h ≤ 8 * logo.size
  pixels :
    ∀ row < logo.h, ∀ col < logo.w,
      logo.bit (row * logo.w + col : Nat) = true →
        logo.x + col < 800 ∧ (logo.y + row) % 2 ^ 32 < 480

namespace SplLogo

variable {logo : SplLogo}

/-! ## What the loops touch -/

/-- The inner loop goes through the rest of its row. -/
theorem reaches_row {row col left : Nat} {log : List LogoAccess}
    (rowInside : row < logo.h) (rest : col + left = logo.w) :
    Reaches logo.loopStep ⟨row, col, log⟩
      ⟨row, logo.w,
        log ++ (List.range' col left).flatMap (logo.accesses row)⟩ := by
  induction left generalizing col log with
  | zero =>
      obtain rfl : col = logo.w := rest
      rw [List.range'_zero, List.flatMap_nil, List.append_nil]
      exact .refl
  | succ left induction =>
      have inside : col < logo.w := by omega
      have noWrap : (col + 1) % 2 ^ 32 = col + 1 :=
        Nat.mod_eq_of_lt (by have := logo.w_lt; omega)
      have round :
          logo.loopStep ⟨row, col, log⟩ =
            some ⟨row, col + 1, log ++ logo.accesses row col⟩ := by
        simp only [loopStep, if_pos rowInside, if_pos inside, noWrap]
      have later :=
        @induction (col + 1) (log ++ logo.accesses row col) (by omega)
      rw [List.append_assoc] at later
      exact ReflTransGen.head round later

/-- The outer loop goes through the rest of the rows. -/
theorem reaches_rows {row left : Nat} {log : List LogoAccess}
    (rest : row + left = logo.h) :
    Reaches logo.loopStep ⟨row, 0, log⟩
      ⟨logo.h, 0,
        log ++ (List.range' row left).flatMap fun row =>
          (List.range' 0 logo.w).flatMap (logo.accesses row)⟩ := by
  induction left generalizing row log with
  | zero =>
      obtain rfl : row = logo.h := rest
      rw [List.range'_zero, List.flatMap_nil, List.append_nil]
      exact .refl
  | succ left induction =>
      have inside : row < logo.h := by omega
      have noWrap : (row + 1) % 2 ^ 32 = row + 1 :=
        Nat.mod_eq_of_lt (by have := logo.h_lt; omega)
      have ofRow := @reaches_row logo row 0 logo.w log inside (by omega)
      have round :
          logo.loopStep
              ⟨row, logo.w,
                log ++ (List.range' 0 logo.w).flatMap (logo.accesses row)⟩ =
            some
              ⟨row + 1, 0,
                log ++
                  (List.range' 0 logo.w).flatMap (logo.accesses row)⟩ := by
        simp only [loopStep, if_pos inside, if_neg (lt_irrefl logo.w), noWrap]
      have later :=
        @induction (row + 1)
          (log ++ (List.range' 0 logo.w).flatMap (logo.accesses row))
          (by omega)
      rw [List.append_assoc] at later
      exact ofRow.trans (ReflTransGen.head round later)

/-- Both loops end. -/
theorem mem_loops (logo : SplLogo) :
    ⟨logo.h, 0,
      (List.range' 0 logo.h).flatMap fun row =>
        (List.range' 0 logo.w).flatMap (logo.accesses row)⟩ ∈ logo.loops := by
  refine mem_eval.mpr ⟨reaches_rows (Nat.zero_add logo.h), ?_⟩
  simp only [loopStep, if_neg (lt_irrefl logo.h)]

/-- They are safe if every round is. -/
theorem safe_iff_accesses :
    logo.Safe ↔
      ∀ row < logo.h, ∀ col < logo.w, ∀ access ∈ logo.accesses row col,
        access.InBounds logo.size := by
  have touched : ∀ final ∈ logo.loops, ∀ access,
      access ∈ final.log ↔
        ∃ row < logo.h, ∃ col < logo.w, access ∈ logo.accesses row col := by
    intro final ends access
    obtain rfl := Part.mem_unique ends logo.mem_loops
    simp only [List.mem_flatMap, List.mem_range'_1, Nat.zero_le, Nat.zero_add,
      true_and]
  constructor
  · rintro ⟨final, ends, bounds⟩ row rowInside col colInside access member
    exact
      bounds access
        ((touched final ends access).mpr
          ⟨row, rowInside, col, colInside, member⟩)
  · intro bounds
    refine ⟨_, logo.mem_loops, ?_⟩
    intro access member
    obtain ⟨row, rowInside, col, colInside, here⟩ :=
      (touched _ logo.mem_loops access).mp member
    exact bounds row rowInside col colInside access here

/-! ## Which headers are safe -/

/-- What the checks leave of a header. -/
structure Accepted (logo : SplLogo) : Prop where
  w_pos : 0 < logo.w
  h_pos : 0 < logo.h
  right : (logo.x + logo.w) % 2 ^ 32 ≤ 800
  bottom : (logo.y + logo.h) % 2 ^ 32 ≤ 480
  size : logo.size ≤ 64 * 1024

theorem accepted_of_splLogo {content : List UInt8} {stale : Int → UInt8}
    (found : splLogo content stale = some logo) : logo.Accepted := by
  simp only [splLogo, Option.ite_none_left_eq_some, not_or] at found
  obtain ⟨⟨-, -, w, h, right, bottom, -⟩, same⟩ := found
  obtain rfl := Option.some.inj same
  refine
    ⟨Nat.pos_of_ne_zero w, Nat.pos_of_ne_zero h, not_lt.mp right,
      not_lt.mp bottom, ?_⟩
  have read := List.length_take_le (64 * 1024) content
  show (content.take (64 * 1024)).length - 20 ≤ _
  omega

theorem forall_mem_accesses {row col : Nat} {holds : LogoAccess → Prop} :
    (∀ access ∈ logo.accesses row col, holds access) ↔
      holds (.mask (int32 (row * logo.w + col : Nat) / 8)) ∧
        (logo.bit (int32 (row * logo.w + col : Nat)) = true →
          holds
            (.pixel
              (((logo.y + row) * 800 % 2 ^ 32 : Nat) + logo.x +
                int32 col))) := by
  rw [accesses, List.forall_mem_cons]
  refine and_congr_right fun _ => ?_
  split_ifs with lit
  · rw [List.forall_mem_singleton, imp_iff_right lit]
  · exact
      iff_of_true (List.forall_mem_nil _) fun isLit => absurd isLit lit

/-- An index within the mask is the `int` it is computed as. -/
theorem int32_index {row col : Nat} (small : logo.size ≤ 64 * 1024)
    (mask : logo.w * logo.h ≤ 8 * logo.size) (rowInside : row < logo.h)
    (colInside : col < logo.w) :
    row * logo.w + col < logo.w * logo.h ∧
      int32 (row * logo.w + col : Nat) = (row * logo.w + col : Nat) := by
  have inside : row * logo.w + col < logo.w * logo.h := by
    have rows : (row + 1) * logo.w ≤ logo.h * logo.w :=
      Nat.mul_le_mul_right logo.w rowInside
    rw [Nat.succ_mul, Nat.mul_comm logo.h] at rows
    omega
  exact ⟨inside, int32_natCast (by omega)⟩

/-- The reads stay within the mask exactly if the whole of it was read. -/
theorem mask_inBounds_iff (accepted : logo.Accepted) :
    (∀ row < logo.h, ∀ col < logo.w,
      (LogoAccess.mask (int32 (row * logo.w + col : Nat) / 8)).InBounds
        logo.size) ↔
      logo.w * logo.h ≤ 8 * logo.size := by
  constructor
  · intro bounds
    by_contra short
    -- the first bit behind what was read is one of the mask
    have row : 8 * logo.size / logo.w < logo.h :=
      Nat.div_lt_of_lt_mul (not_le.mp short)
    have read :=
      bounds _ row (8 * logo.size % logo.w) (Nat.mod_lt _ accepted.w_pos)
    rw [Nat.div_add_mod', int32_natCast (by have := accepted.size; omega)]
      at read
    have behind := read.2
    omega
  · intro mask row rowInside col colInside
    obtain ⟨inside, index⟩ :=
      int32_index accepted.size mask rowInside colInside
    rw [index]
    constructor <;> omega

/-- A row that is not on the panel, even after a wrap, starts far behind it. -/
theorem row_offset {y h row : Nat} (yLt : y < 2 ^ 32)
    (small : h ≤ 8 * (64 * 1024)) (bottom : (y + h) % 2 ^ 32 ≤ 480)
    (inside : row < h) :
    (y + row) % 2 ^ 32 < 480 ∧
        (y + row) * 800 % 2 ^ 32 = (y + row) % 2 ^ 32 * 800 ∨
      480 ≤ (y + row) % 2 ^ 32 ∧ 800 * 480 ≤ (y + row) * 800 % 2 ^ 32 := by
  rw [← Nat.mod_mul_mod]
  rcases lt_or_ge ((y + row) % 2 ^ 32) 480 with top | below
  · exact .inl ⟨top, by omega⟩
  · refine .inr ⟨below, ?_⟩
    -- only the sum with the height has wrapped
    have noWrap : y + row < 2 ^ 32 := by omega
    have high : 2 ^ 32 - 8 * (64 * 1024) ≤ y + row := by omega
    obtain ⟨k, split⟩ := Nat.exists_eq_add_of_le noWrap.le
    have product :
        (y + row) * 800 = 2 ^ 32 * 799 + (2 ^ 32 - 800 * k) := by omega
    rw [Nat.mod_eq_of_lt noWrap, product, Nat.mul_add_mod,
      Nat.mod_eq_of_lt (by omega)]
    omega

/-- A pixel is in the framebuffer exactly if it lies on the panel. -/
theorem pixel_inBounds_iff (accepted : logo.Accepted) {row col : Nat}
    (mask : logo.w * logo.h ≤ 8 * logo.size) (rowInside : row < logo.h)
    (colInside : col < logo.w) :
    (LogoAccess.pixel
        (((logo.y + row) * 800 % 2 ^ 32 : Nat) + logo.x +
          int32 col)).InBounds logo.size ↔
      logo.x + col < 800 ∧ (logo.y + row) % 2 ^ 32 < 480 := by
  obtain ⟨wPos, hPos, right, bottom, size⟩ := accepted
  have w : logo.w ≤ 8 * logo.size := (Nat.le_mul_of_pos_right _ hPos).trans mask
  have h : logo.h ≤ 8 * logo.size := (Nat.le_mul_of_pos_left _ wPos).trans mask
  have x := logo.x_lt
  have rows := row_offset logo.y_lt (by omega) bottom rowInside
  rw [int32_natCast (by omega : col < 2 ^ 31)]
  show 0 ≤ _ ∧ _ < _ ↔ _
  constructor
  · rintro ⟨-, inside⟩
    constructor <;> omega
  · rintro ⟨left, top⟩
    constructor <;> omega

theorem safe_iff_fits (accepted : logo.Accepted) : logo.Safe ↔ logo.Fits := by
  rw [safe_iff_accesses]
  simp only [forall_mem_accesses]
  constructor
  · intro bounds
    have mask := (mask_inBounds_iff accepted).mp
      fun row rowInside col colInside =>
        (bounds row rowInside col colInside).1
    refine ⟨mask, ?_⟩
    intro row rowInside col colInside lit
    obtain ⟨-, index⟩ := int32_index accepted.size mask rowInside colInside
    refine (pixel_inBounds_iff accepted mask rowInside colInside).mp ?_
    refine (bounds row rowInside col colInside).2 ?_
    rw [index]
    exact lit
  · rintro ⟨mask, pixels⟩ row rowInside col colInside
    obtain ⟨-, index⟩ := int32_index accepted.size mask rowInside colInside
    refine
      ⟨(mask_inBounds_iff accepted).mpr mask row rowInside col colInside, ?_⟩
    intro lit
    rw [index] at lit
    refine (pixel_inBounds_iff accepted mask rowInside colInside).mpr ?_
    exact pixels row rowInside col colInside lit

end SplLogo

/-- Whatever logo.bin holds, the loops end within bounds. -/
def SplSafe (content : List UInt8) (stale : Int → UInt8) : Prop :=
  ∀ logo ∈ splLogo content stale, logo.Safe

/--
The SPL stays within bounds exactly if it refuses the file, or the mask was
read as far as the whole product asks and its lit pixels lie on the panel.
-/
theorem splSafe_iff (content : List UInt8) (stale : Int → UInt8) :
    SplSafe content stale ↔ ∀ logo ∈ splLogo content stale, logo.Fits :=
  forall₂_congr fun _ found =>
    SplLogo.safe_iff_fits (SplLogo.accepted_of_splLogo found)

/-- A mask of eight pixels whose right edge wraps. -/
def strayLogo : List UInt8 :=
  [0x4c, 0x4f, 0x47, 0x4f, 8, 0, 0, 0, 1, 0, 0, 0, 0xff, 0xff, 0xff, 0xff,
    0, 0, 0, 0, 0x80]

/-- Its first pixel is written far behind the framebuffer. -/
theorem not_splSafe_strayLogo : ¬ SplSafe strayLogo fun _ => 0 := by
  intro safe
  cases found : splLogo strayLogo fun _ => 0 with
  | none => revert found; decide +kernel
  | some logo =>
      have bounds := SplLogo.safe_iff_accesses.mp (safe logo found)
      simp only [splLogo, Option.ite_none_left_eq_some] at found
      obtain ⟨-, same⟩ := found
      obtain rfl := Option.some.inj same
      have stray := bounds 0 (by decide +kernel) 0 (by decide +kernel)
        (.pixel 4294967295) (by decide +kernel)
      exact absurd stray.2 (by decide)

/-! ## What the loops draw -/

namespace SplLogo

variable {logo : SplLogo}

/-- The framebuffer after what was touched. -/
def paint (log : List LogoAccess) (fb : Nat → UInt32) : Nat → UInt32 :=
  log.foldl
    (fun fb access =>
      match access with
      | .mask _ => fb
      | .pixel index => Function.update fb index.toNat 0x00ffffff)
    fb

theorem bit_eq_bitAt {content : List UInt8} {stale : Int → UInt8}
    (found : splLogo content stale = some logo) {i : Nat}
    (inside : i < 8 * logo.size) :
    logo.bit i = bitAt ((content.take (64 * 1024)).drop 20) i := by
  simp only [splLogo, Option.ite_none_left_eq_some, not_or, not_lt] at found
  obtain ⟨⟨long, -⟩, same⟩ := found
  obtain rfl := Option.some.inj same
  have byte : i / 8 < (content.take (64 * 1024)).length - 20 := by
    have bound : i < 8 * ((content.take (64 * 1024)).length - 20) := inside
    omega
  have index : ((i : Int) / 8) = (i / 8 : Nat) := by omega
  have rest : ((i : Int) % 8).toNat = i % 8 := by omega
  rw [bit, index, rest, bitAt, List.getD_eq_getElem?_getD, List.getElem?_drop]
  simp only
  rw [if_pos (by omega), Int.toNat_natCast, List.getD_eq_getElem?_getD,
    bitMask, bitMask, Nat.mod_mod]

/-- Painting what one round touches is one round of `splDrawRow`. -/
theorem paint_accesses {content : List UInt8} {stale : Int → UInt8}
    (found : splLogo content stale = some logo) (fits : logo.Fits)
    {row col : Nat} (rowInside : row < logo.h) (colInside : col < logo.w)
    (fb : Nat → UInt32) :
    paint (logo.accesses row col) fb =
      if bitAt ((content.take (64 * 1024)).drop 20)
          ((row * logo.w + col) % 2 ^ 32) = true then
        Function.update fb ((logo.y + row) * 800 % 2 ^ 32 + logo.x + col)
          0x00ffffff
      else fb := by
  have accepted := accepted_of_splLogo found
  obtain ⟨inside, index⟩ :=
    int32_index accepted.size fits.mask rowInside colInside
  have w : logo.w ≤ 8 * logo.size :=
    (Nat.le_mul_of_pos_right _ accepted.h_pos).trans fits.mask
  have size := accepted.size
  have mask := fits.mask
  have noWrap : (row * logo.w + col) % 2 ^ 32 = row * logo.w + col :=
    Nat.mod_eq_of_lt (by omega)
  rw [accesses, index, int32_natCast (by omega : col < 2 ^ 31),
    bit_eq_bitAt found (by omega), noWrap]
  split_ifs with lit
  · rfl
  · rfl

/-- What is drawn is what was touched. -/
theorem paint_loops {content : List UInt8} {stale : Int → UInt8}
    (found : splLogo content stale = some logo) (fits : logo.Fits)
    (fb : Nat → UInt32) :
    ∀ final ∈ logo.loops,
      paint final.log fb =
        splDraw ((content.take (64 * 1024)).drop 20) logo.w logo.h logo.x
          logo.y fb := by
  intro final ends
  obtain rfl := Part.mem_unique ends logo.mem_loops
  rw [paint, List.foldl_flatMap, splDraw, List.range_eq_range']
  refine List.foldl_ext _ _ _ fun fb row member => ?_
  have rowInside : row < logo.h := by
    simpa only [List.mem_range'_1, Nat.zero_le, Nat.zero_add, true_and]
      using member
  rw [List.foldl_flatMap, splDrawRow, List.range_eq_range']
  refine List.foldl_ext _ _ _ fun fb col member => ?_
  have colInside : col < logo.w := by
    simpa only [List.mem_range'_1, Nat.zero_le, Nat.zero_add, true_and]
      using member
  exact paint_accesses found fits rowInside colInside fb

end SplLogo

/-- A refused file leaves the framebuffer, another one is drawn into it. -/
theorem splSplashTryLogo_eq (content : List UInt8) (stale : Int → UInt8)
    (fb : Nat → UInt32) :
    splSplashTryLogo true true (some content) fb =
      (splLogo content stale).elim fb fun logo =>
        splDraw ((content.take (64 * 1024)).drop 20) logo.w logo.h logo.x
          logo.y fb := by
  rw [splSplashTryLogo, if_neg (by decide)]
  simp only [splLogo]
  by_cases short : (content.take (64 * 1024)).length < 20
  · rw [if_pos short, if_pos (.inl short), Option.elim_none]
  · by_cases other : le32 (content.take (64 * 1024)) 0 ≠ 0x4f474f4c
    · rw [if_neg short, if_pos other, if_pos (.inr (.inl other)),
        Option.elim_none]
    · rw [if_neg short, if_neg other]
      split_ifs with refused passed passed
      · rw [Option.elim_none]
      · exact absurd (.inr (.inr refused)) passed
      · exact absurd passed (not_or.mpr ⟨short, not_or.mpr ⟨other, refused⟩⟩)
      · rw [Option.elim_some]

end KmmYocto.Logo
