import KmmYocto.LogoDraw
import KmmYocto.MeasureBoot

/-!
# The bench pattern as a logo

`generate_pattern.py` puts one tag in each cell of 800x480.  With `--logo` it
writes the pattern as one bit for each pixel, in the place of the logo that the
SPL draws.  A bit is set where the pixel is brighter than 128, and the white
level of a pattern is 128 unless the user gives another one.

The images of the tags come from OpenCV and are an argument; a module is white
if its pixel is not zero.
-/

namespace KmmYocto

open LcdVal (Stage gridCols gridRows cell)

/-- The arguments of `build_pattern`; a larger tag makes it raise. -/
structure Pattern where
  stage : Stage
  tagSize : Nat
  white : UInt8
  /-- `generate_marker`: the pixel of a tag by its row and column. -/
  marker : Nat → Nat → Nat → UInt8
  fits : tagSize ≤ cell

namespace Pattern

/-! ## `generate_pattern.py` -/

/-- `tag_id`. -/
def tagId (stage : Stage) (row col : Nat) : Nat :=
  stage.base + row * gridCols + col

/-- `off`. -/
def off (pattern : Pattern) : Nat :=
  (cell - pattern.tagSize) / 2

/-- The pixel of a tag with the white level of the pattern. -/
def shade (pattern : Pattern) (tid y x : Nat) : UInt8 :=
  if 0 < pattern.marker tid y x then pattern.white else 0

/-- One tag is put into the image, which is read by row and column. -/
def putTag (pattern : Pattern) (row : Nat) (img : Nat → Nat → UInt8)
    (col : Nat) : Nat → Nat → UInt8 :=
  let y := row * cell + pattern.off
  let x := col * cell + pattern.off
  fun Y X =>
    if y ≤ Y ∧ Y < y + pattern.tagSize ∧ x ≤ X ∧ X < x + pattern.tagSize then
      pattern.shade (tagId pattern.stage row col) (Y - y) (X - x)
    else img Y X

/-- `build_pattern`. -/
def buildPattern (pattern : Pattern) : Nat → Nat → UInt8 :=
  (List.range gridRows).foldl
    (fun img row => (List.range gridCols).foldl (pattern.putTag row) img)
    fun _ _ => pattern.white

/-- `flat`. -/
def flat (pattern : Pattern) : List Bool :=
  (List.range (800 * 480)).map fun i =>
    decide (128 < pattern.buildPattern (i / 800) (i % 800))

/-- The loop that sets the bits, from index `i` on. -/
def setBits (bits : List UInt8) (i : Nat) : List Bool → List UInt8
  | [] => bits
  | on :: rest =>
      if on = true then
        setBits
          (bits.set (i / 8) (bits.getD (i / 8) 0 ||| Logo.bitMask i))
          (i + 1) rest
      else setBits bits (i + 1) rest

/-- `bits`. -/
def bits (pattern : Pattern) : List UInt8 :=
  setBits (List.replicate ((800 * 480 + 7) / 8) 0) 0 pattern.flat

/-- The file of `--logo`. -/
def logo (pattern : Pattern) : List UInt8 :=
  [0x4c, 0x4f, 0x47, 0x4f] ++ Memory.wordBytes 800 ++ Memory.wordBytes 480 ++
    Memory.wordBytes 0 ++ Memory.wordBytes 0 ++ pattern.bits

/-! ## The pixels of a pattern -/

/-- The pixel lies in the square of the tag of its cell. -/
def InTag (pattern : Pattern) (Y X : Nat) : Prop :=
  pattern.off ≤ Y % cell ∧ Y % cell < pattern.off + pattern.tagSize ∧
    pattern.off ≤ X % cell ∧ X % cell < pattern.off + pattern.tagSize

instance (pattern : Pattern) (Y X : Nat) : Decidable (pattern.InTag Y X) :=
  inferInstanceAs (Decidable (_ ∧ _))

/-- The pixel is not one of the black modules. -/
def Light (pattern : Pattern) (Y X : Nat) : Prop :=
  pattern.InTag Y X →
    0 < pattern.marker (tagId pattern.stage (Y / cell) (X / cell))
      (Y % cell - pattern.off) (X % cell - pattern.off)

instance (pattern : Pattern) (Y X : Nat) : Decidable (pattern.Light Y X) :=
  inferInstanceAs (Decidable (_ → _))

variable (pattern : Pattern)

theorem off_add_tagSize_le : pattern.off + pattern.tagSize ≤ cell := by
  have fits := pattern.fits
  simp only [off, cell] at fits ⊢
  omega

/-- A square belongs to one cell. -/
theorem putTag_apply (row col : Nat) (img : Nat → Nat → UInt8) (Y X : Nat) :
    pattern.putTag row img col Y X =
      if Y / cell = row ∧ X / cell = col ∧ pattern.InTag Y X then
        pattern.shade (tagId pattern.stage (Y / cell) (X / cell))
          (Y % cell - pattern.off) (X % cell - pattern.off)
      else img Y X := by
  have within := pattern.off_add_tagSize_le
  have square :
      (row * cell + pattern.off ≤ Y ∧
        Y < row * cell + pattern.off + pattern.tagSize ∧
          col * cell + pattern.off ≤ X ∧
            X < col * cell + pattern.off + pattern.tagSize) ↔
        Y / cell = row ∧ X / cell = col ∧ pattern.InTag Y X := by
    simp only [InTag, cell] at within ⊢
    omega
  simp only [putTag]
  by_cases inside : Y / cell = row ∧ X / cell = col ∧ pattern.InTag Y X
  · rw [if_pos (square.mpr inside), if_pos inside]
    obtain ⟨rfl, rfl, -⟩ := inside
    congr 1 <;> simp only [cell] <;> omega
  · rw [if_neg fun painted => inside (square.mp painted), if_neg inside]

/-- The tags of one row, as far as a column. -/
theorem putRow_apply (row cols : Nat) (img : Nat → Nat → UInt8) (Y X : Nat) :
    (List.range cols).foldl (pattern.putTag row) img Y X =
      if Y / cell = row ∧ X / cell < cols ∧ pattern.InTag Y X then
        pattern.shade (tagId pattern.stage (Y / cell) (X / cell))
          (Y % cell - pattern.off) (X % cell - pattern.off)
      else img Y X := by
  induction cols with
  | zero => simp
  | succ cols induction =>
      rw [List.range_succ, List.foldl_append, List.foldl_cons, List.foldl_nil,
        putTag_apply, induction]
      by_cases tag : pattern.InTag Y X
      · simp only [tag, and_true]
        split_ifs <;> first | rfl | omega
      · simp only [tag, and_false, if_false]

/-- The tags of all columns, as far as a row. -/
theorem putRows_apply (rows : Nat) (img : Nat → Nat → UInt8) (Y X : Nat) :
    (List.range rows).foldl
        (fun img row => (List.range gridCols).foldl (pattern.putTag row) img)
        img Y X =
      if Y / cell < rows ∧ X / cell < gridCols ∧ pattern.InTag Y X then
        pattern.shade (tagId pattern.stage (Y / cell) (X / cell))
          (Y % cell - pattern.off) (X % cell - pattern.off)
      else img Y X := by
  induction rows with
  | zero => simp
  | succ rows induction =>
      rw [List.range_succ, List.foldl_append, List.foldl_cons, List.foldl_nil,
        putRow_apply, induction]
      by_cases tag : pattern.InTag Y X
      · simp only [tag, and_true]
        split_ifs <;> first | rfl | omega
      · simp only [tag, and_false, if_false]

/-- A pixel is bright if it is light and the white level is. -/
theorem bright_iff {Y X : Nat} (row : Y < 480) (column : X < 800) :
    128 < pattern.buildPattern Y X ↔ 128 < pattern.white ∧ pattern.Light Y X := by
  have rows : Y / cell < gridRows := by
    simp only [cell, gridRows]
    omega
  have cols : X / cell < gridCols := by
    simp only [cell, gridCols]
    omega
  rw [buildPattern, putRows_apply, Light]
  by_cases inside : pattern.InTag Y X
  · rw [if_pos ⟨rows, cols, inside⟩, shade]
    split_ifs with lit
    · exact (and_iff_left fun _ => lit).symm
    · exact iff_of_false (by decide) fun both => lit (both.2 inside)
  · rw [if_neg fun painted => inside painted.2.2]
    exact (and_iff_left fun within => absurd within inside).symm

/-! ## The bits -/

/-- The loop is the one of the logo, on values that are 255 or 0. -/
theorem setBits_eq (bits : List UInt8) (setbits i : Nat) (flags : List Bool) :
    setBits bits i flags =
      (Logo.packFrom bits setbits i
        (flags.map fun on => if on = true then 255 else 0)).1 := by
  induction flags generalizing bits setbits i with
  | nil => rfl
  | cons on rest induction =>
      rw [setBits, List.map_cons, Logo.packFrom]
      cases on with
      | true =>
          rw [if_pos rfl, if_pos (by decide)]
          exact induction _ _ _
      | false =>
          rw [if_neg (by decide), if_neg (by decide)]
          exact induction _ _ _

theorem bitAt_replicate (bytes i : Nat) :
    Logo.bitAt (List.replicate bytes 0) i = false := by
  rw [Logo.bitAt, List.getD_eq_getElem?_getD, List.getElem?_replicate]
  split_ifs <;> simp

theorem length_bits : pattern.bits.length = 48000 := by
  rw [bits, setBits_eq _ 0, Logo.length_packFrom, List.length_replicate]

/-- The loop sets the bits of what is on. -/
theorem bitAt_setBits {bits : List UInt8} {i : Nat} {flags : List Bool}
    (inside : (i + flags.length + 7) / 8 ≤ bits.length) (j : Nat) :
    Logo.bitAt (setBits bits i flags) j =
      (Logo.bitAt bits j || decide (i ≤ j) && flags.getD (j - i) false) := by
  have values :
      128 ≤ (flags.map fun on =>
          if on = true then (255 : UInt8) else 0).getD (j - i) 0 ↔
        flags.getD (j - i) false = true := by
    rw [List.getD_eq_getElem?_getD, List.getElem?_map,
      List.getD_eq_getElem?_getD]
    cases flags[j - i]? with
    | none => decide
    | some on => cases on <;> decide
  rw [setBits_eq _ 0, Logo.bitAt_packFrom (by rwa [List.length_map])]
  congr 1
  rw [Bool.eq_iff_iff, decide_eq_true_iff, values, Bool.and_eq_true,
    decide_eq_true_iff]

theorem length_flat : pattern.flat.length = 384000 := by
  rw [flat, List.length_map, List.length_range]

/-- A bit is set where the pixel is bright. -/
theorem bitAt_bits {i : Nat} (inside : i < 384000) :
    Logo.bitAt pattern.bits i =
      decide (128 < pattern.buildPattern (i / 800) (i % 800)) := by
  have size :
      (0 + pattern.flat.length + 7) / 8 ≤
        (List.replicate ((800 * 480 + 7) / 8) (0 : UInt8)).length := by
    have flags := pattern.length_flat
    simp only [List.length_replicate]
    omega
  have found :
      pattern.flat[i]? =
        some (decide (128 < pattern.buildPattern (i / 800) (i % 800))) := by
    rw [flat, List.getElem?_map, List.getElem?_range inside, Option.map_some]
  rw [bits, bitAt_setBits size, bitAt_replicate, Bool.false_or, Nat.sub_zero,
    List.getD_eq_getElem?_getD, found, decide_eq_true (Nat.zero_le i),
    Bool.true_and, Option.getD_some]

/-! ## The SPL draws it -/

/-- The header that the file of a pattern has. -/
def header (pattern : Pattern) : LogoHeader where
  w := 800
  h := 480
  x := 0
  y := 0
  bits := pattern.bits
  setbits := 0

/-- The SPL accepts the file, which takes up the whole panel. -/
theorem splSplashTryLogo_logo (fb : Nat → UInt32) :
    Logo.splSplashTryLogo true true (some pattern.logo) fb =
      Logo.splDraw pattern.bits 800 480 0 0 fb := by
  have content :
      pattern.logo =
        [0x4c, 0x4f, 0x47, 0x4f] ++ Memory.wordBytes pattern.header.w ++
          Memory.wordBytes pattern.header.h ++
            Memory.wordBytes pattern.header.x ++
              Memory.wordBytes pattern.header.y ++ pattern.header.bits := by
    simp only [logo, header]
  generalize pattern.logo = file at content ⊢
  obtain ⟨size, bits, magic, width, height, left, top⟩ :=
    Logo.logo_words pattern.header (show 800 < 2 ^ 32 by decide)
      (show 480 < 2 ^ 32 by decide) (show 0 < 2 ^ 32 by decide)
      (show 0 < 2 ^ 32 by decide) content
  simp only [header, length_bits] at size bits width height left top
  have whole : file.take (64 * 1024) = file :=
    List.take_of_length_le (by omega)
  simp only [Logo.splSplashTryLogo, whole, magic, width, height, left, top,
    bits, size]
  rw [if_neg (by decide), if_neg (by decide), if_neg (not_not.mpr rfl),
    if_neg (by decide)]

/-- A place of the panel, and the number of the pixel that is there. -/
theorem exists_pixel_iff (bright : Nat → Prop) (p : Nat) :
    (∃ row ∈ List.range 480, ∃ col ∈ List.range 800,
        bright ((row * 800 + col) % 2 ^ 32) ∧
          p = (0 + row) * 800 % 2 ^ 32 + 0 + col) ↔
      p < 384000 ∧ bright p := by
  constructor
  · rintro ⟨row, rowMem, col, colMem, lit, rfl⟩
    have down := List.mem_range.mp rowMem
    have right := List.mem_range.mp colMem
    rw [Nat.mod_eq_of_lt (by omega)] at lit
    rw [Nat.zero_add, Nat.mod_eq_of_lt (by omega), Nat.add_zero]
    exact ⟨by omega, lit⟩
  · rintro ⟨inside, lit⟩
    have place : p / 800 * 800 + p % 800 = p := Nat.div_add_mod' p 800
    refine
      ⟨p / 800, List.mem_range.mpr (by omega), p % 800,
        List.mem_range.mpr (by omega), ?_, ?_⟩
    · rwa [place, Nat.mod_eq_of_lt (by omega)]
    · rw [Nat.zero_add, Nat.mod_eq_of_lt (by omega), Nat.add_zero, place]

/--
The SPL shows the pattern exactly if the white level is above 128: a pixel is
then white unless it is a black module of the tag that its cell has.  With a
white level of 128 or less the SPL draws nothing.
-/
theorem logo_shown (fb : Nat → UInt32) (p : Nat) :
    Logo.splSplashTryLogo true true (some pattern.logo) fb p =
      if p < 800 * 480 ∧ 128 < pattern.white ∧
          pattern.Light (p / 800) (p % 800) then 0x00ffffff
      else fb p := by
  rw [splSplashTryLogo_logo, Logo.splDraw_apply]
  apply if_congr _ rfl rfl
  rw [exists_pixel_iff fun i => Logo.bitAt pattern.bits i = true]
  apply and_congr_right
  intro inside
  have row : p / 800 < 480 := by
    omega
  rw [bitAt_bits pattern inside, decide_eq_true_iff]
  exact pattern.bright_iff row (Nat.mod_lt p (by decide))

end Pattern

namespace Bench

/-- Tags of the default size: a black border of one module, white inside. -/
def borderTags : Pattern where
  stage := .gui
  tagSize := 56
  white := 255
  marker _ y x := if 7 ≤ y ∧ y < 49 ∧ 7 ≤ x ∧ x < 49 then 255 else 0
  fits := by decide

/-- The corner of the panel, of the first tag and of its inside. -/
theorem borderTags_shown :
    let fb := Logo.splSplashTryLogo true true (some borderTags.logo) fun _ => 0
    fb 0 = 0x00ffffff ∧ fb (12 * 800 + 12) = 0 ∧
      fb (19 * 800 + 19) = 0x00ffffff := by
  have shown := borderTags.logo_shown fun _ => 0
  exact
    ⟨(shown 0).trans (by decide), (shown (12 * 800 + 12)).trans (by decide),
      (shown (19 * 800 + 19)).trans (by decide)⟩

end Bench

end KmmYocto
