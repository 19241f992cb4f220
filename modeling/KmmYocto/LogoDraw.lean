import KmmYocto.LogoHeader
import KmmYocto.McoreFormat

/-!
# Drawing the logo

The SPL draws `logo.bin` into its framebuffer of 800x480, and `splash-wl`
draws the header into a window of any size.  A framebuffer is a function from
positions to pixels.  Numbers of the SPL are `u32`, those of `splash-wl` are
`int`; an `int` that overflows wraps.
-/

namespace KmmYocto

open McoreImage (le32 le32_append_wordBytes)
open Memory (wordBytes length_wordBytes)

universe u v

/-! ## Painting -/

/-- Painting one set after the other paints their union. -/
theorem foldl_paint {Index : Type u} {Position : Type v}
    {paints : Index → Position → Prop}
    [∀ index position, Decidable (paints index position)] {colour : UInt32}
    {step : (Position → UInt32) → Index → Position → UInt32}
    (step_apply : ∀ fb index position,
      step fb index position =
        if paints index position then colour else fb position)
    (indices : List Index) (fb : Position → UInt32) (position : Position) :
    indices.foldl step fb position =
      if ∃ index ∈ indices, paints index position then colour
      else fb position := by
  induction indices generalizing fb with
  | nil => simp
  | cons index rest induction =>
      rw [List.foldl_cons, induction, step_apply]
      by_cases later : ∃ index ∈ rest, paints index position
      · rw [if_pos later, if_pos (by simp [later])]
      · rw [if_neg later]
        simp only [List.exists_mem_cons_iff, later, or_false]

/-- A loop that stops at a bound visits what lies below it. -/
theorem mem_takeWhile_range {holds : Nat → Bool}
    (down : ∀ lower upper, lower ≤ upper → holds upper = true →
      holds lower = true) {n i : Nat} :
    i ∈ (List.range n).takeWhile holds ↔ i < n ∧ holds i = true := by
  constructor
  · intro member
    exact
      ⟨List.mem_range.mp (List.takeWhile_subset holds member),
        List.mem_takeWhile_imp member⟩
  · rintro ⟨inside, passes⟩
    induction n with
    | zero => exact absurd inside (Nat.not_lt_zero i)
    | succ n induction =>
        rw [List.range_succ, List.takeWhile_append]
        split_ifs with all
        · rcases Nat.lt_succ_iff_lt_or_eq.mp inside with early | rfl
          · exact List.mem_append_left _ (List.mem_range.mpr early)
          · apply List.mem_append_right
            rw [List.takeWhile_cons, if_pos passes]
            exact List.mem_cons_self
        · rcases Nat.lt_succ_iff_lt_or_eq.mp inside with early | rfl
          · exact induction early
          · refine absurd ?_ all
            rw [List.takeWhile_eq_self_iff.mpr]
            intro lower member
            exact down lower i (List.mem_range.mp member).le passes

namespace Logo

/-! ## `spl_splash_try_logo` -/

/-- The inner loop: the pixels of one row. -/
def splDrawRow (bits : List UInt8) (w x y row : Nat) (fb : Nat → UInt32) :
    Nat → UInt32 :=
  (List.range w).foldl
    (fun fb col =>
      let i := (row * w + col) % 2 ^ 32
      if bitAt bits i = true then
        Function.update fb ((y + row) * 800 % 2 ^ 32 + x + col) 0x00ffffff
      else fb)
    fb

/-- The outer loop. -/
def splDraw (bits : List UInt8) (w h x y : Nat) (fb : Nat → UInt32) :
    Nat → UInt32 :=
  (List.range h).foldl (fun fb row => splDrawRow bits w x y row fb) fb

/--
`spl_splash_try_logo`; `file` is what `fat_read_file` finds of logo.bin, and
`registered` that p1 can be registered.
-/
def splSplashTryLogo (splashOk registered : Bool) (file : Option (List UInt8))
    (fb : Nat → UInt32) : Nat → UInt32 :=
  if splashOk = false ∨ registered = false then fb
  else
    match file with
    | none => fb
    | some content =>
        let b := content.take (64 * 1024)
        let got := b.length
        if got < 20 then fb
        else if le32 b 0 ≠ 0x4f474f4c then fb
        else
          let w := le32 b 4
          let h := le32 b 8
          let x := le32 b 12
          let y := le32 b 16
          if w = 0 ∨ h = 0 ∨ (x + w) % 2 ^ 32 > 800 ∨ (y + h) % 2 ^ 32 > 480 ∨
              got < (20 + (w * h + 7) % 2 ^ 32 / 8) % 2 ^ 32 then
            fb
          else splDraw (b.drop 20) w h x y fb

/-! ## `splash-wl` -/

/-- A number as an `int`. -/
def int32 (n : Int) : Int :=
  n.bmod (2 ^ 32)

def bgXrgb : UInt32 := 0xff000000

def white : UInt32 := 0xffffffff

/-- The columns up to the `break`. -/
def drawnCols (header : LogoHeader) (w : Int) : List Nat :=
  (List.range header.w).takeWhile fun col => ¬ (header.x + col : Int) ≥ w

/-- The rows up to the `break`. -/
def drawnRows (header : LogoHeader) (h : Int) : List Nat :=
  (List.range header.h).takeWhile fun row => ¬ (header.y + row : Int) ≥ h

/-- The indices that the loops over the logo write. -/
def logoIndices (header : LogoHeader) (w h : Int) : List Int :=
  (drawnRows header h).flatMap fun row =>
    (drawnCols header w).filterMap fun col =>
      if bitAt header.bits (row * header.w + col) = true then
        some (int32 (int32 ((header.y + row : Int) * w) + (header.x + col)))
      else none

/-- The indices that the loop over the background writes. -/
def bgIndices (w h : Int) : List Int :=
  (List.range (int32 (w * h)).toNat).map Int.ofNat

/-- `draw`: the writes to `px`, oldest first. -/
def draw (header : LogoHeader) (w h : Int) : List (Int × UInt32) :=
  (bgIndices w h).map (·, bgXrgb) ++ (logoIndices header w h).map (·, white)

/--
`main`: the size of the buffer in bytes, and what is drawn into it.  A size of
zero cannot be mapped, a negative one not be set.
-/
def splashWl (header : LogoHeader) (winW winH : Int) :
    Option (Int × List (Int × UInt32)) :=
  let stride := int32 (winW * 4)
  let size := int32 (stride * winH)
  if size ≤ 0 then none else some (size, draw header winW winH)

/-- The buffer after the writes; a new buffer is zero. -/
def buffer (writes : List (Int × UInt32)) : Int → UInt32 :=
  writes.foldl (fun px write => Function.update px write.1 write.2) fun _ => 0

/-! ## The framebuffer -/

theorem splDrawRow_apply (bits : List UInt8) (w x y row : Nat)
    (fb : Nat → UInt32) (p : Nat) :
    splDrawRow bits w x y row fb p =
      if ∃ col ∈ List.range w,
          bitAt bits ((row * w + col) % 2 ^ 32) = true ∧
            p = (y + row) * 800 % 2 ^ 32 + x + col then 0x00ffffff
      else fb p := by
  apply foldl_paint
  intro fb col p
  split_ifs with bit painted painted
  · rw [painted.2, Function.update_self]
  · exact Function.update_of_ne (fun same => painted ⟨bit, same⟩) _ _
  · exact absurd painted.1 bit
  · rfl

theorem splDraw_apply (bits : List UInt8) (w h x y : Nat)
    (fb : Nat → UInt32) (p : Nat) :
    splDraw bits w h x y fb p =
      if ∃ row ∈ List.range h, ∃ col ∈ List.range w,
          bitAt bits ((row * w + col) % 2 ^ 32) = true ∧
            p = (y + row) * 800 % 2 ^ 32 + x + col then 0x00ffffff
      else fb p :=
  foldl_paint (fun fb row p => splDrawRow_apply bits w x y row fb p) _ fb p

/-- The position of the panel holds a pixel of the mask that is lit. -/
def LitAt (mask : AlphaMask) (X Y : Nat) : Prop :=
  (header mask).x ≤ X ∧ (header mask).y ≤ Y ∧
    Lit mask (Y - (header mask).y) (X - (header mask).x)

instance (mask : AlphaMask) (X Y : Nat) : Decidable (LitAt mask X Y) :=
  inferInstanceAs (Decidable (_ ∧ _ ∧ _))

/-- The logo lies on the panel. -/
theorem header_fits (mask : AlphaMask) :
    (header mask).x + mask.w ≤ 800 ∧ (header mask).y + mask.h ≤ 480 := by
  have w := mask.w_le
  have h := mask.h_le
  simp only [header]
  omega

theorem litAt_iff {mask : AlphaMask} {X Y : Nat} :
    LitAt mask X Y ↔
      ∃ row < mask.h, ∃ col < mask.w, Lit mask row col ∧
        X = (header mask).x + col ∧ Y = (header mask).y + row := by
  constructor
  · rintro ⟨left, top, lit⟩
    exact ⟨_, lit.1, _, lit.2.1, lit, by omega, by omega⟩
  · rintro ⟨row, -, col, -, lit, rfl, rfl⟩
    refine ⟨Nat.le_add_right _ _, Nat.le_add_right _ _, ?_⟩
    rwa [Nat.add_sub_cancel_left, Nat.add_sub_cancel_left]

/-- The 32-bit numbers of the SPL do not wrap on the panel. -/
theorem spl_index (mask : AlphaMask) {row col : Nat} (rowInside : row < mask.h)
    (colInside : col < mask.w) :
    (row * mask.w + col) % 2 ^ 32 = row * mask.w + col ∧
      ((header mask).y + row) * 800 % 2 ^ 32 + (header mask).x + col =
        ((header mask).y + row) * 800 + ((header mask).x + col) := by
  obtain ⟨right, bottom⟩ := header_fits mask
  have w := mask.w_le
  have h := mask.h_le
  have rows : row * mask.w ≤ 480 * 800 := Nat.mul_le_mul (by omega) w
  refine ⟨Nat.mod_eq_of_lt (by omega), ?_⟩
  rw [Nat.mod_eq_of_lt (by omega), Nat.add_assoc]

/-- The SPL draws the mask where it is lit. -/
theorem splDraw_header (mask : AlphaMask) (fb : Nat → UInt32) (p : Nat) :
    splDraw (header mask).bits (header mask).w (header mask).h
        (header mask).x (header mask).y fb p =
      if p < 800 * 480 ∧ LitAt mask (p % 800) (p / 800) then 0x00ffffff
      else fb p := by
  obtain ⟨right, bottom⟩ := header_fits mask
  rw [splDraw_apply]
  apply if_congr _ rfl rfl
  rw [litAt_iff]
  constructor
  · rintro ⟨row, rowMem, col, colMem, bit, rfl⟩
    have rowInside : row < mask.h := List.mem_range.mp rowMem
    have colInside : col < mask.w := List.mem_range.mp colMem
    obtain ⟨index, position⟩ := spl_index mask rowInside colInside
    have lit : bitAt (pack mask).1 (row * mask.w + col) = true :=
      index ▸ bit
    rw [bitAt_pack mask rowInside colInside, decide_eq_true_iff] at lit
    rw [position]
    refine ⟨by omega, row, rowInside, col, colInside, lit, ?_, ?_⟩ <;> omega
  · rintro ⟨inside, row, rowInside, col, colInside, lit, left, top⟩
    obtain ⟨index, position⟩ := spl_index mask rowInside colInside
    refine
      ⟨row, List.mem_range.mpr rowInside, col, List.mem_range.mpr colInside,
        ?_, ?_⟩
    · show bitAt (pack mask).1 ((row * mask.w + col) % 2 ^ 32) = true
      rw [index, bitAt_pack mask rowInside colInside, decide_eq_true lit]
    · rw [position]
      omega

/-- The five words and the bits of a logo.bin. -/
theorem logo_words (header : LogoHeader) (w : header.w < 2 ^ 32)
    (h : header.h < 2 ^ 32) (x : header.x < 2 ^ 32) (y : header.y < 2 ^ 32)
    {file : List UInt8}
    (content : file =
      [0x4c, 0x4f, 0x47, 0x4f] ++ wordBytes header.w ++ wordBytes header.h ++
        wordBytes header.x ++ wordBytes header.y ++ header.bits) :
    file.length = 20 + header.bits.length ∧ file.drop 20 = header.bits ∧
      le32 file 0 = 0x4f474f4c ∧ le32 file 4 = header.w ∧
        le32 file 8 = header.h ∧ le32 file 12 = header.x ∧
          le32 file 16 = header.y := by
  subst content
  refine ⟨?_, ?_, ?_, ?_, ?_, ?_, ?_⟩
  · simp only [List.length_append, length_wordBytes, List.length_cons,
      List.length_nil]
  · rfl
  · simp [le32]
  · rw [List.append_assoc, List.append_assoc, List.append_assoc,
      List.append_assoc]
    exact le32_append_wordBytes w [0x4c, 0x4f, 0x47, 0x4f] _
  · rw [List.append_assoc, List.append_assoc, List.append_assoc]
    exact le32_append_wordBytes h ([0x4c, 0x4f, 0x47, 0x4f] ++ _) _
  · rw [List.append_assoc, List.append_assoc]
    exact
      le32_append_wordBytes x ([0x4c, 0x4f, 0x47, 0x4f] ++ _ ++ _) _
  · rw [List.append_assoc]
    exact
      le32_append_wordBytes y ([0x4c, 0x4f, 0x47, 0x4f] ++ _ ++ _ ++ _) _

theorem length_bits (mask : AlphaMask) :
    (header mask).bits.length = (mask.w * mask.h + 7) / 8 := by
  show (pack mask).1.length = _
  rw [pack, length_packFrom, List.length_replicate]

/-- The SPL accepts `logo.bin` and draws it. -/
theorem splSplashTryLogo_logoBin (mask : AlphaMask) (fb : Nat → UInt32) :
    splSplashTryLogo true true (logoBin (headerText (header mask))) fb =
      splDraw (header mask).bits (header mask).w (header mask).h
        (header mask).x (header mask).y fb := by
  obtain ⟨w, h, x, y⟩ := header_lt mask
  obtain ⟨right, bottom⟩ := header_fits mask
  have wide := mask.w_le
  have high := mask.h_le
  have area : mask.w * mask.h ≤ 800 * 480 := Nat.mul_le_mul wide high
  rw [logoBin_headerText]
  generalize content :
    [0x4c, 0x4f, 0x47, 0x4f] ++ wordBytes (header mask).w ++
      wordBytes (header mask).h ++ wordBytes (header mask).x ++
        wordBytes (header mask).y ++ (header mask).bits = file
  obtain ⟨size, bits, magic, width, height, left, top⟩ :=
    logo_words (header mask) w h x y content.symm
  rw [length_bits] at size
  have whole : file.take (64 * 1024) = file :=
    List.take_of_length_le (by omega)
  have accepted :
      ¬ ((header mask).w = 0 ∨ (header mask).h = 0 ∨
        ((header mask).x + (header mask).w) % 2 ^ 32 > 800 ∨
          ((header mask).y + (header mask).h) % 2 ^ 32 > 480 ∨
            file.length <
              (20 + ((header mask).w * (header mask).h + 7) % 2 ^ 32 / 8) %
                2 ^ 32) := by
    have wPos := mask.w_pos
    have hPos := mask.h_pos
    have wEq : (header mask).w = mask.w := rfl
    have hEq : (header mask).h = mask.h := rfl
    rw [wEq, hEq, size]
    generalize mask.w * mask.h = pixels at area ⊢
    omega
  simp only [splSplashTryLogo, whole, magic, width, height, left, top, bits]
  rw [if_neg (by decide), if_neg (by omega), if_neg (not_not.mpr rfl),
    if_neg accepted]

/-- The SPL sets the pixels to white that are lit, and no others. -/
def SplDrawsRight (mask : AlphaMask) : Prop :=
  ∀ (fb : Nat → UInt32) (p : Nat),
    splSplashTryLogo true true (logoBin (headerText (header mask))) fb p =
      if p < 800 * 480 ∧ LitAt mask (p % 800) (p / 800) then 0x00ffffff
      else fb p

/-! ## The window -/

theorem int32_natCast {n : Nat} (small : n < 2 ^ 31) :
    int32 (n : Int) = n :=
  Int.bmod_eq_of_le (by omega) (by omega)

theorem int32_lt (n : Int) : int32 n < 2 ^ 31 := by
  have bound := @Int.bmod_lt n (2 ^ 32) (by decide)
  rw [int32]
  omega

theorem mem_drawnCols {header : LogoHeader} {w : Int} {col : Nat} :
    col ∈ drawnCols header w ↔
      col < header.w ∧ (header.x + col : Int) < w := by
  rw [drawnCols, mem_takeWhile_range]
  · simp only [ge_iff_le, not_le, decide_eq_true_eq]
  · simp only [ge_iff_le, not_le, decide_eq_true_eq]
    intro lower upper ordered below
    omega

theorem mem_drawnRows {header : LogoHeader} {h : Int} {row : Nat} :
    row ∈ drawnRows header h ↔
      row < header.h ∧ (header.y + row : Int) < h := by
  rw [drawnRows, mem_takeWhile_range]
  · simp only [ge_iff_le, not_le, decide_eq_true_eq]
  · simp only [ge_iff_le, not_le, decide_eq_true_eq]
    intro lower upper ordered below
    omega

theorem mem_logoIndices {header : LogoHeader} {w h index : Int} :
    index ∈ logoIndices header w h ↔
      ∃ row < header.h, (header.y + row : Int) < h ∧
        ∃ col < header.w, (header.x + col : Int) < w ∧
          bitAt header.bits (row * header.w + col) = true ∧
            int32 (int32 ((header.y + row : Int) * w) +
              (header.x + col)) = index := by
  simp only [logoIndices, List.mem_flatMap, List.mem_filterMap,
    mem_drawnRows, mem_drawnCols, Option.ite_none_right_eq_some,
    Option.some.injEq, and_assoc]

/-- The buffer is white where the logo was written, else background. -/
theorem buffer_draw (header : LogoHeader) (w h index : Int) :
    buffer (draw header w h) index =
      if ∃ written ∈ logoIndices header w h, index = written then white
      else if ∃ written ∈ bgIndices w h, index = written then bgXrgb
      else 0 := by
  have step : ∀ (colour : UInt32) (px : Int → UInt32) (written index : Int),
      Function.update px written colour index =
        if index = written then colour else px index := by
    intro colour px written index
    exact Function.update_apply px written colour index
  rw [buffer, draw, List.foldl_append, List.foldl_map, List.foldl_map,
    foldl_paint (step white), foldl_paint (step bgXrgb)]

/-- What has changed was written. -/
theorem exists_write_of_ne (writes : List (Int × UInt32)) (px : Int → UInt32)
    {index : Int}
    (changed :
      writes.foldl (fun px write => Function.update px write.1 write.2) px
        index ≠ px index) :
    ∃ write ∈ writes, write.1 = index := by
  induction writes generalizing px with
  | nil => exact absurd rfl changed
  | cons write rest induction =>
      by_cases here : write.1 = index
      · exact ⟨write, List.mem_cons_self, here⟩
      · rw [List.foldl_cons,
          ← Function.update_of_ne (Ne.symm here) write.2 px] at changed
        obtain ⟨later, member, same⟩ := induction _ changed
        exact ⟨later, List.mem_cons_of_mem _ member, same⟩

/-- The size of a window, a positive `int32_t` each way. -/
structure Window where
  w : Nat
  h : Nat
  w_pos : 0 < w
  w_lt : w < 2 ^ 31
  h_pos : 0 < h
  h_lt : h < 2 ^ 31

/--
`splash-wl` draws the mask into its window: white where it is lit, background
elsewhere, and nothing outside the buffer.
-/
def DrawsRight (mask : AlphaMask) (window : Window) : Prop :=
  ∃ size writes,
    splashWl (header mask) window.w window.h = some (size, writes) ∧
      (∀ write ∈ writes, 0 ≤ write.1 ∧ 4 * write.1 + 4 ≤ size) ∧
        ∀ X < window.w, ∀ Y < window.h,
          buffer writes (Y * window.w + X) =
            if LitAt mask X Y then white else bgXrgb

/-- A position of the window is one index of the buffer. -/
theorem position_inj {w X Y X' Y' : Nat} (inside : X < w) (inside' : X' < w) :
    Y * w + X = Y' * w + X' ↔ X = X' ∧ Y = Y' := by
  constructor
  · intro same
    have column : X = X' := by
      have equal := congrArg (· % w) same
      simpa [Nat.mod_eq_of_lt inside, Nat.mod_eq_of_lt inside'] using equal
    have row : Y * w = Y' * w := by omega
    exact ⟨column, Nat.eq_of_mul_eq_mul_right (by omega) row⟩
  · rintro ⟨rfl, rfl⟩
    rfl

theorem position_lt {w h X Y : Nat} (column : X < w) (row : Y < h) :
    Y * w + X < w * h := by
  have rows : (Y + 1) * w ≤ h * w := Nat.mul_le_mul_right w row
  rw [Nat.add_mul, Nat.one_mul, Nat.mul_comm h] at rows
  omega

section Fits

variable
    {mask : AlphaMask} {window : Window}
    (fits : 4 * (window.w * window.h) < 2 ^ 31)

include fits

/-- No index of a window that fits wraps. -/
theorem int32_index {X Y : Nat} (column : X < window.w) (row : Y < window.h) :
    int32 (int32 ((Y : Int) * window.w) + X) =
      ((Y * window.w + X : Nat) : Int) := by
  have inside := position_lt column row
  rw [← Nat.cast_mul, int32_natCast (by omega), ← Nat.cast_add,
    int32_natCast (by omega)]

/-- The loops write at the positions of the pixels that are lit. -/
theorem mem_logoIndices_fits {index : Int} :
    index ∈ logoIndices (header mask) window.w window.h ↔
      ∃ X < window.w, ∃ Y < window.h, LitAt mask X Y ∧
        index = ((Y * window.w + X : Nat) : Int) := by
  rw [mem_logoIndices]
  constructor
  · rintro ⟨row, rowInside, below, col, colInside, left, bit, rfl⟩
    have column : (header mask).x + col < window.w := by omega
    have line : (header mask).y + row < window.h := by omega
    have lit : Lit mask row col := by
      have packed := bitAt_pack mask rowInside colInside
      exact decide_eq_true_iff.mp (packed.symm.trans bit)
    refine
      ⟨_, column, _, line,
        litAt_iff.mpr ⟨row, rowInside, col, colInside, lit, rfl, rfl⟩, ?_⟩
    rw [← int32_index fits column line]
    push_cast
    rfl
  · rintro ⟨X, column, Y, line, litAt, rfl⟩
    obtain ⟨row, rowInside, col, colInside, lit, rfl, rfl⟩ :=
      litAt_iff.mp litAt
    refine
      ⟨row, rowInside, by omega, col, colInside, by omega, ?_, ?_⟩
    · exact (bitAt_pack mask rowInside colInside).trans (decide_eq_true lit)
    · rw [← int32_index fits column line]
      push_cast
      rfl

theorem mem_bgIndices_fits {index : Int} :
    index ∈ bgIndices window.w window.h ↔
      0 ≤ index ∧ index < (window.w * window.h : Nat) := by
  rw [bgIndices, ← Nat.cast_mul, int32_natCast (by omega),
    Int.toNat_natCast, List.mem_map]
  constructor
  · rintro ⟨i, member, rfl⟩
    have inside := List.mem_range.mp member
    exact ⟨Int.natCast_nonneg i, Int.ofNat_lt.mpr inside⟩
  · rintro ⟨low, high⟩
    exact ⟨index.toNat, List.mem_range.mpr (by omega), Int.toNat_of_nonneg low⟩

/-- A window whose buffer fits in an `int` is drawn right. -/
theorem drawsRight_of_fits : DrawsRight mask window := by
  have wPos := window.w_pos
  have hPos := window.h_pos
  have stride : window.w * 4 ≤ 4 * (window.w * window.h) := by
    rw [Nat.mul_comm 4]
    exact Nat.mul_le_mul_right 4 (Nat.le_mul_of_pos_right _ hPos)
  have bytes : window.w * 4 * window.h = 4 * (window.w * window.h) := by
    ring
  have positive : 0 < 4 * (window.w * window.h) := by positivity
  have size :
      int32 (int32 ((window.w : Int) * 4) * window.h) =
        (4 * (window.w * window.h) : Nat) := by
    have four : ((window.w : Int) * 4) = ((window.w * 4 : Nat) : Int) := by
      push_cast
      rfl
    rw [four, int32_natCast (by omega), ← Nat.cast_mul, bytes,
      int32_natCast fits]
  refine
    ⟨(4 * (window.w * window.h) : Nat),
      draw (header mask) window.w window.h, ?_, ?_, ?_⟩
  · rw [splashWl, size, if_neg (by omega)]
  · intro write member
    have inside :
        0 ≤ write.1 ∧ write.1 < (window.w * window.h : Nat) := by
      rw [draw, List.mem_append, List.mem_map, List.mem_map] at member
      rcases member with ⟨index, drawn, rfl⟩ | ⟨index, drawn, rfl⟩
      · exact (mem_bgIndices_fits fits).mp drawn
      · obtain ⟨X, column, Y, row, -, rfl⟩ :=
          (mem_logoIndices_fits fits).mp drawn
        exact
          ⟨Int.natCast_nonneg _, Int.ofNat_lt.mpr (position_lt column row)⟩
    omega
  · intro X column Y row
    have inside := position_lt column row
    have position :
        ((Y : Int) * window.w + X) = ((Y * window.w + X : Nat) : Int) := by
      push_cast
      rfl
    have written :
        (∃ written ∈ logoIndices (header mask) window.w window.h,
          ((Y * window.w + X : Nat) : Int) = written) ↔ LitAt mask X Y := by
      constructor
      · rintro ⟨index, member, same⟩
        obtain ⟨X', column', Y', row', lit, rfl⟩ :=
          (mem_logoIndices_fits fits).mp member
        obtain ⟨rfl, rfl⟩ := (position_inj column column').mp (Int.ofNat_inj.mp same)
        exact lit
      · intro lit
        exact
          ⟨_, (mem_logoIndices_fits fits).mpr ⟨X, column, Y, row, lit, rfl⟩,
            rfl⟩
    have background :
        ∃ written ∈ bgIndices window.w window.h,
          ((Y * window.w + X : Nat) : Int) = written :=
      ⟨_, (mem_bgIndices_fits fits).mpr
        ⟨Int.natCast_nonneg _, Int.ofNat_lt.mpr inside⟩, rfl⟩
    rw [position, buffer_draw, if_pos background]
    exact if_congr written rfl rfl

end Fits

/-- A window whose buffer does not fit is not drawn right. -/
theorem fits_of_drawsRight {mask : AlphaMask} {window : Window}
    (draws : DrawsRight mask window) :
    4 * (window.w * window.h) < 2 ^ 31 := by
  obtain ⟨size, writes, ran, inside, pixels⟩ := draws
  have wPos := window.w_pos
  have hPos := window.h_pos
  have last := pixels (window.w - 1) (by omega) (window.h - 1) (by omega)
  have changed :
      buffer writes
        (((window.h - 1 : Nat) : Int) * window.w + (window.w - 1 : Nat)) ≠
          0 := by
    rw [last]
    split_ifs <;> decide
  obtain ⟨write, member, index⟩ := exists_write_of_ne writes _ changed
  have bound := (inside write member).2
  have small : size < 2 ^ 31 := by
    rw [splashWl] at ran
    split_ifs at ran
    rw [← (Prod.mk.inj (Option.some.inj ran)).1]
    exact int32_lt _
  have area :
      (window.h - 1) * window.w + (window.w - 1) + 1 =
        window.w * window.h := by
    obtain ⟨h, high⟩ := Nat.exists_eq_add_of_lt hPos
    rw [high]
    have cancel : 0 + h + 1 - 1 = h := by omega
    rw [cancel, Nat.zero_add, Nat.mul_add, Nat.mul_one, Nat.mul_comm h]
    omega
  have cast :
      ((window.h - 1 : Nat) : Int) * window.w + (window.w - 1 : Nat) =
        (((window.h - 1) * window.w + (window.w - 1) : Nat) : Int) := by
    push_cast
    rfl
  rw [index, cast] at bound
  omega

/--
From the alpha mask through the header and `logo.bin`, the SPL draws the mask
where it is lit; `splash-wl` does so in every window whose buffer fits in an
`int`, and in no other.
-/
theorem drawsRight_iff (mask : AlphaMask) :
    SplDrawsRight mask ∧
      ∀ window : Window,
        DrawsRight mask window ↔ 4 * (window.w * window.h) < 2 ^ 31 := by
  refine ⟨fun fb p => ?_, fun window => ⟨fits_of_drawsRight, ?_⟩⟩
  · rw [splSplashTryLogo_logoBin, splDraw_header]
  · exact fun fits => drawsRight_of_fits fits

end Logo

namespace Bench

/-- One lit pixel. -/
def alphaMask : AlphaMask :=
  ⟨1, 1, [255], by decide, by decide, by decide, by decide, rfl⟩

/-- A window whose size in bytes wraps to 327684. -/
def wideWindow : Logo.Window :=
  ⟨65537, 16385, by decide, by decide, by decide, by decide⟩

end Bench

namespace Logo

/-- The buffer of a large window is smaller than the window. -/
theorem not_drawsRight :
    ¬ ∀ mask : AlphaMask,
      SplDrawsRight mask ∧ ∀ window : Window, DrawsRight mask window := by
  intro all
  have fits :=
    fits_of_drawsRight ((all Bench.alphaMask).2 Bench.wideWindow)
  exact absurd fits (by decide)

end Logo

end KmmYocto
