import KmmYocto.ByteMemory
import KmmYocto.TextSearch

/-!
# The logo from the alpha mask to `logo.bin`

`gen-splash-raw.py` packs the alpha mask into bits and writes them as a C
header, which `splash-wl` includes.  `falcon-itb.bb` searches the text of the
header with regular expressions and writes `logo.bin`, which the SPL reads.

Every decimal digit of the header is ASCII, and so are those of the model's
`\d`.
-/

namespace KmmYocto

open Memory (wordBytes)

/-- An alpha mask that fits on the panel, row by row. -/
structure AlphaMask where
  w : Nat
  h : Nat
  alpha : List UInt8
  w_pos : 0 < w
  w_le : w ≤ 800
  h_pos : 0 < h
  h_le : h ≤ 480
  size : alpha.length = w * h

/-- The content of `spl_splash_logo.h`. -/
structure LogoHeader where
  w : Nat
  h : Nat
  x : Nat
  y : Nat
  /-- `logo_bits`. -/
  bits : List UInt8
  /-- The bits that are set, for the comment. -/
  setbits : Nat

namespace Logo

/-! ## `gen-splash-raw.py` -/

/-- `0x80 >> (i & 7)`. -/
def bitMask (i : Nat) : UInt8 :=
  (0x80 : UInt8) >>> UInt8.ofNat (i % 8)

/-- The loop over the alpha values, from index `i` on. -/
def packFrom (packed : List UInt8) (setbits i : Nat) :
    List UInt8 → List UInt8 × Nat
  | [] => (packed, setbits)
  | a :: rest =>
      if 128 ≤ a then
        packFrom (packed.set (i / 8) (packed.getD (i / 8) 0 ||| bitMask i))
          (setbits + 1) (i + 1) rest
      else packFrom packed setbits (i + 1) rest

/-- `packed` and `setbits`. -/
def pack (mask : AlphaMask) : List UInt8 × Nat :=
  packFrom (List.replicate ((mask.w * mask.h + 7) / 8) 0) 0 0 mask.alpha

/-- The header of a mask, centred on 800x480. -/
def header (mask : AlphaMask) : LogoHeader where
  w := mask.w
  h := mask.h
  x := (800 - mask.w) / 2
  y := (480 - mask.h) / 2
  bits := (pack mask).1
  setbits := (pack mask).2

/-- `"0x%02x,"`. -/
def hexByte (byte : UInt8) : List Char :=
  ['0', 'x', Nat.digitChar (byte.toNat / 16), Nat.digitChar (byte.toNat % 16),
    ',']

/-- The loop over the bytes; `row` is the line that is being built. -/
def byteRows (row : List Char) : List UInt8 → List (List Char)
  | [] => if row.any (!Char.isWhitespace ·) = true then [row] else []
  | byte :: rest =>
      let row := row ++ hexByte byte
      if 97 ≤ row.length then row :: byteRows ['\t'] rest
      else byteRows row rest

/-- `round` of a quotient: a half goes to the even neighbour. -/
def roundHalfEven (numerator denominator : Nat) : Nat :=
  let quotient := numerator / denominator
  let rest := 2 * (numerator % denominator)
  if rest < denominator ∨ rest = denominator ∧ quotient % 2 = 0 then quotient
  else quotient + 1

/-- `#define name ` -/
def defineFront (name : String) : List Char :=
  "#define ".toList ++ name.toList ++ [' ']

/-- A definition of a number. -/
def defineLine (name : String) (value : Nat) (comment : String) : List Char :=
  defineFront name ++ (Nat.toDigits 10 value ++ comment.toList)

/-- The comment on the size. -/
def sizeLine (header : LogoHeader) : List Char :=
  ["/* ".toList, Nat.toDigits 10 header.w, ['x'], Nat.toDigits 10 header.h,
    " = ".toList, Nat.toDigits 10 (header.w * header.h),
    " bit, 点灯 ".toList, Nat.toDigits 10 header.setbits, " (".toList,
    Nat.toDigits 10
      (roundHalfEven (100 * header.setbits) (header.w * header.h)),
    "%), ".toList, Nat.toDigits 10 header.bits.length,
    " byte */".toList].flatten

/-- The lines before the definitions. -/
def openingLines : List (List Char) :=
  ["/* SPL スプラッシュ ロゴ 1bit マスク — scripts/gen-splash-raw.py が生成。".toList,
    " * 手で編集しない。ロゴ差し替えはスクリプト再実行 + コミット。".toList,
    " * row-major, MSB-first。bit=1 の画素だけ SPL が FB に白を書く。 */".toList,
    "#ifndef SPLASH_LOGO_H".toList,
    "#define SPLASH_LOGO_H".toList,
    []]

def closingLines : List (List Char) :=
  ["\x7d;".toList, [], "#endif /* SPLASH_LOGO_H */".toList, []]

/-- `lines`. -/
def headerLines (header : LogoHeader) : List (List Char) :=
  openingLines ++
    (defineLine "LOGO_W" header.w "" ::
      defineLine "LOGO_H" header.h "" ::
      defineLine "LOGO_X" header.x "\t/* パネル可視域(左上原点)内の X */" ::
      defineLine "LOGO_Y" header.y "\t/* 同 Y */" ::
      [] ::
      sizeLine header ::
      "static const unsigned char logo_bits[] = \x7b".toList ::
      (byteRows ['\t'] header.bits ++ closingLines))

/-- `"\n".join(lines)`. -/
def headerText (header : LogoHeader) : List Char :=
  Text.joinLines (headerLines header)

/-! ## `falcon-itb.bb` -/

/-- `#define name (\d+)` at the start of a text. -/
def matchDefine (name : String) (text : List Char) : Option Nat :=
  match text.dropPrefix? (defineFront name) with
  | none => none
  | some rest =>
      let digits := rest.takeWhile Char.isDigit
      if digits = [] then none else some (Nat.ofDigitChars 10 digits 0)

/-- `val(name)`. -/
def val (src : List Char) (name : String) : Option Nat :=
  Text.search (matchDefine name) src

/-- The value of a character in `[0-9a-fA-F]`. -/
def hexVal (c : Char) : Option Nat :=
  if '0' ≤ c ∧ c ≤ '9' then some (c.toNat - '0'.toNat)
  else if 'a' ≤ c ∧ c ≤ 'f' then some (c.toNat - 'a'.toNat + 10)
  else if 'A' ≤ c ∧ c ≤ 'F' then some (c.toNat - 'A'.toNat + 10)
  else none

/-- `0x[0-9a-fA-F]{2}` at the start of a text, as `int(b, 16)`. -/
def matchHex : List Char → Option UInt8
  | '0' :: 'x' :: high :: low :: _ => do
      let high ← hexVal high
      let low ← hexVal low
      return UInt8.ofNat (16 * high + low)
  | _ => none

/-- `re.findall`; the next `skip` characters belong to the last match. -/
def findHex : Nat → List Char → List UInt8
  | _, [] => []
  | skip + 1, _ :: rest => findHex skip rest
  | 0, c :: rest =>
      match matchHex (c :: rest) with
      | some byte => byte :: findHex 3 rest
      | none => findHex 0 rest

/-- `src.split('logo_bits')[1]`. -/
def afterLogoBits (src : List Char) : Option (List Char) :=
  (Text.after "logo_bits".toList src).map (Text.before "logo_bits".toList)

/-- `logo.bin`; the recipe fails if something is missing. -/
def logoBin (src : List Char) : Option (List UInt8) := do
  let w ← val src "LOGO_W"
  let h ← val src "LOGO_H"
  let x ← val src "LOGO_X"
  let y ← val src "LOGO_Y"
  let bits := findHex 0 (← afterLogoBits src)
  if w < 2 ^ 32 ∧ h < 2 ^ 32 ∧ x < 2 ^ 32 ∧ y < 2 ^ 32 then
    return [0x4c, 0x4f, 0x47, 0x4f] ++ wordBytes w ++ wordBytes h ++
      wordBytes x ++ wordBytes y ++ bits
  else none

/-! ## The bits -/

/-- Bit `i` of a mask, as both readers test it. -/
def bitAt (bits : List UInt8) (i : Nat) : Bool :=
  bits.getD (i / 8) 0 &&& bitMask i != 0

theorem bitMask_and_bitMask (i j : Nat) :
    bitMask i &&& bitMask j ≠ 0 ↔ i % 8 = j % 8 := by
  have all : ∀ i j : Fin 8,
      (0x80 : UInt8) >>> UInt8.ofNat i &&& 0x80 >>> UInt8.ofNat j ≠ 0 ↔
        i.val = j.val := by
    decide
  exact all ⟨i % 8, Nat.mod_lt _ (by decide)⟩ ⟨j % 8, Nat.mod_lt _ (by decide)⟩

theorem or_and_bitMask (x : UInt8) (i j : Nat) :
    (x ||| bitMask i) &&& bitMask j ≠ 0 ↔
      x &&& bitMask j ≠ 0 ∨ i % 8 = j % 8 := by
  have spread :
      (x ||| bitMask i) &&& bitMask j =
        (x &&& bitMask j) ||| (bitMask i &&& bitMask j) := by
    rw [← UInt8.toBitVec_inj]
    exact BitVec.and_or_distrib_right
  rw [spread, ne_eq, UInt8.or_eq_zero_iff, not_and_or]
  exact or_congr Iff.rfl (bitMask_and_bitMask i j)

/-- Setting bit `i` changes no other bit. -/
theorem bitAt_set {packed : List UInt8} {i : Nat}
    (inside : i / 8 < packed.length) (j : Nat) :
    bitAt (packed.set (i / 8) (packed.getD (i / 8) 0 ||| bitMask i)) j =
      (bitAt packed j || decide (i = j)) := by
  rw [Bool.eq_iff_iff, Bool.or_eq_true_iff, decide_eq_true_iff]
  simp only [bitAt, bne_iff_ne, List.getD_eq_getElem?_getD,
    List.getElem?_set]
  by_cases byte : i / 8 = j / 8
  · rw [if_pos byte, if_pos inside, ← byte]
    show (_ ||| bitMask i) &&& bitMask j ≠ 0 ↔ _
    rw [or_and_bitMask]
    exact or_congr Iff.rfl ⟨fun bit => by omega, fun same => by rw [same]⟩
  · have other : i ≠ j := fun same => byte (by rw [same])
    rw [if_neg byte, or_iff_left other]

theorem length_packFrom (packed : List UInt8) (setbits i : Nat)
    (alpha : List UInt8) :
    (packFrom packed setbits i alpha).1.length = packed.length := by
  induction alpha generalizing packed setbits i with
  | nil => rfl
  | cons a rest induction =>
      rw [packFrom]
      split_ifs
      · rw [induction, List.length_set]
      · exact induction _ _ _

/-- The loop sets the bits of the values from 128 on. -/
theorem bitAt_packFrom {packed : List UInt8} {setbits i : Nat}
    {alpha : List UInt8} (inside : (i + alpha.length + 7) / 8 ≤ packed.length)
    (j : Nat) :
    bitAt (packFrom packed setbits i alpha).1 j =
      (bitAt packed j ||
        decide (i ≤ j ∧ 128 ≤ alpha.getD (j - i) 0)) := by
  induction alpha generalizing packed setbits i with
  | nil => simp [packFrom]
  | cons a rest induction =>
      rw [List.length_cons] at inside
      have later :
          ∀ packed' : List UInt8, packed'.length = packed.length →
            ∀ setbits',
              bitAt (packFrom packed' setbits' (i + 1) rest).1 j =
                (bitAt packed' j ||
                  decide (i + 1 ≤ j ∧ 128 ≤ rest.getD (j - (i + 1)) 0)) := by
        intro packed' same setbits'
        exact induction (by omega)
      have split :
          i ≤ j ∧ 128 ≤ (a :: rest).getD (j - i) 0 ↔
            i = j ∧ 128 ≤ a ∨
              i + 1 ≤ j ∧ 128 ≤ rest.getD (j - (i + 1)) 0 := by
        rcases lt_trichotomy i j with early | rfl | late
        · obtain ⟨gap, rfl⟩ := Nat.exists_eq_add_of_lt early
          have here : i + gap + 1 - i = gap + 1 := by omega
          have next : i + gap + 1 - (i + 1) = gap := by omega
          rw [here, next, List.getD_cons_succ]
          constructor
          · rintro ⟨-, lit⟩
            exact .inr ⟨by omega, lit⟩
          · rintro (⟨same, -⟩ | ⟨-, lit⟩)
            · omega
            · exact ⟨by omega, lit⟩
        · simp
        · constructor
          · rintro ⟨before, -⟩
            omega
          · rintro (⟨same, -⟩ | ⟨before, -⟩) <;> omega
      rw [packFrom]
      split_ifs with lit
      · rw [later _ List.length_set, bitAt_set (by omega), Bool.or_assoc]
        congr 1
        rw [Bool.eq_iff_iff, Bool.or_eq_true_iff, decide_eq_true_iff,
          decide_eq_true_iff, decide_eq_true_iff, split]
        simp [lit]
      · rw [later _ rfl]
        congr 1
        rw [decide_eq_decide, split]
        simp [lit]

/-- The pixel of the mask is lit. -/
def Lit (mask : AlphaMask) (r c : Nat) : Prop :=
  r < mask.h ∧ c < mask.w ∧ 128 ≤ mask.alpha.getD (r * mask.w + c) 0

instance (mask : AlphaMask) (r c : Nat) : Decidable (Lit mask r c) :=
  inferInstanceAs (Decidable (_ ∧ _ ∧ _))

/-- The packed bits are the pixels that are lit, row by row. -/
theorem bitAt_pack (mask : AlphaMask) {r c : Nat} (row : r < mask.h)
    (column : c < mask.w) :
    bitAt (pack mask).1 (r * mask.w + c) = decide (Lit mask r c) := by
  have size :
      (0 + mask.alpha.length + 7) / 8 ≤
        (List.replicate ((mask.w * mask.h + 7) / 8) (0 : UInt8)).length := by
    rw [mask.size, List.length_replicate, Nat.zero_add]
  have empty : ∀ j,
      bitAt (List.replicate ((mask.w * mask.h + 7) / 8) 0) j = false := by
    intro j
    rw [bitAt, List.getD_eq_getElem?_getD, List.getElem?_replicate]
    split_ifs <;> simp
  rw [pack, bitAt_packFrom size, empty, Bool.false_or, decide_eq_decide, Lit]
  simp [row, column]

/-! ## The numbers of the header -/

theorem not_mem_toDigits {c : Char} (other : c.isDigit = false)
    (value : Nat) : c ∉ Nat.toDigits 10 value := by
  intro member
  have digit := Nat.isDigit_of_mem_toDigits (by decide) (by decide) member
  rw [other] at digit
  exact Bool.false_ne_true digit

theorem takeWhile_toDigits (value : Nat) {rest : List Char}
    (stops : rest.takeWhile Char.isDigit = []) :
    (Nat.toDigits 10 value ++ rest).takeWhile Char.isDigit =
      Nat.toDigits 10 value := by
  rw [List.takeWhile_append_of_pos fun c member =>
    Nat.isDigit_of_mem_toDigits (by decide) (by decide) member, stops,
    List.append_nil]

theorem matchDefine_of_head {name : String} {text : List Char}
    (other : text.head? ≠ some '#') : matchDefine name text = none := by
  have front :
      defineFront name = '#' :: ("define ".toList ++ name.toList ++ [' ']) :=
    rfl
  rw [matchDefine, front, Text.dropPrefix?_of_head other]

/-- A definition is read within its line. -/
theorem linewise_matchDefine {name : String}
    (single : '\n' ∉ defineFront name) :
    Text.Linewise (matchDefine name) := by
  intro line rest
  rw [matchDefine, matchDefine, Text.dropPrefix?_line single]
  cases line.dropPrefix? (defineFront name) with
  | none => rfl
  | some found =>
      have same :
          (found ++ '\n' :: rest).takeWhile Char.isDigit =
            found.takeWhile Char.isDigit := by
        rw [List.takeWhile_append]
        split_ifs with all
        · rw [List.takeWhile_cons]
          have whole :=
            (List.takeWhile_prefix Char.isDigit).eq_of_length all
          rw [if_neg (by decide), List.append_nil, whole]
        · rfl
      simp only [Option.map_some, same]

theorem matchDefine_eq_none {name : String} {text : List Char}
    (missing : text.dropPrefix? (defineFront name) = none) :
    matchDefine name text = none := by
  rw [matchDefine, missing]

theorem matchDefine_eq_some {name : String} {text rest : List Char}
    (found : text.dropPrefix? (defineFront name) = some rest)
    (digits : rest.takeWhile Char.isDigit ≠ []) :
    matchDefine name text =
      some (Nat.ofDigitChars 10 (rest.takeWhile Char.isDigit) 0) := by
  rw [matchDefine, found]
  exact if_neg digits

theorem matchDefine_defineLine (name : String) (value : Nat)
    {comment : String} (stops : comment.toList.takeWhile Char.isDigit = []) :
    matchDefine name (defineLine name value comment) = some value := by
  have found :
      (defineFront name ++ (Nat.toDigits 10 value ++ comment.toList)).dropPrefix?
        (defineFront name) = some (Nat.toDigits 10 value ++ comment.toList) :=
    List.dropPrefix?_append_of_beq _ (beq_self_eq_true _)
  have digits := takeWhile_toDigits value stops
  rw [defineLine, matchDefine_eq_some found, digits,
    Nat.ofDigitChars_ten_toDigits]
  rw [digits]
  exact Nat.toDigits_ne_nil

/-- A definition is read back from its line. -/
theorem search_defineLine (name : String) (value : Nat) {comment : String}
    (stops : comment.toList.takeWhile Char.isDigit = []) :
    Text.search (matchDefine name) (defineLine name value comment) =
      some value := by
  have found := matchDefine_defineLine name value stops
  have nonempty : defineLine name value comment ≠ [] := by
    rw [defineLine]
    simp
  obtain ⟨c, rest, text⟩ := List.exists_cons_of_ne_nil nonempty
  rw [text] at found ⊢
  rw [Text.search, found]
  rfl

theorem dropPrefix?_of_ne {front literal : List Char}
    (size : front.length = literal.length) (other : front ≠ literal)
    (text : List Char) : (front ++ text).dropPrefix? literal = none := by
  rw [Option.eq_none_iff_forall_not_mem]
  intro rest found
  obtain ⟨start, split, same⟩ := List.dropPrefix?_eq_some_iff.mp found
  rw [beq_iff_eq] at same
  rw [same] at split
  exact other (List.append_inj_left split size)

/-- The names that the recipe looks for. -/
def names : List String :=
  ["LOGO_W", "LOGO_H", "LOGO_X", "LOGO_Y"]

theorem mem_names :
    "LOGO_W" ∈ names ∧ "LOGO_H" ∈ names ∧ "LOGO_X" ∈ names ∧
      "LOGO_Y" ∈ names := by
  simp [names]

/-- The include guard. -/
def guardLines : List (List Char) :=
  ["#ifndef SPLASH_LOGO_H".toList, "#define SPLASH_LOGO_H".toList]

/-- What the names hold, and what they tell apart. -/
theorem names_texts :
    ∀ name ∈ names,
      '\n' ∉ defineFront name ∧
        (defineFront name).head? = some '#' ∧
          '#' ∉ (defineFront name).tail ∧ 'l' ∉ defineFront name ∧
            (∀ line ∈ guardLines,
              Text.search (matchDefine name) line = none) ∧
              ∀ other ∈ names, name ≠ other →
                (defineFront other).length = (defineFront name).length ∧
                  defineFront other ≠ defineFront name := by
  decide +kernel

/-- The comments of the definitions. -/
def defineComments : List String :=
  ["", "\t/* パネル可視域(左上原点)内の X */", "\t/* 同 Y */"]

/-- What the lines before the definitions, the comments and the end hold. -/
theorem lines_texts :
    (∀ line ∈ openingLines,
      ('#' ∉ line ∨ line ∈ guardLines) ∧ ('_' ∉ line ∨ 'l' ∉ line)) ∧
      (∀ comment ∈ defineComments,
        comment.toList.takeWhile Char.isDigit = [] ∧ '#' ∉ comment.toList ∧
          'l' ∉ comment.toList) ∧
        (∀ line ∈ closingLines, 'l' ∉ line) ∧
          '0' ∉ Text.joinLines closingLines := by
  decide +kernel

/-- What `logo_bits` holds, and the texts of the lines around it. -/
theorem logoBits_texts :
    ('\n' ∉ "logo_bits".toList ∧ 'l' ∈ "logo_bits".toList ∧
      '_' ∈ "logo_bits".toList) ∧
      (∀ text ∈ ["/* ", "x", " = ", " bit, 点灯 ", " (", "%), ", " byte */",
          "[] = \x7b"],
        'l' ∉ text.toList) ∧
        Text.after "logo_bits".toList
            "static const unsigned char logo_bits[] = \x7b".toList =
          some "[] = \x7b".toList ∧
          '0' ∉ "[] = \x7b".toList := by
  decide +kernel

/-- A definition of another name is passed over. -/
theorem search_defineLine_other {name other : String}
    (known : name ∈ names) (otherKnown : other ∈ names)
    (differ : name ≠ other) (value : Nat) {comment : String}
    (plain : '#' ∉ comment.toList) :
    Text.search (matchDefine name) (defineLine other value comment) =
      none := by
  obtain ⟨-, head, absent, -⟩ := names_texts other otherKnown
  obtain ⟨-, -, -, -, -, apart⟩ := names_texts name known
  obtain ⟨size, different⟩ := apart other otherKnown differ
  have here :
      matchDefine name (defineLine other value comment) = none := by
    rw [defineLine]
    exact matchDefine_eq_none (dropPrefix?_of_ne size different _)
  have line :
      defineLine other value comment =
        '#' :: ((defineFront other).tail ++
          (Nat.toDigits 10 value ++ comment.toList)) := by
    rw [defineLine, ← List.cons_append, List.cons_head?_tail head]
  rw [line] at here ⊢
  rw [Text.search, here]
  apply Text.search_eq_none fun text head => matchDefine_of_head head
  simp only [List.mem_append, not_or]
  exact ⟨absent, not_mem_toDigits (by decide) value, plain⟩

/-- No line before the definitions holds one of them. -/
theorem search_openingLines (name : String) (known : name ∈ names) :
    ∀ line ∈ openingLines,
      Text.search (matchDefine name) line = none := by
  intro line member
  rcases (lines_texts.1 line member).1 with plain | guarded
  · exact Text.search_eq_none (fun text head => matchDefine_of_head head) plain
  · obtain ⟨-, -, -, -, passed, -⟩ := names_texts name known
    exact passed line guarded

/-- The four definitions, with their comments. -/
def defineLines (header : LogoHeader) : List (List Char) :=
  [defineLine "LOGO_W" header.w "",
    defineLine "LOGO_H" header.h "",
    defineLine "LOGO_X" header.x "\t/* パネル可視域(左上原点)内の X */",
    defineLine "LOGO_Y" header.y "\t/* 同 Y */"]

/-- The lines from the definitions on. -/
def bodyLines (header : LogoHeader) : List (List Char) :=
  [] :: sizeLine header ::
    "static const unsigned char logo_bits[] = \x7b".toList ::
      (byteRows ['\t'] header.bits ++ closingLines)

theorem headerText_eq (header : LogoHeader) :
    headerText header =
      Text.joinLines
        (openingLines ++ (defineLines header ++ bodyLines header)) :=
  rfl

/-- A number is read back if only other definitions stand before it. -/
theorem val_headerText (header : LogoHeader) {name comment : String}
    {value : Nat} (known : name ∈ names)
    (stops : comment.toList.takeWhile Char.isDigit = [])
    {earlier later : List (List Char)}
    (lines :
      defineLines header = earlier ++ defineLine name value comment :: later)
    (others : ∀ line ∈ earlier,
      Text.search (matchDefine name) line = none) :
    val (headerText header) name = some value := by
  have linewise := linewise_matchDefine (names_texts name known).1
  have body : bodyLines header ≠ [] := List.cons_ne_nil _ _
  rw [val, headerText_eq, lines,
    Text.search_skip linewise (by simp) (search_openingLines name known),
    List.append_assoc, Text.search_skip linewise (by simp) others,
    List.cons_append, Text.joinLines_cons (by simp [body]),
    Text.search_line linewise, search_defineLine name value stops,
    Option.some_or]

/-- The four numbers are read back. -/
theorem val_defineLines (header : LogoHeader) :
    val (headerText header) "LOGO_W" = some header.w ∧
      val (headerText header) "LOGO_H" = some header.h ∧
      val (headerText header) "LOGO_X" = some header.x ∧
      val (headerText header) "LOGO_Y" = some header.y := by
  obtain ⟨w, h, x, y⟩ := mem_names
  have comments := lines_texts.2.1
  simp only [defineComments, List.forall_mem_cons] at comments
  obtain ⟨none, commentX, commentY, -⟩ := comments
  refine ⟨?_, ?_, ?_, ?_⟩
  · exact @val_headerText header _ _ header.w w none.1 [] _ rfl nofun
  · refine @val_headerText header _ _ header.h h none.1 [_] _ rfl ?_
    simp only [List.forall_mem_cons]
    exact ⟨search_defineLine_other h w (by decide) _ none.2.1, nofun⟩
  · refine @val_headerText header _ _ header.x x commentX.1 [_, _] _ rfl ?_
    simp only [List.forall_mem_cons]
    exact
      ⟨search_defineLine_other x w (by decide) _ none.2.1,
        search_defineLine_other x h (by decide) _ none.2.1, nofun⟩
  · refine @val_headerText header _ _ header.y y commentY.1 [_, _, _] _ rfl ?_
    simp only [List.forall_mem_cons]
    exact
      ⟨search_defineLine_other y w (by decide) _ none.2.1,
        search_defineLine_other y h (by decide) _ none.2.1,
        search_defineLine_other y x (by decide) _ commentX.2.1, nofun⟩

/-! ## The bytes of the header -/

theorem not_mem_hexByte (byte : UInt8) : 'l' ∉ hexByte byte := by
  have digit : ∀ n < 16, Nat.digitChar n ≠ 'l' := by
    decide
  have small := byte.toNat_lt
  have high := digit (byte.toNat / 16) (by omega)
  have low := digit (byte.toNat % 16) (by omega)
  simp only [hexByte, List.mem_cons, List.not_mem_nil, not_or, or_false]
  exact ⟨by decide, by decide, high.symm, low.symm, by decide⟩

theorem after_of_no_l {text : List Char} (absent : 'l' ∉ text) :
    Text.after "logo_bits".toList text = none :=
  Text.after_of_not_mem logoBits_texts.1.2.1 absent

theorem after_openingLines (line : List Char)
    (member : line ∈ openingLines) :
    Text.after "logo_bits".toList line = none := by
  rcases (lines_texts.1 line member).2 with plain | plain
  · exact Text.after_of_not_mem logoBits_texts.1.2.2 plain
  · exact after_of_no_l plain

theorem not_mem_defineLine {name comment : String} (known : name ∈ names)
    (plain : 'l' ∉ comment.toList) (value : Nat) :
    'l' ∉ defineLine name value comment := by
  obtain ⟨-, -, -, front, -⟩ := names_texts name known
  rw [defineLine]
  refine List.not_mem_append front (List.not_mem_append ?_ plain)
  exact not_mem_toDigits (by decide) value

theorem not_mem_defineLines (header : LogoHeader) :
    ∀ line ∈ defineLines header, 'l' ∉ line := by
  obtain ⟨w, h, x, y⟩ := mem_names
  have comments := lines_texts.2.1
  simp only [defineComments, List.forall_mem_cons] at comments
  obtain ⟨none, commentX, commentY, -⟩ := comments
  simp only [defineLines, List.forall_mem_cons]
  exact
    ⟨not_mem_defineLine w none.2.2 _, not_mem_defineLine h none.2.2 _,
      not_mem_defineLine x commentX.2.2 _,
      not_mem_defineLine y commentY.2.2 _, nofun⟩

theorem not_mem_sizeLine (header : LogoHeader) : 'l' ∉ sizeLine header := by
  have texts := logoBits_texts.2.1
  simp only [List.forall_mem_cons] at texts
  obtain ⟨start, times, equals, bit, paren, percent, byte, -⟩ := texts
  have digits : ∀ value : Nat, 'l' ∉ Nat.toDigits 10 value :=
    not_mem_toDigits (by decide)
  rw [sizeLine, List.mem_flatten]
  rintro ⟨piece, member, inside⟩
  revert piece
  simp only [List.forall_mem_cons]
  exact
    ⟨start, digits _, times, digits _, equals, digits _, bit, digits _, paren,
      digits _, percent, digits _, byte, nofun⟩

theorem not_mem_byteRows {row : List Char} (bytes : List UInt8)
    (plain : 'l' ∉ row) : ∀ line ∈ byteRows row bytes, 'l' ∉ line := by
  induction bytes generalizing row with
  | nil =>
      rw [byteRows]
      split_ifs
      · simpa using plain
      · nofun
  | cons byte rest induction =>
      have added := List.not_mem_append plain (not_mem_hexByte byte)
      rw [byteRows]
      split_ifs
      · rw [List.forall_mem_cons]
        exact ⟨added, induction (by decide)⟩
      · exact induction added

/-- The lines after the first of the initialiser. -/
def byteLines (header : LogoHeader) : List (List Char) :=
  byteRows ['\t'] header.bits ++ closingLines

theorem not_mem_byteLines (header : LogoHeader) :
    'l' ∉ Text.joinLines ("[] = \x7b".toList :: byteLines header) := by
  have texts := logoBits_texts.2.1
  simp only [List.forall_mem_cons] at texts
  obtain ⟨-, -, -, -, -, -, -, start, -⟩ := texts
  have all : ∀ line ∈ "[] = \x7b".toList :: byteLines header,
      ∀ c ∈ line, c ≠ 'l' := by
    rintro line member c inside rfl
    rcases List.mem_cons.mp member with rfl | later
    · exact start inside
    · rcases List.mem_append.mp later with row | closing
      · exact not_mem_byteRows _ (by decide) line row inside
      · exact lines_texts.2.2.1 line closing inside
  intro inside
  exact Text.forall_mem_joinLines (by decide) all 'l' inside rfl

/-- The recipe searches what follows `logo_bits` in its line. -/
theorem afterLogoBits_headerText (header : LogoHeader) :
    afterLogoBits (headerText header) =
      some (Text.joinLines ("[] = \x7b".toList :: byteLines header)) := by
  obtain ⟨⟨single, -⟩, -, static, -⟩ := logoBits_texts
  have more : byteLines header ≠ [] :=
    List.append_ne_nil_of_right_ne_nil _ (List.cons_ne_nil _ _)
  have defined : ∀ line ∈ defineLines header ++ [[], sizeLine header],
      Text.after "logo_bits".toList line = none := by
    intro line member
    apply after_of_no_l
    rcases List.mem_append.mp member with definition | other
    · exact not_mem_defineLines header line definition
    · simp only [List.mem_cons, List.not_mem_nil, or_false] at other
      rcases other with rfl | rfl
      · exact List.not_mem_nil
      · exact not_mem_sizeLine header
  have lines :
      defineLines header ++ bodyLines header =
        (defineLines header ++ [[], sizeLine header]) ++
          ("static const unsigned char logo_bits[] = \x7b".toList ::
            byteLines header) :=
    rfl
  have found :
      Text.after "logo_bits".toList (headerText header) =
        some (Text.joinLines ("[] = \x7b".toList :: byteLines header)) := by
    rw [headerText_eq, lines,
      Text.after_skip single
        (List.append_ne_nil_of_right_ne_nil _ (List.cons_ne_nil _ _))
        after_openingLines,
      Text.after_skip single (List.cons_ne_nil _ _) defined,
      Text.joinLines_cons more, Text.after_line single, static,
      Text.joinLines_cons more]
    rfl
  rw [afterLogoBits, found, Option.map_some,
    Text.before_of_not_mem logoBits_texts.1.2.1 (not_mem_byteLines header)]

/-! ## Hexadecimal bytes -/

theorem hexVal_digitChar {n : Nat} (small : n < 16) :
    hexVal (Nat.digitChar n) = some n := by
  have all : ∀ n < 16, hexVal (Nat.digitChar n) = some n := by
    decide
  exact all n small

/-- A byte is read back, and the search goes on behind it. -/
theorem findHex_hexByte (byte : UInt8) (rest : List Char) :
    findHex 0 (hexByte byte ++ rest) = byte :: findHex 0 rest := by
  have small := byte.toNat_lt
  have value :
      UInt8.ofNat (16 * (byte.toNat / 16) + byte.toNat % 16) = byte := by
    rw [Nat.div_add_mod, UInt8.ofNat_toNat]
  have found : matchHex (hexByte byte ++ rest) = some byte := by
    simp only [hexByte, List.cons_append, List.nil_append, matchHex]
    rw [hexVal_digitChar (by omega), hexVal_digitChar (by omega)]
    exact congrArg some value
  have step :
      findHex 0 (hexByte byte ++ rest) = byte :: findHex 0 (',' :: rest) := by
    show (match matchHex (hexByte byte ++ rest) with
      | some byte => byte :: findHex 0 (',' :: rest)
      | none => _) = _
    rw [found]
  rw [step]
  rfl

theorem matchHex_of_ne {c : Char} (other : c ≠ '0') (rest : List Char) :
    matchHex (c :: rest) = none := by
  rw [matchHex]
  rintro high low text same
  exact absurd (List.cons.inj same).1 other

/-- Text without a zero is passed over. -/
theorem findHex_skip {text : List Char} (plain : '0' ∉ text)
    (rest : List Char) : findHex 0 (text ++ rest) = findHex 0 rest := by
  induction text with
  | nil => rfl
  | cons c text induction =>
      have other : c ≠ '0' := fun same => plain (same ▸ List.mem_cons_self)
      rw [List.cons_append, findHex, matchHex_of_ne other]
      exact induction fun member => plain (List.mem_cons_of_mem _ member)

/-- A row with its bytes. -/
def rowOf (bytes : List UInt8) : List Char :=
  '\t' :: bytes.flatMap hexByte

theorem findHex_rowOf (bytes : List UInt8) (rest : List Char) :
    findHex 0 (rowOf bytes ++ rest) = bytes ++ findHex 0 rest := by
  have hexBytes : ∀ bytes : List UInt8,
      findHex 0 (bytes.flatMap hexByte ++ rest) =
        bytes ++ findHex 0 rest := by
    intro bytes
    induction bytes with
    | nil => rfl
    | cons byte bytes induction =>
        rw [List.flatMap_cons, List.append_assoc, findHex_hexByte, induction]
        rfl
  exact hexBytes bytes

/-- However the bytes are cut into rows, they are found in order. -/
theorem findHex_byteRows (done bytes : List UInt8)
    {lines : List (List Char)} (more : lines ≠ []) :
    findHex 0 (Text.joinLines (byteRows (rowOf done) bytes ++ lines)) =
      done ++ bytes ++ findHex 0 (Text.joinLines lines) := by
  have newline : ∀ row rest, findHex 0 (rowOf row ++ '\n' :: rest) =
      row ++ findHex 0 rest := by
    intro row rest
    rw [findHex_rowOf]
    rfl
  induction bytes generalizing done with
  | nil =>
      rw [byteRows, List.append_nil]
      split_ifs with text
      · rw [List.singleton_append, Text.joinLines_cons more, newline]
      · cases done with
        | nil => rfl
        | cons byte done =>
            refine absurd (List.any_eq_true.mpr ⟨'0', ?_, by decide⟩) text
            simp [rowOf, hexByte]
  | cons byte rest induction =>
      have grown : rowOf done ++ hexByte byte = rowOf (done ++ [byte]) := by
        simp [rowOf]
      have empty : ['\t'] = rowOf [] := rfl
      have some : byteRows (rowOf []) rest ++ lines ≠ [] := by
        simp [more]
      rw [byteRows, grown, empty]
      split_ifs
      · rw [List.cons_append, Text.joinLines_cons some, newline, induction]
        simp
      · rw [induction]
        simp

/-- The recipe finds the bytes of the header, in order and no others. -/
theorem findHex_byteLines (header : LogoHeader) :
    findHex 0 (Text.joinLines ("[] = \x7b".toList :: byteLines header)) =
      header.bits := by
  have more : byteLines header ≠ [] :=
    List.append_ne_nil_of_right_ne_nil _ (List.cons_ne_nil _ _)
  have closing : findHex 0 (Text.joinLines closingLines) = [] := by
    have skipped := findHex_skip lines_texts.2.2.2 []
    rwa [List.append_nil] at skipped
  have last : closingLines ≠ [] := List.cons_ne_nil _ _
  have rows := findHex_byteRows [] header.bits last
  rw [closing, List.nil_append, List.append_nil] at rows
  rw [Text.joinLines_cons more, findHex_skip logoBits_texts.2.2.2]
  exact rows

theorem header_lt (mask : AlphaMask) :
    (header mask).w < 2 ^ 32 ∧ (header mask).h < 2 ^ 32 ∧
      (header mask).x < 2 ^ 32 ∧ (header mask).y < 2 ^ 32 := by
  have w := mask.w_le
  have h := mask.h_le
  refine ⟨?_, ?_, ?_, ?_⟩ <;> simp only [header] <;> omega

/-- `logo.bin` of a mask: the numbers and the bits of its header. -/
theorem logoBin_headerText (mask : AlphaMask) :
    logoBin (headerText (header mask)) =
      some ([0x4c, 0x4f, 0x47, 0x4f] ++ wordBytes (header mask).w ++
        wordBytes (header mask).h ++ wordBytes (header mask).x ++
          wordBytes (header mask).y ++ (header mask).bits) := by
  obtain ⟨w, h, x, y⟩ := val_defineLines (header mask)
  rw [logoBin, w, h, x, y, afterLogoBits_headerText]
  simp only [Option.bind_eq_bind, Option.bind_some]
  rw [if_pos (header_lt mask), findHex_byteLines]
  rfl

end Logo

end KmmYocto
