import Mathlib

/-!
# Searching a text

A text is a list of characters.  A pattern is tried at every position from the
left and the first match counts, as a regular expression search does it.  A
pattern that cannot match a line break is decided within one line, so a search
through lines goes line by line.

Behind a greedy `.*` the last match counts, and a greedy group is as long as
what follows it allows.
-/

namespace KmmYocto.Text

universe u

variable {α : Type u}

/-- The lines of a text, with a line break between them. -/
def joinLines : List (List Char) → List Char
  | [] => []
  | [line] => line
  | line :: next :: rest => line ++ '\n' :: joinLines (next :: rest)

theorem joinLines_cons {line : List Char} {rest : List (List Char)}
    (more : rest ≠ []) :
    joinLines (line :: rest) = line ++ '\n' :: joinLines rest := by
  cases rest with
  | nil => exact absurd rfl more
  | cons next rest => rfl

theorem forall_mem_joinLines {allowed : Char → Prop} (newline : allowed '\n')
    {lines : List (List Char)}
    (all : ∀ line ∈ lines, ∀ c ∈ line, allowed c) :
    ∀ c ∈ joinLines lines, allowed c := by
  induction lines with
  | nil => nofun
  | cons line rest induction =>
      have tail := induction fun other member =>
        all other (List.mem_cons_of_mem _ member)
      have head := all line List.mem_cons_self
      cases rest with
      | nil => exact head
      | cons next rest =>
          intro c member
          rcases List.mem_append.mp member with early | late
          · exact head c early
          · rcases List.mem_cons.mp late with rfl | later
            · exact newline
            · exact tail c later

/-- The first match of a pattern. -/
def search (pattern : List Char → Option α) : List Char → Option α
  | [] => pattern []
  | c :: rest => (pattern (c :: rest)).or (search pattern rest)

/-- A pattern whose matches start with a character that is not there. -/
theorem search_eq_none {pattern : List Char → Option α} {first : Char}
    (starts : ∀ text, text.head? ≠ some first → pattern text = none)
    {text : List Char} (absent : first ∉ text) :
    search pattern text = none := by
  induction text with
  | nil => exact starts [] nofun
  | cons c rest induction =>
      have here : pattern (c :: rest) = none := by
        apply starts
        rintro head
        exact absent (Option.some.inj head ▸ List.mem_cons_self)
      have later :=
        induction fun member => absent (List.mem_cons_of_mem _ member)
      rw [search, here, later]
      rfl

/-- A pattern that a line decides. -/
def Linewise (pattern : List Char → Option α) : Prop :=
  ∀ line rest, pattern (line ++ '\n' :: rest) = pattern line

/-- A search goes on with the next line. -/
theorem search_line {pattern : List Char → Option α}
    (linewise : Linewise pattern) (line rest : List Char) :
    search pattern (line ++ '\n' :: rest) =
      (search pattern line).or (search pattern rest) := by
  induction line with
  | nil =>
      show (pattern ('\n' :: rest)).or _ = _
      rw [show pattern ('\n' :: rest) = pattern [] from linewise [] rest]
      rfl
  | cons c line induction =>
      show (pattern (c :: line ++ '\n' :: rest)).or
        (search pattern (line ++ '\n' :: rest)) = _
      rw [linewise, induction, search, Option.or_assoc]

/-- Lines without a match are passed over. -/
theorem search_skip {pattern : List Char → Option α}
    (linewise : Linewise pattern) {lines rest : List (List Char)}
    (more : rest ≠ [])
    (none : ∀ line ∈ lines, search pattern line = .none) :
    search pattern (joinLines (lines ++ rest)) =
      search pattern (joinLines rest) := by
  induction lines with
  | nil => rfl
  | cons line lines induction =>
      have tail := induction fun other member =>
        none other (List.mem_cons_of_mem _ member)
      rw [List.cons_append, joinLines_cons (by simp [more]),
        search_line linewise, none line List.mem_cons_self, Option.none_or]
      exact tail

section Literal

variable {literal : List Char}

/-- The text before the first occurrence, or all of it. -/
def before (literal : List Char) : List Char → List Char
  | [] => []
  | c :: rest =>
      if (List.dropPrefix? (c :: rest) literal).isSome then []
      else c :: before literal rest

/-- What follows the first occurrence. -/
def after (literal : List Char) (text : List Char) : Option (List Char) :=
  search (fun text => text.dropPrefix? literal) text

theorem dropPrefix?_eq_some {text rest : List Char} :
    text.dropPrefix? literal = some rest ↔ text = literal ++ rest := by
  rw [List.dropPrefix?_eq_some_iff]
  constructor
  · rintro ⟨start, split, same⟩
    rw [split, beq_iff_eq.mp same]
  · rintro rfl
    exact ⟨literal, rfl, beq_self_eq_true literal⟩

/-- What follows the first occurrence ends with what follows any other. -/
theorem exists_after (literal front back : List Char) :
    ∃ rest, after literal (front ++ (literal ++ back)) = some rest ∧
      back <:+ rest := by
  induction front with
  | nil =>
      have here : (literal ++ back).dropPrefix? literal = some back :=
        dropPrefix?_eq_some.mpr rfl
      refine ⟨back, ?_, List.suffix_rfl⟩
      rw [List.nil_append, after]
      cases split : literal ++ back with
      | nil => rw [search, ← split, here]
      | cons c rest => rw [search, ← split, here, Option.some_or]
  | cons c front induction =>
      obtain ⟨rest, found, ends⟩ := induction
      rw [List.cons_append, after, search]
      cases here :
          (c :: (front ++ (literal ++ back))).dropPrefix? literal with
      | none => exact ⟨rest, found, ends⟩
      | some first =>
          refine ⟨first, rfl, ?_⟩
          have split := dropPrefix?_eq_some.mp here
          have long : back.length ≤ first.length := by
            have sizes := congrArg List.length split
            simp only [List.length_cons, List.length_append] at sizes
            omega
          refine
            List.suffix_of_suffix_length_le ?_
              (List.suffix_append literal first) long
          rw [← split]
          exact ⟨c :: (front ++ literal), by simp⟩

theorem exists_split_of_after {text rest : List Char}
    (found : after literal text = some rest) :
    ∃ front, text = front ++ (literal ++ rest) := by
  induction text with
  | nil =>
      have split : [] = literal ++ rest := dropPrefix?_eq_some.mp found
      exact ⟨[], split⟩
  | cons c text induction =>
      rw [after, search, Option.or_eq_some_iff] at found
      rcases found with here | ⟨-, later⟩
      · have split : c :: text = literal ++ rest :=
          dropPrefix?_eq_some.mp here
        exact ⟨[], split⟩
      · obtain ⟨front, split⟩ := induction later
        exact ⟨c :: front, congrArg (c :: ·) split⟩

theorem isSome_after {text : List Char} :
    (after literal text).isSome = true ↔
      ∃ front back, text = front ++ (literal ++ back) := by
  rw [Option.isSome_iff_exists]
  constructor
  · rintro ⟨back, found⟩
    obtain ⟨front, split⟩ := exists_split_of_after found
    exact ⟨front, back, split⟩
  · rintro ⟨front, back, rfl⟩
    obtain ⟨rest, found, -⟩ := exists_after literal front back
    exact ⟨rest, found⟩

theorem dropPrefix?_of_head {first : Char} {text : List Char}
    (other : text.head? ≠ some first) :
    text.dropPrefix? (first :: literal) = none := by
  cases text with
  | nil => rfl
  | cons c rest =>
      have differs : ¬ (c == first) = true := by
        intro same
        exact other (congrArg some (beq_iff_eq.mp same))
      rw [List.dropPrefix?, if_neg differs]

theorem dropPrefix?_of_not_mem {c : Char} {text : List Char}
    (part : c ∈ literal) (absent : c ∉ text) :
    text.dropPrefix? literal = none := by
  rw [Option.eq_none_iff_forall_not_mem]
  intro rest found
  obtain ⟨start, split, same⟩ := List.dropPrefix?_eq_some_iff.mp found
  rw [beq_iff_eq] at same
  rw [split, same] at absent
  exact absent (List.mem_append_left rest part)

/-- A text that lacks a character of the literal. -/
theorem after_of_not_mem {c : Char} {text : List Char}
    (part : c ∈ literal) (absent : c ∉ text) : after literal text = none := by
  induction text with
  | nil => exact dropPrefix?_of_not_mem part absent
  | cons d rest induction =>
      have here := dropPrefix?_of_not_mem part absent
      have later :=
        induction fun member => absent (List.mem_cons_of_mem _ member)
      show ((d :: rest).dropPrefix? literal).or (after literal rest) = none
      rw [here, later]
      rfl

theorem before_of_not_mem {c : Char} {text : List Char}
    (part : c ∈ literal) (absent : c ∉ text) : before literal text = text := by
  induction text with
  | nil => rfl
  | cons d rest induction =>
      have here := dropPrefix?_of_not_mem part absent
      rw [before, here,
        induction fun member => absent (List.mem_cons_of_mem _ member)]
      rfl

/-- A literal without a line break is found within a line. -/
theorem dropPrefix?_line (single : '\n' ∉ literal) (line rest : List Char) :
    (line ++ '\n' :: rest).dropPrefix? literal =
      (line.dropPrefix? literal).map (· ++ '\n' :: rest) := by
  induction literal generalizing line with
  | nil => simp
  | cons c literal induction =>
      have here : '\n' ≠ c := fun same => single (same ▸ List.mem_cons_self)
      have later : '\n' ∉ literal :=
        fun member => single (List.mem_cons_of_mem _ member)
      cases line with
      | nil =>
          show ('\n' :: rest).dropPrefix? (c :: literal) = none
          exact dropPrefix?_of_head fun head => here (Option.some.inj head)
      | cons d line =>
          simp only [List.cons_append, List.dropPrefix?]
          split_ifs
          · exact induction later line
          · rfl

/-- The first occurrence is in the line, or after it. -/
theorem after_line (single : '\n' ∉ literal) (line rest : List Char) :
    after literal (line ++ '\n' :: rest) =
      ((after literal line).map (· ++ '\n' :: rest)).or
        (after literal rest) := by
  induction line with
  | nil =>
      have here := dropPrefix?_line single [] rest
      rw [List.nil_append] at here
      show (('\n' :: rest).dropPrefix? literal).or _ = _
      rw [here]
      rfl
  | cons c line induction =>
      show ((c :: line ++ '\n' :: rest).dropPrefix? literal).or
        (after literal (line ++ '\n' :: rest)) = _
      rw [dropPrefix?_line single, induction, ← Option.or_assoc]
      congr 1
      show _ = (((c :: line).dropPrefix? literal).or (after literal line)).map _
      cases (c :: line).dropPrefix? literal <;> rfl

/-- Lines without an occurrence are passed over. -/
theorem after_skip (single : '\n' ∉ literal)
    {lines rest : List (List Char)} (more : rest ≠ [])
    (none : ∀ line ∈ lines, after literal line = .none) :
    after literal (joinLines (lines ++ rest)) =
      after literal (joinLines rest) := by
  induction lines with
  | nil => rfl
  | cons line lines induction =>
      have tail := induction fun other member =>
        none other (List.mem_cons_of_mem _ member)
      rw [List.cons_append, joinLines_cons (by simp [more]),
        after_line single, none line List.mem_cons_self, tail]
      rfl

end Literal

/-! ## Greedy patterns -/

/-- The match at the last position that has one: `.*pattern`. -/
def searchLast (pattern : List Char → Option α) : List Char → Option α
  | [] => pattern []
  | c :: rest => (searchLast pattern rest).or (pattern (c :: rest))

/-- `[allowed]*` as long as `tail` can follow. -/
def longest (allowed : Char → Bool) (tail : List Char → Bool) :
    List Char → Option (List Char)
  | [] => if tail [] then some [] else none
  | c :: rest =>
      ((if allowed c then longest allowed tail rest else none).map
        (c :: ·)).or
        (if tail (c :: rest) then some [] else none)

section Greedy

variable {pattern : List Char → Option α} {text : List Char}

/-- Behind `front` the pattern matches with this value. -/
def MatchesAfter (pattern : List Char → Option α) (text front : List Char)
    (value : α) : Prop :=
  ∃ back, text = front ++ back ∧ pattern back = some value

theorem matchesAfter_nil {value : α} :
    MatchesAfter pattern text [] value ↔ pattern text = some value := by
  constructor
  · rintro ⟨back, rfl, found⟩
    exact found
  · intro found
    exact ⟨text, rfl, found⟩

theorem matchesAfter_cons {c d : Char} {front : List Char} {value : α} :
    MatchesAfter pattern (c :: text) (d :: front) value ↔
      c = d ∧ MatchesAfter pattern text front value := by
  constructor
  · rintro ⟨back, split, found⟩
    rw [List.cons_append, List.cons.injEq] at split
    exact ⟨split.1, back, split.2, found⟩
  · rintro ⟨rfl, back, rfl, found⟩
    exact ⟨back, rfl, found⟩

theorem isSome_search :
    (search pattern text).isSome = true ↔
      ∃ front value, MatchesAfter pattern text front value := by
  induction text with
  | nil =>
      rw [search, Option.isSome_iff_exists]
      constructor
      · rintro ⟨value, found⟩
        exact ⟨[], value, matchesAfter_nil.mpr found⟩
      · rintro ⟨front, value, back, split, found⟩
        rw [(List.append_eq_nil_iff.mp split.symm).2] at found
        exact ⟨value, found⟩
  | cons c rest induction =>
      rw [search, Option.isSome_or, Bool.or_eq_true, induction]
      constructor
      · rintro (here | ⟨front, value, later⟩)
        · obtain ⟨value, found⟩ := Option.isSome_iff_exists.mp here
          exact ⟨[], value, matchesAfter_nil.mpr found⟩
        · exact ⟨c :: front, value, matchesAfter_cons.mpr ⟨rfl, later⟩⟩
      · rintro ⟨front, value, matched⟩
        cases front with
        | nil =>
            rw [matchesAfter_nil.mp matched]
            exact .inl rfl
        | cons d inner =>
            exact .inr ⟨inner, value, (matchesAfter_cons.mp matched).2⟩

/-- Of two matches behind fronts of one length there is one. -/
theorem MatchesAfter.unique {front other : List Char} {value found : α}
    (first : MatchesAfter pattern text front value)
    (second : MatchesAfter pattern text other found)
    (same : front.length = other.length) : value = found := by
  obtain ⟨back, split, now⟩ := first
  obtain ⟨rest, again, later⟩ := second
  obtain ⟨-, rfl⟩ := List.append_inj (split.symm.trans again) same
  exact Option.some.inj (now.symm.trans later)

theorem searchLast_ne_none {front : List Char} {value : α}
    (matched : MatchesAfter pattern text front value) :
    searchLast pattern text ≠ none := by
  induction text generalizing front with
  | nil =>
      obtain ⟨back, split, found⟩ := matched
      rw [(List.append_eq_nil_iff.mp split.symm).2] at found
      rw [searchLast, found]
      exact Option.some_ne_none value
  | cons c rest induction =>
      intro none
      rw [searchLast, Option.or_eq_none_iff] at none
      cases front with
      | nil =>
          rw [matchesAfter_nil, none.2] at matched
          cases matched
      | cons d inner => exact induction (matchesAfter_cons.mp matched).2 none.1

/-- What is found lies as far behind as any match. -/
theorem exists_of_searchLast {value : α}
    (last : searchLast pattern text = some value) :
    ∃ front, MatchesAfter pattern text front value ∧
      ∀ other found, MatchesAfter pattern text other found →
        other.length ≤ front.length := by
  induction text generalizing value with
  | nil =>
      refine ⟨[], matchesAfter_nil.mpr last, ?_⟩
      rintro other found ⟨back, split, -⟩
      rw [(List.append_eq_nil_iff.mp split.symm).1]
  | cons c rest induction =>
      rw [searchLast, Option.or_eq_some_iff] at last
      rcases last with later | ⟨nowhere, here⟩
      · obtain ⟨front, matched, furthest⟩ := induction later
        refine ⟨c :: front, matchesAfter_cons.mpr ⟨rfl, matched⟩, ?_⟩
        intro other found again
        cases other with
        | nil => exact Nat.zero_le _
        | cons d inner =>
            exact Nat.succ_le_succ
              (furthest inner found (matchesAfter_cons.mp again).2)
      · refine ⟨[], matchesAfter_nil.mpr here, ?_⟩
        intro other found again
        cases other with
        | nil => exact le_rfl
        | cons d inner =>
            exact absurd nowhere
              (searchLast_ne_none (matchesAfter_cons.mp again).2)

/-- The last match is the one that no other lies behind. -/
theorem searchLast_eq_some_iff {value : α} :
    searchLast pattern text = some value ↔
      ∃ front, MatchesAfter pattern text front value ∧
        ∀ other found, MatchesAfter pattern text other found →
          other.length ≤ front.length := by
  constructor
  · exact exists_of_searchLast
  · rintro ⟨front, matched, furthest⟩
    obtain ⟨last, isLast⟩ :=
      Option.ne_none_iff_exists'.mp (searchLast_ne_none matched)
    obtain ⟨other, again, further⟩ := exists_of_searchLast isLast
    have same : other.length = front.length :=
      Nat.le_antisymm (furthest other last again)
        (further front value matched)
    rw [isLast, again.unique matched same]

/-- A group of allowed characters, with the tail behind it. -/
structure Group (allowed : Char → Bool) (tail : List Char → Bool)
    (text group : List Char) : Prop where
  allowed : ∀ c ∈ group, allowed c = true
  tail : ∃ rest, text = group ++ rest ∧ tail rest = true

section Group

variable
    {allowed : Char → Bool} {tail : List Char → Bool} {group : List Char}

theorem group_nil : Group allowed tail text [] ↔ tail text = true := by
  constructor
  · rintro ⟨-, rest, rfl, follows⟩
    exact follows
  · intro follows
    exact ⟨List.forall_mem_nil _, text, rfl, follows⟩

theorem group_cons {c d : Char} :
    Group allowed tail (c :: text) (d :: group) ↔
      c = d ∧ allowed c = true ∧ Group allowed tail text group := by
  constructor
  · rintro ⟨all, rest, split, follows⟩
    rw [List.cons_append, List.cons.injEq] at split
    obtain ⟨rfl, split⟩ := split
    rw [List.forall_mem_cons] at all
    exact ⟨rfl, all.1, all.2, rest, split, follows⟩
  · rintro ⟨rfl, first, all, rest, rfl, follows⟩
    exact ⟨List.forall_mem_cons.mpr ⟨first, all⟩, rest, rfl, follows⟩

theorem longest_ne_none (found : Group allowed tail text group) :
    longest allowed tail text ≠ none := by
  induction text generalizing group with
  | nil =>
      obtain ⟨-, rest, split, follows⟩ := found
      rw [(List.append_eq_nil_iff.mp split.symm).2] at follows
      rw [longest, if_pos follows]
      exact Option.some_ne_none _
  | cons c rest induction =>
      intro none
      rw [longest, Option.or_eq_none_iff, Option.map_eq_none_iff] at none
      cases group with
      | nil =>
          rw [if_pos (group_nil.mp found)] at none
          exact Option.some_ne_none _ none.2
      | cons d inner =>
          obtain ⟨-, first, later⟩ := group_cons.mp found
          rw [if_pos first] at none
          exact induction later none.1

theorem group_of_longest (found : longest allowed tail text = some group) :
    Group allowed tail text group ∧
      ∀ other, Group allowed tail text other →
        other.length ≤ group.length := by
  induction text generalizing group with
  | nil =>
      rw [longest, Option.ite_none_right_eq_some] at found
      obtain ⟨follows, same⟩ := found
      obtain rfl := Option.some.inj same
      refine ⟨group_nil.mpr follows, ?_⟩
      rintro other ⟨-, rest, split, -⟩
      rw [(List.append_eq_nil_iff.mp split.symm).1]
  | cons c rest induction =>
      rw [longest, Option.or_eq_some_iff] at found
      rcases found with longer | ⟨shortest, here⟩
      · obtain ⟨inner, later, rfl⟩ := Option.map_eq_some_iff.mp longer
        rw [Option.ite_none_right_eq_some] at later
        obtain ⟨is, most⟩ := induction later.2
        refine ⟨group_cons.mpr ⟨rfl, later.1, is⟩, ?_⟩
        intro other again
        cases other with
        | nil => exact Nat.zero_le _
        | cons d short =>
            exact Nat.succ_le_succ (most short (group_cons.mp again).2.2)
      · rw [Option.ite_none_right_eq_some] at here
        obtain ⟨follows, same⟩ := here
        obtain rfl := Option.some.inj same
        refine ⟨group_nil.mpr follows, ?_⟩
        intro other again
        cases other with
        | nil => exact le_rfl
        | cons d short =>
            obtain ⟨-, first, later⟩ := group_cons.mp again
            rw [if_pos first, Option.map_eq_none_iff] at shortest
            exact absurd shortest (longest_ne_none later)

/-- The longest group is the one that no other exceeds. -/
theorem longest_eq_some_iff :
    longest allowed tail text = some group ↔
      Group allowed tail text group ∧
        ∀ other, Group allowed tail text other →
          other.length ≤ group.length := by
  constructor
  · exact group_of_longest
  · rintro ⟨is, most⟩
    obtain ⟨other, found⟩ :=
      Option.ne_none_iff_exists'.mp (longest_ne_none is)
    obtain ⟨again, more⟩ := group_of_longest found
    have same : other.length = group.length :=
      Nat.le_antisymm (most other again) (more group is)
    obtain ⟨-, rest, split, -⟩ := is
    obtain ⟨-, back, parts, -⟩ := again
    rw [found, (List.append_inj (parts.symm.trans split) same).1]

end Group

end Greedy

end KmmYocto.Text
