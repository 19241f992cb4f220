import KmmYocto.BootFiles
import KmmYocto.TextSearch

/-!
# Which slot is running

The kernel runs from the partition that its parameter `root=` names.  `ab`
takes the device from `/proc/cmdline` with sed and the slot with a shell
pattern; `boot-mount` takes the device with another sed and the slot with
grep.  All four search the whole line.

`/proc/cmdline` is one line; what `boot-mount` gives to mount is taken as it
stands between the blanks.
-/

namespace KmmYocto

open BootFiles (isDevChar)

/-- The parameters of the kernel, with a space between them. -/
structure CommandLine where
  params : List (List Char)
  single : ∀ param ∈ params, ' ' ∉ param ∧ '\n' ∉ param

namespace CommandLine

/-- `/proc/cmdline` without its line break. -/
def text (cmdline : CommandLine) : List Char :=
  List.intercalate [' '] cmdline.params

/-- `p` and one of the digits. -/
def startsPart (digits : List Char) : List Char → Bool
  | 'p' :: digit :: _ => digit ∈ digits
  | _ => false

/-- `root=\(\/dev\/[a-z0-9]*\)p[56]` at the start of a text. -/
def matchBaseDev (text : List Char) : Option (List Char) :=
  (text.dropPrefix? "root=/dev/".toList).bind fun rest =>
    (Text.longest isDevChar (startsPart ['5', '6']) rest).map
      ("/dev/".toList ++ ·)

/-- `BASE_DEV`; without it `ab` dies. -/
def baseDev (cmdline : CommandLine) : Option (List Char) :=
  Text.searchLast matchBaseDev cmdline.text

/-- `RUNNING`: the line matches `*root=*p6*` or not. -/
def running (cmdline : CommandLine) : Slot :=
  match Text.after "root=".toList cmdline.text with
  | some rest => if (Text.after "p6".toList rest).isSome then .b else .a
  | none => .a

/-- `[^ ]`. -/
def notSpace (c : Char) : Bool :=
  c ≠ ' '

/-- `root=\([^ ]*\)p` and one of the digits at the start of a text. -/
def matchRoot (digits : List Char) (text : List Char) : Option (List Char) :=
  (text.dropPrefix? "root=".toList).bind
    (Text.longest notSpace (startsPart digits))

/-- `${R}p$P` of `boot-mount`; sed leaves a line without a match as it is. -/
def bootMountDev (cmdline : CommandLine) : List Char :=
  let r :=
    (Text.searchLast (matchRoot ['5', '6']) cmdline.text).getD cmdline.text
  let p :=
    if (Text.search (matchRoot ['6']) cmdline.text).isSome then Slot.b
    else Slot.a
  r ++ 'p' :: Nat.toDigits 10 p.bootpart

/-! ## What the parameter says -/

/-- A device under `/dev` whose name has lower-case letters and digits. -/
structure DeviceName where
  chars : List Char
  plain : ∀ c ∈ chars, isDevChar c = true

/-- `/dev/<name>`. -/
def DeviceName.dev (name : DeviceName) : List Char :=
  "/dev/".toList ++ name.chars

/-- `root=/dev/<name>p5` or `root=/dev/<name>p6`. -/
def rootParam (name : DeviceName) (slot : Slot) : List Char :=
  "root=".toList ++ name.dev ++ 'p' :: Nat.toDigits 10 slot.rootpart

theorem DeviceName.dev_eq (name : DeviceName) :
    name.dev = "/dev/".toList ++ name.chars :=
  rfl

theorem rootParam_eq (name : DeviceName) (slot : Slot) :
    rootParam name slot =
      "root=".toList ++ name.dev ++ 'p' :: Nat.toDigits 10 slot.rootpart :=
  rfl

/-- Device, slot and `/boot` are those of the parameter. -/
structure ReadsRoot (cmdline : CommandLine) (name : DeviceName) (slot : Slot) :
    Prop where
  baseDev : cmdline.baseDev = some name.dev
  running : cmdline.running = slot
  boot :
    cmdline.bootMountDev = name.dev ++ 'p' :: Nat.toDigits 10 slot.bootpart

/-- `root=`, a device without a space, and p5 or p6, behind a front. -/
def RootAfter (text front device : List Char) : Prop :=
  ' ' ∉ device ∧
    ∃ digit ∈ ['5', '6'], ∃ back,
      text = front ++ ("root=".toList ++ (device ++ 'p' :: digit :: back))

/-- The last such `root=` has this device, and none longer. -/
def LastRoot (text device : List Char) : Prop :=
  ∃ front, RootAfter text front device ∧
    ∀ other found, RootAfter text other found →
      other.length < front.length ∨
        other.length = front.length ∧ found.length ≤ device.length

/-- A p6 stands somewhere behind a `root=`. -/
def P6AfterRoot (text : List Char) : Prop :=
  ∃ front middle back,
    text = front ++ ("root=".toList ++ (middle ++ ("p6".toList ++ back)))

/-! ## The four searches -/

section

variable
    {digits text rest group device : List Char} {cmdline : CommandLine}
    {name : DeviceName} {slot : Slot}

theorem startsPart_eq_true :
    startsPart digits text = true ↔
      ∃ digit ∈ digits, ∃ back, text = 'p' :: digit :: back := by
  constructor
  · intro starts
    unfold startsPart at starts
    split at starts
    · next digit back => exact ⟨digit, of_decide_eq_true starts, back, rfl⟩
    · cases starts
  · rintro ⟨digit, member, back, rfl⟩
    exact decide_eq_true member

theorem group_iff {allowed : Char → Bool} :
    Text.Group allowed (startsPart digits) text group ↔
      (∀ c ∈ group, allowed c = true) ∧
        ∃ digit ∈ digits, ∃ back, text = group ++ 'p' :: digit :: back := by
  constructor
  · rintro ⟨all, rest, rfl, starts⟩
    obtain ⟨digit, member, back, rfl⟩ := startsPart_eq_true.mp starts
    exact ⟨all, digit, member, back, rfl⟩
  · rintro ⟨all, digit, member, back, rfl⟩
    exact
      ⟨all, _, rfl, startsPart_eq_true.mpr ⟨digit, member, back, rfl⟩⟩

theorem forall_notSpace : (∀ c ∈ group, notSpace c = true) ↔ ' ' ∉ group := by
  constructor
  · intro all space
    exact absurd (all ' ' space) (by decide)
  · intro none c member
    refine decide_eq_true ?_
    rintro rfl
    exact none member

theorem matchRoot_eq_some :
    matchRoot digits text = some device ↔
      ∃ rest, text = "root=".toList ++ rest ∧
        Text.longest notSpace (startsPart digits) rest = some device := by
  rw [matchRoot, Option.bind_eq_some_iff]
  constructor
  · rintro ⟨rest, found, longest⟩
    exact ⟨rest, Text.dropPrefix?_eq_some.mp found, longest⟩
  · rintro ⟨rest, split, longest⟩
    exact ⟨rest, Text.dropPrefix?_eq_some.mpr split, longest⟩

theorem rootAfter_iff {front : List Char} :
    RootAfter text front device ↔
      ∃ rest, text = front ++ ("root=".toList ++ rest) ∧
        Text.Group notSpace (startsPart ['5', '6']) rest device := by
  constructor
  · rintro ⟨noSpace, digit, member, back, rfl⟩
    exact
      ⟨_, rfl,
        group_iff.mpr
          ⟨forall_notSpace.mpr noSpace, digit, member, back, rfl⟩⟩
  · rintro ⟨rest, rfl, group⟩
    obtain ⟨all, digit, member, back, rfl⟩ := group_iff.mp group
    exact ⟨forall_notSpace.mp all, digit, member, back, rfl⟩

/-- What stands behind a front and `root=` is determined. -/
theorem rest_unique {front other back : List Char}
    (first : text = front ++ ("root=".toList ++ rest))
    (second : text = other ++ ("root=".toList ++ back))
    (same : other.length = front.length) : rest = back := by
  obtain ⟨-, again⟩ := List.append_inj (first.symm.trans second) same.symm
  exact List.append_cancel_left again

theorem rootAfter_of_matchesAfter {front : List Char}
    (matched : Text.MatchesAfter (matchRoot ['5', '6']) text front device) :
    RootAfter text front device := by
  obtain ⟨back, rfl, found⟩ := matched
  obtain ⟨rest, rfl, longest⟩ := matchRoot_eq_some.mp found
  exact rootAfter_iff.mpr ⟨rest, rfl, (Text.group_of_longest longest).1⟩

theorem exists_matchesAfter {front : List Char}
    (named : RootAfter text front device) :
    ∃ longest, Text.MatchesAfter (matchRoot ['5', '6']) text front longest := by
  obtain ⟨rest, rfl, group⟩ := rootAfter_iff.mp named
  obtain ⟨longest, found⟩ :=
    Option.ne_none_iff_exists'.mp (Text.longest_ne_none group)
  exact ⟨longest, _, rfl, matchRoot_eq_some.mpr ⟨rest, rfl, found⟩⟩

/-- The greedy sed takes the last device. -/
theorem searchLast_matchRoot :
    Text.searchLast (matchRoot ['5', '6']) text = some device ↔
      LastRoot text device := by
  rw [Text.searchLast_eq_some_iff]
  constructor
  · rintro ⟨front, matched, furthest⟩
    refine ⟨front, rootAfter_of_matchesAfter matched, ?_⟩
    intro other found named
    obtain ⟨longest, again⟩ := exists_matchesAfter named
    rcases (furthest other longest again).lt_or_eq with before | same
    · exact .inl before
    · obtain ⟨all, split, here⟩ := matched
      obtain ⟨rest, rfl, isLongest⟩ := matchRoot_eq_some.mp here
      obtain ⟨back, parts, group⟩ := rootAfter_iff.mp named
      obtain rfl := rest_unique split parts same
      exact .inr ⟨same, (Text.group_of_longest isLongest).2 found group⟩
  · rintro ⟨front, named, last⟩
    obtain ⟨rest, split, group⟩ := rootAfter_iff.mp named
    refine ⟨front, ⟨_, split, ?_⟩, ?_⟩
    · refine
        matchRoot_eq_some.mpr
          ⟨rest, rfl, Text.longest_eq_some_iff.mpr ⟨group, ?_⟩⟩
      intro longer again
      rcases last front longer (rootAfter_iff.mpr ⟨rest, split, again⟩) with
        before | ⟨-, within⟩
      · exact absurd before (lt_irrefl _)
      · exact within
    · intro other found matched
      rcases last other found (rootAfter_of_matchesAfter matched) with
        before | ⟨same, -⟩
      · exact before.le
      · exact same.le

theorem matchBaseDev_eq_some :
    matchBaseDev text = some device ↔
      ∃ name rest, text = "root=/dev/".toList ++ rest ∧
        Text.longest isDevChar (startsPart ['5', '6']) rest = some name ∧
          device = "/dev/".toList ++ name := by
  rw [matchBaseDev, Option.bind_eq_some_iff]
  constructor
  · rintro ⟨rest, found, mapped⟩
    obtain ⟨name, longest, rfl⟩ := Option.map_eq_some_iff.mp mapped
    exact ⟨name, rest, Text.dropPrefix?_eq_some.mp found, longest, rfl⟩
  · rintro ⟨name, rest, split, longest, rfl⟩
    exact
      ⟨rest, Text.dropPrefix?_eq_some.mpr split,
        Option.map_eq_some_iff.mpr ⟨name, longest, rfl⟩⟩

theorem not_space_dev {chars : List Char}
    (plain : ∀ c ∈ chars, isDevChar c = true) :
    ' ' ∉ "/dev/".toList ++ chars := by
  refine List.not_mem_append (by decide) ?_
  intro space
  exact absurd (plain ' ' space) (by decide)

/-- A device that the narrow sed finds is one that the other finds as well. -/
theorem rootAfter_of_group {front : List Char} {chars : List Char}
    (split : text = front ++ ("root=/dev/".toList ++ rest))
    (group : Text.Group isDevChar (startsPart ['5', '6']) rest chars) :
    RootAfter text front ("/dev/".toList ++ chars) := by
  obtain ⟨all, digit, member, back, rfl⟩ := group_iff.mp group
  exact ⟨not_space_dev all, digit, member, back, split⟩

/-- Both sed commands take the device that is the last one. -/
theorem baseDev_of_lastRoot (last : LastRoot cmdline.text name.dev) :
    cmdline.baseDev = some name.dev := by
  obtain ⟨front, ⟨-, digit, member, back, split⟩, furthest⟩ := last
  refine Text.searchLast_eq_some_iff.mpr ⟨front, ⟨_, split, ?_⟩, ?_⟩
  · refine
      matchBaseDev_eq_some.mpr
        ⟨name.chars, name.chars ++ 'p' :: digit :: back, rfl,
          Text.longest_eq_some_iff.mpr
            ⟨group_iff.mpr ⟨name.plain, digit, member, back, rfl⟩, ?_⟩, rfl⟩
    intro longer again
    rcases furthest front _ (rootAfter_of_group split again) with
      before | ⟨-, within⟩
    · exact absurd before (lt_irrefl _)
    · simpa [DeviceName.dev_eq] using within
  · rintro other found ⟨rest, parts, here⟩
    obtain ⟨chars, tail, rfl, longest, rfl⟩ := matchBaseDev_eq_some.mp here
    rcases furthest other _
        (rootAfter_of_group parts (Text.group_of_longest longest).1) with
      before | ⟨same, -⟩
    · exact before.le
    · exact same.le

theorem running_eq_b_iff : cmdline.running = .b ↔ P6AfterRoot cmdline.text := by
  rw [running]
  cases found : Text.after "root=".toList cmdline.text with
  | none =>
      refine iff_of_false (by simp) ?_
      rintro ⟨front, middle, back, split⟩
      have some := Text.isSome_after.mpr ⟨front, _, split⟩
      rw [found] at some
      cases some
  | some rest =>
      have first :
          (if (Text.after "p6".toList rest).isSome = true then Slot.b
            else .a) = .b ↔ (Text.after "p6".toList rest).isSome = true := by
        split_ifs with p6
        · exact iff_of_true rfl p6
        · exact iff_of_false (by simp) p6
      refine first.trans (Text.isSome_after.trans ?_)
      constructor
      · rintro ⟨middle, back, rfl⟩
        obtain ⟨front, split⟩ := Text.exists_split_of_after found
        exact ⟨front, middle, back, split⟩
      · rintro ⟨front, middle, back, split⟩
        obtain ⟨longest, again, start, ends⟩ :=
          Text.exists_after "root=".toList front (middle ++ ("p6".toList ++ back))
        rw [← split, found] at again
        obtain rfl := Option.some.inj again
        exact ⟨start ++ middle, back, by rw [← ends, List.append_assoc]⟩

/-- What grep finds is a p6 behind a `root=`. -/
theorem p6AfterRoot_of_grep
    (found : (Text.search (matchRoot ['6']) text).isSome = true) :
    P6AfterRoot text := by
  obtain ⟨front, device, back, rfl, here⟩ := Text.isSome_search.mp found
  obtain ⟨rest, rfl, longest⟩ := matchRoot_eq_some.mp here
  obtain ⟨-, digit, member, back, rfl⟩ :=
    group_iff.mp (Text.group_of_longest longest).1
  obtain rfl := List.mem_singleton.mp member
  exact ⟨front, device, back, rfl⟩

/-! ## The line with the parameter -/

theorem exists_split_intercalate {params : List (List Char)}
    {param : List Char} (member : param ∈ params) :
    ∃ front back, List.intercalate [' '] params = front ++ (param ++ back) := by
  induction params with
  | nil => cases member
  | cons first rest induction =>
      cases rest with
      | nil =>
          obtain rfl := List.mem_singleton.mp member
          exact ⟨[], [], by simp⟩
      | cons second rest =>
          rw [List.intercalate_cons_cons]
          rcases List.mem_cons.mp member with rfl | later
          · refine ⟨[], [' '] ++ List.intercalate [' '] (second :: rest), ?_⟩
            rw [List.nil_append, List.append_assoc]
          · obtain ⟨front, back, split⟩ := induction later
            refine ⟨first ++ ([' '] ++ front), back, ?_⟩
            rw [split]
            simp only [List.append_assoc]

/-- The digit of the root partition is one of the two. -/
theorem exists_digit_rootpart (slot : Slot) :
    ∃ digit ∈ ['5', '6'], Nat.toDigits 10 slot.rootpart = [digit] := by
  cases slot with
  | a => exact ⟨'5', by decide, by decide⟩
  | b => exact ⟨'6', by decide, by decide⟩

theorem exists_rootAfter (named : rootParam name slot ∈ cmdline.params) :
    ∃ front, RootAfter cmdline.text front name.dev := by
  obtain ⟨front, back, split⟩ := exists_split_intercalate named
  obtain ⟨digit, member, part⟩ := exists_digit_rootpart slot
  refine ⟨front, not_space_dev name.plain, digit, member, back, ?_⟩
  rw [text, split, rootParam_eq, part]
  simp only [List.append_assoc, List.cons_append, List.nil_append]

theorem exists_rootAfter_b (named : rootParam name .b ∈ cmdline.params) :
    ∃ front back,
      cmdline.text =
        front ++ ("root=".toList ++ (name.dev ++ ("p6".toList ++ back))) := by
  obtain ⟨front, back, split⟩ := exists_split_intercalate named
  refine ⟨front, back, ?_⟩
  have part : 'p' :: Nat.toDigits 10 Slot.b.rootpart = "p6".toList := by
    decide
  rw [text, split, rootParam_eq, part]
  simp only [List.append_assoc]

theorem grep_of_b (named : rootParam name .b ∈ cmdline.params) :
    (Text.search (matchRoot ['6']) cmdline.text).isSome = true := by
  obtain ⟨front, back, split⟩ := exists_rootAfter_b named
  have group :
      Text.Group notSpace (startsPart ['6'])
        (name.dev ++ ("p6".toList ++ back)) name.dev :=
    group_iff.mpr
      ⟨forall_notSpace.mpr (not_space_dev name.plain), '6', by decide, back,
        rfl⟩
  obtain ⟨longest, found⟩ :=
    Option.ne_none_iff_exists'.mp (Text.longest_ne_none group)
  exact
    Text.isSome_search.mpr
      ⟨front, longest, _, split,
        matchRoot_eq_some.mpr ⟨_, rfl, found⟩⟩

/-- `/boot` is the slot's exactly if the last device is the parameter's. -/
theorem bootMountDev_eq_iff (named : rootParam name slot ∈ cmdline.params)
    (marks : slot = .a → ¬ P6AfterRoot cmdline.text) :
    cmdline.bootMountDev = name.dev ++ 'p' :: Nat.toDigits 10 slot.bootpart ↔
      LastRoot cmdline.text name.dev := by
  obtain ⟨front, rooted⟩ := exists_rootAfter named
  obtain ⟨longest, matched⟩ := exists_matchesAfter rooted
  obtain ⟨device, last⟩ :=
    Option.ne_none_iff_exists'.mp (Text.searchLast_ne_none matched)
  have grep :
      (if (Text.search (matchRoot ['6']) cmdline.text).isSome = true then
        Slot.b else .a) = slot := by
    cases slot with
    | a => exact if_neg fun found => marks rfl (p6AfterRoot_of_grep found)
    | b => exact if_pos (grep_of_b named)
  rw [bootMountDev, grep, last, Option.getD_some, ← searchLast_matchRoot,
    last, Option.some.injEq]
  exact List.append_left_inj _

/-! ## The line decides -/

/--
`ab` and `boot-mount` read the root parameter exactly if the last `root=` with
p5 or p6 is of its device and, for p5, no p6 stands behind a `root=`.
-/
theorem readsRoot_iff (cmdline : CommandLine) (name : DeviceName) (slot : Slot)
    (named : rootParam name slot ∈ cmdline.params) :
    cmdline.ReadsRoot name slot ↔
      LastRoot cmdline.text name.dev ∧
        (slot = .a → ¬ P6AfterRoot cmdline.text) := by
  constructor
  · rintro ⟨-, running, boot⟩
    have marks : slot = .a → ¬ P6AfterRoot cmdline.text := by
      rintro rfl p6
      rw [running_eq_b_iff.mpr p6] at running
      cases running
    exact ⟨(bootMountDev_eq_iff named marks).mp boot, marks⟩
  · rintro ⟨last, marks⟩
    refine
      ⟨baseDev_of_lastRoot last, ?_, (bootMountDev_eq_iff named marks).mpr last⟩
    cases slot with
    | a =>
        have notB := mt running_eq_b_iff.mp (marks rfl)
        cases runs : cmdline.running with
        | a => rfl
        | b => exact absurd runs notB
    | b =>
        obtain ⟨front, back, split⟩ := exists_rootAfter_b named
        exact running_eq_b_iff.mpr ⟨front, name.dev, back, split⟩

end

/-! ## Two lines -/

def mmcblk2 : DeviceName :=
  ⟨['m', 'm', 'c', 'b', 'l', 'k', '2'], by simp [isDevChar]⟩

/-- A line of slot b as U-Boot passes it. -/
def plainLine : CommandLine where
  params :=
    ["console=ttymxc1,115200".toList, rootParam mmcblk2 .b, "rootwait".toList,
      "rw".toList]
  single := by decide +kernel

/-- A line of slot a with a refresh rate of 60 Hz. -/
def videoLine : CommandLine where
  params :=
    [rootParam mmcblk2 .a, "rw".toList, "video=HDMI-A-1:1920x1080p60".toList]
  single := by decide +kernel

theorem readsRoot_plainLine :
    plainLine.ReadsRoot mmcblk2 .b ∧ LastRoot plainLine.text mmcblk2.dev := by
  have named : rootParam mmcblk2 .b ∈ plainLine.params := by decide +kernel
  have reads : plainLine.ReadsRoot mmcblk2 .b :=
    ⟨by decide +kernel, by decide +kernel, by decide +kernel⟩
  exact ⟨reads, ((readsRoot_iff plainLine mmcblk2 .b named).mp reads).1⟩

/-- The p6 of the refresh rate is taken for slot b. -/
theorem not_readsRoot_videoLine :
    rootParam mmcblk2 .a ∈ videoLine.params ∧
      ¬ videoLine.ReadsRoot mmcblk2 .a := by
  refine ⟨List.mem_cons_self, ?_⟩
  intro reads
  have running : videoLine.running = .b := by decide +kernel
  rw [reads.running] at running
  cases running

end CommandLine

end KmmYocto
