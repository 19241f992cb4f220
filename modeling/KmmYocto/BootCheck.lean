import KmmYocto.CommandEffects

/-!
# What `ab linux try boot` checks

The command copies a boot image, rewrites `extlinux.conf`, `falcon.itb` and
the key on the target, and then compares the copied files.  The two rewritten
names are left out of the comparison, and the key is only compared if the
image has one.

Here each step may store something else than it was given, and what was
stored may read back differently.  With steps that store what they are given
the command is `linuxTryBoot`.
-/

namespace KmmYocto

namespace BootFiles

/-! ## Files of a tree -/

section Files

variable {tree source target : BootTree} {path other : String}
    {content : List Char}

theorem file_append (first second : BootTree) (path : String) :
    file (first ++ second) path =
      (file first path).or (file second path) := by
  simp only [file, List.find?_append]
  cases first.find? fun entry => entry.1 = path with
  | none => rfl
  | some entry => rfl

/-- A selection by path. -/
theorem file_filter (keeps : String → Bool) (tree : BootTree)
    (path : String) :
    file (tree.filter fun entry => keeps entry.1) path =
      if keeps path = true then file tree path else none := by
  have same :
      (fun entry : String × List Char =>
        keeps entry.1 && decide (entry.1 = path)) =
        fun entry => keeps path && decide (entry.1 = path) := by
    funext entry
    by_cases here : entry.1 = path
    · rw [here]
    · simp [here]
  simp only [file, List.find?_filter, Bool.decide_and, Bool.decide_eq_true,
    same]
  cases keeps path with
  | true => simp
  | false => simp

theorem file_put_self (tree : BootTree) (path : String)
    (content : List Char) :
    file (put tree path content) path = some content := by
  rw [put, file_append, file_filter (fun each => each ≠ path)]
  simp [file]

theorem file_put_of_ne (differs : other ≠ path) :
    file (put tree path content) other = file tree other := by
  rw [put, file_append, file_filter (fun each => each ≠ path)]
  simp [file, differs, differs.symm]

/-- The glob does not match the names that start with a dot. -/
def Hidden (path : String) : Prop :=
  path.toList.head? = some '.'

instance (path : String) : Decidable (Hidden path) :=
  inferInstanceAs (Decidable (_ = _))

theorem file_clear (tree : BootTree) (path : String) :
    file (clear tree) path = if Hidden path then file tree path else none := by
  rw [clear, file_filter fun each => each.toList.head? = some '.']
  simp only [decide_eq_true_eq]
  rfl

theorem file_copyInto (source target : BootTree) (path : String) :
    file (copyInto source target) path =
      (file source path).or (file target path) := by
  rw [copyInto, file_append, file_filter fun each => file source each = none]
  cases file source path with
  | none => simp
  | some content => rfl

end Files

/-! ## The root device of a line -/

/-- `[a-z0-9]*p[56]` matches before `rest`. -/
def PartMatch (text rest : List Char) : Prop :=
  ∃ dev digit, text = dev ++ 'p' :: digit :: rest ∧
    (∀ c ∈ dev, isDevChar c = true) ∧ (digit = '5' ∨ digit = '6')

/-- `root=/dev/[a-z0-9]*p[56]` matches before `rest`. -/
def RootMatch (text rest : List Char) : Prop :=
  ∃ tail, text = "root=/dev/".toList ++ tail ∧ PartMatch tail rest

/-- In a line the first match, as long as possible, is replaced. -/
inductive PointsLine (rootdev : List Char) : List Char → List Char → Prop
  | nil : PointsLine rootdev [] []
  | here {text rest : List Char} (matched : RootMatch text rest)
      (longest : ∀ other, RootMatch text other →
        rest.length ≤ other.length) :
      PointsLine rootdev text ("root=".toList ++ rootdev ++ rest)
  | later {c : Char} {line pointed : List Char}
      (unmatched : ∀ rest, ¬ RootMatch (c :: line) rest)
      (points : PointsLine rootdev line pointed) :
      PointsLine rootdev (c :: line) (c :: pointed)

/-- The same in every line of a file. -/
def Points (rootdev text pointed : List Char) : Prop :=
  ∃ lines, pointed = List.intercalate ['\n'] lines ∧
    List.Forall₂ (PointsLine rootdev) (text.splitOn '\n') lines

theorem PartMatch.cons {c : Char} {text rest : List Char}
    (allowed : isDevChar c = true) (matched : PartMatch text rest) :
    PartMatch (c :: text) rest := by
  obtain ⟨dev, digit, rfl, devChars, ends⟩ := matched
  refine ⟨c :: dev, digit, rfl, ?_, ends⟩
  simpa [allowed] using devChars

/-- What the match stops before, by the first character. -/
theorem partMatch_cons {c : Char} {text rest : List Char} :
    PartMatch (c :: text) rest ↔
      (isDevChar c = true ∧ PartMatch text rest) ∨
        (c = 'p' ∧ (text = '5' :: rest ∨ text = '6' :: rest)) := by
  constructor
  · rintro ⟨dev, digit, split, devChars, ends⟩
    cases dev with
    | nil =>
        simp only [List.nil_append, List.cons.injEq] at split
        obtain ⟨rfl, rfl⟩ := split
        refine .inr ⟨rfl, ?_⟩
        rcases ends with rfl | rfl
        · exact .inl rfl
        · exact .inr rfl
    | cons d dev =>
        simp only [List.cons_append, List.cons.injEq] at split
        obtain ⟨rfl, rfl⟩ := split
        obtain ⟨first, others⟩ := List.forall_mem_cons.mp devChars
        exact .inl ⟨first, dev, digit, rfl, others, ends⟩
  · rintro (⟨allowed, matched⟩ | ⟨rfl, rfl | rfl⟩)
    · exact matched.cons allowed
    · exact ⟨[], '5', rfl, by simp, .inl rfl⟩
    · exact ⟨[], '6', rfl, by simp, .inr rfl⟩

/-- What follows if the match starts with its last two characters. -/
def partEnd (c : Char) (text : List Char) : Option (List Char) :=
  if c = 'p' ∧ (text.head? = some '5' ∨ text.head? = some '6') then
    some text.tail
  else none

theorem partEnd_eq_some {c : Char} {text rest : List Char} :
    partEnd c text = some rest ↔
      c = 'p' ∧ (text = '5' :: rest ∨ text = '6' :: rest) := by
  cases text with
  | nil => simp [partEnd]
  | cons d text =>
      simp only [partEnd, List.head?_cons, List.tail_cons, Option.some.injEq,
        List.cons.injEq]
      split_ifs with ends
      · simp only [ends.1, true_and, Option.some.injEq]
        grind
      · grind

theorem afterPart_cons (c : Char) (text : List Char) :
    afterPart (c :: text) =
      if isDevChar c = true then (afterPart text).or (partEnd c text)
      else none := by
  conv_lhs => unfold afterPart
  split_ifs with allowed
  · cases afterPart text with
    | some found => rfl
    | none =>
        simp only [Option.none_or]
        split
        · rfl
        · rfl
        · next noFive noSix =>
            rw [partEnd, if_neg]
            rintro ⟨rfl, five | six⟩
            · exact noFive text.tail rfl (List.eq_cons_of_mem_head? five)
            · exact noSix text.tail rfl (List.eq_cons_of_mem_head? six)
  · rfl

/-- The longest match is found. -/
theorem afterPart_spec (text : List Char) :
    (∀ found ∈ afterPart text, PartMatch text found) ∧
      ∀ rest, PartMatch text rest →
        ∃ found ∈ afterPart text, found.length ≤ rest.length := by
  induction text with
  | nil =>
      refine ⟨by simp [afterPart], ?_⟩
      rintro rest ⟨dev, digit, split, -⟩
      cases dev <;> cases split
  | cons c text induction =>
      obtain ⟨sound, complete⟩ := induction
      rw [afterPart_cons]
      constructor
      · intro found member
        split_ifs at member with allowed
        · rcases Option.or_eq_some_iff.mp member with longer | ⟨-, ends⟩
          · exact (sound found longer).cons allowed
          · exact partMatch_cons.mpr (.inr (partEnd_eq_some.mp ends))
        · cases member
      · intro rest matched
        rcases partMatch_cons.mp matched with ⟨allowed, later⟩ | ends
        · obtain ⟨found, member, shorter⟩ := complete rest later
          refine ⟨found, ?_, shorter⟩
          rw [if_pos allowed, Option.mem_def.mp member]
          exact rfl
        · have allowed : isDevChar c = true := by
            rw [ends.1]
            decide
          rw [if_pos allowed]
          cases longer : afterPart text with
          | none =>
              exact ⟨rest, partEnd_eq_some.mpr ends, le_rfl⟩
          | some found =>
              refine ⟨found, rfl, ?_⟩
              obtain ⟨dev, digit, split, -⟩ := sound found longer
              have sizes := congrArg List.length split
              rcases ends.2 with rfl | rfl <;>
                simp only [List.length_cons, List.length_append] at sizes <;>
                omega

/-- The longest match of the whole pattern is found. -/
theorem afterRoot_spec (text : List Char) :
    (∀ found ∈ afterRoot text, RootMatch text found) ∧
      ∀ rest, RootMatch text rest →
        ∃ found ∈ afterRoot text, found.length ≤ rest.length := by
  constructor
  · intro found member
    rw [afterRoot] at member
    split_ifs at member with starts
    · obtain ⟨tail, rfl⟩ := List.isPrefixOf_iff_prefix.mp starts
      rw [List.drop_left] at member
      exact ⟨tail, rfl, (afterPart_spec tail).1 found member⟩
    · cases member
  · rintro rest ⟨tail, rfl, matched⟩
    rw [afterRoot, if_pos (by simp), List.drop_left]
    exact (afterPart_spec tail).2 rest matched

/-- The command replaces the first match of a line. -/
theorem pointsLine_sedLine (rootdev line : List Char) :
    PointsLine rootdev line (sedLine rootdev line) := by
  induction line with
  | nil => exact .nil
  | cons c line induction =>
      obtain ⟨sound, complete⟩ := afterRoot_spec (c :: line)
      rw [sedLine]
      cases found : afterRoot (c :: line) with
      | some rest =>
          refine .here (sound rest found) ?_
          intro other matched
          obtain ⟨longest, member, shorter⟩ := complete other matched
          rwa [Option.mem_unique found member]
      | none =>
          refine .later ?_ induction
          intro rest matched
          obtain ⟨longest, member, -⟩ := complete rest matched
          rw [found] at member
          cases member

theorem points_sedRoot (rootdev text : List Char) :
    Points rootdev text (sedRoot rootdev text) := by
  refine ⟨_, rfl, ?_⟩
  rw [List.forall₂_map_right_iff]
  exact List.forall₂_same.mpr fun line _ => pointsLine_sedLine rootdev line

/-- The variant of the target as `falcon.itb`. -/
def putFalcon (tgt : Slot) (tree : BootTree) : BootTree :=
  match file tree ("falcon-" ++ tgt.name ++ ".itb") with
  | some itb => put tree "falcon.itb" itb
  | none => tree

def putKey (key : Option (List Char)) (tree : BootTree) : BootTree :=
  match key with
  | some authkey => put tree "tailscale.authkey" authkey
  | none => tree

end BootFiles

open BootFiles

/-- What the partition holds when a step has written this. -/
structure BootStorage where
  copied : BootTree → BootTree
  pointed : BootTree → BootTree
  falcon : BootTree → BootTree
  keyed : BootTree → BootTree

/-- Every step stores what it is given. -/
def BootStorage.exact : BootStorage :=
  ⟨id, id, id, id⟩

namespace Ab

/-- `linux_try_boot` on a partition that may store something else. -/
def linuxTryBootOn (platform : Platform) (storage : BootStorage) (ctx : Ctx)
    (image : Option BootTree) (key : Option (List Char)) : Ab PUnit := do
  match image with
  | none => Script.die "ab: 使い方: ab linux try boot <boot.img> [tailscale の鍵]"
  | some source =>
      match (← tryTarget) with
      | none => Script.die "ab: ab linux try begin が済んでいない"
      | some tgt => do
          lock ctx
          Script.require (ctx.mountable tgt = true) "mount: BOOT"
          let disk ← Script.read
          let cleared := clear (disk.boot tgt)
          Script.persist (.boot tgt cleared)
          let copied := storage.copied (copyInto source cleared)
          Script.persist (.boot tgt copied)
          match file copied "extlinux/extlinux.conf" with
          | none => Script.die "sed: extlinux.conf"
          | some text => do
              let pointed :=
                storage.pointed
                  (put copied "extlinux/extlinux.conf"
                    (sedRoot (rootdev platform tgt) text))
              let falcon := storage.falcon (putFalcon tgt pointed)
              let keyed := storage.keyed (putKey key falcon)
              Script.persist (.boot tgt keyed)
              let bad := mismatches source (ctx.readBoot keyed)
              let names := found bad
              Script.require (bad = [])
                s!"ab: boot の読み戻しが一致しない: {names}"

theorem linuxTryBootOn_exact (platform : Platform) (ctx : Ctx)
    (image : Option BootTree) (key : Option (List Char)) :
    linuxTryBootOn platform .exact ctx image key =
      linuxTryBoot platform ctx image key := by
  cases image with
  | none => rfl
  | some source => rfl

end Ab

/-! ## After a success -/

/-- Every file of the image with another name reads back as it is there. -/
def Compared (source back : BootTree) : Prop :=
  ∀ entry ∈ source, basename entry.1 ≠ "extlinux.conf".toList →
    basename entry.1 ≠ "falcon.itb".toList →
      file back entry.1 = some entry.2

/-- The tree is the image with its three files changed for the slot, and with
what the glob did not match of the old one. -/
structure Prepared (platform : Platform) (tgt : Slot) (source : BootTree)
    (key : Option (List Char)) (old tree : BootTree) : Prop where
  conf :
    ∃ text ∈ file source "extlinux/extlinux.conf",
      ∃ pointed ∈ file tree "extlinux/extlinux.conf",
        Points (rootdev platform tgt) text pointed
  falcon :
    ∃ itb ∈ file source ("falcon-" ++ tgt.name ++ ".itb"),
      file tree "falcon.itb" = some itb
  authkey : ∀ authkey ∈ key, file tree "tailscale.authkey" = some authkey
  others :
    ∀ path, path ≠ "extlinux/extlinux.conf" → path ≠ "falcon.itb" →
      ¬ (path = "tailscale.authkey" ∧ key.isSome = true) →
        file tree path =
          (file source path).or
            (if Hidden path then file old path else none)

theorem compared_of_mismatches {source back : BootTree}
    (same : mismatches source back = []) : Compared source back := by
  rw [mismatches, List.map_eq_nil_iff, List.filter_eq_nil_iff] at same
  intro entry member notConf notFalcon
  by_contra differs
  exact same entry member (decide_eq_true ⟨notConf, notFalcon, differs⟩)

section Prepare

variable {tgt : Slot} {tree : BootTree} {path : String}

theorem file_putKey (key : Option (List Char)) :
    file (putKey key tree) path =
      if path = "tailscale.authkey" then key.or (file tree path)
      else file tree path := by
  cases key with
  | none => simp [putKey]
  | some authkey =>
      rw [putKey]
      split_ifs with same
      · rw [same, file_put_self, Option.some_or]
      · exact file_put_of_ne same

theorem file_putFalcon :
    file (putFalcon tgt tree) path =
      if path = "falcon.itb" then
        (file tree ("falcon-" ++ tgt.name ++ ".itb")).or (file tree path)
      else file tree path := by
  rw [putFalcon]
  cases file tree ("falcon-" ++ tgt.name ++ ".itb") with
  | none => simp
  | some itb =>
      simp only
      split_ifs with same
      · rw [same, file_put_self, Option.some_or]
      · exact file_put_of_ne same

theorem variant_ne (tgt : Slot) :
    "falcon-" ++ tgt.name ++ ".itb" ≠ "extlinux/extlinux.conf" := by
  cases tgt <;> decide

/-- Where nothing is stored wrongly, the tree is prepared. -/
theorem prepared_exact {platform : Platform}
    {source old : BootTree} {key : Option (List Char)} {text itb : List Char}
    (conf : file source "extlinux/extlinux.conf" = some text)
    (falcon : file source ("falcon-" ++ tgt.name ++ ".itb") = some itb) :
    Prepared platform tgt source key old
      (putKey key
        (putFalcon tgt
          (put (copyInto source (clear old)) "extlinux/extlinux.conf"
            (sedRoot (rootdev platform tgt) text)))) := by
  have pointed : ∀ path, path ≠ "extlinux/extlinux.conf" →
      file
          (put (copyInto source (clear old)) "extlinux/extlinux.conf"
            (sedRoot (rootdev platform tgt) text))
          path =
        (file source path).or
          (if Hidden path then file old path else none) := by
    intro path other
    rw [file_put_of_ne other, file_copyInto, file_clear]
  refine
    { conf := ⟨text, conf, _, ?_, points_sedRoot _ text⟩
      falcon := ⟨itb, falcon, ?_⟩
      authkey := ?_
      others := ?_ }
  · rw [Option.mem_def, file_putKey, if_neg (by decide), file_putFalcon,
      if_neg (by decide), file_put_self]
  · rw [file_putKey, if_neg (by decide), file_putFalcon, if_pos rfl,
      pointed _ (variant_ne tgt), falcon, Option.some_or, Option.some_or]
  · intro authkey member
    rw [file_putKey, if_pos rfl, Option.mem_def.mp member, Option.some_or]
  · intro path notConf notFalcon notKey
    rw [file_putKey, file_putFalcon, if_neg notFalcon, pointed path notConf]
    by_cases isKey : path = "tailscale.authkey"
    · have unset : key = none := by
        rw [← Option.not_isSome_iff_eq_none]
        exact fun given => notKey ⟨isKey, given⟩
      rw [if_pos isKey, unset, Option.none_or]
    · rw [if_neg isKey]

end Prepare

namespace Ab

variable {platform : Platform} {ctx : Ctx} {disk : Disk} {record : LinuxTry}
    {storage : BootStorage} {source : BootTree} {key : Option (List Char)}

/-- A successful call has gone through all steps. -/
theorem ends_linuxTryBootOn (found : disk.linuxTry = some record)
    {text itb : List Char}
    (conf : file source "extlinux/extlinux.conf" = some text)
    (falcon :
      file source ("falcon-" ++ record.toSlot.name ++ ".itb") = some itb) :
    Script.Ends (linuxTryBootOn platform storage ctx (some source) key)
      ⟨disk, [], false⟩
      fun result later =>
        result.isOk = true →
          Compared source (ctx.readBoot (later.store.boot record.toSlot)) ∧
            (storage = .exact →
              Prepared platform record.toSlot source key
                (disk.boot record.toSlot)
                (later.store.boot record.toSlot)) := by
  rw [linuxTryBootOn, Script.ends_bind, ends_tryTarget, found]
  simp only [Option.map_some, Script.ends_bind, ends_lock,
    Script.ends_require, Script.ends_read, Script.ends_persist]
  refine ⟨fun _ => ⟨fun _ => ?_, fun _ failed => absurd failed Bool.false_ne_true⟩,
    fun _ failed => absurd failed Bool.false_ne_true⟩
  cases stored :
      file
        (storage.copied
          (copyInto source (clear (disk.boot record.toSlot))))
        "extlinux/extlinux.conf" with
  | none => exact fun failed => absurd failed Bool.false_ne_true
  | some read =>
      simp only [Script.ends_bind, Script.ends_persist, Script.ends_require]
      refine ⟨fun same _ => ?_,
        fun _ failed => absurd failed Bool.false_ne_true⟩
      have last : ∀ (before : Disk) (tree : BootTree),
          (Medium.apply before (Write.boot record.toSlot tree)).boot
            record.toSlot = tree :=
        fun _ _ => Function.update_self ..
      rw [last]
      refine ⟨compared_of_mismatches same, ?_⟩
      rintro rfl
      have copied :
          file (copyInto source (clear (disk.boot record.toSlot)))
            "extlinux/extlinux.conf" = some read :=
        stored
      rw [file_copyInto, conf, Option.some_or] at copied
      obtain rfl := Option.some.inj copied
      exact prepared_exact conf falcon

/--
A successful call has compared every file it names; the others are as they
should be if each step has stored what it was given.
-/
theorem compared_linuxTryBootOn (storage : BootStorage)
    (key : Option (List Char)) (found : disk.linuxTry = some record)
    {text itb : List Char}
    (conf : file source "extlinux/extlinux.conf" = some text)
    (falcon :
      file source ("falcon-" ++ record.toSlot.name ++ ".itb") = some itb)
    (succeeds :
      (Script.exec (linuxTryBootOn platform storage ctx (some source) key)
        disk).1.isOk = true) :
    let tree :=
      (Script.exec (linuxTryBootOn platform storage ctx (some source) key)
        disk).2.store.boot record.toSlot
    Compared source (ctx.readBoot tree) ∧
      (storage = .exact →
        Prepared platform record.toSlot source key (disk.boot record.toSlot)
          tree) :=
  ends_linuxTryBootOn found conf falcon succeeds

end Ab

/-! ## A broken `falcon.itb` -/

/-- The partition reads as the image, prepared for the slot. -/
structure HoldsImage (platform : Platform) (tgt : Slot) (source : BootTree)
    (key : Option (List Char)) (back : BootTree) : Prop where
  conf :
    ∃ text ∈ file source "extlinux/extlinux.conf",
      ∃ pointed ∈ file back "extlinux/extlinux.conf",
        Points (rootdev platform tgt) text pointed
  falcon :
    file back "falcon.itb" =
      file source ("falcon-" ++ tgt.name ++ ".itb")
  others :
    ∀ path, path ≠ "extlinux/extlinux.conf" → path ≠ "falcon.itb" →
      ¬ (path = "tailscale.authkey" ∧ key.isSome = true) →
        file back path = file source path

namespace Bench

def falconImage : BootTree :=
  [("extlinux/extlinux.conf", "append root=/dev/mmcblk2p5".toList),
    ("falcon-a.itb", "a".toList), ("falcon-b.itb", "b".toList),
    ("falcon.itb", "a".toList)]

/-- A session that writes slot b. -/
def begun : Disk :=
  { disk with linuxTry := some ⟨.a, .b, "running"⟩ }

/-- `falcon.itb` reads back empty. -/
def brokenFalcon : Ctx :=
  { ctx with readBoot := fun tree => put tree "falcon.itb" [] }

end Bench

namespace Ab

/-- The files of the bench's image are compared, and the others prepared. -/
theorem compared_falconImage :
    let tree :=
      (Script.exec
        (linuxTryBootOn Bench.platform .exact Bench.ctx
          (some Bench.falconImage) none)
        Bench.begun).2.store.boot .b
    Compared Bench.falconImage (Bench.ctx.readBoot tree) ∧
      (BootStorage.exact = .exact →
        Prepared Bench.platform .b Bench.falconImage none
          (Bench.begun.boot .b) tree) := by
  have found : Bench.begun.linuxTry = some ⟨.a, .b, "running"⟩ := rfl
  have conf :
      file Bench.falconImage "extlinux/extlinux.conf" =
        some "append root=/dev/mmcblk2p5".toList := by
    decide +kernel
  have falcon :
      file Bench.falconImage ("falcon-" ++ Slot.b.name ++ ".itb") =
        some "b".toList := by
    decide +kernel
  exact compared_linuxTryBootOn .exact none found conf falcon
    (by decide +kernel)

/-- An unreadable `falcon.itb` is not noticed. -/
theorem not_holdsImage_brokenFalcon :
    ¬ ∀ (platform : Platform) (storage : BootStorage) (ctx : Ctx)
      (disk : Disk) (record : LinuxTry) (source : BootTree)
      (key : Option (List Char)),
      disk.linuxTry = some record →
        (file source "extlinux/extlinux.conf").isSome = true →
          (file source "falcon-a.itb").isSome = true →
            (file source "falcon-b.itb").isSome = true →
              (Script.exec
                (linuxTryBootOn platform storage ctx (some source) key)
                disk).1.isOk = true →
                HoldsImage platform record.toSlot source key
                  (ctx.readBoot
                    ((Script.exec
                      (linuxTryBootOn platform storage ctx (some source) key)
                      disk).2.store.boot record.toSlot)) := by
  intro holds
  have broken :=
    (holds Bench.platform .exact Bench.brokenFalcon Bench.begun
      ⟨.a, .b, "running"⟩ Bench.falconImage none (by rfl) (by decide +kernel)
      (by decide +kernel) (by decide +kernel) (by decide +kernel)).falcon
  revert broken
  decide +kernel

end Ab

end KmmYocto
