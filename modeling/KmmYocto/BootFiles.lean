import KmmYocto.AbShell

/-!
# The files of a BOOT partition

`ab linux try boot` copies the files of a boot image to the BOOT partition of
the target slot, points `extlinux.conf` at the target's root partition, puts
the target's variant of `falcon.itb` in place and compares what was copied.
-/

namespace KmmYocto.BootFiles

/-- The content of the file at a path. -/
def file (tree : BootTree) (path : String) : Option (List Char) :=
  (tree.find? fun entry => entry.1 = path).map Prod.snd

/-- Create or overwrite a file. -/
def put (tree : BootTree) (path : String) (content : List Char) : BootTree :=
  tree.filter (fun entry => entry.1 ≠ path) ++ [(path, content)]

/-- `rm -rf dst/*`: the glob leaves names that start with a dot. -/
def clear (tree : BootTree) : BootTree :=
  tree.filter fun entry => entry.1.toList.head? = some '.'

/-- `cp -r src/. dst/`. -/
def copyInto (source target : BootTree) : BootTree :=
  source ++ target.filter fun entry => file source entry.1 = none

/-- The last component of a path. -/
def basename (path : String) : List Char :=
  (path.toList.reverse.takeWhile fun c => c ≠ '/').reverse

/-- `[a-z0-9]`. -/
def isDevChar (c : Char) : Bool :=
  c.isLower || c.isDigit

/-- What follows the longest match of `[a-z0-9]*p[56]`. -/
def afterPart : List Char → Option (List Char)
  | [] => none
  | c :: rest =>
      if isDevChar c then
        match afterPart rest with
        | some remainder => some remainder
        | none =>
            match c, rest with
            | 'p', '5' :: remainder => some remainder
            | 'p', '6' :: remainder => some remainder
            | _, _ => none
      else none

/-- What follows a match of `root=/dev/[a-z0-9]*p[56]` at the head. -/
def afterRoot (text : List Char) : Option (List Char) :=
  if "root=/dev/".toList.isPrefixOf text then
    afterPart (text.drop "root=/dev/".toList.length)
  else none

/-- `s|root=/dev/[a-z0-9]*p[56]|root=$rootdev|` on one line. -/
def sedLine (rootdev : List Char) : List Char → List Char
  | [] => []
  | c :: rest =>
      match afterRoot (c :: rest) with
      | some remainder => "root=".toList ++ rootdev ++ remainder
      | none => c :: sedLine rootdev rest

/-- The same command on a whole file. -/
def sedRoot (rootdev : List Char) (text : List Char) : List Char :=
  List.intercalate ['\n'] ((text.splitOn '\n').map (sedLine rootdev))

/-- The files that differ after the copy, the two rewritten names left out. -/
def mismatches (source target : BootTree) : List String :=
  (source.filter fun entry =>
    basename entry.1 ≠ "extlinux.conf".toList ∧
      basename entry.1 ≠ "falcon.itb".toList ∧
        file target entry.1 ≠ some entry.2).map Prod.fst

/-- Names as `find .` prints them. -/
def found (names : List String) : String :=
  String.intercalate "\n" (names.map fun name => "./" ++ name)

/-- The device the kernel of the slot mounts as its root. -/
def rootdev (platform : Platform) (slot : Slot) : List Char :=
  platform.baseDev.toList ++ ['p'] ++ (Nat.toDigits 10 slot.rootpart)

/-- The tree `ab linux try boot` leaves if the image has an extlinux.conf. -/
def installed (platform : Platform) (tgt : Slot) (source : BootTree)
    (key : Option (List Char)) (old : BootTree) : Option BootTree :=
  let copied := copyInto source (clear old)
  (file copied "extlinux/extlinux.conf").map fun text =>
    let pointed :=
      put copied "extlinux/extlinux.conf" (sedRoot (rootdev platform tgt) text)
    let falcon :=
      match file pointed ("falcon-" ++ tgt.name ++ ".itb") with
      | some itb => put pointed "falcon.itb" itb
      | none => pointed
    match key with
    | some authkey => put falcon "tailscale.authkey" authkey
    | none => falcon

example :
    sedLine "/dev/mmcblk2p6".toList "append root=/dev/mmcblk2p5 rw".toList =
      "append root=/dev/mmcblk2p6 rw".toList := by
  decide

end KmmYocto.BootFiles
