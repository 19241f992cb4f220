import KmmYocto.Device
import KmmYocto.AbSpl

/-!
# `ab.sh` on the PC

The script sends files over ssh, calls `ab` on the device and judges by exit
statuses.  ssh exits with the status of the remote command, and with 255 for
every error of the connection.  What the device-side command does when nothing
interrupts it is the run of its script; a connection that breaks lets it make
any number of its writes.

What the script meets on its way, the statuses of its other commands and the
behaviour of the connection, is an argument.
-/

namespace KmmYocto

universe u v

/-- What the device-side command does when nothing interrupts it. -/
structure Remote where
  /-- It reaches its end. -/
  succeeds : Bool
  writes : Nat

/-- The run of a script. -/
def Remote.of {Store : Type u} {Write : Type v}
    (ended : Except String PUnit × Session Store Write) : Remote :=
  ⟨ended.1.isOk, ended.2.writes.length⟩

/-- What becomes of the connection of a device-side command. -/
inductive Link where
  /-- Nothing runs on the device. -/
  | refused
  /-- The connection breaks; the command makes up to `written` writes. -/
  | lost (written : Nat)
  | held

namespace Link

/-- The exit status of ssh; `die` exits with 1. -/
def status (remote : Remote) : Link → Nat
  | .refused => 255
  | .lost _ => 255
  | .held => if remote.succeeds = true then 0 else 1

/-- The command reaches the end of its writes. -/
def Completes (remote : Remote) : Link → Prop
  | .refused => False
  | .lost written => remote.succeeds = true ∧ remote.writes ≤ written
  | .held => remote.succeeds = true

/-- The connection fails before the command is at the end of its writes. -/
def CutShort (remote : Remote) : Link → Prop
  | .refused => True
  | .lost written => remote.succeeds = true → written < remote.writes
  | .held => False

end Link

/-- The operations of `ab.sh` that reboot the device. -/
inductive AbShOperation where
  | linuxTry
  | linuxRollback
  | mcoreUpdate
  | mcoreRollback
  | splUpdate
  | splRollback
deriving DecidableEq, Repr

/-- The device when the command that reboots it is called. -/
structure AbShTarget where
  platform : Platform
  ctx : Ctx
  boot : LinuxBoot
  disk : Disk
  layout : SplLayout
  devmem : Nat → Nat
  emmc : Emmc

/-- The exit statuses of two commands in a pipe. -/
structure Pipe where
  first : Nat
  last : Nat

/-- `set -o pipefail`. -/
def Pipe.status (pipe : Pipe) : Nat :=
  if pipe.last = 0 then pipe.first else pipe.last

/-- What `linux_try` meets before it arms the trial. -/
structure LinuxTryMet where
  /-- The name of the image, if there is such a file. -/
  image : Option String
  /-- Commands the PC lacks. -/
  missing : List String
  hostname : Nat × String
  /-- `mktemp`, `bunzip2` and the four calls of `fdisk`. -/
  unpack : List Nat
  /-- The image has the A/B layout. -/
  abLayout : Bool
  /-- The two calls of `dd` and `rm`. -/
  extract : List Nat
  /-- `ab linux try begin`, and what follows `TARGET=`. -/
  tryBegin : Nat × String
  /-- `e2label`, `stat` and `sha256sum`. -/
  label : List Nat
  root : Pipe
  bootImage : Pipe
  /-- Sending the auth key, if one is given. -/
  authkey : Option Nat
  tryBoot : Nat

/-- What the script meets. -/
structure AbShMet where
  linuxTry : LinuxTryMet
  /-- The file of an update, if there is such a file. -/
  file : Option (List UInt8)
  /-- `send_file`. -/
  send : Pipe
  /-- The connection of the command that reboots the device. -/
  link : Link
  /-- The exit status of each call of `ssh true`. -/
  back : Nat → Nat
  /-- `ab status` and `sed`. -/
  status : Pipe

namespace AbSh

/-- The script goes on, or exits with a status. -/
abbrev Pc : Type → Type :=
  Except Nat

/-- A command under `set -e`. -/
def run (status : Nat) : Pc Unit :=
  if status = 0 then pure () else throw status

/-- `[ condition ] || { echo "ERROR: ..."; exit 1; }`. -/
def check (condition : Prop) [Decidable condition] : Pc Unit :=
  if condition then pure () else throw 1

def runAll : List Nat → Pc Unit
  | [] => pure ()
  | status :: rest => do
      run status
      runAll rest

/-- `remote_ab_reboot`: 255 is taken for the reboot. -/
def remoteAbReboot (status : Nat) : Pc Unit :=
  if status = 0 ∨ status = 255 then pure () else throw status

/-- `wait_back` after `n` calls of `ssh true` that failed. -/
def waitBack (back : Nat → Nat) (n : Nat) : Pc Unit :=
  if back n = 0 then pure ()
  else if n + 1 < 60 then waitBack back (n + 1)
  else throw 1
termination_by 60 - n

/-- `case "$image" in *"$hostname"*)`. -/
def NamesHost (image hostname : String) : Prop :=
  hostname.toList <:+: image.toList

instance (image hostname : String) : Decidable (NamesHost image hostname) :=
  inferInstanceAs (Decidable (_ <:+: _))

/-- `linux_try` up to step 4/5. -/
def linuxTryWrite (met : LinuxTryMet) (force : Bool) : Pc Unit := do
  match met.image with
  | none => throw 1
  | some image => do
      check (met.missing = [])
      run met.hostname.1
      check (NamesHost image met.hostname.2 ∨ force = true)
      runAll met.unpack
      check (met.abLayout = true)
      runAll met.extract
      run met.tryBegin.1
      check (met.tryBegin.2 ≠ "")
      runAll met.label
      run met.root.status
      run met.bootImage.status
      match met.authkey with
      | none => pure ()
      | some sent => run sent
      run met.tryBoot

/-- The device-side command of an operation. -/
def remote (target : AbShTarget) (file : Option (List UInt8))
    (noReboot : Bool) : AbShOperation → Remote
  | .linuxTry =>
      .of (Script.exec (Ab.linuxTryArm target.ctx target.boot noReboot)
        target.disk)
  | .linuxRollback =>
      .of (Script.exec (Ab.linuxRollback target.ctx target.boot noReboot)
        target.disk)
  | .mcoreUpdate =>
      .of (Script.exec
        (Ab.mcoreUpdate target.platform target.ctx file noReboot) target.disk)
  | .mcoreRollback =>
      .of (Script.exec (Ab.mcoreRollback target.platform target.ctx noReboot)
        target.disk)
  | .splUpdate =>
      .of (Script.exec
        (AbSpl.splUpdate target.layout target.devmem target.ctx.lockFree
          "/tmp/ab-spl.img" file noReboot) target.emmc)
  | .splRollback =>
      .of (Script.exec
        (AbSpl.splRollback target.layout target.ctx.lockFree noReboot)
        target.emmc)

/-- `linux_try`. -/
def linuxTry (target : AbShTarget) (met : AbShMet) (force noReboot : Bool) :
    Pc Unit := do
  linuxTryWrite met.linuxTry force
  remoteAbReboot (met.link.status (remote target none noReboot .linuxTry))
  if noReboot = true then pure ()
  else do
    waitBack met.back 0
    run met.status.status

/-- `|| { r=$?; [ $r -eq 255 ] || exit $r; }`. -/
def orCut (r : Nat) : Pc Unit :=
  if r = 0 then pure ()
  else if r = 255 then pure ()
  else throw r

/-- `push_and_run`. -/
def pushAndRun (target : AbShTarget) (met : AbShMet) (noReboot : Bool)
    (operation : AbShOperation) : Pc Unit := do
  check (met.file.isSome = true)
  run met.send.status
  orCut (met.link.status (remote target met.file noReboot operation))
  if noReboot = true then pure ()
  else do
    waitBack met.back 0
    run met.status.status

/-- The three rollbacks. -/
def rollback (target : AbShTarget) (met : AbShMet) (noReboot : Bool)
    (operation : AbShOperation) : Pc Unit := do
  remoteAbReboot (met.link.status (remote target none noReboot operation))
  if noReboot = true then pure ()
  else do
    waitBack met.back 0
    run met.status.status

end AbSh

/-- `ab.sh`: `ok` is the exit status 0. -/
def abSh (target : AbShTarget) (met : AbShMet) (force noReboot : Bool)
    (operation : AbShOperation) : AbSh.Pc Unit :=
  match operation with
  | .linuxTry => AbSh.linuxTry target met force noReboot
  | .mcoreUpdate => AbSh.pushAndRun target met noReboot .mcoreUpdate
  | .splUpdate => AbSh.pushAndRun target met noReboot .splUpdate
  | .linuxRollback => AbSh.rollback target met noReboot .linuxRollback
  | .mcoreRollback => AbSh.rollback target met noReboot .mcoreRollback
  | .splRollback => AbSh.rollback target met noReboot .splRollback

/-! ## Exit status 0 -/

namespace Link

theorem completes_iff_not_cutShort {remote : Remote} {link : Link}
    (passes : link.status remote = 0 ∨ link.status remote = 255) :
    link.Completes remote ↔ ¬ link.CutShort remote := by
  cases link with
  | refused => exact iff_of_false id fun still => still trivial
  | lost written =>
      simp only [Completes, CutShort, Classical.not_imp, not_lt]
  | held =>
      refine iff_of_true ?_ id
      by_contra fails
      have one : status remote held = 1 := if_neg fails
      omega

theorem status_of_cutShort {remote : Remote} {link : Link}
    (cut : link.CutShort remote) : link.status remote = 255 := by
  cases link with
  | refused => rfl
  | lost written => rfl
  | held => exact cut.elim

end Link

namespace AbSh

theorem run_eq_ok {status : Nat} : run status = .ok () ↔ status = 0 := by
  rw [run]
  split_ifs with zero
  · exact iff_of_true rfl zero
  · exact iff_of_false nofun zero

theorem check_eq_ok {condition : Prop} [Decidable condition] :
    check condition = .ok () ↔ condition := by
  rw [check]
  split_ifs with holds
  · exact iff_of_true rfl holds
  · exact iff_of_false nofun holds

theorem remoteAbReboot_eq_ok {status : Nat} :
    remoteAbReboot status = .ok () ↔ status = 0 ∨ status = 255 := by
  rw [remoteAbReboot]
  split_ifs with passes
  · exact iff_of_true rfl passes
  · exact iff_of_false nofun passes

theorem bind_eq_ok {first second : Pc Unit} :
    (first >>= fun _ => second) = .ok () ↔
      first = .ok () ∧ second = .ok () := by
  cases first with
  | ok value => exact (and_iff_right rfl).symm
  | error status => exact iff_of_false nofun fun both => nomatch both.1

/-- `wait_back` goes on if one of the calls that remain succeeds. -/
theorem waitBack_eq_ok (back : Nat → Nat) {n : Nat} (few : n < 60) :
    waitBack back n = .ok () ↔ ∃ m, n ≤ m ∧ m < 60 ∧ back m = 0 := by
  rw [waitBack]
  split_ifs with answers more
  · exact iff_of_true rfl ⟨n, le_rfl, few, answers⟩
  · rw [waitBack_eq_ok back more]
    constructor
    · rintro ⟨m, later, bound, answer⟩
      exact ⟨m, by omega, bound, answer⟩
    · rintro ⟨m, later, bound, answer⟩
      have other : m ≠ n := by
        rintro rfl
        exact answers answer
      exact ⟨m, by omega, bound, answer⟩
  · refine iff_of_false nofun ?_
    rintro ⟨m, later, bound, answer⟩
    have same : m = n := by omega
    exact answers (same ▸ answer)
termination_by 60 - n

/-- The device answers within 60 calls, and its status can be printed. -/
def Returns (met : AbShMet) : Prop :=
  (∃ n < 60, met.back n = 0) ∧ met.status.status = 0

/-- What an operation does before the command that reboots the device. -/
def before (met : AbShMet) (force : Bool) : AbShOperation → Pc Unit
  | .linuxTry => linuxTryWrite met.linuxTry force
  | .mcoreUpdate | .splUpdate => do
      check (met.file.isSome = true)
      run met.send.status
  | .linuxRollback | .mcoreRollback | .splRollback => pure ()

/-- The end of every operation. -/
theorem return_eq_ok (met : AbShMet) (noReboot : Bool) :
    (if noReboot = true then pure ()
      else do
        waitBack met.back 0
        run met.status.status : Pc Unit) = .ok () ↔
      noReboot = true ∨ Returns met := by
  split_ifs with stays
  · exact iff_of_true rfl (.inl stays)
  · rw [bind_eq_ok, waitBack_eq_ok met.back (by decide), run_eq_ok, Returns,
      or_iff_right stays]
    simp only [Nat.zero_le, true_and]

theorem orCut_eq_remoteAbReboot (r : Nat) : orCut r = remoteAbReboot r := by
  rw [orCut, remoteAbReboot]
  split_ifs <;> first | rfl | omega

theorem pushAndRun_eq_ok (target : AbShTarget) (met : AbShMet)
    (noReboot : Bool) (operation : AbShOperation) :
    pushAndRun target met noReboot operation = .ok () ↔
      (met.file.isSome = true ∧ met.send.status = 0) ∧
        (met.link.status (remote target met.file noReboot operation) = 0 ∨
          met.link.status (remote target met.file noReboot operation) = 255) ∧
          (noReboot = true ∨ Returns met) := by
  rw [pushAndRun, bind_eq_ok, bind_eq_ok, bind_eq_ok, check_eq_ok,
    run_eq_ok, orCut_eq_remoteAbReboot, remoteAbReboot_eq_ok, return_eq_ok,
    and_assoc]

theorem rollback_eq_ok (target : AbShTarget) (met : AbShMet)
    (noReboot : Bool) (operation : AbShOperation) :
    rollback target met noReboot operation = .ok () ↔
      (met.link.status (remote target none noReboot operation) = 0 ∨
        met.link.status (remote target none noReboot operation) = 255) ∧
        (noReboot = true ∨ Returns met) := by
  rw [rollback, bind_eq_ok, remoteAbReboot_eq_ok, return_eq_ok]

theorem abSh_eq_ok (target : AbShTarget) (met : AbShMet)
    (force noReboot : Bool) (operation : AbShOperation) :
    abSh target met force noReboot operation = .ok () ↔
      before met force operation = .ok () ∧
        (met.link.status (remote target met.file noReboot operation) = 0 ∨
          met.link.status (remote target met.file noReboot operation) = 255) ∧
          (noReboot = true ∨ Returns met) := by
  cases operation with
  | linuxTry =>
      rw [abSh, linuxTry, bind_eq_ok, bind_eq_ok, remoteAbReboot_eq_ok,
        return_eq_ok]
      rfl
  | mcoreUpdate | splUpdate =>
      rw [abSh, pushAndRun_eq_ok, before, bind_eq_ok, check_eq_ok, run_eq_ok]
  | linuxRollback | mcoreRollback | splRollback =>
      rw [abSh, rollback_eq_ok]
      exact (and_iff_right rfl).symm

end AbSh

/-- Exit status 0 says that the device-side command is done. -/
def AbSh.ReportsTruly (target : AbShTarget) (met : AbShMet)
    (force noReboot : Bool) (operation : AbShOperation) : Prop :=
  abSh target met force noReboot operation = .ok () →
    met.link.Completes (remote target met.file noReboot operation)

/--
`ab.sh` reports an operation that is not done exactly if the connection of the
command that reboots the device is cut short, every step before it succeeds,
and the script does not wait for the device or the device answers.
-/
theorem AbSh.reportsTruly_iff (target : AbShTarget) (met : AbShMet)
    (force noReboot : Bool) (operation : AbShOperation) :
    ReportsTruly target met force noReboot operation ↔
      ¬ (before met force operation = .ok () ∧
        met.link.CutShort (remote target met.file noReboot operation) ∧
          (noReboot = true ∨ Returns met)) := by
  rw [ReportsTruly, abSh_eq_ok]
  constructor
  · rintro truly ⟨ready, cut, returns⟩
    have passes :
        met.link.status (remote target met.file noReboot operation) = 0 ∨
          met.link.status (remote target met.file noReboot operation) = 255 :=
      .inr (Link.status_of_cutShort cut)
    have completes := truly ⟨ready, passes, returns⟩
    exact (Link.completes_iff_not_cutShort passes).mp completes cut
  · rintro uncut ⟨ready, passes, returns⟩
    rw [Link.completes_iff_not_cutShort passes]
    exact fun cut => uncut ⟨ready, cut, returns⟩

namespace Bench

def abShTarget : AbShTarget where
  platform := platform
  ctx := ctx
  boot := ⟨.a, Chosen.proper⟩
  disk := disk
  layout := .imx8mpDebix
  devmem _ := 0
  emmc _ := Sector.zero

/-- The device is switched off. -/
def abShMet : AbShMet where
  linuxTry :=
    { image := none
      missing := []
      hostname := (255, "")
      unpack := []
      abLayout := false
      extract := []
      tryBegin := (255, "")
      label := []
      root := ⟨0, 255⟩
      bootImage := ⟨0, 255⟩
      authkey := none
      tryBoot := 255 }
  file := none
  send := ⟨0, 255⟩
  link := .refused
  back _ := 255
  status := ⟨255, 0⟩

end Bench

/-- `ab.sh spl rollback --no-reboot` on a device that is switched off. -/
theorem AbSh.not_reportsTruly :
    ¬ ∀ (target : AbShTarget) (met : AbShMet) (force noReboot : Bool)
      (operation : AbShOperation),
      ReportsTruly target met force noReboot operation := by
  intro truly
  have exits :
      abSh Bench.abShTarget Bench.abShMet false true .splRollback = .ok () :=
    rfl
  exact truly Bench.abShTarget Bench.abShMet false true .splRollback exits

end KmmYocto
