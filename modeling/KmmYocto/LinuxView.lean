import KmmYocto.CommandEffects
import KmmYocto.BootEffects
import KmmYocto.SameView

/-!
# What the Linux side can see

The Linux A/B set works on everything but two variables of the environment
and the M-core's files, and the M-core's commands write nothing else.  The
Linux part of the device is the device with these left out; a Linux command
does to it what it does to the device.
-/

namespace KmmYocto

/-- The variable belongs to the M-core's A/B set. -/
def EnvVar.isMcore : EnvVar → Bool
  | .mcoreSlot => true
  | .mcoreTry => true
  | _ => false

/-- A property of every variable can be tested. -/
instance EnvVar.forallDecidable (property : EnvVar → Prop)
    [∀ name, Decidable (property name)] :
    Decidable (∀ name, property name) :=
  decidable_of_iff
    (property .abSlot ∧ property .abFallbackSlot ∧
      property .upgradeAvailable ∧ property .bootcount ∧
      property .bootlimit ∧ property .bootOs ∧ property .mcoreSlot ∧
      property .mcoreTry)
    ⟨fun ⟨slot, fallback, trial, count, limit, ticket, mcore, tried⟩ name => by
        cases name with
        | abSlot => exact slot
        | abFallbackSlot => exact fallback
        | upgradeAvailable => exact trial
        | bootcount => exact count
        | bootlimit => exact limit
        | bootOs => exact ticket
        | mcoreSlot => exact mcore
        | mcoreTry => exact tried,
      fun every => ⟨every _, every _, every _, every _, every _, every _,
        every _, every _⟩⟩

namespace Env

/-- The environment without the variables of the M-core. -/
def linuxPart (env : Env) : Env where
  get name := if name.isMcore then none else env.get name

theorem get_linuxPart (env : Env) {name : EnvVar}
    (ofLinux : name.isMcore = false) :
    env.linuxPart.get name = env.get name := by
  simp [linuxPart, ofLinux]

theorem linuxPart_eq_iff (left right : Env) :
    left.linuxPart = right.linuxPart ↔
      ∀ name, name.isMcore = false → left.get name = right.get name := by
  constructor
  · intro same name ofLinux
    rw [← left.get_linuxPart ofLinux, same, right.get_linuxPart ofLinux]
  · intro same
    ext1
    funext name
    cases ofMcore : name.isMcore with
    | true => simp [linuxPart, ofMcore]
    | false => simpa [linuxPart, ofMcore] using same name ofMcore

instance (left right : Env) : Decidable (left.linuxPart = right.linuxPart) :=
  decidable_of_iff _ (linuxPart_eq_iff left right).symm

@[simp]
theorem linuxPart_linuxPart (env : Env) :
    env.linuxPart.linuxPart = env.linuxPart := by
  rw [linuxPart_eq_iff]
  intro name ofLinux
  exact env.get_linuxPart ofLinux

theorem linuxPart_set (env : Env) (name : EnvVar) (value : String)
    (ofLinux : name.isMcore = false) :
    (env.set name value).linuxPart = env.linuxPart.set name value := by
  ext1
  funext queried
  by_cases same : queried = name
  · subst same
    simp [linuxPart, ofLinux]
  · simp [linuxPart, same]

/-- A change of an M-core variable is not seen. -/
theorem linuxPart_set_mcore (env : Env) {name : EnvVar} (value : String)
    (ofMcore : name.isMcore = true) :
    (env.set name value).linuxPart = env.linuxPart := by
  rw [linuxPart_eq_iff]
  intro queried ofLinux
  apply get_set_of_ne
  rintro rfl
  cases ofLinux.symm.trans ofMcore

theorem linuxPart_setAll {assignments : List (EnvVar × String)}
    (ofLinux : ∀ assignment ∈ assignments, assignment.1.isMcore = false)
    (env : Env) :
    (env.setAll assignments).linuxPart =
      env.linuxPart.setAll assignments := by
  induction assignments generalizing env with
  | nil => rfl
  | cons first rest induction =>
      rw [setAll_cons, setAll_cons,
        induction fun assignment later =>
          ofLinux assignment (List.mem_cons_of_mem _ later),
        env.linuxPart_set _ _ (ofLinux first List.mem_cons_self)]

end Env

/-- The disk without the M-core's variables and files. -/
def Disk.linuxPart (disk : Disk) : Disk :=
  { disk with
    env := disk.env.linuxPart
    mcore := fun _ => none }

namespace Disk

variable
    {left right : Disk}

theorem envget_eq_of_linuxPart (alike : left.linuxPart = right.linuxPart)
    {name : EnvVar} (ofLinux : name.isMcore = false) :
    left.env.envget name = right.env.envget name := by
  have sameEnv : left.env.linuxPart = right.env.linuxPart :=
    congrArg Disk.env alike
  rw [Env.envget, Env.envget,
    (Env.linuxPart_eq_iff _ _).mp sameEnv name ofLinux]

theorem mbr_eq_of_linuxPart (alike : left.linuxPart = right.linuxPart) :
    left.mbr = right.mbr := by
  have same := congrArg Disk.mbr alike
  exact same

theorem linuxTry_eq_of_linuxPart (alike : left.linuxPart = right.linuxPart) :
    left.linuxTry = right.linuxTry := by
  have same := congrArg Disk.linuxTry alike
  exact same

theorem boot_eq_of_linuxPart (alike : left.linuxPart = right.linuxPart) :
    left.boot = right.boot := by
  have same := congrArg Disk.boot alike
  exact same

theorem root_eq_of_linuxPart (alike : left.linuxPart = right.linuxPart) :
    left.root = right.root := by
  have same := congrArg Disk.root alike
  exact same

/-- A write of environments that look alike leaves disks that look alike. -/
theorem linuxPart_apply_env (alike : left.linuxPart = right.linuxPart)
    {env other : Env} (sameEnv : env.linuxPart = other.linuxPart) :
    (left.apply (.env env)).linuxPart =
      (right.apply (.env other)).linuxPart := by
  simp only [linuxPart, mk.injEq, apply] at alike ⊢
  exact ⟨sameEnv, alike.2⟩

/-- Any other write of the Linux side is seen as it is. -/
theorem linuxPart_apply (alike : left.linuxPart = right.linuxPart)
    {write : Write} (notEnv : write.isEnv = false) :
    (left.apply write).linuxPart = (right.apply write).linuxPart := by
  simp only [linuxPart, mk.injEq] at alike
  obtain ⟨sameEnv, sameMbr, sameTry, sameBoot, sameRoot, -⟩ := alike
  cases write with
  | env env => cases notEnv
  | mbr mbr => simp only [linuxPart, apply, sameEnv, sameTry, sameBoot, sameRoot]
  | linuxTry file =>
      simp only [linuxPart, apply, sameEnv, sameMbr, sameBoot, sameRoot]
  | boot slot tree =>
      simp only [linuxPart, apply, sameEnv, sameMbr, sameTry, sameBoot,
        sameRoot]
  | root slot bytes =>
      simp only [linuxPart, apply, sameEnv, sameMbr, sameTry, sameBoot,
        sameRoot]
  | mcore slot file =>
      simp only [linuxPart, apply, sameEnv, sameMbr, sameTry, sameBoot,
        sameRoot]

end Disk

namespace Ab

open Script

/-- The scripts look alike to one who does not see the M-core's part. -/
abbrev SameLinux {α : Type} (first second : Ab α) : Prop :=
  SameView Disk.linuxPart first second

theorem sameLinux_lock (ctx : Ctx) : SameLinux (lock ctx) (lock ctx) :=
  sameView_require Iff.rfl _

theorem sameLinux_envget {name : EnvVar} (ofLinux : name.isMcore = false) :
    SameLinux (envget name) (envget name) := by
  refine sameView_read_bind fun left right alike => ?_
  rw [Disk.envget_eq_of_linuxPart alike ofLinux]
  exact sameView_pure _

theorem sameLinux_persist {write : Write} (notEnv : write.isEnv = false) :
    SameLinux (persist write) (persist write) :=
  sameView_persist fun _ _ alike => Disk.linuxPart_apply alike notEnv

theorem sameLinux_envVerify :
    ∀ {assignments : List (EnvVar × String)},
      (∀ assignment ∈ assignments, assignment.1.isMcore = false) →
        SameLinux (envVerify assignments) (envVerify assignments)
  | [], _ => sameView_pure _
  | (_, _) :: _, ofLinux =>
      (sameLinux_envget (ofLinux _ List.mem_cons_self)).bind fun _ =>
        (sameView_require Iff.rfl _).bind fun _ =>
          sameLinux_envVerify fun assignment later =>
            ofLinux assignment (List.mem_cons_of_mem _ later)

theorem sameLinux_envset (ctx : Ctx)
    {assignments : List (EnvVar × String)}
    (ofLinux : ∀ assignment ∈ assignments, assignment.1.isMcore = false) :
    SameLinux (envset ctx assignments) (envset ctx assignments) := by
  refine (sameView_require Iff.rfl _).bind fun _ =>
    sameView_read_bind fun left right alike =>
      .bind (sameView_persist fun _ _ now => ?_) fun _ =>
        sameLinux_envVerify ofLinux
  apply Disk.linuxPart_apply_env now
  have sameEnv : left.env.linuxPart = right.env.linuxPart :=
    congrArg Disk.env alike
  rw [Env.linuxPart_setAll ofLinux, Env.linuxPart_setAll ofLinux, sameEnv]

theorem sameLinux_mbrSet (ctx : Ctx) (slot : String) :
    SameLinux (mbrSet ctx slot) (mbrSet ctx slot) := by
  refine sameView_read_bind fun left right alike => ?_
  have sameMbr := Disk.mbr_eq_of_linuxPart alike
  obtain ⟨env, mbr, linuxTry, boot, root, mcore⟩ := left
  subst sameMbr
  refine .ite Iff.rfl (sameView_pure _) ?_
  have readBack : ∀ expected : List UInt8,
      SameLinux
        (do
          let after ← Script.read
          Script.require (after.mbr.bytes = expected)
            "ab: MBR の bootable フラグの読み戻しが一致しない" : Ab PUnit)
        (do
          let after ← Script.read
          Script.require (after.mbr.bytes = expected)
            "ab: MBR の bootable フラグの読み戻しが一致しない") := by
    refine fun expected => sameView_read_bind fun _ _ later => ?_
    refine sameView_require ?_ _
    rw [Disk.mbr_eq_of_linuxPart later]
  exact
    .ite Iff.rfl ((sameLinux_persist rfl).bind fun _ => readBack _)
      (readBack _)

theorem sameLinux_maybeReboot (noReboot : Bool) :
    SameLinux (maybeReboot noReboot) (maybeReboot noReboot) :=
  .ite Iff.rfl (sameView_pure _) sameView_reboot

theorem sameLinux_tryTarget : SameLinux tryTarget tryTarget := by
  refine sameView_read_bind fun left right alike => ?_
  rw [Disk.linuxTry_eq_of_linuxPart alike]
  exact sameView_pure _

/-! ## The Linux commands -/

theorem sameLinux_linuxTryBegin (platform : Platform) (ctx : Ctx)
    {boot other : LinuxBoot} (sameRunning : boot.running = other.running) :
    SameLinux (linuxTryBegin platform ctx boot)
      (linuxTryBegin platform ctx other) := by
  obtain ⟨running, chosen⟩ := boot
  obtain ⟨_, otherChosen⟩ := other
  subst sameRunning
  exact
    (sameLinux_lock ctx).bind fun _ => (sameLinux_envget rfl).bind fun _ =>
      (sameView_require Iff.rfl _).bind fun _ =>
        (sameLinux_envget rfl).bind fun _ =>
          (sameView_require Iff.rfl _).bind fun _ =>
            (sameView_require Iff.rfl _).bind fun _ =>
              (sameLinux_persist rfl).bind fun _ => sameView_pure _

theorem sameLinux_linuxTryRoot (platform : Platform) (ctx : Ctx)
    (arguments : Option (Nat × String)) (stream : Stream) :
    SameLinux (linuxTryRoot platform ctx arguments stream)
      (linuxTryRoot platform ctx arguments stream) := by
  rcases arguments with _ | ⟨size, sum⟩
  · exact sameView_die _
  · refine (sameView_require Iff.rfl _).bind fun _ =>
      sameLinux_tryTarget.bind fun target => ?_
    cases target with
    | none => exact sameView_die _
    | some tgt =>
        refine (sameLinux_lock ctx).bind fun _ =>
          (sameView_require Iff.rfl _).bind fun _ =>
            sameView_read_bind fun left right alike => ?_
        have sameRoot := Disk.root_eq_of_linuxPart alike
        obtain ⟨env, mbr, linuxTry, boot, root, mcore⟩ := left
        subst sameRoot
        exact
          (sameLinux_persist rfl).bind fun _ =>
            (sameView_require Iff.rfl _).bind fun _ =>
              sameView_require Iff.rfl _

theorem sameLinux_linuxTryBoot (platform : Platform) (ctx : Ctx)
    (image : Option BootTree) (key : Option (List Char)) :
    SameLinux (linuxTryBoot platform ctx image key)
      (linuxTryBoot platform ctx image key) := by
  cases image with
  | none => exact sameView_die _
  | some source =>
      refine sameLinux_tryTarget.bind fun target => ?_
      cases target with
      | none => exact sameView_die _
      | some tgt =>
          refine (sameLinux_lock ctx).bind fun _ =>
            (sameView_require Iff.rfl _).bind fun _ =>
              sameView_read_bind fun left right alike => ?_
          have sameBoot := Disk.boot_eq_of_linuxPart alike
          obtain ⟨env, mbr, linuxTry, boot, root, mcore⟩ := left
          subst sameBoot
          refine (sameLinux_persist rfl).bind fun _ =>
            (sameLinux_persist rfl).bind fun _ => ?_
          cases BootFiles.file
              (BootFiles.copyInto source (BootFiles.clear (right.boot tgt)))
              "extlinux/extlinux.conf" with
          | none => exact sameView_die _
          | some text =>
              exact
                (sameLinux_persist rfl).bind fun _ =>
                  sameView_require Iff.rfl _

theorem sameLinux_linuxTryArm (ctx : Ctx) {boot other : LinuxBoot}
    (sameRunning : boot.running = other.running) (noReboot : Bool) :
    SameLinux (linuxTryArm ctx boot noReboot)
      (linuxTryArm ctx other noReboot) := by
  obtain ⟨running, chosen⟩ := boot
  obtain ⟨_, otherChosen⟩ := other
  subst sameRunning
  refine sameLinux_tryTarget.bind fun target => ?_
  cases target with
  | none => exact sameView_die _
  | some tgt =>
      exact
        (sameLinux_lock ctx).bind fun _ =>
          (sameLinux_envset ctx (by simp [EnvVar.isMcore])).bind fun _ =>
            sameLinux_maybeReboot noReboot

/-- The checks before a commit look at nothing of the M-core. -/
theorem linuxChecks_eq (ctx : Ctx) {boot other : LinuxBoot}
    (sameRunning : boot.running = other.running)
    (falcon : boot.chosen.falcon = other.chosen.falcon)
    (slot : boot.chosen.abSlot = other.chosen.abSlot) {left right : Disk}
    (alike : left.linuxPart = right.linuxPart) :
    linuxChecks ctx boot left = linuxChecks ctx other right := by
  simp only [linuxChecks, sameRunning, falcon, slot,
    Disk.linuxTry_eq_of_linuxPart alike,
    @Disk.envget_eq_of_linuxPart _ _ alike .bootOs rfl]

theorem sameLinux_linuxCommit (ctx : Ctx) {boot other : LinuxBoot}
    (sameRunning : boot.running = other.running)
    (falcon : boot.chosen.falcon = other.chosen.falcon)
    (slot : boot.chosen.abSlot = other.chosen.abSlot) (force : Bool) :
    SameLinux (linuxCommit ctx boot force) (linuxCommit ctx other force) := by
  obtain ⟨running, chosen⟩ := boot
  obtain ⟨_, otherChosen⟩ := other
  subst sameRunning
  refine (sameLinux_lock ctx).bind fun _ =>
    (sameLinux_envget rfl).bind fun _ => (sameLinux_envget rfl).bind fun _ =>
      .ite Iff.rfl ?_ ?_
  · exact
      (sameView_require Iff.rfl _).bind fun _ => sameLinux_mbrSet ctx _
  · refine (sameView_require Iff.rfl _).bind fun _ =>
      sameView_read_bind fun left right alike => ?_
    have sameChecks :=
      @linuxChecks_eq ctx ⟨running, chosen⟩ ⟨running, otherChosen⟩ rfl falcon
        slot _ _ alike
    rw [sameChecks]
    exact
      (sameView_require Iff.rfl _).bind fun _ =>
        (sameLinux_envset ctx (by simp [EnvVar.isMcore])).bind fun _ =>
          (sameLinux_mbrSet ctx _).bind fun _ => sameLinux_persist rfl

theorem linuxSlotOk_eq (ctx : Ctx) {left right : Disk}
    (alike : left.linuxPart = right.linuxPart) (slot : Slot) :
    linuxSlotOk ctx left slot = linuxSlotOk ctx right slot := by
  simp only [linuxSlotOk, Disk.boot_eq_of_linuxPart alike,
    Disk.root_eq_of_linuxPart alike]

theorem sameLinux_linuxRollback (ctx : Ctx) {boot other : LinuxBoot}
    (sameRunning : boot.running = other.running) (noReboot : Bool) :
    SameLinux (linuxRollback ctx boot noReboot)
      (linuxRollback ctx other noReboot) := by
  obtain ⟨running, chosen⟩ := boot
  obtain ⟨_, otherChosen⟩ := other
  subst sameRunning
  refine (sameLinux_lock ctx).bind fun _ =>
    (sameLinux_envget rfl).bind fun _ => .ite Iff.rfl ?_ ?_
  · exact
      (sameLinux_envget rfl).bind fun _ =>
        (sameLinux_envset ctx (by simp [EnvVar.isMcore])).bind fun _ =>
          (sameLinux_mbrSet ctx _).bind fun _ =>
            (sameLinux_persist rfl).bind fun _ =>
              sameLinux_maybeReboot noReboot
  · refine (sameLinux_envget rfl).bind fun _ =>
      (sameView_require Iff.rfl _).bind fun _ =>
        sameView_read_bind fun left right alike => ?_
    rw [linuxSlotOk_eq ctx alike]
    exact
      (sameView_require Iff.rfl _).bind fun _ =>
        (sameLinux_persist rfl).bind fun _ =>
          (sameLinux_envset ctx (by simp [EnvVar.isMcore])).bind fun _ =>
            sameLinux_maybeReboot noReboot

/-! ## The M-core commands -/

/-- An M-core variable that is written is not seen. -/
theorem linuxPart_wroteEnv {session : Session Disk Write} {name : EnvVar}
    (ofMcore : name.isMcore = true) (value : String) :
    (wroteEnv session (session.store.env.set name value)).store.linuxPart =
      session.store.linuxPart := by
  simp only [wroteEnv, Disk.linuxPart,
    Env.linuxPart_set_mcore _ value ofMcore]

theorem hides_mcoreUpdate (platform : Platform) (ctx : Ctx)
    (file : Option (List UInt8)) (noReboot : Bool) (disk : Disk) :
    Ends (mcoreUpdate platform ctx file noReboot) ⟨disk, [], false⟩
      fun _ later => later.store.linuxPart = disk.linuxPart := by
  cases file with
  | none => rfl
  | some bytes =>
      simp only [mcoreUpdate, ends_bind, ends_lock, ends_envget,
        ends_require, ends_persist, ends_envset_single, ends_maybeReboot]
      refine ⟨fun _ => ⟨fun _ => ⟨fun _ => ⟨fun _ => ⟨fun _ => ⟨fun _ => ?_,
        ?_⟩, ?_⟩, ?_⟩, ?_⟩, ?_⟩, ?_⟩
      · exact linuxPart_wroteEnv rfl _
      all_goals first | exact fun _ => trivial | exact fun _ => rfl

theorem hides_mcoreRollback (platform : Platform) (ctx : Ctx)
    (noReboot : Bool) (disk : Disk) :
    Ends (mcoreRollback platform ctx noReboot) ⟨disk, [], false⟩
      fun _ later => later.store.linuxPart = disk.linuxPart := by
  simp only [mcoreRollback, ends_bind, ends_lock, ends_envget, ends_require,
    ends_read, ends_envset_single, ends_maybeReboot]
  refine ⟨fun _ => ⟨fun _ => ⟨fun _ => ⟨fun _ => ?_, ?_⟩, ?_⟩, ?_⟩, ?_⟩
  · exact linuxPart_wroteEnv rfl _
  all_goals exact fun _ => trivial

theorem hides_mcoreConfirm (ctx : Ctx) (boot : LinuxBoot) (healthy : Bool)
    (disk : Disk) :
    Ends (mcoreConfirm ctx boot healthy) ⟨disk, [], false⟩
      fun _ later => later.store.linuxPart = disk.linuxPart := by
  rw [mcoreConfirm]
  cases boot.chosen.mcoreTry with
  | none => rfl
  | some tried =>
      simp only [ends_bind, ends_envget, ends_ite, ends_envset_single,
        ends_reboot, ends_pure]
      refine ⟨fun _ => ⟨fun _ => ?_, fun _ => trivial⟩,
        fun _ => ⟨fun _ => trivial, fun _ => trivial⟩⟩
      exact linuxPart_wroteEnv rfl _

end Ab

/-- No M-core command changes the Linux part of the disk. -/
theorem Machine.session_linuxPart (platform : Platform) (machine : Machine)
    {issued : Machine.Issued} (ofMcore : issued.command.isMcore = true) :
    (machine.session platform issued).store.linuxPart =
      machine.disk.linuxPart := by
  obtain ⟨command, ctx, boot⟩ := issued
  cases command with
  | mcoreUpdate file noReboot =>
      exact Ab.hides_mcoreUpdate platform ctx file noReboot machine.disk
  | mcoreRollback noReboot =>
      exact Ab.hides_mcoreRollback platform ctx noReboot machine.disk
  | mcoreConfirm healthy =>
      exact Ab.hides_mcoreConfirm ctx boot healthy machine.disk
  | _ => cases ofMcore

end KmmYocto
