import KmmYocto.Device

/-!
# What each `ab` command can do

Every environment write of the Linux commands sets the same four variables,
so the commands differ only in the three values they write and in what they
check before.  `Moves` lists, once and for all, what a command can do to the
environment and to `linux-try`, with the checks that came before; the
invariants of the device are then case analyses over it.
-/

namespace KmmYocto

namespace Env

/-- The four variables that `arm`, `commit` and `rollback` write together. -/
def setTrial (env : Env) (slot fallback trial : String) : Env :=
  env.setAll
    [(.abSlot, slot), (.abFallbackSlot, fallback),
      (.upgradeAvailable, trial), (.bootcount, "0")]

theorem get_setTrial_of_ne (env : Env) (slot fallback trial : String)
    {name : EnvVar}
    (notSlot : name ≠ .abSlot) (notFallback : name ≠ .abFallbackSlot)
    (notTrial : name ≠ .upgradeAvailable) (notCount : name ≠ .bootcount) :
    (env.setTrial slot fallback trial).get name = env.get name := by
  simp [setTrial, notSlot, notFallback, notTrial, notCount]

/-- Reading back what was set gives what was set, the empty string included. -/
theorem envget_setAll {assignments : List (EnvVar × String)}
    (distinct : (assignments.map Prod.fst).Nodup) (env : Env) :
    ∀ assignment ∈ assignments,
      (env.setAll assignments).envget assignment.1 = assignment.2 := by
  induction assignments generalizing env with
  | nil => simp
  | cons first rest induction =>
      rw [List.map_cons, List.nodup_cons] at distinct
      obtain ⟨fresh, restDistinct⟩ := distinct
      intro assignment member
      rcases List.mem_cons.mp member with rfl | later
      · have kept :
            ((env.set assignment.1 assignment.2).setAll rest).get
                assignment.1 =
              (env.set assignment.1 assignment.2).get assignment.1 := by
          apply get_setAll_of_notMem
          intro other otherMember equal
          exact fresh (equal ▸ List.mem_map_of_mem otherMember)
        rw [setAll_cons, envget, kept]
        by_cases empty : assignment.2 = "" <;> simp [empty]
      · exact induction restDistinct _ assignment later

/-- What a script reads right after setting the variable. -/
@[simp]
theorem envget_set_self (env : Env) (name : EnvVar) (value : String) :
    (env.set name value).envget name = value := by
  by_cases empty : value = "" <;> simp [envget, empty]

@[simp]
theorem envget_set_of_ne (env : Env) {name queried : EnvVar} (value : String)
    (distinct : queried ≠ name) :
    (env.set name value).envget queried = env.envget queried := by
  simp [envget, distinct]

theorem get_of_envget {env : Env} {name : EnvVar} {value : String}
    (read : env.envget name = value) (nonempty : value ≠ "") :
    env.get name = some value := by
  rw [envget] at read
  cases stored : env.get name with
  | none =>
      rw [stored] at read
      exact absurd read.symm nonempty
  | some text =>
      rw [stored] at read
      exact congrArg some read

@[simp]
theorem envget_abSlot_setTrial (env : Env) (slot fallback trial : String) :
    (env.setTrial slot fallback trial).envget .abSlot = slot := by
  simp [setTrial]

@[simp]
theorem envget_abFallbackSlot_setTrial (env : Env)
    (slot fallback trial : String) :
    (env.setTrial slot fallback trial).envget .abFallbackSlot = fallback := by
  simp [setTrial]

@[simp]
theorem envget_upgradeAvailable_setTrial (env : Env)
    (slot fallback trial : String) :
    (env.setTrial slot fallback trial).envget .upgradeAvailable = trial := by
  simp [setTrial]

end Env

namespace Ab

/-! ## Postconditions of the building blocks -/

@[simp]
theorem ends_lock (ctx : Ctx) (session : Session Disk Write)
    (post : Except String PUnit → Session Disk Write → Prop) :
    Script.Ends (lock ctx) session post ↔
      (ctx.lockFree = true → post (.ok PUnit.unit) session) ∧
        (¬ ctx.lockFree = true →
          post (.error "ab: 別の ab の操作が実行中") session) := by
  rw [lock, Script.ends_require]

@[simp]
theorem ends_envget (name : EnvVar) (session : Session Disk Write)
    (post : Except String String → Session Disk Write → Prop) :
    Script.Ends (envget name) session post ↔
      post (.ok (session.store.env.envget name)) session :=
  Iff.rfl

@[simp]
theorem ends_tryTarget (session : Session Disk Write)
    (post : Except String (Option Slot) → Session Disk Write → Prop) :
    Script.Ends tryTarget session post ↔
      post (.ok (session.store.linuxTry.map LinuxTry.toSlot)) session :=
  Iff.rfl

@[simp]
theorem ends_maybeReboot (noReboot : Bool) (session : Session Disk Write)
    (post : Except String PUnit → Session Disk Write → Prop) :
    Script.Ends (maybeReboot noReboot) session post ↔
      post (.ok PUnit.unit)
        { session with rebooting := session.rebooting || !noReboot } := by
  cases noReboot <;> simp [maybeReboot]

/-- Reading back assignments that are all in place succeeds. -/
theorem ends_envVerify {assignments : List (EnvVar × String)}
    {session : Session Disk Write}
    (stored : ∀ assignment ∈ assignments,
      session.store.env.envget assignment.1 = assignment.2)
    (post : Except String PUnit → Session Disk Write → Prop) :
    Script.Ends (envVerify assignments) session post ↔
      post (.ok PUnit.unit) session := by
  induction assignments with
  | nil => rfl
  | cons first rest induction =>
      have firstStored := stored first List.mem_cons_self
      have restStored :
          ∀ assignment ∈ rest,
            session.store.env.envget assignment.1 = assignment.2 :=
        fun assignment member =>
          stored assignment (List.mem_cons_of_mem _ member)
      simp [envVerify, firstStored, induction restStored]

/-- The session after an environment write. -/
def wroteEnv (session : Session Disk Write) (env : Env) :
    Session Disk Write where
  store := { session.store with env }
  writes := session.writes ++ [.env env]
  rebooting := session.rebooting

/-- `envset` either stores all its assignments or fails and stores none. -/
theorem ends_envset {assignments : List (EnvVar × String)}
    (distinct : (assignments.map Prod.fst).Nodup)
    (ctx : Ctx) (session : Session Disk Write)
    (post : Except String PUnit → Session Disk Write → Prop) :
    Script.Ends (envset ctx assignments) session post ↔
      (ctx.fwSetenvOk = true →
        post (.ok PUnit.unit)
          (wroteEnv session (session.store.env.setAll assignments))) ∧
      (¬ ctx.fwSetenvOk = true →
        post (.error "ab: fw_setenv に失敗") session) := by
  have readBack :
      ∀ assignment ∈ assignments,
        (wroteEnv session (session.store.env.setAll assignments)).store.env.envget
          assignment.1 = assignment.2 :=
    Env.envget_setAll distinct session.store.env
  simp only [envset, Script.ends_bind, Script.ends_require, Script.ends_read,
    Script.ends_persist]
  exact and_congr_left fun _ =>
    imp_congr_right fun _ => ends_envVerify readBack post

/-- `envset` of the four variables of the trial. -/
@[simp]
theorem ends_envset_trial (slot fallback trial : String)
    (ctx : Ctx) (session : Session Disk Write)
    (post : Except String PUnit → Session Disk Write → Prop) :
    Script.Ends
        (envset ctx
          [(.abSlot, slot), (.abFallbackSlot, fallback),
            (.upgradeAvailable, trial), (.bootcount, "0")])
        session post ↔
      (ctx.fwSetenvOk = true →
        post (.ok PUnit.unit)
          (wroteEnv session
            (session.store.env.setTrial slot fallback trial))) ∧
      (¬ ctx.fwSetenvOk = true →
        post (.error "ab: fw_setenv に失敗") session) :=
  ends_envset (by simp) ctx session post

/-- `envset` of one variable. -/
@[simp]
theorem ends_envset_single (name : EnvVar) (value : String)
    (ctx : Ctx) (session : Session Disk Write)
    (post : Except String PUnit → Session Disk Write → Prop) :
    Script.Ends (envset ctx [(name, value)]) session post ↔
      (ctx.fwSetenvOk = true →
        post (.ok PUnit.unit)
          (wroteEnv session (session.store.env.set name value))) ∧
      (¬ ctx.fwSetenvOk = true →
        post (.error "ab: fw_setenv に失敗") session) :=
  ends_envset (by simp) ctx session post

/-- `mbr_set` changes only the MBR, and succeeds if the sector can be written. -/
theorem ends_mbrSet {ctx : Ctx} {slot : String}
    {session : Session Disk Write}
    {post : Except String PUnit → Session Disk Write → Prop}
    (unchanged : post (.ok PUnit.unit) session)
    (written : ∀ mbr,
      post (.ok PUnit.unit)
        { session with
          store := { session.store with mbr }
          writes := session.writes ++ [.mbr mbr] })
    (refused : ∀ message,
      ¬ ctx.mbrWriteOk = true → post (.error message) session) :
    Script.Ends (mbrSet ctx slot) session post := by
  simp only [mbrSet, Script.ends_bind, Script.ends_read, Script.ends_ite,
    Script.ends_pure, Script.ends_require]
  constructor
  · intro _
    exact unchanged
  · intro _
    constructor
    · intro _
      simp only [Script.ends_persist]
      constructor
      · intro _
        exact written _
      · intro differs
        exact absurd rfl differs
    · intro notWritten
      constructor
      · intro _
        exact unchanged
      · intro _
        exact refused _ notWritten

end Ab

/-! ## The commands -/

namespace AbCommand

/-- The command is one of `ab mcore`. -/
def isMcore : AbCommand → Bool
  | .mcoreUpdate _ _ => true
  | .mcoreRollback _ => true
  | .mcoreConfirm _ => true
  | _ => false

/-- The command is `ab linux try arm`. -/
def isArm : AbCommand → Bool
  | .linuxTryArm _ => true
  | _ => false

/-- The command is `ab linux commit`. -/
def isCommit : AbCommand → Bool
  | .linuxCommit _ => true
  | _ => false

/-- The command reads the target back from `linux-try`. -/
def usesTarget : AbCommand → Bool
  | .linuxTryRoot _ _ => true
  | .linuxTryBoot _ _ => true
  | .linuxTryArm _ => true
  | _ => false

theorem not_commit_of_mcore {command : AbCommand} {wrote : Bool}
    (ofMcore : command.isMcore = true) :
    ¬ (command.isCommit = true ∧ wrote = true) := by
  rintro ⟨commit, -⟩
  cases command with
  | linuxCommit force => cases ofMcore
  | _ => cases commit

theorem not_commit_of_isArm {command : AbCommand}
    (arms : command.isArm = true) : ¬ command.isCommit = true := by
  cases command with
  | linuxTryArm noReboot => exact nofun
  | _ => cases arms

theorem usesTarget_of_isArm {command : AbCommand}
    (arms : command.isArm = true) : command.usesTarget = true := by
  cases command with
  | linuxTryArm noReboot => rfl
  | _ => cases arms

end AbCommand

/--
What a command can do to the environment and to `linux-try`.  The flag says
whether it wrote the environment.
-/
inductive Moves (ctx : Ctx) (boot : LinuxBoot) (disk : Disk) :
    AbCommand → Bool → Env → Option LinuxTry → Prop where
  | nothing (command : AbCommand) :
      Moves ctx boot disk command false disk.env disk.linuxTry
  | begun
      (settled : disk.env.envget .upgradeAvailable ≠ "1")
      (confirmed : disk.env.envget .abSlot = boot.running.name)
      (tailscale : String) :
      Moves ctx boot disk .linuxTryBegin false disk.env
        (some ⟨boot.running, boot.running.other, tailscale⟩)
  | armed (noReboot : Bool) {file : LinuxTry}
      (found : disk.linuxTry = some file)
      (stored : ctx.lockFree = true ∧ ctx.fwSetenvOk = true) :
      Moves ctx boot disk (.linuxTryArm noReboot) true
        (disk.env.setTrial file.toSlot.name boot.running.name "1")
        disk.linuxTry
  | committed (force : Bool) {file : Option LinuxTry}
      (trial : disk.env.envget .upgradeAvailable = "1")
      (tried : disk.env.envget .abSlot = boot.running.name)
      (removed : file = none ∨
        (¬ ctx.mbrWriteOk = true ∧ file = disk.linuxTry)) :
      Moves ctx boot disk (.linuxCommit force) true
        (disk.env.setTrial boot.running.name boot.running.name "0") file
  | rolledBack (noReboot : Bool) {file : Option LinuxTry}
      (trial : disk.env.envget .upgradeAvailable = "1")
      (removed : file = none ∨ file = disk.linuxTry) :
      Moves ctx boot disk (.linuxRollback noReboot) true
        (disk.env.setTrial (disk.env.envget .abFallbackSlot)
          (disk.env.envget .abFallbackSlot) "0") file
  | forgotten (noReboot : Bool)
      (settled : disk.env.envget .upgradeAvailable ≠ "1") :
      Moves ctx boot disk (.linuxRollback noReboot) false disk.env none
  | returned (noReboot : Bool)
      (settled : disk.env.envget .upgradeAvailable ≠ "1")
      (confirmed : disk.env.envget .abSlot = boot.running.name) :
      Moves ctx boot disk (.linuxRollback noReboot) true
        (disk.env.setTrial boot.running.other.name boot.running.name "1")
        none
  | mcore {command : AbCommand} (ofMcore : command.isMcore = true)
      {name : EnvVar}
      (own : name = .mcoreTry ∨ name = .mcoreSlot) (value : String) :
      Moves ctx boot disk command true (disk.env.set name value)
        disk.linuxTry

/-- The commands for the M-core touch only its own two variables. -/
theorem Moves.get_of_isMcore {ctx : Ctx} {boot : LinuxBoot} {disk : Disk}
    {command : AbCommand} {wrote : Bool} {env : Env} {file : Option LinuxTry}
    (moves : Moves ctx boot disk command wrote env file)
    (ofMcore : command.isMcore = true) {name : EnvVar}
    (notSlot : name ≠ .mcoreSlot) (notTry : name ≠ .mcoreTry) :
    env.get name = disk.env.get name := by
  cases moves with
  | nothing => rfl
  | begun => rfl
  | mcore _ own value =>
      apply Env.get_set_of_ne
      rintro rfl
      exact own.elim notTry notSlot
  | armed => cases ofMcore
  | committed => cases ofMcore
  | rolledBack => cases ofMcore
  | forgotten => rfl
  | returned => cases ofMcore

/-- The write is one of the environment. -/
def Write.isEnv : Write → Bool
  | .env _ => true
  | _ => false

/-- The session wrote the environment. -/
def Session.wroteEnv (session : Session Disk Write) : Bool :=
  session.writes.any Write.isEnv

namespace Machine

variable
    {platform : Platform} {machine : Machine} {boot : LinuxBoot}
    {ctx : Ctx}

/-- A command's effect, stated of the session it ends in. -/
def AbMoves (platform : Platform) (machine : Machine) (boot : LinuxBoot)
    (command : AbCommand) (ctx : Ctx) : Prop :=
  let session := (machine.runAb platform boot command ctx).2
  Moves ctx boot machine.disk command session.wroteEnv session.store.env
    session.store.linuxTry

theorem abMoves_linuxTryArm (noReboot : Bool) :
    machine.AbMoves platform boot (.linuxTryArm noReboot) ctx := by
  show Script.Ends (Ab.linuxTryArm ctx boot noReboot)
    ⟨machine.disk, [], false⟩ fun _ later =>
      Moves ctx boot machine.disk (.linuxTryArm noReboot) later.wroteEnv
        later.store.env later.store.linuxTry
  simp only [Ab.linuxTryArm, Script.ends_bind, Ab.ends_tryTarget]
  cases found : machine.disk.linuxTry with
  | none =>
      simp only [Option.map_none, Script.ends_die]
      exact .nothing _
  | some file =>
      simp only [Option.map_some, Script.ends_bind, Ab.ends_lock,
        Ab.ends_envset_trial, Ab.ends_maybeReboot]
      constructor
      · intro lockFree
        constructor
        · intro stored
          exact .armed noReboot found ⟨lockFree, stored⟩
        · intro _
          exact .nothing _
      · intro _
        exact .nothing _

theorem abMoves_linuxTryBegin :
    machine.AbMoves platform boot .linuxTryBegin ctx := by
  show Script.Ends (AbCommand.linuxTryBegin.script platform ctx boot)
    ⟨machine.disk, [], false⟩ fun _ later =>
      Moves ctx boot machine.disk .linuxTryBegin later.wroteEnv
        later.store.env later.store.linuxTry
  simp only [AbCommand.script, Ab.linuxTryBegin, Script.ends_bind,
    Ab.ends_lock, Ab.ends_envget, Script.ends_require, Script.ends_persist,
    Script.ends_pure]
  constructor
  · intro _
    constructor
    · intro settled
      constructor
      · intro confirmed
        constructor
        · intro _
          exact .begun settled confirmed ctx.tailscaleState
        · intro _
          exact .nothing _
      · intro _
        exact .nothing _
    · intro _
      exact .nothing _
  · intro _
    exact .nothing _

theorem abMoves_linuxCommit (force : Bool) :
    machine.AbMoves platform boot (.linuxCommit force) ctx := by
  show Script.Ends (Ab.linuxCommit ctx boot force)
    ⟨machine.disk, [], false⟩ fun _ later =>
      Moves ctx boot machine.disk (.linuxCommit force) later.wroteEnv
        later.store.env later.store.linuxTry
  simp only [Ab.linuxCommit, Script.ends_bind, Ab.ends_lock, Ab.ends_envget,
    Script.ends_ite, Script.ends_require, Script.ends_read,
    Ab.ends_envset_trial]
  constructor
  · intro _
    constructor
    · intro _
      constructor
      · intro _
        exact Ab.ends_mbrSet (.nothing _) (fun _ => .nothing _)
          (fun _ _ => .nothing _)
      · intro _
        exact .nothing _
    · intro trial
      constructor
      · intro tried
        constructor
        · intro _
          constructor
          · intro _
            apply Ab.ends_mbrSet
            · exact .committed force (not_not.mp trial) tried (.inl rfl)
            · intro _
              exact .committed force (not_not.mp trial) tried (.inl rfl)
            · intro _ refused
              exact .committed force (not_not.mp trial) tried
                (.inr ⟨refused, rfl⟩)
          · intro _
            exact .nothing _
        · intro _
          exact .nothing _
      · intro _
        exact .nothing _
  · intro _
    exact .nothing _

theorem abMoves_linuxRollback (noReboot : Bool) :
    machine.AbMoves platform boot (.linuxRollback noReboot) ctx := by
  show Script.Ends (Ab.linuxRollback ctx boot noReboot)
    ⟨machine.disk, [], false⟩ fun _ later =>
      Moves ctx boot machine.disk (.linuxRollback noReboot) later.wroteEnv
        later.store.env later.store.linuxTry
  simp only [Ab.linuxRollback, Script.ends_bind, Ab.ends_lock,
    Ab.ends_envget, Script.ends_ite, Script.ends_require, Script.ends_read,
    Script.ends_persist, Ab.ends_envset_trial, Ab.ends_maybeReboot]
  constructor
  · intro _
    constructor
    · intro trial
      constructor
      · intro _
        apply Ab.ends_mbrSet
        · exact .rolledBack noReboot trial (.inl rfl)
        · intro _
          exact .rolledBack noReboot trial (.inl rfl)
        · intro _ _
          exact .rolledBack noReboot trial (.inr rfl)
      · intro _
        exact .nothing _
    · intro settled
      constructor
      · intro confirmed
        constructor
        · intro _
          constructor
          · intro _
            exact .returned noReboot settled confirmed
          · intro _
            exact .forgotten noReboot settled
        · intro _
          exact .nothing _
      · intro _
        exact .nothing _
  · intro _
    exact .nothing _

theorem abMoves_linuxTryRoot (arguments : Option (Nat × String))
    (stream : Ab.Stream) :
    machine.AbMoves platform boot (.linuxTryRoot arguments stream) ctx := by
  show Script.Ends (Ab.linuxTryRoot platform ctx arguments stream)
    ⟨machine.disk, [], false⟩ fun _ later =>
      Moves ctx boot machine.disk (.linuxTryRoot arguments stream)
        later.wroteEnv later.store.env later.store.linuxTry
  cases arguments with
  | none => exact .nothing _
  | some pair =>
      obtain ⟨size, sum⟩ := pair
      simp only [Ab.linuxTryRoot, Script.ends_bind, Script.ends_require,
        Ab.ends_tryTarget]
      refine ⟨fun _ => ?_, fun _ => .nothing _⟩
      cases machine.disk.linuxTry.map LinuxTry.toSlot with
      | none => exact .nothing _
      | some tgt =>
          simp only [Script.ends_bind, Ab.ends_lock, Script.ends_require,
            Script.ends_read, Script.ends_persist]
          refine ⟨fun _ => ⟨fun _ => ⟨fun _ => ⟨?_, ?_⟩, ?_⟩, ?_⟩, ?_⟩ <;>
            exact fun _ => .nothing _

theorem abMoves_linuxTryBoot (image : Option BootTree)
    (key : Option (List Char)) :
    machine.AbMoves platform boot (.linuxTryBoot image key) ctx := by
  show Script.Ends (Ab.linuxTryBoot platform ctx image key)
    ⟨machine.disk, [], false⟩ fun _ later =>
      Moves ctx boot machine.disk (.linuxTryBoot image key)
        later.wroteEnv later.store.env later.store.linuxTry
  cases image with
  | none => exact .nothing _
  | some source =>
      simp only [Ab.linuxTryBoot, Script.ends_bind, Ab.ends_tryTarget]
      cases machine.disk.linuxTry.map LinuxTry.toSlot with
      | none => exact .nothing _
      | some tgt =>
          simp only [Script.ends_bind, Ab.ends_lock, Script.ends_require,
            Script.ends_read, Script.ends_persist]
          refine ⟨fun _ => ⟨fun _ => ?_, fun _ => .nothing _⟩,
            fun _ => .nothing _⟩
          cases BootFiles.file
              (BootFiles.copyInto source
                (BootFiles.clear (machine.disk.boot tgt)))
              "extlinux/extlinux.conf" with
          | none => exact .nothing _
          | some text =>
              simp only [Script.ends_bind, Script.ends_persist,
                Script.ends_require]
              exact ⟨fun _ => .nothing _, fun _ => .nothing _⟩

theorem abMoves_mcoreUpdate (file : Option (List UInt8)) (noReboot : Bool) :
    machine.AbMoves platform boot (.mcoreUpdate file noReboot) ctx := by
  show Script.Ends (Ab.mcoreUpdate platform ctx file noReboot)
    ⟨machine.disk, [], false⟩ fun _ later =>
      Moves ctx boot machine.disk (.mcoreUpdate file noReboot)
        later.wroteEnv later.store.env later.store.linuxTry
  cases file with
  | none => exact .nothing _
  | some bytes =>
      simp only [Ab.mcoreUpdate, Script.ends_bind, Ab.ends_lock,
        Ab.ends_envget, Script.ends_require, Script.ends_persist,
        Ab.ends_envset_single, Ab.ends_maybeReboot]
      refine ⟨fun _ => ⟨fun _ => ⟨fun _ => ⟨fun _ => ⟨fun _ => ⟨fun _ => ?_,
        ?_⟩, ?_⟩, ?_⟩, ?_⟩, ?_⟩, ?_⟩
      · exact .mcore rfl (.inl rfl) _
      all_goals exact fun _ => .nothing _

theorem abMoves_mcoreRollback (noReboot : Bool) :
    machine.AbMoves platform boot (.mcoreRollback noReboot) ctx := by
  show Script.Ends (Ab.mcoreRollback platform ctx noReboot)
    ⟨machine.disk, [], false⟩ fun _ later =>
      Moves ctx boot machine.disk (.mcoreRollback noReboot)
        later.wroteEnv later.store.env later.store.linuxTry
  simp only [Ab.mcoreRollback, Script.ends_bind, Ab.ends_lock,
    Ab.ends_envget, Script.ends_require, Script.ends_read,
    Ab.ends_envset_single, Ab.ends_maybeReboot]
  refine ⟨fun _ => ⟨fun _ => ⟨fun _ => ⟨fun _ => ?_, ?_⟩, ?_⟩, ?_⟩, ?_⟩
  · exact .mcore rfl (.inl rfl) _
  all_goals exact fun _ => .nothing _

theorem abMoves_mcoreConfirm (healthy : Bool) :
    machine.AbMoves platform boot (.mcoreConfirm healthy) ctx := by
  show Script.Ends (Ab.mcoreConfirm ctx boot healthy)
    ⟨machine.disk, [], false⟩ fun _ later =>
      Moves ctx boot machine.disk (.mcoreConfirm healthy)
        later.wroteEnv later.store.env later.store.linuxTry
  rw [Ab.mcoreConfirm]
  cases boot.chosen.mcoreTry with
  | none => exact .nothing _
  | some tried =>
      simp only [Script.ends_bind, Ab.ends_envget, Script.ends_ite,
        Ab.ends_envset_single, Script.ends_reboot, Script.ends_pure]
      refine ⟨fun _ => ⟨fun _ => ?_, fun _ => .nothing _⟩,
        fun _ => ⟨fun _ => .nothing _, fun _ => .nothing _⟩⟩
      exact .mcore rfl (.inr rfl) _

/-- Every command, on every device, does one of the listed things. -/
theorem abMoves (platform : Platform) (machine : Machine)
    (boot : LinuxBoot) (command : AbCommand) (ctx : Ctx) :
    machine.AbMoves platform boot command ctx := by
  cases command with
  | linuxTryBegin => exact abMoves_linuxTryBegin
  | linuxTryRoot arguments stream =>
      exact abMoves_linuxTryRoot arguments stream
  | linuxTryBoot image key => exact abMoves_linuxTryBoot image key
  | linuxTryArm noReboot => exact abMoves_linuxTryArm noReboot
  | linuxCommit force => exact abMoves_linuxCommit force
  | linuxRollback noReboot => exact abMoves_linuxRollback noReboot
  | mcoreUpdate file noReboot => exact abMoves_mcoreUpdate file noReboot
  | mcoreRollback noReboot => exact abMoves_mcoreRollback noReboot
  | mcoreConfirm healthy => exact abMoves_mcoreConfirm healthy

end Machine

end KmmYocto
