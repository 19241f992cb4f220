import KmmYocto.SplBoot

/-!
# The A/B part of U-Boot proper

U-Boot proper reads the stored environment, counts the boot while an upgrade
is pending, and runs `altbootcmd` instead of `bootcmd` once the count is over
`bootlimit`.  Both commands end in `ab_boot`, which boots the slot `ab_slot`
names.  The commands are those of `ab-env.txt`.
-/

namespace KmmYocto

namespace Env

/-- `upgrade_available` as U-Boot's boot counter reads it: a number. -/
def Upgrading (env : Env) : Prop :=
  env.getUlong .upgradeAvailable 0 ≠ 0

instance (env : Env) : Decidable env.Upgrading :=
  inferInstanceAs (Decidable (_ ≠ _))

/-- `bootcount_load`. -/
def bootcountLoad (env : Env) : Nat :=
  if env.Upgrading then env.getUlong .bootcount 0 else 0

/-- The environment after `bootcount_inc`. -/
def bootcountInc (env : Env) : Env :=
  env.setUlong .bootcount ((env.bootcountLoad + 1) % 2 ^ 64)

/-- `bootcount_error`: a limit is set and the count is over it. -/
def BootcountError (env : Env) : Prop :=
  env.getUlong .bootlimit 0 ≠ 0 ∧
    env.bootcountLoad > env.getUlong .bootlimit 0

instance (env : Env) : Decidable env.BootcountError :=
  inferInstanceAs (Decidable (_ ∧ _))

/-- The assignments of `altbootcmd`, up to its `saveenv`. -/
def altbootcmd (env : Env) : Env :=
  env.setAll
    [(.abSlot, env.envget .abFallbackSlot),
      (.upgradeAvailable, "0"), (.bootcount, "0")]

/-- `ab_boot`: the slot whose BOOT partition goes to `sysboot`. -/
def abBoot (env : Env) : Slot :=
  if env.envget .abSlot = "b" then .b else .a

end Env

/-- U-Boot proper counts the boot: the new RAM copy and the new store. -/
def bootcountInc (save : Save) (ram stored : Env) : Env × Env :=
  (ram.bootcountInc,
    if ram.Upgrading then envSave save ram.bootcountInc stored else stored)

/-- `bootcmd` or `altbootcmd`: the slot that is booted, and the new store. -/
def bootCommand (save : Save) (ram stored : Env) : Slot × Env :=
  if ram.BootcountError then
    (ram.altbootcmd.abBoot, envSave save ram.altbootcmd stored)
  else (ram.abBoot, stored)

namespace Env

/-- Counting the boot touches only `bootcount`. -/
theorem get_bootcountInc_of_ne (env : Env) {name : EnvVar}
    (distinct : name ≠ .bootcount) :
    env.bootcountInc.get name = env.get name := by
  simp [bootcountInc, setUlong, distinct]

/-- `altbootcmd` touches only the three variables of the trial. -/
theorem get_altbootcmd_of_ne (env : Env) {name : EnvVar}
    (notSlot : name ≠ .abSlot) (notTrial : name ≠ .upgradeAvailable)
    (notCount : name ≠ .bootcount) :
    env.altbootcmd.get name = env.get name := by
  simp [altbootcmd, notSlot, notTrial, notCount]

end Env

end KmmYocto
