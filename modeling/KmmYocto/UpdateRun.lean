import KmmYocto.BootCheck
import KmmYocto.Recovery
import KmmYocto.TrySessions
import KmmYocto.XpiRepair

/-!
# An update from end to end

A session stages an image in the slot that does not run and arms a trial, the
next boot takes the falcon path into that slot, and the new system commits
itself without `--force`.  The image has to bring a `falcon.itb` for the slot
it is written to: its kernel parameters are what `ab` reads there.

From every state that a device can come to, if it runs the slot that `ab_slot`
names outside of a trial, this leads to the same kind of state with the other
slot, so updates can follow one another.
-/

namespace KmmYocto

/-- The arguments of a session, and what its calls and the commit find. -/
structure Update where
  size : Nat
  sum : String
  stream : Ab.Stream
  source : BootTree
  key : Option (List Char)
  before : Ctx
  /-- The system that was updated. -/
  after : Ctx

namespace Update

/-- The calls of the session, the last of which reboots. -/
def session (update : Update) : List Act :=
  [.falconRearm true, .ab .linuxTryBegin update.before,
    .ab (.linuxTryRoot (some (update.size, update.sum)) update.stream)
      update.before,
    .ab (.linuxTryBoot (some update.source) update.key) update.before,
    .ab (.linuxTryArm false) update.before]

/-- What the new system does. -/
def ending (update : Update) : List Act :=
  [.falconRearm true, .ab (.linuxCommit false) update.after]

def acts (update : Update) : List Act :=
  update.session ++ Machine.boot ++ update.ending

/-- The `root` call on a disk. -/
def rootRun (update : Update) (disk : Disk) (target : Slot) : RootRun :=
  ⟨target, update.before, update.size, update.sum, update.stream,
    disk.root target⟩

/-- The `boot` call on a disk. -/
def bootRun (update : Update) (disk : Disk) (target : Slot) : BootRun :=
  ⟨target, update.before, update.source, update.key, disk.boot target⟩

/-- What the checks of a commit look for. -/
structure Healthy (update : Update) : Prop where
  state : update.after.health.systemState = "running" ∨
    update.after.health.systemState = "degraded"
  rearm : update.after.health.rearmUnit = true →
    update.after.health.rearmResult = "success"
  units : update.after.health.failedUnits = 0
  order : update.after.health.orderingCycles = 0
  weston : update.after.health.westonActive = true
  kmm : update.after.health.kmmActive = true
  data : update.after.health.dataReady = true
  boot : update.after.health.bootReady = true
  tailscale : update.before.tailscaleState = "running" →
    update.after.tailscaleState = "running"

/--
The image brings an `args` file and a `falcon.itb` for the slot, whose
parameters name the root of the slot and with which the new system comes up.
-/
structure BootsInto (platform : Platform) (payloads : Payloads) (disk : Disk)
    (target : Slot) (update : Update) (cmdline : CommandLine) : Prop where
  args : ∃ args, BootFiles.file update.source "args" = some args ∧ args ≠ []
  falcon : ∃ itb,
    BootFiles.file update.source ("falcon-" ++ target.name ++ ".itb") =
        some itb ∧
      payloads.bootargs itb = some cmdline
  root : ∃ name : CommandLine.DeviceName,
    name.dev = platform.baseDev.toList ∧
      CommandLine.rootParam name target ∈ cmdline.params ∧
        cmdline.ReadsRoot name target
  comesUp :
    payloads.comesUp cmdline
        (Function.update disk.root target
          ((update.rootRun disk target).written platform)) =
      true

/--
The image fits, arrives and boots in the slot, and the systems before and after
it work.
-/
structure Good (platform : Platform) (payloads : Payloads) (disk : Disk)
    (target : Slot) (update : Update) : Prop where
  before : update.before.Works
  after : update.after.Works
  unmounted : update.before.mounted target.bootpart = false ∧
    update.before.mounted target.rootpart = false
  mountable : update.before.mountable target = true
  fits : update.size ≤ platform.rootCapacity target
  sum : update.sum ≠ ""
  root : (update.rootRun disk target).Verified platform
  boot : ∃ tree, (update.bootRun disk target).Installed platform tree
  boots : ∃ cmdline, update.BootsInto platform payloads disk target cmdline
  healthy : update.Healthy

/--
The slot holds the image, no other files have changed, and the system of the
image's own `falcon.itb` is up and committed.
-/
structure Installed (platform : Platform) (payloads : Payloads)
    (update : Update) (target : Slot) (old : Disk) (new : Deployed) :
    Prop where
  root : new.machine.disk.root =
    Function.update old.root target
      ((update.rootRun old target).written platform)
  boot : ∃ tree,
    (update.bootRun old target).Installed platform tree ∧
      new.machine.disk.boot = Function.update old.boot target tree
  mcore : new.machine.disk.mcore = old.mcore
  falcon : ∃ chosen : Chosen,
    new.machine.phase = .linux ⟨target, chosen⟩ ∧ chosen.falcon = true
  system : ∃ itb cmdline,
    BootFiles.file update.source ("falcon-" ++ target.name ++ ".itb") =
        some itb ∧
      payloads.bootargs itb = some cmdline ∧ new.system = some cmdline
  settled : new.Settled target
  flagged : Ab.mbrBootable new.machine.disk.mbr = target.name

end Update

namespace Machine

section Stages

variable
    {platform : Platform} {disk later : Disk} {boot : LinuxBoot}
    {ctx : Ctx}

theorem step_ab (rebooting : Bool) {command : AbCommand}
    (ends :
      Script.Ends (command.script platform ctx boot) ⟨disk, [], false⟩
        fun _ session =>
          session.store = later ∧ session.rebooting = rebooting) :
    step platform ⟨disk, .linux boot⟩ (.ab command ctx) =
      ⟨later, phaseAfter boot rebooting⟩ := by
  obtain ⟨rfl, rfl⟩ := ends
  rfl

theorem step_begin (works : ctx.Works)
    (noTrial : disk.env.envget .upgradeAvailable ≠ "1")
    (slot : disk.env.envget .abSlot = boot.running.name)
    (unmounted : ctx.mounted boot.running.other.bootpart = false ∧
      ctx.mounted boot.running.other.rootpart = false) :
    step platform ⟨disk, .linux boot⟩ (.ab .linuxTryBegin ctx) =
      ⟨disk.apply
          (.linuxTry
            (some
              ⟨boot.running, boot.running.other, ctx.tailscaleState⟩)),
        .linux boot⟩ := by
  apply step_ab false
  simp only [AbCommand.script, Ab.linuxTryBegin, Script.ends_bind,
    Ab.ends_lock, Ab.ends_envget, Script.ends_require, Script.ends_persist,
    Script.ends_pure, works.lockFree, slot, unmounted, ne_eq, noTrial]
  simp [Medium.apply]

theorem step_root (works : ctx.Works) {file : LinuxTry}
    (found : disk.linuxTry = some file) {size : Nat} {sum : String}
    {stream : Ab.Stream} (fits : size ≤ platform.rootCapacity file.toSlot)
    (given : sum ≠ "")
    (verified :
      RootRun.Verified platform
        ⟨file.toSlot, ctx, size, sum, stream, disk.root file.toSlot⟩) :
    step platform ⟨disk, .linux boot⟩
        (.ab (.linuxTryRoot (some (size, sum)) stream) ctx) =
      ⟨disk.apply
          (.root file.toSlot
            (Ab.ddOver (platform.rootCapacity file.toSlot) stream.data
              (disk.root file.toSlot))),
        .linux boot⟩ := by
  apply step_ab false
  obtain ⟨whole, same⟩ := verified
  simp only [RootRun.written] at whole same
  rw [AbCommand.script, Ab.linuxTryRoot, Script.ends_bind,
    Script.ends_require]
  refine ⟨fun _ => ?_, fun empty => absurd given empty⟩
  rw [Script.ends_bind, Ab.ends_tryTarget, found]
  simp only [Option.map_some, Script.ends_bind, Ab.ends_lock,
    Script.ends_require, Script.ends_read, Script.ends_persist,
    works.lockFree, fits, whole, same]
  simp [Medium.apply]

theorem step_boot (works : ctx.Works) {file : LinuxTry}
    (found : disk.linuxTry = some file)
    (mountable : ctx.mountable file.toSlot = true) {source : BootTree}
    {key : Option (List Char)} {tree : BootTree}
    (installed :
      BootRun.Installed platform
        ⟨file.toSlot, ctx, source, key, disk.boot file.toSlot⟩ tree) :
    step platform ⟨disk, .linux boot⟩
        (.ab (.linuxTryBoot (some source) key) ctx) =
      ⟨disk.apply (.boot file.toSlot tree), .linux boot⟩ := by
  apply step_ab false
  obtain ⟨built, compared⟩ := installed
  simp only [BootFiles.installed] at built compared
  rw [AbCommand.script, Ab.linuxTryBoot, Script.ends_bind, Ab.ends_tryTarget,
    found]
  simp only [Option.map_some, Script.ends_bind, Ab.ends_lock,
    Script.ends_require, Script.ends_read, Script.ends_persist,
    works.lockFree, mountable]
  cases conf : BootFiles.file
      (BootFiles.copyInto source (BootFiles.clear (disk.boot file.toSlot)))
      "extlinux/extlinux.conf" with
  | none =>
      rw [conf] at built
      cases built
  | some text =>
      rw [conf, Option.map_some] at built
      obtain rfl := Option.some.inj built
      simp only [Script.ends_bind, Script.ends_persist, Script.ends_require,
        Medium.apply, Disk.apply, Function.update_idem]
      refine
        ⟨fun _ =>
          ⟨fun _ =>
            ⟨fun _ => ⟨?_, trivial⟩,
              fun differs => absurd compared differs⟩,
            fun never => absurd trivial never⟩,
          fun never => absurd trivial never⟩
      trivial

theorem step_arm (works : ctx.Works) {file : LinuxTry}
    (found : disk.linuxTry = some file) :
    step platform ⟨disk, .linux boot⟩ (.ab (.linuxTryArm false) ctx) =
      ⟨disk.apply
          (.env
            (disk.env.setTrial file.toSlot.name boot.running.name "1")),
        .spl .start Spl.start⟩ := by
  apply step_ab true
  rw [AbCommand.script, Ab.linuxTryArm, Script.ends_bind, Ab.ends_tryTarget,
    found]
  simp [works.lockFree, works.fwSetenvOk, Ab.wroteEnv, Disk.apply]

theorem step_commit (works : ctx.Works)
    (trial : disk.env.envget .upgradeAvailable = "1")
    (slot : disk.env.envget .abSlot = boot.running.name)
    (checks : Ab.linuxChecks ctx boot disk = true) :
    ∃ mbr,
      Ab.mbrBootable mbr = boot.running.name ∧
        step platform ⟨disk, .linux boot⟩ (.ab (.linuxCommit false) ctx) =
          ⟨{ disk with
              env :=
                disk.env.setTrial boot.running.name boot.running.name "0"
              mbr
              linuxTry := none },
            .linux boot⟩ := by
  by_cases already : Ab.mbrBootable disk.mbr = boot.running.name
  · refine ⟨disk.mbr, already, step_ab false ?_⟩
    simp only [AbCommand.script, Ab.linuxCommit, Script.ends_bind,
      Ab.ends_lock, Ab.ends_envget, Script.ends_ite, Script.ends_require,
      Script.ends_read, Ab.ends_envset_trial, Ab.ends_mbrSet_slot,
      Script.ends_persist, trial, slot, checks, works.lockFree,
      works.fwSetenvOk]
    simp [Ab.wroteEnv, already, Medium.apply, Disk.apply]
  · refine ⟨disk.mbr.flagged boot.running.name, ?_, step_ab false ?_⟩
    · rw [Ab.mbrBootable, Mbr.byte_flagged_446, Mbr.byte_flagged_462]
      cases boot.running <;> rfl
    · simp only [AbCommand.script, Ab.linuxCommit, Script.ends_bind,
        Ab.ends_lock, Ab.ends_envget, Script.ends_ite, Script.ends_require,
        Script.ends_read, Ab.ends_envset_trial, Ab.ends_mbrSet_slot,
        Script.ends_persist, trial, slot, checks, works.lockFree,
        works.fwSetenvOk, works.mbrWriteOk]
      simp [Ab.wroteEnv, already, Medium.apply, Disk.apply]

end Stages

/-! ## One update -/

/-- What the updated system tells the checks. -/
theorem linuxChecks_of_healthy {update : Update} (healthy : update.Healthy)
    {disk : Disk} {boot : LinuxBoot} (falcon : boot.chosen.falcon = true)
    (slot : boot.chosen.abSlot = some boot.running)
    (armed : disk.env.envget .bootOs = "yes")
    {mark : LinuxTry} (file : disk.linuxTry = some mark)
    (same : mark.tailscale = update.before.tailscaleState) :
    Ab.linuxChecks update.after boot disk = true := by
  simp only [Ab.linuxChecks, healthy.units, healthy.order, healthy.weston,
    healthy.kmm, healthy.data, healthy.boot, falcon, slot, armed, file, same]
  have state := healthy.state
  have tailscale := not_or_of_imp healthy.tailscale
  cases rearm : update.after.health.rearmUnit with
  | true => simp [state, tailscale, healthy.rearm rearm]
  | false => simp [state, tailscale]

/-- The environment that a session leaves is that of a trial not yet counted. -/
theorem trying_armed {env : Env} (limit : env.get .bootlimit = some "1")
    {target running : Slot} (distinct : target ≠ running) :
    (env.setTrial target.name running.name "1").Trying
      (.arm target running distinct) 1 0 where
  holds := Env.Holds.setTrial env target running true fun _ => distinct
  readsLimit := by
    rw [Env.get_setTrial_of_ne _ _ _ _ (by decide) (by decide) (by decide)
      (by decide), limit]
    decide
  readsCount := by
    simp [Env.setTrial, Env.getUlong]
    decide
  small := by decide

end Machine

/-- The installed tree has the image's `falcon.itb` for the slot. -/
theorem Update.BootsInto.falcon_eq {platform : Platform} {payloads : Payloads}
    {disk : Disk} {target : Slot} {update : Update} {cmdline : CommandLine}
    (boots : update.BootsInto platform payloads disk target cmdline)
    {tree : BootTree}
    (tried : (update.bootRun disk target).Installed platform tree) :
    payloads.falcon tree = some cmdline := by
  obtain ⟨built, -⟩ := tried
  obtain ⟨itb, variant, loads⟩ := boots.falcon
  obtain ⟨args, given, nonempty⟩ := boots.args
  rw [BootFiles.installed, Option.map_eq_some_iff] at built
  obtain ⟨text, copied, rfl⟩ := built
  have conf :
      BootFiles.file update.source "extlinux/extlinux.conf" = some text := by
    rwa [BootFiles.file_copyInto, BootFiles.file_clear, if_neg (by decide),
      Option.or_none] at copied
  obtain ⟨-, ⟨installed, same, here⟩, -, others⟩ :=
    @prepared_exact target platform update.source (disk.boot target) update.key
      text itb conf variant
  obtain rfl := Option.some.inj (same.symm.trans variant)
  have kept :=
    others "args" (by decide) (by decide) fun key => absurd key.1 (by decide)
  rw [given, Option.some_or] at kept
  show payloads.falcon (BootFiles.putKey _ (BootFiles.putFalcon _ _)) = _
  rw [Payloads.falcon]
  simp only [Update.bootRun, kept, here, Option.bind_eq_bind, Option.bind_some,
    if_neg nonempty]
  exact loads

namespace Deployed

section Parts

variable
    (platform : Platform) {payloads : Payloads} {disk : Disk}
    {running : Slot} {chosen : Chosen} {cmdline : CommandLine}
    {update : Update}

/-- A system that is up takes the steps of the device. -/
theorem step_ab {boot : LinuxBoot} {command : AbCommand} {ctx : Ctx}
    {next : Machine} (finds : cmdline.baseDev.isSome = true)
    (steps :
      Machine.step platform ⟨disk, .linux boot⟩ (.ab command ctx) = next) :
    step platform payloads ⟨⟨disk, .linux boot⟩, some cmdline⟩
        (.ab command ctx) =
      ⟨next, if next.inLinux then some cmdline else none⟩ := by
  have runs : findsDev ⟨⟨disk, .linux boot⟩, some cmdline⟩ = true := finds
  simp only [step, if_pos runs, steps]
  rfl

theorem step_rearm (boot : LinuxBoot) :
    step platform payloads ⟨⟨disk, .linux boot⟩, some cmdline⟩
        (.falconRearm true) =
      ⟨⟨{ disk with env := disk.env.set .bootOs "yes" }, .linux boot⟩,
        some cmdline⟩ :=
  rfl

/-- The boot into a trial that was just armed. -/
theorem after_armed {target : Slot} (distinct : target ≠ running)
    (trying : disk.env.Trying (.arm target running distinct) 1 0)
    (armed : disk.env.get .bootOs = some "yes")
    (found : payloads.falcon (disk.boot target) = some cmdline)
    (comesUp : payloads.comesUp cmdline disk.root = true) :
    ∃ chosen : Chosen, ∃ env : Env,
      chosen.falcon = true ∧ chosen.abSlot = some target ∧
        env.Trying (.arm target running distinct) 1 1 ∧
          after platform payloads ⟨⟨disk, .spl .start Spl.start⟩, none⟩
              Machine.boot =
            ⟨⟨{ disk with env }, .linux ⟨cmdline.running, chosen⟩⟩,
              some cmdline⟩ := by
  have counted := trying.picked_within rfl (by decide) le_rfl
  have stillArmed : disk.env.picked.falconArmed = true := by
    rw [Env.falconArmed_picked, Env.falconArmed, Env.getYesno, armed]
    decide
  have picked :
      Machine.pickedSlot ⟨disk, .spl .start Spl.start⟩ = target :=
    counted.holds.slotChar_eq
  have loads :
      (pickedFalcon payloads
          ⟨⟨disk, .spl .start Spl.start⟩, none⟩).isSome =
        true := by
    rw [pickedFalcon, pickedTree, picked, stillArmed, Payloads.armedFalcon,
      if_pos rfl, found]
    rfl
  obtain ⟨chosen, falcon, slot, boots⟩ :=
    @after_boot_falcon platform payloads
      ⟨⟨disk, .spl .start Spl.start⟩, none⟩ loads
  rw [picked] at slot boots
  rw [start_some found, if_pos comesUp] at boots
  refine
    ⟨chosen, disk.env.picked.disarmed.untried, falcon, slot, ?_, boots⟩
  apply counted.of_agree
  intro name _ notTry notOs
  rw [Env.get_untried_of_ne _ notTry, Env.get_disarmed_of_ne _ notOs]

/-- The disk that a session leaves. -/
def prepared (update : Update) (disk : Disk) (running : Slot)
    (tree : BootTree) : Disk where
  env :=
    (disk.env.set .bootOs "yes").setTrial running.other.name running.name "1"
  mbr := disk.mbr
  linuxTry :=
    some ⟨running, running.other, update.before.tailscaleState⟩
  boot := Function.update disk.boot running.other tree
  root :=
    Function.update disk.root running.other
      ((update.rootRun disk running.other).written platform)
  mcore := disk.mcore

theorem after_session (finds : cmdline.baseDev.isSome = true)
    (slot : disk.env.envget .abSlot = running.name)
    (noTrial : disk.env.envget .upgradeAvailable ≠ "1")
    (good : update.Good platform payloads disk running.other)
    {tree : BootTree}
    (tried :
      (update.bootRun disk running.other).Installed platform tree) :
    after platform payloads
        ⟨⟨disk, .linux ⟨running, chosen⟩⟩, some cmdline⟩ update.session =
      ⟨⟨prepared platform update disk running tree, .spl .start Spl.start⟩,
        none⟩ := by
  let file : LinuxTry :=
    ⟨running, running.other, update.before.tailscaleState⟩
  let rearmed : Disk := { disk with env := disk.env.set .bootOs "yes" }
  let begun : Disk := { rearmed with linuxTry := some file }
  let rooted : Disk :=
    { begun with
      root :=
        Function.update disk.root running.other
          ((update.rootRun disk running.other).written platform) }
  let booted : Disk :=
    { rooted with boot := Function.update disk.boot running.other tree }
  have begins :
      step platform payloads
          ⟨⟨rearmed, .linux ⟨running, chosen⟩⟩, some cmdline⟩
          (.ab .linuxTryBegin update.before) =
        ⟨⟨begun, .linux ⟨running, chosen⟩⟩, some cmdline⟩ :=
    step_ab platform finds
      (Machine.step_begin good.before
        (by simpa [rearmed, Env.envget] using noTrial)
        (by simpa [rearmed, Env.envget] using slot) good.unmounted)
  have found : begun.linuxTry = some file := rfl
  have roots :
      step platform payloads
          ⟨⟨begun, .linux ⟨running, chosen⟩⟩, some cmdline⟩
          (.ab (.linuxTryRoot (some (update.size, update.sum)) update.stream)
            update.before) =
        ⟨⟨rooted, .linux ⟨running, chosen⟩⟩, some cmdline⟩ :=
    step_ab platform finds
      (Machine.step_root good.before found good.fits good.sum good.root)
  have found : rooted.linuxTry = some file := rfl
  have boots :
      step platform payloads
          ⟨⟨rooted, .linux ⟨running, chosen⟩⟩, some cmdline⟩
          (.ab (.linuxTryBoot (some update.source) update.key)
            update.before) =
        ⟨⟨booted, .linux ⟨running, chosen⟩⟩, some cmdline⟩ :=
    step_ab platform finds
      (Machine.step_boot good.before found good.mountable tried)
  have found : booted.linuxTry = some file := rfl
  have arms :
      step platform payloads
          ⟨⟨booted, .linux ⟨running, chosen⟩⟩, some cmdline⟩
          (.ab (.linuxTryArm false) update.before) =
        ⟨⟨prepared platform update disk running tree,
          .spl .start Spl.start⟩, none⟩ :=
    step_ab platform finds (Machine.step_arm good.before found)
  simp only [after, Update.session, Trace.run_cons, Trace.run_nil]
  rw [step_rearm, begins, roots, boots, arms]

/-- The new system commits itself. -/
theorem after_ending (disk : Disk) {target : Slot} {mark : LinuxTry}
    (finds : cmdline.baseDev.isSome = true)
    (good : update.after.Works) (healthy : update.Healthy)
    (falcon : chosen.falcon = true) (told : chosen.abSlot = some target)
    {fallback : Slot} (distinct : target ≠ fallback) {count : Nat}
    (trying : disk.env.Trying (.arm target fallback distinct) 1 count)
    (file : disk.linuxTry = some mark)
    (same : mark.tailscale = update.before.tailscaleState) :
    ∃ env mbr,
      env.Holds (.commit target) ∧ env.get .bootlimit = some "1" ∧
        Ab.mbrBootable mbr = target.name ∧
          after platform payloads
              ⟨⟨disk, .linux ⟨target, chosen⟩⟩, some cmdline⟩
              update.ending =
            ⟨⟨{ disk with env, mbr, linuxTry := none },
              .linux ⟨target, chosen⟩⟩, some cmdline⟩ := by
  let rearmed : Disk := { disk with env := disk.env.set .bootOs "yes" }
  have trial : rearmed.env.envget .upgradeAvailable = "1" := by
    have flag := trying.holds.trial
    simp [rearmed, Env.envget, flag, SlotState.arm]
  have slot : rearmed.env.envget .abSlot = target.name := by
    have named := trying.holds.slot
    simp [rearmed, Env.envget, named, SlotState.arm]
  have armed : rearmed.env.envget .bootOs = "yes" := by
    simp [rearmed, Env.envget]
  have checks :
      Ab.linuxChecks update.after ⟨target, chosen⟩ rearmed = true :=
    Machine.linuxChecks_of_healthy healthy falcon told armed file same
  obtain ⟨mbr, flagged, commits⟩ :=
    @Machine.step_commit platform rearmed ⟨target, chosen⟩ _ good trial slot
      checks
  refine
    ⟨rearmed.env.setTrial target.name target.name "0", mbr,
      Env.Holds.setTrial _ target target false
        (fun trial => absurd trial Bool.false_ne_true), ?_, flagged, ?_⟩
  · rw [Env.get_setTrial_of_ne _ _ _ _ (by decide) (by decide) (by decide)
      (by decide)]
    exact (Env.get_set_of_ne _ _ (by decide)).trans trying.readsLimit
  · simp only [after, Update.ending, Trace.run_cons, Trace.run_nil]
    rw [step_rearm, step_ab platform finds commits]
    rfl

end Parts

/-- A good update is installed, and the other slot runs. -/
theorem Settled.update {platform : Platform} {payloads : Payloads}
    {device : Deployed} {running : Slot} (settled : device.Settled running)
    {update : Update}
    (good :
      update.Good platform payloads device.machine.disk running.other) :
    update.Installed platform payloads running.other device.machine.disk
      (device.after platform payloads update.acts) := by
  obtain ⟨⟨disk, phase⟩, system⟩ := device
  obtain ⟨⟨chosen, inLinux⟩, ⟨cmdline, up, -, finds⟩, slot, noTrial, limit⟩ :=
    settled
  obtain rfl : phase = .linux ⟨running, chosen⟩ := inLinux
  obtain rfl : system = some cmdline := up
  obtain ⟨tree, tried⟩ := good.boot
  obtain ⟨cmdline', into⟩ := good.boots
  obtain ⟨name, -, -, names⟩ := into.root
  have distinct : running.other ≠ running := running.other_ne
  have rearmedLimit : (disk.env.set .bootOs "yes").get .bootlimit = some "1" :=
    (Env.get_set_of_ne _ _ (by decide)).trans limit
  have armed :
      (prepared platform update disk running tree).env.get .bootOs =
        some "yes" := by
    rw [prepared, Env.get_setTrial_of_ne _ _ _ _ (by decide) (by decide)
      (by decide) (by decide)]
    simp
  have found :
      payloads.falcon
          ((prepared platform update disk running tree).boot running.other) =
        some cmdline' := by
    show payloads.falcon (Function.update disk.boot running.other tree _) = _
    rw [Function.update_self]
    exact into.falcon_eq tried
  obtain ⟨chosen', env, falcon, told, counted, boots⟩ :=
    after_armed platform distinct
      (Machine.trying_armed rearmedLimit distinct) armed found into.comesUp
  rw [names.running] at boots
  let started : Disk := { prepared platform update disk running tree with env }
  have file : started.linuxTry =
      some ⟨running, running.other, update.before.tailscaleState⟩ :=
    rfl
  have finds' : cmdline'.baseDev.isSome = true := by
    rw [names.baseDev]
    rfl
  obtain ⟨env', mbr, holds, limit', flagged, ends⟩ :=
    @after_ending platform payloads chosen' cmdline' update started
      running.other _ finds' good.after good.healthy falcon told _ distinct _
      counted file rfl
  have whole :
      after platform payloads
          ⟨⟨disk, .linux ⟨running, chosen⟩⟩, some cmdline⟩ update.acts =
        ⟨⟨{ prepared platform update disk running tree with
            env := env'
            mbr
            linuxTry := none },
          .linux ⟨running.other, chosen'⟩⟩, some cmdline'⟩ := by
    have begins :=
      @after_session platform payloads disk running chosen cmdline update finds
        slot noTrial good tree tried
    simp only [after, Update.acts, Trace.run_append] at begins boots ends ⊢
    rw [begins, boots, ends]
  have noTrial' : env'.envget .upgradeAvailable ≠ "1" := by
    rw [ne_eq, holds.envget_upgradeAvailable]
    exact Bool.false_ne_true
  obtain ⟨itb, variant, loads⟩ := into.falcon
  rw [whole]
  exact
    { root := rfl
      boot := ⟨tree, tried, rfl⟩
      mcore := rfl
      falcon := ⟨chosen', rfl, falcon⟩
      system := ⟨itb, cmdline', variant, loads, rfl⟩
      settled :=
        ⟨⟨chosen', rfl⟩, ⟨cmdline', rfl, names.running, finds'⟩,
          holds.envget_abSlot, noTrial', limit'⟩
      flagged }

/-! ## One update after the other -/

/-- The slot that a session writes to. -/
def spare (device : Deployed) : Slot :=
  match device.machine.phase with
  | .linux boot => boot.running.other
  | _ => .b

theorem Settled.spare_eq {device : Deployed} {running : Slot}
    (settled : device.Settled running) : device.spare = running.other := by
  obtain ⟨chosen, inLinux⟩ := settled.inLinux
  rw [spare, inLinux]

/-- The device after an update. -/
abbrev updated (platform : Platform) (payloads : Payloads) (device : Deployed)
    (update : Update) : Deployed :=
  device.after platform payloads update.acts

/-- Good updates are installed, each in the slot that does not run. -/
theorem Settled.updates {platform : Platform} {payloads : Payloads}
    {device : Deployed} {running : Slot} (settled : device.Settled running)
    {updates : List Update}
    (good :
      Trace.Along (updated platform payloads)
        (fun device update =>
          update.Good platform payloads device.machine.disk device.spare)
        device updates) :
    Trace.Along (updated platform payloads)
        (fun device update =>
          update.Installed platform payloads device.spare
            device.machine.disk (device.updated platform payloads update))
        device updates ∧
      (Trace.run (updated platform payloads) device updates).Settled
        (Slot.other^[updates.length] running) := by
  induction updates generalizing device running with
  | nil => exact ⟨trivial, settled⟩
  | cons update rest induction =>
      obtain ⟨first, later⟩ := good
      rw [settled.spare_eq] at first
      have installed := settled.update first
      obtain ⟨others, final⟩ := induction installed.settled later
      rw [← settled.spare_eq] at installed
      exact ⟨⟨installed, others⟩, final⟩

/--
From every state that a device can come to, in which the system of the slot
that `ab_slot` names is up and no trial is pending, any number of good updates
are installed one after the other, each in the slot that does not run; each of
them leaves the running slot alone, boots by its own `falcon.itb`, is committed
by its own system, and leaves the device ready for the next one.
-/
theorem updates_install (platform : Platform) (payloads : Payloads)
    (disk : Disk) (chosen : Chosen) (first : CommandLine)
    (ships : first.running = .a) (acts : List Act) {cmdline : CommandLine}
    {updates : List Update} :
    let device := (shipped disk chosen first).after platform payloads acts
    device.system = some cmdline →
      cmdline.baseDev.isSome = true →
        device.machine.disk.env.envget .abSlot = cmdline.running.name →
          device.machine.disk.env.envget .upgradeAvailable ≠ "1" →
            Trace.Along (updated platform payloads)
                (fun device update =>
                  update.Good platform payloads device.machine.disk
                    device.spare)
                device updates →
              Trace.Along (updated platform payloads)
                  (fun device update =>
                    update.Installed platform payloads device.spare
                      device.machine.disk
                      (device.updated platform payloads update))
                  device updates ∧
                (Trace.run (updated platform payloads) device updates).Settled
                  (Slot.other^[updates.length] cmdline.running) := by
  intro device up finds slot noTrial good
  have reads : device.Reads :=
    (reads_shipped disk chosen ships).after acts
  have sane := sane_after platform payloads disk chosen first acts
  have settled : device.Settled cmdline.running :=
    ⟨reads cmdline up, ⟨cmdline, up, rfl, finds⟩, slot, noTrial,
      sane.stored.limit⟩
  exact settled.updates good

end Deployed

namespace Bench

/-- An image of one sector, and the boot image of `deployed`. -/
def update : Update where
  size := 512
  sum := Sha256.hexDigest (rootImage 1)
  stream := ⟨rootImage 1, true⟩
  source := slotImage
  key := none
  before := ctx
  after := ctx

/-- A session was started and the device was switched off. -/
def abandoned : List Act :=
  [.falconRearm true, .ab .linuxTryBegin ctx] ++ Machine.boot

theorem update_good (disk : Disk) (target : Slot)
    (cleared : disk.root target = []) (empty : disk.boot target = []) :
    update.Good platform payloads disk target where
  before := ⟨rfl, rfl, rfl⟩
  after := ⟨rfl, rfl, rfl⟩
  unmounted := ⟨rfl, rfl⟩
  mountable := rfl
  fits := by cases target <;> decide
  sum := by decide +kernel
  root := by
    rw [Update.rootRun, cleared]
    cases target <;> decide +kernel
  boot := by
    rw [Update.bootRun, empty]
    refine
      ⟨(BootFiles.installed platform target update.source none []).getD [],
        ?_⟩
    cases target <;> decide +kernel
  boots :=
    ⟨slotLine target,
      { args := ⟨['0'], rfl, List.cons_ne_nil _ _⟩
        falcon :=
          ⟨bootargs target, by cases target <;> rfl, words_bootargs target⟩
        root := by
          refine
            ⟨CommandLine.mmcblk2, by decide +kernel, List.mem_cons_self, ?_⟩
          cases target with
          | a => exact ⟨by decide +kernel, by decide +kernel, by decide +kernel⟩
          | b => exact ⟨by decide +kernel, by decide +kernel, by decide +kernel⟩
        comesUp := by
          rw [Update.rootRun, cleared]
          simp only [payloads, running_slotLine, Function.update_self]
          cases target <;> decide +kernel }⟩
  healthy := ⟨.inl rfl, fun _ => rfl, rfl, rfl, rfl, rfl, rfl, rfl, fun _ => rfl⟩

theorem update_installs :
    (Trace.run (Deployed.updated platform payloads)
        (deployed.after platform payloads abandoned) [update]).Settled .b := by
  let device := deployed.after platform payloads abandoned
  have good :
      Trace.Along (Deployed.updated platform payloads)
        (fun device update =>
          update.Good platform payloads device.machine.disk device.spare)
        device [update] :=
    ⟨update_good device.machine.disk device.spare rfl rfl, trivial⟩
  exact
    (@Deployed.updates_install platform payloads filledDisk Chosen.proper
      (slotLine .a) (running_slotLine .a) abandoned (slotLine .a) [update] rfl
      (by decide +kernel) (by decide +kernel) (by decide +kernel) good).2

end Bench

end KmmYocto
