import KmmYocto.BootFiles

/-!
# `ab linux`

The commands that switch the Linux slot: the four steps of a trial, which a
PC session calls one after the other, and `commit` and `rollback`.
-/

namespace KmmYocto.Ab

/-- Decompressed standard input of `ab linux try root`. -/
structure Stream where
  data : List UInt8
  /-- The stream arrived whole. -/
  complete : Bool

/-- `linux_slot_ok`: the slot's BOOT has an extlinux.conf and its root an ext4. -/
def linuxSlotOk (ctx : Ctx) (disk : Disk) (slot : Slot) : Bool :=
  ctx.mountable slot &&
    (BootFiles.file (disk.boot slot) "extlinux/extlinux.conf").isSome &&
    decide ((((disk.root slot).drop 1080).take 2) = [0x53, 0xef])

/-- `linux_try_begin`; the result is the `TARGET=` line. -/
def linuxTryBegin (platform : Platform) (ctx : Ctx) (boot : LinuxBoot) :
    Ab Slot := do
  lock ctx
  let trial ← envget .upgradeAvailable
  Script.require (trial ≠ "1")
    "ab: Linux の試行が確定待ち。ab linux commit か、再起動で元の面へ戻してから"
  let slot ← envget .abSlot
  let running := boot.running.name
  Script.require (slot = running)
    s!"ab: env の ab_slot={slot} と動いている面 {running} が違う"
  let tgt := boot.running.other
  let dev := platform.baseDev
  let part := if ctx.mounted tgt.bootpart then tgt.bootpart else tgt.rootpart
  Script.require
    (ctx.mounted tgt.bootpart = false ∧ ctx.mounted tgt.rootpart = false)
    s!"ab: 書き込み先 {dev}p{part} がマウントされている"
  Script.persist
    (.linuxTry (some
      { fromSlot := boot.running
        toSlot := tgt
        tailscale := ctx.tailscaleState }))
  return tgt

/-- The root partition after `dd` has written the data over its start. -/
def ddOver (capacity : Nat) (data old : List UInt8) : List UInt8 :=
  (data.take capacity) ++ old.drop data.length

/-- The bytes `linux_try_root` reads back for an image of the given size. -/
def readBackLength (size : Nat) : Nat :=
  if size % 4194304 = 0 then size / 4194304 * 4194304 else size / 512 * 512

/-- `linux_try_root <size> <sha256>`, with the image on standard input. -/
def linuxTryRoot (platform : Platform) (ctx : Ctx)
    (arguments : Option (Nat × String)) (stream : Stream) : Ab PUnit := do
  let usage := "ab: 使い方: ab linux try root <バイト数> <sha256>"
  match arguments with
  | none => Script.die usage
  | some (size, sum) => do
      Script.require (sum ≠ "") usage
      match (← tryTarget) with
      | none => Script.die "ab: ab linux try begin が済んでいない"
      | some tgt => do
          lock ctx
          let dev := String.ofList (BootFiles.rootdev platform tgt)
          let cap := platform.rootCapacity tgt
          Script.require (size ≤ cap)
            s!"ab: rootfs ({size}B) が {dev} ({cap}B) より大きい"
          let disk ← Script.read
          let written := ddOver cap stream.data (disk.root tgt)
          Script.persist (.root tgt written)
          Script.require
            (stream.complete = true ∧ stream.data.length ≤ cap)
            s!"ab: rootfs の書き込みに失敗 ({dev})"
          let got :=
            platform.sha256 ((ctx.readRoot written).take (readBackLength size))
          Script.require (got = sum)
            s!"ab: rootfs の読み戻しが一致しない ({dev})"

/-- `linux_try_boot <boot.img> [key]`; an image is the tree it holds. -/
def linuxTryBoot (platform : Platform) (ctx : Ctx)
    (image : Option BootTree) (key : Option (List Char)) : Ab PUnit := do
  match image with
  | none => Script.die "ab: 使い方: ab linux try boot <boot.img> [tailscale の鍵]"
  | some source =>
      match (← tryTarget) with
      | none => Script.die "ab: ab linux try begin が済んでいない"
      | some tgt => do
          lock ctx
          Script.require (ctx.mountable tgt = true) "mount: BOOT"
          let disk ← Script.read
          let cleared := BootFiles.clear (disk.boot tgt)
          Script.persist (.boot tgt cleared)
          let copied := BootFiles.copyInto source cleared
          Script.persist (.boot tgt copied)
          match BootFiles.file copied "extlinux/extlinux.conf" with
          | none => Script.die "sed: extlinux.conf"
          | some text => do
              let pointed :=
                BootFiles.put copied "extlinux/extlinux.conf"
                  (BootFiles.sedRoot (BootFiles.rootdev platform tgt) text)
              let falcon :=
                match BootFiles.file pointed ("falcon-" ++ tgt.name ++ ".itb") with
                | some itb => BootFiles.put pointed "falcon.itb" itb
                | none => pointed
              let keyed :=
                match key with
                | some authkey =>
                    BootFiles.put falcon "tailscale.authkey" authkey
                | none => falcon
              Script.persist (.boot tgt keyed)
              let bad := BootFiles.mismatches source (ctx.readBoot keyed)
              let names := BootFiles.found bad
              Script.require (bad = [])
                s!"ab: boot の読み戻しが一致しない: {names}"

/-- `linux_try_arm`. -/
def linuxTryArm (ctx : Ctx) (boot : LinuxBoot) (noReboot : Bool) :
    Ab PUnit := do
  match (← tryTarget) with
  | none => Script.die "ab: ab linux try begin が済んでいない"
  | some tgt => do
      lock ctx
      envset ctx
        [(.abSlot, tgt.name), (.abFallbackSlot, boot.running.name),
          (.upgradeAvailable, "1"), (.bootcount, "0")]
      maybeReboot noReboot

/-- `linux_checks`: the health of the running system before a commit. -/
def linuxChecks (ctx : Ctx) (boot : LinuxBoot) (disk : Disk) : Bool :=
  let health := ctx.health
  decide (health.systemState = "running" ∨ health.systemState = "degraded") &&
    (!ctx.splIsAb ||
      (boot.chosen.falcon && decide (boot.chosen.abSlot = some boot.running) &&
        (!health.rearmUnit ||
          decide (health.rearmResult = "success" ∧
            disk.env.envget .bootOs = "yes")))) &&
    decide (health.failedUnits = 0) &&
    decide (health.orderingCycles = 0) &&
    health.westonActive && health.kmmActive &&
    health.dataReady && health.bootReady &&
    (match disk.linuxTry with
      | some file =>
          decide (file.tailscale = "running" →
            ctx.tailscaleState = "running")
      | none => true)

/-- `linux_commit`. -/
def linuxCommit (ctx : Ctx) (boot : LinuxBoot) (force : Bool) :
    Ab PUnit := do
  lock ctx
  let slot ← envget .abSlot
  let trial ← envget .upgradeAvailable
  let running := boot.running.name
  if trial ≠ "1" then do
    Script.require (slot = running)
      s!"ab: 試行中ではなく、動いている面 ({running}) も確定面 ({slot}) と違う"
    mbrSet ctx boot.running.name
  else do
    Script.require (slot = running)
      s!"ab: 試した面 {slot} ではなく面 {running} で動いている (元の面に戻った)。確定できない"
    let disk ← Script.read
    Script.require (force = true ∨ linuxChecks ctx boot disk = true)
      "ab: 確認に通らなかったので確定しない。原因を調べるか、--force で確定する"
    envset ctx
      [(.abSlot, boot.running.name), (.abFallbackSlot, boot.running.name),
        (.upgradeAvailable, "0"), (.bootcount, "0")]
    mbrSet ctx boot.running.name
    Script.persist (.linuxTry none)

/-- `linux_rollback`. -/
def linuxRollback (ctx : Ctx) (boot : LinuxBoot) (noReboot : Bool) :
    Ab PUnit := do
  lock ctx
  let trial ← envget .upgradeAvailable
  if trial = "1" then do
    let fb ← envget .abFallbackSlot
    envset ctx
      [(.abSlot, fb), (.abFallbackSlot, fb),
        (.upgradeAvailable, "0"), (.bootcount, "0")]
    mbrSet ctx fb
    Script.persist (.linuxTry none)
    maybeReboot noReboot
  else do
    let slot ← envget .abSlot
    let running := boot.running.name
    Script.require (slot = running)
      s!"ab: env の ab_slot と動いている面 {running} が違う"
    let tgt := boot.running.other
    let target := tgt.name
    let disk ← Script.read
    Script.require (linuxSlotOk ctx disk tgt = true)
      s!"ab: 面 {target} に起動できる Linux が無い"
    Script.persist (.linuxTry none)
    envset ctx
      [(.abSlot, tgt.name), (.abFallbackSlot, boot.running.name),
        (.upgradeAvailable, "1"), (.bootcount, "0")]
    maybeReboot noReboot

end KmmYocto.Ab
