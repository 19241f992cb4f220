import KmmYocto.AbShell

/-!
# `ab mcore`

The commands that write and arm an M-core firmware, and the confirmation that
runs once after a boot in which the SPL tried one.  The watching of the
keepalive is the argument `healthy` of the confirmation.
-/

namespace KmmYocto.Ab

/-- The slot `mcore_update` writes: the other of `mcore_slot`, or a. -/
def mcoreTarget (current : String) : Slot :=
  if current = "a" then .b else .a

/-- `mcore_update <file>`. -/
def mcoreUpdate (platform : Platform) (ctx : Ctx)
    (file : Option (List UInt8)) (noReboot : Bool) : Ab PUnit := do
  match file with
  | none => Script.die "ab: 使い方: ab mcore update <ファイル>"
  | some bytes => do
      Script.require (ctx.splIsAb = true)
        "ab: 今の SPL は M コアの A/B に対応していない旧版。先に ab spl update で新しい SPL にする"
      Script.require
        ((McoreImage.mcoreCheck platform.crc32 platform.mcoreMagic bytes).isSome
          = true)
        "ab: この機体の M コアのファームではないか、CRC が合わない"
      lock ctx
      let pending ← envget .mcoreTry
      Script.require (pending = "")
        s!"ab: M コアの試行が予約済み (mcore_try={pending})。再起動して結果を見てから"
      let cur ← envget .mcoreSlot
      let tgt := mcoreTarget cur
      let target := tgt.name
      Script.persist (.mcore tgt bytes)
      Script.require (ctx.readMcore bytes = bytes)
        s!"ab: M コアの面 {target} の読み戻しが一致しない"
      envset ctx [(.mcoreTry, tgt.name)]
      maybeReboot noReboot

/-- `mcore_rollback`. -/
def mcoreRollback (platform : Platform) (ctx : Ctx)
    (noReboot : Bool) : Ab PUnit := do
  lock ctx
  let cur ← envget .mcoreSlot
  Script.require (cur = "a" ∨ cur = "b") "ab: 確定している M コアの面が無い"
  let tgt := mcoreTarget cur
  let target := tgt.name
  let disk ← Script.read
  Script.require
    (((disk.mcore tgt).bind
      (McoreImage.mcoreCheck platform.crc32 platform.mcoreMagic)).isSome = true)
    s!"ab: 面 {target} に正しい M コアのファームが無い"
  envset ctx [(.mcoreTry, tgt.name)]
  maybeReboot noReboot

/-- `mcore_confirm`; it takes no lock. -/
def mcoreConfirm (ctx : Ctx) (boot : LinuxBoot) (healthy : Bool) :
    Ab PUnit := do
  match boot.chosen.mcoreTry with
  | none => pure PUnit.unit
  | some tried => do
      let cur ← envget .mcoreSlot
      if boot.chosen.mcoreSlot = some tried ∧ healthy = true then
        envset ctx [(.mcoreSlot, tried.name)]
      else if cur ≠ "" ∧ cur ≠ tried.name then
        -- back to the confirmed firmware
        Script.reboot
      else
        pure PUnit.unit

/-! ## The parts between two steps of another process -/

/-- `mcore_update` up to the choice of the slot. -/
def mcoreUpdateBegin (platform : Platform) (ctx : Ctx)
    (file : Option (List UInt8)) : Ab (Slot × List UInt8) := do
  match file with
  | none => Script.die "ab: 使い方: ab mcore update <ファイル>"
  | some bytes => do
      Script.require (ctx.splIsAb = true)
        "ab: 今の SPL は M コアの A/B に対応していない旧版。先に ab spl update で新しい SPL にする"
      Script.require
        ((McoreImage.mcoreCheck platform.crc32 platform.mcoreMagic bytes).isSome
          = true)
        "ab: この機体の M コアのファームではないか、CRC が合わない"
      lock ctx
      let pending ← envget .mcoreTry
      Script.require (pending = "")
        s!"ab: M コアの試行が予約済み (mcore_try={pending})。再起動して結果を見てから"
      let cur ← envget .mcoreSlot
      return (mcoreTarget cur, bytes)

/-- The `mv` of `mcore_update`. -/
def mcoreUpdateMove (tgt : Slot) (bytes : List UInt8) : Ab PUnit :=
  Script.persist (.mcore tgt bytes)

/-- `mcore_update` from the read-back on. -/
def mcoreUpdateArm (ctx : Ctx) (tgt : Slot) (bytes : List UInt8)
    (noReboot : Bool) : Ab PUnit := do
  let target := tgt.name
  Script.require (ctx.readMcore bytes = bytes)
    s!"ab: M コアの面 {target} の読み戻しが一致しない"
  envset ctx [(.mcoreTry, tgt.name)]
  maybeReboot noReboot

/-- `mcore_update` is its parts, one after the other. -/
theorem mcoreUpdate_eq (platform : Platform) (ctx : Ctx)
    (file : Option (List UInt8)) (noReboot : Bool) :
    mcoreUpdate platform ctx file noReboot =
      (do
        let (tgt, bytes) ← mcoreUpdateBegin platform ctx file
        mcoreUpdateMove tgt bytes
        mcoreUpdateArm ctx tgt bytes noReboot) := by
  cases file with
  | none => rfl
  | some bytes =>
      simp only [mcoreUpdate, mcoreUpdateBegin, mcoreUpdateMove,
        mcoreUpdateArm, bind_assoc, pure_bind]

/-- `mcore_rollback` up to its last check. -/
def mcoreRollbackBegin (platform : Platform) (ctx : Ctx) : Ab Slot := do
  lock ctx
  let cur ← envget .mcoreSlot
  Script.require (cur = "a" ∨ cur = "b") "ab: 確定している M コアの面が無い"
  let tgt := mcoreTarget cur
  let target := tgt.name
  let disk ← Script.read
  Script.require
    (((disk.mcore tgt).bind
      (McoreImage.mcoreCheck platform.crc32 platform.mcoreMagic)).isSome = true)
    s!"ab: 面 {target} に正しい M コアのファームが無い"
  return tgt

/-- `mcore_rollback` from the write on. -/
def mcoreRollbackArm (ctx : Ctx) (tgt : Slot) (noReboot : Bool) :
    Ab PUnit := do
  envset ctx [(.mcoreTry, tgt.name)]
  maybeReboot noReboot

theorem mcoreRollback_eq (platform : Platform) (ctx : Ctx)
    (noReboot : Bool) :
    mcoreRollback platform ctx noReboot =
      (do
        let tgt ← mcoreRollbackBegin platform ctx
        mcoreRollbackArm ctx tgt noReboot) := by
  simp only [mcoreRollback, mcoreRollbackBegin, mcoreRollbackArm,
    bind_assoc, pure_bind]

/-- What `mcore_confirm` reads before it watches. -/
def mcoreConfirmBegin (boot : LinuxBoot) : Ab (Option (Slot × String)) := do
  match boot.chosen.mcoreTry with
  | none => return none
  | some tried => do
      let cur ← envget .mcoreSlot
      return some (tried, cur)

/-- `mcore_confirm` once it has watched. -/
def mcoreConfirmEnd (ctx : Ctx) (boot : LinuxBoot) (tried : Slot)
    (cur : String) (healthy : Bool) : Ab PUnit :=
  if boot.chosen.mcoreSlot = some tried ∧ healthy = true then
    envset ctx [(.mcoreSlot, tried.name)]
  else if cur ≠ "" ∧ cur ≠ tried.name then
    Script.reboot
  else
    pure PUnit.unit

theorem mcoreConfirm_eq (ctx : Ctx) (boot : LinuxBoot) (healthy : Bool) :
    mcoreConfirm ctx boot healthy =
      (do
        match ← mcoreConfirmBegin boot with
        | none => pure PUnit.unit
        | some (tried, cur) => mcoreConfirmEnd ctx boot tried cur healthy) := by
  rw [mcoreConfirm, mcoreConfirmBegin]
  cases boot.chosen.mcoreTry with
  | none => rfl
  | some tried =>
      simp only [mcoreConfirmEnd, bind_assoc, pure_bind]

end KmmYocto.Ab
