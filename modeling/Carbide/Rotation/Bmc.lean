import Mathlib

/-!
# BMC root-password rotation: the marker protocol across the BMC, the store and the row

`rotate_bmc` (credential-rotation/src/lib.rs:790-888) moves one BMC's root
password to the site-wide secret of the current target version. Three parties
hold state: the BMC itself (its live password), the credential store (the
per-device root secret, and one site-wide secret per version, staged by
`RotateCredential` before `set_next_target_version` publishes the version), and
the `device_credential_rotation` row with its crash marker
`rotating_to_version`. A tick re-reads the row, marks the target as the
version it rotates to, changes the password (authenticating with the stored
per-device secret, falling back to a probe of the rotate-to value), writes the
new per-device secret and promotes the marker.

`World` holds the three parties and the target; `Orc` says which calls of a
tick fail and where the process dies. A database error returns `Err` from the
tick with the writes made so far. Passwords are numbers.

This module gives one tick run without interruption (`rotateBmc`), what each
write does, and the invariants that `Carbide.Rotation.Runs` carries along the
runs where the tick's await steps interleave with target advances:
`ConvergeEffect` says once what the convergence can do to the BMC and the
store, and `QuietInv` is the marker protocol's invariant.
-/
namespace Carbide.Rotation

/-! ## The world -/

/-- The `device_credential_rotation` row of one BMC. The error text and the
last attempt time are not read by the engine and are left out. -/
structure Row where
  currentVersion : Option Nat
  rotatingToVersion : Option Nat
  rotateAttempts : Nat
  rotateQuarantinedUntil : Option Nat
  deriving DecidableEq, Repr

/-- One BMC with its credentials and rotation bookkeeping. -/
structure World where
  /-- The password the BMC accepts. -/
  live : Nat
  /-- The stored per-device root secret. -/
  perDevice : Option Nat
  /-- The site-wide root secret staged at each version. -/
  siteWide : Nat → Option Nat
  /-- `sitewide_credential_rotation.target_version`. -/
  targetVersion : Nat
  /-- The device's row, if it is under management. -/
  row : Option Row

namespace World

/-- The version the row records as converged. -/
def current (w : World) : Option Nat := w.row.bind Row.currentVersion

/-- The in-flight marker. -/
def rotatingTo (w : World) : Option Nat := w.row.bind Row.rotatingToVersion

/-- The site-wide secret of the version the row is rotating to. -/
def markerSecret (w : World) : Option Nat := w.rotatingTo.bind w.siteWide

/-- The row reads as converged: `current_version >= target_version`. -/
def converged (w : World) : Bool := w.current.any fun c => decide (w.targetVersion ≤ c)

/-- The stored per-device secret authenticates the BMC. -/
def Authenticates (w : World) : Prop := w.perDevice = some w.live

instance : DecidablePred Authenticates := fun w =>
  inferInstanceAs (Decidable (w.perDevice = some w.live))

end World

/-! ## The database (api-db/src/credential_rotation.rs) -/

/-- `BACKOFF_BASE_SECS`. -/
def backoffBaseSecs : Nat := 900

/-- `BACKOFF_CAP_SECS`. -/
def backoffCapSecs : Nat := 3600

/-- Exponential, capped backoff; times are seconds. The attempt count is never
negative, so `max(0)` and the saturating arithmetic change nothing here.
mirrors api-db/src/credential_rotation.rs:95-101 -/
def backoffUntil (priorAttempts now : Nat) : Nat :=
  now + min (backoffBaseSecs * 2 ^ priorAttempts) backoffCapSecs

/-- The fields of `DeviceRotationStatus` the engine reads. -/
structure DeviceRotationStatus where
  targetVersion : Nat
  currentVersion : Option Nat
  rotatingToVersion : Option Nat
  converged : Bool
  quarantined : Bool
  quarantinedUntil : Option Nat
  rotateAttempts : Nat
  deriving DecidableEq, Repr

/-- The join of the site-wide row and the device's row. `converged` is
`COALESCE(current_version >= target_version, false)` and `quarantined` is
`COALESCE(rotate_quarantined_until > now(), false)`.
mirrors api-db/src/credential_rotation.rs:951-984 -/
def deviceRotationStatus (w : World) (now : Nat) : Option DeviceRotationStatus :=
  w.row.map fun r =>
    { targetVersion := w.targetVersion
      currentVersion := r.currentVersion
      rotatingToVersion := r.rotatingToVersion
      converged := r.currentVersion.any fun c => decide (w.targetVersion ≤ c)
      quarantined := r.rotateQuarantinedUntil.any fun u => decide (now < u)
      quarantinedUntil := r.rotateQuarantinedUntil
      rotateAttempts := r.rotateAttempts }

/-- An upsert of the marker; a new row has only the marker set.
mirrors api-db/src/credential_rotation.rs:203-222 -/
def markDeviceRotatingToVersion (w : World) (rotatingToVersion : Nat) : World :=
  { w with
    row := some (match w.row with
      | some r => { r with rotatingToVersion := some rotatingToVersion }
      | none => ⟨none, some rotatingToVersion, 0, none⟩) }

/-- Promotes the marker and clears the failure bookkeeping; a row without a
marker is left alone.
mirrors api-db/src/credential_rotation.rs:247-265 -/
def promoteRotatingToCurrent (w : World) : World :=
  match w.row with
  | some r =>
    if r.rotatingToVersion.isSome then
      { w with row := some ⟨r.rotatingToVersion, none, 0, none⟩ }
    else w
  | none => w

/-- Records a failed attempt; the marker stays.
mirrors api-db/src/credential_rotation.rs:295-316 -/
def incrementRotateAttempt (w : World) (quarantinedUntil : Nat) : World :=
  { w with
    row := w.row.map fun r =>
      { r with rotateAttempts := r.rotateAttempts + 1,
               rotateQuarantinedUntil := some quarantinedUntil } }

/-- A compare-and-set of the site-wide target.
mirrors api-db/src/credential_rotation.rs:624-641 -/
def setNextTargetVersion (w : World) (expectedCurrent : Nat) : Option World :=
  if w.targetVersion = expectedCurrent then
    some { w with targetVersion := expectedCurrent + 1 }
  else none

/-- `create_credentials` never replaces a staged secret; an existing one is
kept. mirrors api-core/src/handlers/credential_rotation.rs:384-421 -/
def stageVersionedSecret (w : World) (version secret : Nat) : World :=
  match w.siteWide version with
  | some _ => w
  | none => { w with siteWide := fun v => if v = version then some secret else w.siteWide v }

/-- `RotateCredential` for the BMC root type: stage the secret at the next
version, then publish it.
mirrors api-core/src/handlers/credential_rotation.rs:182-262 -/
def rotateCredential (w : World) (secret : Nat) : Option World :=
  setNextTargetVersion (stageVersionedSecret w (w.targetVersion + 1) secret) w.targetVersion

/-! ## Redfish and the tick (credential-rotation/src/lib.rs) -/

/-- What `set_bmc_root_password` does once it has authenticated. -/
inductive ChangeResult
  /-- `Ok(())`. -/
  | applied
  /-- `Err`, and the BMC kept its password. -/
  | rejected
  /-- `Err`, although the BMC took the new password (the response was lost). -/
  | appliedButLost
  deriving DecidableEq, Repr

/-- Where the process dies during a tick. -/
inductive CrashPoint
  /-- After the marker, before the BMC is touched. -/
  | afterMark
  /-- After the BMC request, before the store write. -/
  | afterChange
  /-- After the store write, before the marker is promoted. -/
  | afterPersist
  deriving DecidableEq, Repr

/-- Which calls of one tick fail, and where the process dies. -/
structure Orc where
  /-- A credential-store read fails. -/
  readFails : Bool
  /-- The vendor probe fails with every candidate. -/
  probeFails : Bool
  change : ChangeResult
  /-- `bmc_credentials_valid` fails with a transport error. -/
  verifyFails : Bool
  /-- The per-device secret write fails. -/
  storeWriteFails : Bool
  crash : Option CrashPoint
  deriving DecidableEq, Repr

/-- Authenticates with `fromPw`; returns the BMC's password afterwards and
whether the call returned `Ok`. -/
def setBmcRootPassword (res : ChangeResult) (live fromPw newPw : Nat) : Nat × Bool :=
  if live = fromPw then
    match res with
    | .applied => (newPw, true)
    | .rejected => (live, false)
    | .appliedButLost => (newPw, false)
  else (live, false)

/-- Whether `pw` authenticates; `none` is a transport error. -/
def bmcCredentialsValid (fails : Bool) (live pw : Nat) : Option Bool :=
  if fails then none else some (decide (live = pw))

/-- The Chassis read succeeds when the candidate authenticates. -/
def probeBmcVendor (fails : Bool) (live pw : Nat) : Bool :=
  !fails && decide (live = pw)

inductive DispatchVendor
  | Fixed
  | Probe
  deriving DecidableEq, Repr

/-- Whether the dispatch vendor resolves; the vendor itself only steers the
Redfish request and is not modelled. A probe tries `rotate_from`, then
`rotate_to`. mirrors credential-rotation/src/lib.rs:1100-1123 -/
def resolveDispatchVendor (probeFails : Bool) (vendor : DispatchVendor) (live fromPw toPw : Nat) :
    Bool :=
  match vendor with
  | .Fixed => true
  | .Probe => probeBmcVendor probeFails live fromPw || probeBmcVendor probeFails live toPw

inductive CredentialConvergence
  | Changed
  | Recovered
  deriving DecidableEq, Repr

/-- Change, and when the change fails, verify the rotate-to value. Returns the
BMC's password afterwards and the convergence (`none` for `Err`).
mirrors credential-rotation/src/lib.rs:1027-1073 -/
def changeOrRecover (orc : Orc) (live fromPw toPw : Nat) : Nat × Option CredentialConvergence :=
  match setBmcRootPassword orc.change live fromPw toPw with
  | (live, true) => (live, some .Changed)
  | (live, false) =>
    match bmcCredentialsValid orc.verifyFails live toPw with
    | some true => (live, some .Recovered)
    | _ => (live, none)

inductive ConvergeError
  | DeviceFault
  | CredentialStoreWriteFailed
  deriving DecidableEq, Repr

/-- Reads both secrets, resolves the vendor, converges the BMC and persists the
per-device secret. The result is `none` when the process dies after the BMC
request. mirrors credential-rotation/src/lib.rs:947-1006 -/
def convergeBmcPassword (orc : Orc) (vendor : DispatchVendor) (rotateToVersion : Nat) (w : World) :
    World × Option (Except ConvergeError CredentialConvergence) :=
  if orc.readFails then (w, some (.error .DeviceFault)) else
  match w.perDevice, w.siteWide rotateToVersion with
  | some current, some new =>
    if !resolveDispatchVendor orc.probeFails vendor w.live current new then
      (w, some (.error .DeviceFault))
    else
      match changeOrRecover orc w.live current new with
      | (live, convergence) =>
        if orc.crash = some .afterChange then ({ w with live }, none)
        else
          match convergence with
          | none => ({ w with live }, some (.error .DeviceFault))
          | some convergence =>
            if orc.storeWriteFails then ({ w with live }, some (.error .CredentialStoreWriteFailed))
            else ({ w with live, perDevice := some new }, some (.ok convergence))
  -- a secret that is not set or not staged
  | _, _ => (w, some (.error .DeviceFault))

inductive RotateOutcome
  | Converged
  | Quarantined (quarantinedUntil : Nat)
  | CredentialStoreReconcilePending
  | NoWork
  deriving DecidableEq, Repr

/-- The status read and the early returns of `rotate_bmc`: an outcome, or the
status an attempt starts from.
mirrors credential-rotation/src/lib.rs:799-813 -/
def checkStatus (now : Nat) (force : Bool) (w : World) : DeviceRotationStatus ⊕ RotateOutcome :=
  match deviceRotationStatus w now with
  | none => .inr .NoWork
  | some status =>
    if status.converged then .inr .Converged
    else if status.quarantined && !force then
      .inr (.Quarantined (status.quarantinedUntil.getD now))
    else .inl status

/-- What a tick writes for the result of `converge_bmc_password`, and what it
returns. mirrors credential-rotation/src/lib.rs:828-886 -/
def recordConvergence (now : Nat) (status : DeviceRotationStatus) (w : World) :
    Except ConvergeError CredentialConvergence → World × RotateOutcome
  | .ok _ => (promoteRotatingToCurrent w, .Converged)
  | .error .DeviceFault =>
    (incrementRotateAttempt w (backoffUntil status.rotateAttempts now),
      .Quarantined (backoffUntil status.rotateAttempts now))
  | .error .CredentialStoreWriteFailed => (w, .CredentialStoreReconcilePending)

/-- The part of `rotate_bmc` after its early returns: the marker goes down
before the BMC is touched, then the result of the convergence is recorded.
mirrors credential-rotation/src/lib.rs:822-886 -/
def attemptRotation (orc : Orc) (vendor : DispatchVendor) (now : Nat)
    (status : DeviceRotationStatus) (w : World) : World × Option RotateOutcome :=
  let w := markDeviceRotatingToVersion w status.targetVersion
  if orc.crash = some .afterMark then (w, none) else
  match convergeBmcPassword orc vendor status.targetVersion w with
  | (w, none) => (w, none)
  | (w, some r) =>
    if r.isOk ∧ orc.crash = some .afterPersist then (w, none)
    else ((recordConvergence now status w r).1, some (recordConvergence now status w r).2)

/-- One tick for one BMC, run without interruption; `none` is `Err` or a tick
the process did not finish.
mirrors credential-rotation/src/lib.rs:790-888 -/
def rotateBmc (orc : Orc) (vendor : DispatchVendor) (now : Nat) (force : Bool) (w : World) :
    World × Option RotateOutcome :=
  match checkStatus now force w with
  | .inr outcome => (w, some outcome)
  | .inl status => attemptRotation orc vendor now status w

/-! ## The switch controller (switch-controller/src/rotating_bmc.rs) -/

inductive BmcRotationTick
  | Settled
  | Retry
  | WaitForCredentialStoreReconcile
  deriving DecidableEq, Repr

/-- `MAX_BMC_ROTATION_RETRIES`. -/
def maxBmcRotationRetries : Nat := 3

inductive RotationStep
  | Settled
  | GaveUp
  | Retry (retryCount : Nat)
  | WaitForCredentialStoreReconcile
  deriving DecidableEq, Repr

/-- mirrors credential-rotation/src/lib.rs:498-523 -/
def advance (tick : BmcRotationTick) (retryCount : Nat) : RotationStep :=
  match tick with
  | .Settled => .Settled
  | .WaitForCredentialStoreReconcile => .WaitForCredentialStoreReconcile
  | .Retry => if retryCount + 1 ≥ maxBmcRotationRetries then .GaveUp else .Retry (retryCount + 1)

/-- A switch BMC's vendor is fixed; engine outcomes map to a tick, and quarantine
counts as settled. mirrors switch-controller/src/rotating_bmc.rs:183-236 -/
def rotateSwitchBmc (orc : Orc) (now : Nat) (force : Bool) (w : World) : World × BmcRotationTick :=
  match rotateBmc orc .Fixed now force w with
  | (w, some .Converged) | (w, some (.Quarantined _)) | (w, some .NoWork) => (w, .Settled)
  | (w, some .CredentialStoreReconcilePending) => (w, .WaitForCredentialStoreReconcile)
  | (w, none) => (w, .Retry)

inductive SwitchControllerState
  | Ready
  | RotatingBmc (retryCount : Nat)
  deriving DecidableEq, Repr

/-- The `RotatingBmc` state handler for a switch with an addressable BMC: a
settled tick or an exhausted budget returns the switch to `Ready`, that is to
service. mirrors switch-controller/src/rotating_bmc.rs:132-177 -/
def handleRotatingBmc (orc : Orc) (now : Nat) (force : Bool) (retryCount : Nat) (w : World) :
    World × SwitchControllerState :=
  match rotateSwitchBmc orc now force w with
  | (w, tick) =>
    match advance tick retryCount with
    | .WaitForCredentialStoreReconcile => (w, .RotatingBmc retryCount)
    | .Settled | .GaveUp => (w, .Ready)
    | .Retry retryCount => (w, .RotatingBmc retryCount)

/-! ## What each write does -/

section Writes
variable (w : World)

@[simp] theorem mark_live (v : Nat) : (markDeviceRotatingToVersion w v).live = w.live := rfl

@[simp] theorem mark_perDevice (v : Nat) :
    (markDeviceRotatingToVersion w v).perDevice = w.perDevice := rfl

@[simp] theorem mark_siteWide (v : Nat) :
    (markDeviceRotatingToVersion w v).siteWide = w.siteWide := rfl

@[simp] theorem mark_targetVersion (v : Nat) :
    (markDeviceRotatingToVersion w v).targetVersion = w.targetVersion := rfl

@[simp] theorem mark_rotatingTo (v : Nat) :
    (markDeviceRotatingToVersion w v).rotatingTo = some v := by
  cases h : w.row <;> simp [markDeviceRotatingToVersion, World.rotatingTo, h]

@[simp] theorem mark_current (v : Nat) :
    (markDeviceRotatingToVersion w v).current = w.current := by
  cases h : w.row <;> simp [markDeviceRotatingToVersion, World.current, h]

@[simp] theorem mark_converged (v : Nat) :
    (markDeviceRotatingToVersion w v).converged = w.converged := by
  unfold World.converged; rw [mark_current]; rfl

@[simp] theorem increment_live (u : Nat) : (incrementRotateAttempt w u).live = w.live := rfl

@[simp] theorem increment_perDevice (u : Nat) :
    (incrementRotateAttempt w u).perDevice = w.perDevice := rfl

@[simp] theorem increment_siteWide (u : Nat) :
    (incrementRotateAttempt w u).siteWide = w.siteWide := rfl

@[simp] theorem increment_targetVersion (u : Nat) :
    (incrementRotateAttempt w u).targetVersion = w.targetVersion := rfl

@[simp] theorem increment_rotatingTo (u : Nat) :
    (incrementRotateAttempt w u).rotatingTo = w.rotatingTo := by
  cases h : w.row <;> simp [incrementRotateAttempt, World.rotatingTo, h]

@[simp] theorem increment_current (u : Nat) :
    (incrementRotateAttempt w u).current = w.current := by
  cases h : w.row <;> simp [incrementRotateAttempt, World.current, h]

@[simp] theorem increment_converged (u : Nat) :
    (incrementRotateAttempt w u).converged = w.converged := by
  unfold World.converged; rw [increment_current]; rfl

@[simp] theorem promote_live : (promoteRotatingToCurrent w).live = w.live := by
  unfold promoteRotatingToCurrent; split <;> (try split) <;> rfl

@[simp] theorem promote_perDevice : (promoteRotatingToCurrent w).perDevice = w.perDevice := by
  unfold promoteRotatingToCurrent; split <;> (try split) <;> rfl

@[simp] theorem promote_targetVersion :
    (promoteRotatingToCurrent w).targetVersion = w.targetVersion := by
  unfold promoteRotatingToCurrent; split <;> (try split) <;> rfl

/-- Promotion always leaves the row without a marker. -/
@[simp] theorem promote_rotatingTo : (promoteRotatingToCurrent w).rotatingTo = none := by
  unfold promoteRotatingToCurrent
  split
  · rename_i r hr
    split
    · rfl
    · simp_all [World.rotatingTo]
  · simp_all [World.rotatingTo]

/-- The promoted version is the marker's. -/
theorem promote_current {v : Nat} (h : w.rotatingTo = some v) :
    (promoteRotatingToCurrent w).current = some v := by
  unfold World.rotatingTo at h
  obtain ⟨r, hr, hv⟩ := Option.bind_eq_some_iff.1 h
  simp [promoteRotatingToCurrent, hr, hv, World.current]

end Writes

theorem deviceRotationStatus_eq_some {w : World} {now : Nat} {s : DeviceRotationStatus}
    (h : deviceRotationStatus w now = some s) :
    s.targetVersion = w.targetVersion ∧ s.converged = w.converged := by
  unfold deviceRotationStatus at h
  cases hr : w.row with
  | none => simp [hr] at h
  | some r =>
    simp only [hr, Option.map_some, Option.some.injEq] at h
    subst h
    simp [World.converged, World.current, hr]

/-- `RotateCredential` always publishes in a run of one device: it changes only the
target and the newly staged version, and the new target's secret is staged. -/
theorem rotateCredential_eq_some {w w' : World} {secret : Nat}
    (h : rotateCredential w secret = some w') :
    w'.live = w.live ∧ w'.perDevice = w.perDevice ∧ w'.row = w.row ∧
      w'.targetVersion = w.targetVersion + 1 ∧
      (∀ v, v ≤ w.targetVersion → w'.siteWide v = w.siteWide v) ∧
      (w'.siteWide w'.targetVersion).isSome := by
  unfold rotateCredential setNextTargetVersion stageVersionedSecret at h
  split at h
  · rename_i s hs
    simp only [if_true, Option.some.injEq] at h
    subst h
    exact ⟨rfl, rfl, rfl, rfl, fun _ _ => rfl, by simp [hs]⟩
  · simp only [if_true, Option.some.injEq] at h
    subst h
    refine ⟨rfl, rfl, rfl, rfl, fun v hv => ?_, by simp⟩
    simp only
    rw [if_neg (by omega)]

/-! ## One attempt at the BMC -/

theorem setBmcRootPassword_live (res : ChangeResult) (live fromPw newPw : Nat) :
    (setBmcRootPassword res live fromPw newPw).1 = live ∨
      (live = fromPw ∧ (setBmcRootPassword res live fromPw newPw).1 = newPw) := by
  unfold setBmcRootPassword
  by_cases h : live = fromPw
  · cases res <;> simp [h]
  · simp [h]

theorem setBmcRootPassword_ok {res : ChangeResult} {live fromPw newPw : Nat}
    (h : (setBmcRootPassword res live fromPw newPw).2 = true) :
    (setBmcRootPassword res live fromPw newPw).1 = newPw := by
  unfold setBmcRootPassword at h ⊢
  split at h
  · cases res <;> simp_all
  · simp at h

/-- The BMC's password after `change_or_recover` is the one the change left. -/
theorem changeOrRecover_fst (orc : Orc) (live fromPw toPw : Nat) :
    (changeOrRecover orc live fromPw toPw).1 = (setBmcRootPassword orc.change live fromPw toPw).1 := by
  unfold changeOrRecover
  split
  · rename_i h; rw [h]
  · rename_i h
    split <;> rw [h]

/-- A convergence, changed or recovered, leaves the BMC on the rotate-to value. -/
theorem changeOrRecover_converged {orc : Orc} {live fromPw toPw : Nat} {conv : CredentialConvergence}
    (h : (changeOrRecover orc live fromPw toPw).2 = some conv) :
    (changeOrRecover orc live fromPw toPw).1 = toPw := by
  unfold changeOrRecover at h ⊢
  split at h
  · rename_i live' hset
    have hok : (setBmcRootPassword orc.change live fromPw toPw).1 = toPw :=
      setBmcRootPassword_ok (by rw [hset])
    rwa [hset] at hok
  · rename_i live' hset
    split at h
    · rename_i hvalid
      unfold bmcCredentialsValid at hvalid
      split at hvalid
      · cases hvalid
      · simp only [Option.some.injEq, decide_eq_true_eq] at hvalid
        simp [hvalid]
    · cases h

/-- What `converge_bmc_password` can do to the world: it moves the BMC only from
the stored secret to the rotate-to secret of version `v`, and it writes the
store only with the password the BMC then holds. -/
structure ConvergeEffect (v : Nat) (w c : World)
    (r : Option (Except ConvergeError CredentialConvergence)) : Prop where
  row : c.row = w.row
  siteWide : c.siteWide = w.siteWide
  targetVersion : c.targetVersion = w.targetVersion
  live : c.live = w.live ∨ (w.perDevice = some w.live ∧ w.siteWide v = some c.live)
  persisted : ∀ conv, r = some (.ok conv) → c.perDevice = some c.live
  kept : (∀ conv, r ≠ some (.ok conv)) → c.perDevice = w.perDevice

namespace ConvergeEffect

variable {v : Nat} {w : World} {r : Option (Except ConvergeError CredentialConvergence)}

theorem unchanged (hr : ∀ conv, r ≠ some (.ok conv)) : ConvergeEffect v w w r :=
  ⟨rfl, rfl, rfl, .inl rfl, fun conv h => absurd h (hr conv), fun _ => rfl⟩

section Moved
variable {current new x : Nat} (hp : w.perDevice = some current) (hs : w.siteWide v = some new)
  (hx : x = w.live ∨ (w.live = current ∧ x = new))
include hp hs hx

theorem live_of_moved : x = w.live ∨ (w.perDevice = some w.live ∧ w.siteWide v = some x) := by
  rcases hx with hx | ⟨hc, hx⟩
  · exact .inl hx
  · exact .inr ⟨by rw [hp, hc], by rw [hs, hx]⟩

/-- The BMC request ran and nothing was persisted. -/
theorem moved (hr : ∀ conv, r ≠ some (.ok conv)) : ConvergeEffect v w { w with live := x } r :=
  ⟨rfl, rfl, rfl, live_of_moved hp hs hx, fun conv h => absurd h (hr conv), fun _ => rfl⟩

/-- The BMC reached the rotate-to secret and the store took it. -/
theorem stored (hnew : x = new) (conv : CredentialConvergence) :
    ConvergeEffect v w { w with live := x, perDevice := some new } (some (.ok conv)) :=
  ⟨rfl, rfl, rfl, live_of_moved hp hs hx, fun _ _ => by simp [hnew],
    fun h => absurd rfl (h conv)⟩

end Moved

variable {c : World} (e : ConvergeEffect v w c r)
include e

theorem current : c.current = w.current := by simp [World.current, e.row]

theorem rotatingTo : c.rotatingTo = w.rotatingTo := by simp [World.rotatingTo, e.row]

theorem converged : c.converged = w.converged := by
  simp [World.converged, e.current, e.targetVersion]

theorem markerSecret : c.markerSecret = w.markerSecret := by
  simp [World.markerSecret, e.rotatingTo, e.siteWide]

end ConvergeEffect

theorem convergeBmcPassword_effect (orc : Orc) (vendor : DispatchVendor) (v : Nat) (w : World) :
    ConvergeEffect v w (convergeBmcPassword orc vendor v w).1 (convergeBmcPassword orc vendor v w).2 := by
  unfold convergeBmcPassword
  split
  · exact .unchanged (by simp)
  split
  · rename_i current new hp hs
    split
    · exact .unchanged (by simp)
    generalize hco : changeOrRecover orc w.live current new = co
    obtain ⟨x, conv⟩ := co
    -- every later branch keeps the password the BMC request left
    have hx : x = w.live ∨ (w.live = current ∧ x = new) := by
      have h := setBmcRootPassword_live orc.change w.live current new
      rwa [← changeOrRecover_fst, hco] at h
    dsimp only
    split
    · exact .moved hp hs hx (by simp)
    cases conv with
    | none => exact .moved hp hs hx (by simp)
    | some conv =>
      have hnew : x = new := by
        have h : (changeOrRecover orc w.live current new).1 = new :=
          changeOrRecover_converged (by rw [hco])
        rwa [hco] at h
      dsimp only
      split
      · exact .moved hp hs hx (by simp)
      · exact .stored hp hs hx hnew conv
  · exact .unchanged (by simp)

/-! ## One tick -/

/-- A status that asks for an attempt names the current target, and the row
does not read as converged. -/
theorem checkStatus_eq_inl {now : Nat} {force : Bool} {w : World} {status : DeviceRotationStatus}
    (h : checkStatus now force w = .inl status) :
    status.targetVersion = w.targetVersion ∧ w.converged = false := by
  unfold checkStatus at h
  split at h
  · cases h
  · rename_i s hs
    obtain ⟨ht, hc⟩ := deviceRotationStatus_eq_some hs
    split at h
    · cases h
    · split at h
      · cases h
      · cases h
        exact ⟨ht, by simp_all⟩

/-- The early `Converged` is read off a row that reads as converged. -/
theorem checkStatus_eq_converged {now : Nat} {force : Bool} {w : World}
    (h : checkStatus now force w = .inr .Converged) : w.converged = true := by
  unfold checkStatus at h
  split at h
  · cases h
  · rename_i s hs
    obtain ⟨-, hc⟩ := deviceRotationStatus_eq_some hs
    split at h
    · rwa [← hc]
    · split at h <;> cases h

/-- A forced read of a world with a row returns early only as `Converged`: a
quarantine does not hold a forced tick back. -/
theorem checkStatus_force_eq_inr {now : Nat} {w : World} {o : RotateOutcome}
    (hrow : w.row.isSome) (h : checkStatus now true w = .inr o) : o = .Converged := by
  unfold checkStatus at h
  split at h
  · rename_i hs
    simp [deviceRotationStatus, Option.map_eq_none_iff, Option.isSome_iff_ne_none] at hs hrow
    exact absurd hs hrow
  · split at h
    · cases h
      rfl
    · split at h
      · rename_i hq
        simp at hq
      · cases h

/-- Only an `Ok` convergence is recorded as `Converged`. -/
theorem recordConvergence_converged {now : Nat} {status : DeviceRotationStatus} {w : World}
    {r : Except ConvergeError CredentialConvergence}
    (h : (recordConvergence now status w r).2 = .Converged) :
    ∃ conv, r = .ok conv ∧ (recordConvergence now status w r).1 = promoteRotatingToCurrent w := by
  rcases r with (_ | _) | conv
  · cases h
  · cases h
  · exact ⟨conv, rfl, rfl⟩

/-- Everything an attempt can end in, given the convergence's result `(c, r)`
from the marked world: the process dies after the marker, in the convergence,
or after a persist, or the result is recorded. -/
theorem attemptRotation_cases {orc : Orc} {vendor : DispatchVendor} {now : Nat}
    {s : DeviceRotationStatus} {w c : World} {r : Option (Except ConvergeError CredentialConvergence)}
    (h : convergeBmcPassword orc vendor s.targetVersion
      (markDeviceRotatingToVersion w s.targetVersion) = (c, r)) :
    (orc.crash = some .afterMark ∧
      attemptRotation orc vendor now s w = (markDeviceRotatingToVersion w s.targetVersion, none)) ∨
    (orc.crash ≠ some .afterMark ∧ r = none ∧ attemptRotation orc vendor now s w = (c, none)) ∨
    (∃ e, orc.crash ≠ some .afterMark ∧ r = some e ∧ e.isOk = true ∧
      orc.crash = some .afterPersist ∧ attemptRotation orc vendor now s w = (c, none)) ∨
    (∃ e, orc.crash ≠ some .afterMark ∧ r = some e ∧
      ¬ (e.isOk = true ∧ orc.crash = some .afterPersist) ∧
      attemptRotation orc vendor now s w =
        ((recordConvergence now s c e).1, some (recordConvergence now s c e).2)) := by
  unfold attemptRotation
  dsimp only
  split
  · exact .inl ⟨‹_›, rfl⟩
  rw [h]
  rcases r with _ | e
  · exact .inr (.inl ⟨‹_›, rfl, rfl⟩)
  · dsimp only
    split
    · rename_i hcr
      exact .inr (.inr (.inl ⟨e, ‹_›, rfl, hcr.1, hcr.2, rfl⟩))
    · exact .inr (.inr (.inr ⟨e, ‹_›, rfl, ‹_›, rfl⟩))

/-- An attempt that does not crash and whose convergence returns `Ok` promotes
the marker and returns `Converged`. -/
theorem attemptRotation_eq_converged {orc : Orc} {vendor : DispatchVendor} {now : Nat}
    {s : DeviceRotationStatus} {w c : World} {conv : CredentialConvergence}
    (hcrash : orc.crash = none)
    (h : convergeBmcPassword orc vendor s.targetVersion
      (markDeviceRotatingToVersion w s.targetVersion) = (c, some (.ok conv))) :
    attemptRotation orc vendor now s w = (promoteRotatingToCurrent c, some .Converged) := by
  rcases @attemptRotation_cases orc vendor now s w c (some (.ok conv)) h with
    ⟨hm, -⟩ | ⟨-, hr, -⟩ | ⟨_, -, -, -, hp, -⟩ | ⟨_, -, he, -, ha⟩
  · rw [hcrash] at hm
    cases hm
  · cases hr
  · rw [hcrash] at hp
    cases hp
  · cases he
    exact ha

/-- A tick returns early with the world untouched, or makes an attempt from the
status it read. -/
theorem rotateBmc_cases (orc : Orc) (vendor : DispatchVendor) (now : Nat) (force : Bool) (w : World) :
    (∃ o, checkStatus now force w = .inr o ∧ rotateBmc orc vendor now force w = (w, some o)) ∨
    (∃ s, checkStatus now force w = .inl s ∧
      rotateBmc orc vendor now force w = attemptRotation orc vendor now s w) := by
  unfold rotateBmc
  split
  · exact .inl ⟨_, ‹_›, rfl⟩
  · exact .inr ⟨_, ‹_›, rfl⟩

/-! ## Invariants -/

/-- The BMC's password is the stored per-device secret, or the site-wide
secret of the version the row is rotating to. -/
def NotStranded (w : World) : Prop := w.Authenticates ∨ w.markerSecret = some w.live

instance : DecidablePred NotStranded := fun w =>
  inferInstanceAs (Decidable (w.perDevice = some w.live ∨ w.markerSecret = some w.live))

/-- Every marker names the current target. -/
def MarkerCurrent (w : World) : Prop := ∀ v, w.rotatingTo = some v → v = w.targetVersion

/-- No rotation is in flight on the device. -/
def NotInFlight (w : World) : Prop := w.rotatingTo = none

instance : DecidablePred NotInFlight := fun w => inferInstanceAs (Decidable (w.rotatingTo = none))

/-- A row that reads as converged has a stored secret that authenticates. -/
def ConvergedSound (w : World) : Prop := w.converged = true → w.Authenticates

theorem convergedSound_of_authenticates {w : World} (h : w.Authenticates) : ConvergedSound w :=
  fun _ => h

theorem convergedSound_of_not_converged {w : World} (h : w.converged = false) : ConvergedSound w :=
  fun h' => absurd (h.symm.trans h') (by simp)

theorem promote_authenticates {w : World} (h : w.Authenticates) :
    (promoteRotatingToCurrent w).Authenticates := by
  simpa [World.Authenticates] using h

theorem rotateCredential_convergedSound {w w' : World} {secret : Nat} (h : ConvergedSound w)
    (hw : rotateCredential w secret = some w') : ConvergedSound w' := by
  obtain ⟨hl, hp, hrow, ht, -, -⟩ := rotateCredential_eq_some hw
  intro hc
  -- a version at or past the new target is at or past the old one
  have hold : w.converged = true := by
    simp only [World.converged, World.current, hrow, ht, Option.any_eq_true,
      decide_eq_true_eq] at hc ⊢
    obtain ⟨v, hv, hle⟩ := hc
    exact ⟨v, hv, by omega⟩
  simpa [World.Authenticates, hl, hp] using h hold

/-- The invariant of runs that advance the target only while no rotation is in
flight. -/
structure QuietInv (w : World) : Prop where
  notStranded : NotStranded w
  markerCurrent : MarkerCurrent w
  stored : w.perDevice.isSome

/-- Marking the current target keeps the invariant: a marker already set names
that target, so its secret does not change. -/
theorem quietInv_mark {w : World} (h : QuietInv w) :
    QuietInv (markDeviceRotatingToVersion w w.targetVersion) := by
  refine ⟨?_, fun v hv => by simpa using hv.symm, by simpa using h.stored⟩
  rcases h.notStranded with ha | hm
  · exact .inl (by simpa [World.Authenticates] using ha)
  · right
    unfold World.markerSecret at hm ⊢
    obtain ⟨v, hv, hs⟩ := Option.bind_eq_some_iff.1 hm
    rw [h.markerCurrent v hv] at hs
    simpa using hs

/-- The convergence from a marked world keeps the invariant: the BMC moves only
from the stored secret to the marker's secret, and the store takes only the
password the BMC holds. -/
theorem quietInv_converge {m c : World} {r : Option (Except ConvergeError CredentialConvergence)}
    (h : QuietInv m) (hm : m.rotatingTo = some m.targetVersion)
    (e : ConvergeEffect m.targetVersion m c r) : QuietInv c := by
  have hstored : c.perDevice.isSome := by
    by_cases hok : ∃ conv, r = some (.ok conv)
    · obtain ⟨conv, hr⟩ := hok
      simp [e.persisted conv hr]
    · rw [e.kept fun conv hr => hok ⟨conv, hr⟩]
      exact h.stored
  refine ⟨?_, fun v hv => ?_, hstored⟩
  · rcases e.live with hl | ⟨-, hs⟩
    · by_cases hok : ∃ conv, r = some (.ok conv)
      · obtain ⟨conv, hr⟩ := hok
        exact .inl (e.persisted conv hr)
      · unfold NotStranded World.Authenticates
        rw [e.kept fun conv hr => hok ⟨conv, hr⟩, e.markerSecret, hl]
        exact h.notStranded
    · right
      simp [World.markerSecret, e.rotatingTo, hm, e.siteWide, hs]
  · rw [e.rotatingTo] at hv
    rw [e.targetVersion]
    exact h.markerCurrent v hv

theorem quietInv_increment {w : World} (h : QuietInv w) (u : Nat) :
    QuietInv (incrementRotateAttempt w u) := by
  obtain ⟨hn, hmc, hs⟩ := h
  refine ⟨?_, ?_, by simpa using hs⟩
  · simpa [NotStranded, World.Authenticates, World.markerSecret] using hn
  · simpa [MarkerCurrent] using hmc

theorem quietInv_promote {w : World} (h : w.Authenticates) :
    QuietInv (promoteRotatingToCurrent w) :=
  ⟨.inl (promote_authenticates h), fun v hv => by simp at hv,
    by simp [show w.perDevice = some w.live from h]⟩

/-- With no rotation in flight the BMC is on the stored secret, and an advance
does not touch either. -/
theorem rotateCredential_quietInv {w w' : World} {secret : Nat} (h : QuietInv w)
    (hq : NotInFlight w) (hw : rotateCredential w secret = some w') : QuietInv w' := by
  obtain ⟨hl, hp, hrow, -, -, -⟩ := rotateCredential_eq_some hw
  have hq0 : w.rotatingTo = none := hq
  have hq' : w'.rotatingTo = none := by simpa [World.rotatingTo, hrow] using hq0
  have ha : w.Authenticates := by
    rcases h.notStranded with ha | hm
    · exact ha
    · simp [World.markerSecret, hq0] at hm
  refine ⟨.inl (by simpa [World.Authenticates, hl, hp] using ha), fun v hv => ?_, by
    simpa [hp] using h.stored⟩
  rw [hq'] at hv
  cases hv

/-! ## A tick without faults -/

/-- A tick in which nothing fails and the process does not die. -/
def Orc.faultless : Orc := ⟨false, false, .applied, false, false, none⟩

/-- Without faults the convergence from a marked world reaches the marker's
secret and persists it, from the stored secret or, when the hardware is already
ahead, by the rotate-to probe. -/
theorem convergeBmcPassword_faultless {m : World} {new : Nat} (h : QuietInv m)
    (hm : m.rotatingTo = some m.targetVersion) (hs : m.siteWide m.targetVersion = some new)
    (vendor : DispatchVendor) :
    ∃ conv, convergeBmcPassword Orc.faultless vendor m.targetVersion m =
      ({ m with live := new, perDevice := some new }, some (.ok conv)) := by
  obtain ⟨cur, hcur⟩ := Option.isSome_iff_exists.1 h.stored
  -- the invariant leaves the BMC on one of the two candidates
  have hlive : m.live = cur ∨ m.live = new := by
    rcases h.notStranded with ha | hms
    · exact .inl (Option.some.inj (ha.symm.trans hcur))
    · simp only [World.markerSecret, hm, Option.bind_some, hs, Option.some.injEq] at hms
      exact .inr hms.symm
  have hres : resolveDispatchVendor false vendor m.live cur new = true := by
    cases vendor <;> rcases hlive with hl | hl <;> simp [resolveDispatchVendor, probeBmcVendor, hl]
  unfold convergeBmcPassword
  simp only [Orc.faultless, hcur, hs, hres, Bool.not_true, Bool.false_eq_true, if_false]
  by_cases hc : m.live = cur
  · exact ⟨.Changed, by simp [changeOrRecover, setBmcRootPassword, hc]⟩
  · have hl : m.live = new := hlive.resolve_left hc
    have hnc : new ≠ cur := hl ▸ hc
    refine ⟨.Recovered, ?_⟩
    simp [changeOrRecover, setBmcRootPassword, bmcCredentialsValid, hl, hnc]

end Carbide.Rotation
