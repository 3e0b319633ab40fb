import Carbide.Rotation.Bmc
import Carbide.Lib.Lts
import Mathlib

/-!
# Runs of one BMC: the tick between its await points

`rotate_bmc` (credential-rotation/src/lib.rs:790-888) drops its database
connection after the status read and after the marker, and awaits the
credential store and Redfish in `converge_bmc_password`, so a
`RotateCredential` can land between any two of its steps. A run of one device
(`deviceSystem`) interleaves the steps of one tick at a time (`tickStep`:
status read, marker, convergence, record) with advances of the target, and
ends a tick at any await point by a database error or a crash (`abort`). The
convergence itself reads only the stored secrets of the version it was given,
which an advance never replaces, so its own awaits need no further split.

`rotateBmc`, the tick run without interruption, is one such run
(`reachable_rotateBmc`).

Results:
* `rotateBmc_converged_authenticates`: over every run, whenever the target
  advances, a tick step that returns `Converged` leaves a per-device secret
  that authenticates the BMC.
* `quiet_notStranded`: over runs whose advances land only while the device is
  at rest (no tick in flight, no marker), the BMC's password is always the
  stored per-device secret or the site-wide secret of the version the row is
  rotating to.
* `rotateBmc_recovers`: in such runs, one forced tick without faults converges
  the device, whether the hardware is behind the store or ahead of it.
* `ahead_then_advanced_quarantines_stale`: an advance while the hardware is
  ahead of the store (a failed persist) breaks the invariant, and the next tick
  quarantines the device, which the switch controller treats as settled, while
  the stored secret no longer authenticates.
-/
namespace Carbide.Rotation

open Carbide.Lib

/-! ## The tick in flight -/

/-- Where the tick in flight is, with the status it read. -/
inductive TickPhase
  | idle
  /-- `device_rotation_status` returned a row that asks for an attempt -/
  | statusRead (status : DeviceRotationStatus)
  /-- `mark_device_rotating_to_version` returned -/
  | marked (status : DeviceRotationStatus)
  /-- `converge_bmc_password` returned -/
  | convergeReturned (status : DeviceRotationStatus) (r : Except ConvergeError CredentialConvergence)

/-- One BMC with the tick in flight on it. -/
structure Device where
  world : World
  tick : TickPhase

inductive TickEvent
  /-- the status read and the early returns -/
  | readStatus (now : Nat) (force : Bool)
  | mark
  | converge (orc : Orc) (vendor : DispatchVendor)
  /-- the writes for the convergence's result, at the clock's `now` -/
  | record (now : Nat)
  /-- a database error or the process dying: the tick ends with the writes made so far -/
  | abort

/-- Where the tick is once `converge_bmc_password` returned, or after the
process died in it. -/
def afterConverge (status : DeviceRotationStatus) :
    World × Option (Except ConvergeError CredentialConvergence) → Device
  | (w, none) => ⟨w, .idle⟩
  | (w, some r) => ⟨w, .convergeReturned status r⟩

/-- One await step of the tick, with what the tick returns when the step ends it.
mirrors credential-rotation/src/lib.rs:790-888 -/
def tickStep (d : Device) : TickEvent → Option (Device × Option RotateOutcome)
  | .readStatus now force =>
    match d.tick with
    | .idle =>
      match checkStatus now force d.world with
      | .inr outcome => some (d, some outcome)
      | .inl status => some (⟨d.world, .statusRead status⟩, none)
    | _ => none
  | .mark =>
    match d.tick with
    | .statusRead status =>
      some (⟨markDeviceRotatingToVersion d.world status.targetVersion, .marked status⟩, none)
    | _ => none
  | .converge orc vendor =>
    match d.tick with
    | .marked status =>
      some (afterConverge status (convergeBmcPassword orc vendor status.targetVersion d.world), none)
    | _ => none
  | .record now =>
    match d.tick with
    | .convergeReturned status r =>
      some (⟨(recordConvergence now status d.world r).1, .idle⟩,
        some (recordConvergence now status d.world r).2)
    | _ => none
  | .abort =>
    match d.tick with
    | .idle => none
    | _ => some (⟨d.world, .idle⟩, none)

inductive DeviceEvent
  | tick (e : TickEvent)
  /-- `RotateCredential` -/
  | advance (secret : Nat)

/-- The runs of one device from rest: the await steps of one tick at a time,
with any faults, crashes, vendor, clock and force flag, and `RotateCredential`
advances of the target between any two of them whenever `advanceOk` allows. -/
def deviceSystem (advanceOk : Device → Prop) : LTS Device DeviceEvent where
  init d := d.world.Authenticates ∧ NotInFlight d.world ∧ d.tick = .idle
  step d e d' :=
    match e with
    | .tick e => ∃ out, tickStep d e = some (d', out)
    | .advance secret => advanceOk d ∧ ∃ w', rotateCredential d.world secret = some w' ∧
      d' = ⟨w', d.tick⟩

/-- A world some run reaches with no tick in flight. -/
def Reachable (advanceOk : Device → Prop) (w : World) : Prop :=
  (deviceSystem advanceOk).Reachable ⟨w, .idle⟩

/-! ## What a step does -/

section Step

variable {d d' : Device} {e : TickEvent} {out : Option RotateOutcome}

/-- Every step of a tick is one of its await steps, or its end by an error or a
crash. -/
theorem tickStep_cases (h : tickStep d e = some (d', out)) :
    (∃ now force o, d.tick = .idle ∧ checkStatus now force d.world = .inr o ∧ d' = d ∧
      out = some o) ∨
    (∃ now force status, d.tick = .idle ∧ checkStatus now force d.world = .inl status ∧
      d' = ⟨d.world, .statusRead status⟩ ∧ out = none) ∨
    (∃ status, d.tick = .statusRead status ∧
      d' = ⟨markDeviceRotatingToVersion d.world status.targetVersion, .marked status⟩ ∧
      out = none) ∨
    (∃ orc vendor status, d.tick = .marked status ∧
      d' = afterConverge status (convergeBmcPassword orc vendor status.targetVersion d.world) ∧
      out = none) ∨
    (∃ now status r, d.tick = .convergeReturned status r ∧
      d' = ⟨(recordConvergence now status d.world r).1, .idle⟩ ∧
      out = some (recordConvergence now status d.world r).2) ∨
    (d.tick ≠ .idle ∧ d' = ⟨d.world, .idle⟩ ∧ out = none) := by
  cases e with
  | readStatus now force =>
    simp only [tickStep] at h
    split at h
    · rename_i hi
      split at h <;> cases h
      · exact .inl ⟨now, force, _, hi, ‹_›, rfl, rfl⟩
      · exact .inr (.inl ⟨now, force, _, hi, ‹_›, rfl, rfl⟩)
    · cases h
  | mark =>
    simp only [tickStep] at h
    split at h
    · cases h
      exact .inr (.inr (.inl ⟨_, ‹_›, rfl, rfl⟩))
    · cases h
  | converge orc vendor =>
    simp only [tickStep] at h
    split at h
    · cases h
      exact .inr (.inr (.inr (.inl ⟨orc, vendor, _, ‹_›, rfl, rfl⟩)))
    · cases h
  | record now =>
    simp only [tickStep] at h
    split at h
    · cases h
      exact .inr (.inr (.inr (.inr (.inl ⟨now, _, _, ‹_›, rfl, rfl⟩))))
    · cases h
  | abort =>
    simp only [tickStep] at h
    split at h
    · cases h
    · rename_i hi
      cases h
      exact .inr (.inr (.inr (.inr (.inr ⟨hi, rfl, rfl⟩))))

end Step

/-- An advance publishes past a row that does not read as converged, which
then still does not. -/
theorem rotateCredential_converged_false {w w' : World} {secret : Nat}
    (hw : rotateCredential w secret = some w') (hc : w.converged = false) :
    w'.converged = false := by
  obtain ⟨-, -, hrow, ht, -, -⟩ := rotateCredential_eq_some hw
  simp only [World.converged, World.current, hrow, ht, Option.any_eq_false,
    decide_eq_false_iff_not, Nat.not_le] at hc ⊢
  intro v hv
  have := hc v hv
  omega

/-- An advance keeps the BMC's password and the stored secret. -/
theorem rotateCredential_authenticates {w w' : World} {secret : Nat}
    (hw : rotateCredential w secret = some w') (ha : w.Authenticates) : w'.Authenticates := by
  obtain ⟨hl, hp, -⟩ := rotateCredential_eq_some hw
  simpa [World.Authenticates, hl, hp] using ha

/-! ## Converged is sound over every run -/

/-- What every reachable device satisfies: a row that reads as converged has a
stored secret that authenticates; while a tick is in flight the row does not
read as converged; and a convergence that returned `Ok` has persisted the
password the BMC holds. -/
structure SoundInv (d : Device) : Prop where
  convergedSound : ConvergedSound d.world
  inFlight : d.tick ≠ .idle → d.world.converged = false
  persisted : ∀ status conv, d.tick = .convergeReturned status (.ok conv) → d.world.Authenticates

section Sound

variable {d d' : Device}

theorem soundInv_converge (h : SoundInv d) {orc : Orc} {vendor : DispatchVendor}
    {status : DeviceRotationStatus} (hm : d.tick = .marked status) :
    SoundInv (afterConverge status (convergeBmcPassword orc vendor status.targetVersion d.world)) := by
  have hc : d.world.converged = false := h.inFlight (by simp [hm])
  rcases hcr : convergeBmcPassword orc vendor status.targetVersion d.world with ⟨c, r⟩
  have e := convergeBmcPassword_effect orc vendor status.targetVersion d.world
  rw [hcr] at e
  dsimp only at e
  have hcc : c.converged = false := by rw [e.converged, hc]
  -- the row is untouched, so it still does not read as converged
  rcases r with _ | r
  · exact ⟨convergedSound_of_not_converged hcc, fun _ => hcc, fun _ _ h => by cases h⟩
  · dsimp only [afterConverge]
    refine ⟨convergedSound_of_not_converged hcc, fun _ => hcc, fun st conv hr => ?_⟩
    cases hr
    exact e.persisted conv rfl

theorem soundInv_record (h : SoundInv d) {now : Nat} {status : DeviceRotationStatus}
    {r : Except ConvergeError CredentialConvergence} (hr : d.tick = .convergeReturned status r) :
    SoundInv ⟨(recordConvergence now status d.world r).1, .idle⟩ := by
  have hc : d.world.converged = false := h.inFlight (by simp [hr])
  refine ⟨?_, fun h => absurd rfl h, fun _ _ h => by cases h⟩
  rcases r with (_ | _) | conv
  · exact convergedSound_of_not_converged (by simpa [recordConvergence] using hc)
  · exact convergedSound_of_not_converged (by simpa [recordConvergence] using hc)
  · -- promotion follows a persist of the password the BMC holds
    exact convergedSound_of_authenticates (promote_authenticates (h.persisted status conv hr))

theorem soundInv_tickStep (h : SoundInv d) {e : TickEvent} {out : Option RotateOutcome}
    (hs : tickStep d e = some (d', out)) : SoundInv d' := by
  rcases tickStep_cases hs with
    ⟨_, _, -, -, -, rfl, -⟩ | ⟨_, _, status, -, hst, rfl, -⟩ | ⟨status, hi, rfl, -⟩ |
    ⟨orc, vendor, status, hi, rfl, -⟩ | ⟨now, status, r, hi, rfl, -⟩ | ⟨-, rfl, -⟩
  · exact h
  · exact ⟨h.convergedSound, fun _ => (checkStatus_eq_inl hst).2, fun _ _ h => by cases h⟩
  · have hc : d.world.converged = false := h.inFlight (by simp [hi])
    exact ⟨convergedSound_of_not_converged (by simpa using hc), fun _ => by simpa using hc,
      fun _ _ h => by cases h⟩
  · exact soundInv_converge h hi
  · exact soundInv_record h hi
  · exact ⟨h.convergedSound, fun h => absurd rfl h, fun _ _ h => by cases h⟩

theorem soundInv_advance (h : SoundInv d) {w' : World} {secret : Nat}
    (hw : rotateCredential d.world secret = some w') : SoundInv ⟨w', d.tick⟩ :=
  ⟨rotateCredential_convergedSound h.convergedSound hw,
    fun hi => rotateCredential_converged_false hw (h.inFlight hi),
    fun st conv hr => rotateCredential_authenticates hw (h.persisted st conv hr)⟩

theorem soundInv_inductive (advanceOk : Device → Prop) :
    (deviceSystem advanceOk).Inductive SoundInv := by
  constructor
  · rintro ⟨w, _⟩ ⟨ha, -, rfl⟩
    exact ⟨convergedSound_of_authenticates ha, fun h => absurd rfl h, fun _ _ h => by cases h⟩
  · rintro d (e | secret) d' h hs
    · obtain ⟨out, hs⟩ := hs
      exact soundInv_tickStep h hs
    · obtain ⟨-, w', hw, rfl⟩ := hs
      exact soundInv_advance h hw

end Sound

/-- Over every run, whenever the target advances, a tick step that returns
`Converged` leaves a stored per-device secret that authenticates the BMC:
the early return reads a converged row, and the late one follows a persist. -/
theorem rotateBmc_converged_authenticates {advanceOk : Device → Prop} {d d' : Device}
    {e : TickEvent} (h : (deviceSystem advanceOk).Reachable d)
    (hs : tickStep d e = some (d', some .Converged)) : d'.world.Authenticates := by
  have hI := (soundInv_inductive advanceOk).reachable h
  rcases tickStep_cases hs with
    ⟨_, _, o, -, hst, rfl, ho⟩ | ⟨_, _, -, -, -, -, ho⟩ | ⟨-, -, -, ho⟩ | ⟨_, _, -, -, -, ho⟩ |
    ⟨now, status, r, hi, rfl, ho⟩ | ⟨-, -, ho⟩
  · cases ho
    exact hI.convergedSound (checkStatus_eq_converged hst)
  · cases ho
  · cases ho
  · cases ho
  · obtain ⟨conv, rfl, hw⟩ := recordConvergence_converged (Option.some.inj ho).symm
    rw [hw]
    exact promote_authenticates (hI.persisted status conv hi)
  · cases ho

/-! ## The tick run without interruption -/

section Uninterrupted

variable {advanceOk : Device → Prop}

theorem run_tickStep (e : TickEvent) {d d' : Device} {out : Option RotateOutcome}
    (h : tickStep d e = some (d', out)) : (deviceSystem advanceOk).Run d [.tick e] d' :=
  .cons ⟨out, h⟩ (.nil _)

/-- An attempt run without interruption is a run from the status read. -/
theorem run_attemptRotation (orc : Orc) (vendor : DispatchVendor) (now : Nat)
    (status : DeviceRotationStatus) (w : World) :
    ∃ evs, (deviceSystem advanceOk).Run ⟨w, .statusRead status⟩ evs
      ⟨(attemptRotation orc vendor now status w).1, .idle⟩ := by
  set m := markDeviceRotatingToVersion w status.targetVersion
  have hmark : (deviceSystem advanceOk).Run ⟨w, .statusRead status⟩ [.tick .mark] ⟨m, .marked status⟩ :=
    run_tickStep .mark rfl
  rcases hcr : convergeBmcPassword orc vendor status.targetVersion m with ⟨c, r⟩
  have hconv : tickStep ⟨m, .marked status⟩ (.converge orc vendor) =
      some (afterConverge status (c, r), none) := by
    simp only [tickStep]
    rw [hcr]
  rcases @attemptRotation_cases orc vendor now status w c r hcr with
    ⟨-, ha⟩ | ⟨-, rfl, ha⟩ | ⟨e, -, rfl, -, -, ha⟩ | ⟨e, -, rfl, -, ha⟩ <;> rw [ha]
  · -- the process died after the marker
    exact ⟨_, hmark.append (run_tickStep .abort rfl)⟩
  · exact ⟨_, hmark.append (run_tickStep _ hconv)⟩
  · -- the process died after the persist
    exact ⟨_, (hmark.append (run_tickStep _ hconv)).append (run_tickStep .abort rfl)⟩
  · exact ⟨_, (hmark.append (run_tickStep _ hconv)).append (run_tickStep (.record now) rfl)⟩

/-- The tick run without interruption is a run of the await steps, so the
worlds it leaves are reachable. -/
theorem reachable_rotateBmc {w : World} (h : Reachable advanceOk w) (orc : Orc)
    (vendor : DispatchVendor) (now : Nat) (force : Bool) :
    Reachable advanceOk (rotateBmc orc vendor now force w).1 := by
  rcases rotateBmc_cases orc vendor now force w with ⟨o, hst, hr⟩ | ⟨status, hst, hr⟩ <;>
    rw [hr]
  · exact h
  · have hread : tickStep ⟨w, .idle⟩ (.readStatus now force) =
        some (⟨w, .statusRead status⟩, none) := by
      simp only [tickStep]
      rw [hst]
    obtain ⟨evs, hrun⟩ := @run_attemptRotation advanceOk orc vendor now status w
    exact h.run ((run_tickStep _ hread).append hrun)

theorem Reachable.advance {w w' : World} {secret : Nat} (h : Reachable advanceOk w)
    (hok : advanceOk ⟨w, .idle⟩) (hw : rotateCredential w secret = some w') :
    Reachable advanceOk w' :=
  have hs : (deviceSystem advanceOk).step ⟨w, .idle⟩ (.advance secret) ⟨w', .idle⟩ :=
    ⟨hok, w', hw, rfl⟩
  LTS.Reachable.run h (.cons hs (.nil _))

theorem reachable_init {w : World} (ha : w.Authenticates) (hq : NotInFlight w) :
    Reachable advanceOk w :=
  ⟨⟨w, .idle⟩, [], ⟨ha, hq, rfl⟩, .nil _⟩

end Uninterrupted

/-- A device at rest whose row lags the target. -/
def laggingBmc : World where
  live := 10
  perDevice := some 10
  siteWide := fun v => if v = 1 then some 11 else none
  targetVersion := 1
  row := some ⟨some 0, none, 0, none⟩

/-- A tick whose store write fails. -/
def Orc.storeWriteDown : Orc := { Orc.faultless with storeWriteFails := true }

/-- The status `laggingBmc` reads at time 0. -/
def laggingStatus : DeviceRotationStatus :=
  ⟨1, some 0, none, false, false, none, 0⟩

/-- The late `Converged` of a faultless tick on `laggingBmc`, after its status
read, marker and convergence. -/
theorem rotateBmc_converged_authenticates_lagging :
    (deviceSystem fun _ => True).Reachable
      ⟨{ markDeviceRotatingToVersion laggingBmc 1 with live := 11, perDevice := some 11 },
        .convergeReturned laggingStatus (.ok .Changed)⟩ ∧
    tickStep ⟨{ markDeviceRotatingToVersion laggingBmc 1 with live := 11, perDevice := some 11 },
        .convergeReturned laggingStatus (.ok .Changed)⟩ (.record 0) =
      some (⟨promoteRotatingToCurrent
        { markDeviceRotatingToVersion laggingBmc 1 with live := 11, perDevice := some 11 }, .idle⟩,
        some .Converged) ∧
    (promoteRotatingToCurrent
      { markDeviceRotatingToVersion laggingBmc 1 with live := 11, perDevice := some 11 }).Authenticates := by
  have hrun : (deviceSystem fun _ => True).Run ⟨laggingBmc, .idle⟩
      [.tick (.readStatus 0 false), .tick .mark, .tick (.converge Orc.faultless .Fixed)]
      ⟨{ markDeviceRotatingToVersion laggingBmc 1 with live := 11, perDevice := some 11 },
        .convergeReturned laggingStatus (.ok .Changed)⟩ :=
    .cons ⟨none, rfl⟩ (.cons ⟨none, rfl⟩ (.cons ⟨none, rfl⟩ (.nil _)))
  have hr : (deviceSystem fun _ => True).Reachable
      ⟨{ markDeviceRotatingToVersion laggingBmc 1 with live := 11, perDevice := some 11 },
        .convergeReturned laggingStatus (.ok .Changed)⟩ :=
    ⟨_, _, ⟨by decide, by decide, rfl⟩, hrun⟩
  have hs : tickStep ⟨{ markDeviceRotatingToVersion laggingBmc 1 with live := 11, perDevice := some 11 },
        .convergeReturned laggingStatus (.ok .Changed)⟩ (.record 0) =
      some (⟨promoteRotatingToCurrent
        { markDeviceRotatingToVersion laggingBmc 1 with live := 11, perDevice := some 11 }, .idle⟩,
        some .Converged) := rfl
  exact ⟨hr, hs, rotateBmc_converged_authenticates hr hs⟩

/-! ## Advances only at rest -/

/-- No tick is in flight and no marker is set. -/
def AtRest (d : Device) : Prop := d.tick = .idle ∧ NotInFlight d.world

/-- The status the tick in flight read. -/
def TickPhase.status? : TickPhase → Option DeviceRotationStatus
  | .idle => none
  | .statusRead s | .marked s | .convergeReturned s _ => some s

/-- The tick in flight has put its marker down. -/
def TickPhase.markerDown : TickPhase → Bool
  | .marked _ | .convergeReturned _ _ => true
  | _ => false

/-- What every device reachable with advances at rest satisfies: the world
invariant of `QuietInv`; the tick in flight read the current target; once its
marker is down it names that target; and an `Ok` convergence has persisted. -/
structure QuietTickInv (d : Device) : Prop where
  quiet : QuietInv d.world
  target : ∀ st, d.tick.status? = some st → st.targetVersion = d.world.targetVersion
  marker : d.tick.markerDown = true → d.world.rotatingTo = some d.world.targetVersion
  persisted : ∀ status conv, d.tick = .convergeReturned status (.ok conv) → d.world.Authenticates

section Quiet

variable {d d' : Device}

theorem quietTickInv_idle {w : World} (h : QuietInv w) : QuietTickInv ⟨w, .idle⟩ :=
  ⟨h, fun _ h => (by cases h), fun h => (by cases h), fun _ _ h => by cases h⟩

theorem quietTickInv_mark (h : QuietTickInv d) {status : DeviceRotationStatus}
    (hi : d.tick = .statusRead status) :
    QuietTickInv ⟨markDeviceRotatingToVersion d.world status.targetVersion, .marked status⟩ := by
  have ht : status.targetVersion = d.world.targetVersion := h.target status (by simp [hi, TickPhase.status?])
  rw [ht]
  exact ⟨quietInv_mark h.quiet, fun st hs => by cases hs; simpa using ht, fun _ => by simp,
    fun _ _ h => by cases h⟩

theorem quietTickInv_converge (h : QuietTickInv d) {orc : Orc} {vendor : DispatchVendor}
    {status : DeviceRotationStatus} (hi : d.tick = .marked status) :
    QuietTickInv (afterConverge status (convergeBmcPassword orc vendor status.targetVersion d.world)) := by
  have ht : status.targetVersion = d.world.targetVersion := h.target status (by simp [hi, TickPhase.status?])
  have hm : d.world.rotatingTo = some d.world.targetVersion := h.marker (by simp [hi, TickPhase.markerDown])
  rcases hcr : convergeBmcPassword orc vendor status.targetVersion d.world with ⟨c, r⟩
  have e := convergeBmcPassword_effect orc vendor status.targetVersion d.world
  rw [hcr, ht] at e
  dsimp only at e
  have hq : QuietInv c := quietInv_converge h.quiet hm e
  rcases r with _ | r
  · exact quietTickInv_idle hq
  · dsimp only [afterConverge]
    refine ⟨hq, fun st hs => ?_, fun _ => ?_, fun st conv hr => ?_⟩
    · cases hs
      rw [e.targetVersion, ht]
    · rw [e.rotatingTo, e.targetVersion, hm]
    · cases hr
      exact e.persisted conv rfl

theorem quietTickInv_record (h : QuietTickInv d) {now : Nat} {status : DeviceRotationStatus}
    {r : Except ConvergeError CredentialConvergence} (hi : d.tick = .convergeReturned status r) :
    QuietTickInv ⟨(recordConvergence now status d.world r).1, .idle⟩ := by
  apply quietTickInv_idle
  rcases r with (_ | _) | conv
  · exact quietInv_increment h.quiet _
  · exact h.quiet
  · exact quietInv_promote (h.persisted status conv hi)

theorem quietTickInv_tickStep (h : QuietTickInv d) {e : TickEvent} {out : Option RotateOutcome}
    (hs : tickStep d e = some (d', out)) : QuietTickInv d' := by
  rcases tickStep_cases hs with
    ⟨_, _, -, -, -, rfl, -⟩ | ⟨_, _, status, -, hst, rfl, -⟩ | ⟨status, hi, rfl, -⟩ |
    ⟨orc, vendor, status, hi, rfl, -⟩ | ⟨now, status, r, hi, rfl, -⟩ | ⟨-, rfl, -⟩
  · exact h
  · exact ⟨h.quiet, fun st hs => by cases hs; exact (checkStatus_eq_inl hst).1,
      fun h => (by cases h), fun _ _ h => by cases h⟩
  · exact quietTickInv_mark h hi
  · exact quietTickInv_converge h hi
  · exact quietTickInv_record h hi
  · exact quietTickInv_idle h.quiet

theorem quietTickInv_inductive : (deviceSystem AtRest).Inductive QuietTickInv := by
  constructor
  · rintro ⟨w, _⟩ ⟨ha, hq, rfl⟩
    have hq0 : w.rotatingTo = none := hq
    exact quietTickInv_idle ⟨.inl ha, fun v hv => by simp [hq0] at hv,
      by simp [show w.perDevice = some w.live from ha]⟩
  · rintro d (e | secret) d' h hs
    · obtain ⟨out, hs⟩ := hs
      exact quietTickInv_tickStep h hs
    · -- an advance at rest: no tick in flight, no marker
      obtain ⟨⟨hidle, hq⟩, w', hw, rfl⟩ := hs
      rw [hidle]
      exact quietTickInv_idle (rotateCredential_quietInv h.quiet hq hw)

end Quiet

/-- Over runs whose advances land only while the device is at rest, the BMC's
password is always the stored per-device secret or the site-wide secret of the
version the row is rotating to, at every step of every tick, whatever fails and
wherever the process dies. -/
theorem quiet_notStranded {d : Device} (h : (deviceSystem AtRest).Reachable d) :
    NotStranded d.world :=
  (quietTickInv_inductive.reachable h).quiet.notStranded

/-- The hardware ahead of the store: the persist of the first rotation failed,
and the BMC's password is the marker's secret only. -/
theorem quiet_notStranded_ahead :
    (deviceSystem AtRest).Reachable ⟨(rotateBmc Orc.storeWriteDown .Fixed 0 false laggingBmc).1, .idle⟩ ∧
      ¬ (rotateBmc Orc.storeWriteDown .Fixed 0 false laggingBmc).1.Authenticates ∧
      NotStranded (rotateBmc Orc.storeWriteDown .Fixed 0 false laggingBmc).1 :=
  have h : Reachable AtRest (rotateBmc Orc.storeWriteDown .Fixed 0 false laggingBmc).1 :=
    reachable_rotateBmc (reachable_init (by decide) (by decide)) _ _ _ _
  ⟨h, by decide, quiet_notStranded h⟩

/-- Over runs whose advances land only while the device is at rest, one forced
tick without faults converges a managed device whose target is staged, whether
its hardware is behind the store or ahead of it. -/
theorem rotateBmc_recovers {w : World} (h : Reachable AtRest w) (hrow : w.row.isSome)
    (hstaged : (w.siteWide w.targetVersion).isSome) (vendor : DispatchVendor) (now : Nat) :
    (rotateBmc Orc.faultless vendor now true w).2 = some .Converged ∧
      (rotateBmc Orc.faultless vendor now true w).1.converged = true := by
  have hq : QuietInv w := (quietTickInv_inductive.reachable h).quiet
  obtain ⟨new, hnew⟩ := Option.isSome_iff_exists.1 hstaged
  rcases rotateBmc_cases Orc.faultless vendor now true w with ⟨o, hst, hrb⟩ | ⟨s, hst, hrb⟩
  · -- an early return: the row is there, and a quarantine does not stop a forced tick
    obtain rfl := checkStatus_force_eq_inr hrow hst
    rw [hrb]
    exact ⟨rfl, checkStatus_eq_converged hst⟩
  obtain ⟨ht, -⟩ := checkStatus_eq_inl hst
  -- the marked world, from which the convergence runs and sets the staged secret
  set m := markDeviceRotatingToVersion w w.targetVersion
  obtain ⟨conv, hcv⟩ := convergeBmcPassword_faultless (quietInv_mark hq)
    (mark_rotatingTo w w.targetVersion) hnew vendor
  have hcv' : convergeBmcPassword Orc.faultless vendor s.targetVersion
      (markDeviceRotatingToVersion w s.targetVersion) =
        ({ m with live := new, perDevice := some new }, some (.ok conv)) := by
    rw [ht]
    exact hcv
  rw [hrb, attemptRotation_eq_converged rfl hcv']
  refine ⟨rfl, ?_⟩
  have hrot : ({ m with live := new, perDevice := some new } : World).rotatingTo =
      some w.targetVersion := mark_rotatingTo w w.targetVersion
  unfold World.converged
  rw [promote_current _ hrot]
  simp [m]

/-- The hardware ahead of the store: the persist of the first rotation failed.
A forced faultless tick recovers it through the rotate-to probe. -/
theorem rotateBmc_recovers_ahead :
    Reachable AtRest (rotateBmc Orc.storeWriteDown .Fixed 0 false laggingBmc).1 ∧
      (rotateBmc Orc.storeWriteDown .Fixed 0 false laggingBmc).1.row.isSome ∧
      ((rotateBmc Orc.storeWriteDown .Fixed 0 false laggingBmc).1.siteWide
        (rotateBmc Orc.storeWriteDown .Fixed 0 false laggingBmc).1.targetVersion).isSome ∧
      (rotateBmc Orc.faultless .Probe 0 true
        (rotateBmc Orc.storeWriteDown .Fixed 0 false laggingBmc).1).2 = some .Converged ∧
      (rotateBmc Orc.faultless .Probe 0 true
        (rotateBmc Orc.storeWriteDown .Fixed 0 false laggingBmc).1).1.converged = true :=
  have h : Reachable AtRest (rotateBmc Orc.storeWriteDown .Fixed 0 false laggingBmc).1 :=
    reachable_rotateBmc (reachable_init (by decide) (by decide)) _ _ _ _
  ⟨h, by decide, by decide, rotateBmc_recovers h (by decide) (by decide) .Probe 0⟩

/-! ## An advance while the hardware is ahead -/

/-- A tick whose verification probe fails with a transport error. -/
def Orc.verifyDown : Orc := { Orc.faultless with verifyFails := true }

theorem ahead_then_advanced_quarantines_stale :
    (rotateBmc Orc.storeWriteDown .Fixed 0 false laggingBmc).2 =
        some .CredentialStoreReconcilePending ∧
      (∃ w, rotateCredential (rotateBmc Orc.storeWriteDown .Fixed 0 false laggingBmc).1 12 = some w ∧
        Reachable (fun _ => True) w ∧
        ¬ NotStranded (rotateBmc Orc.faultless .Fixed 0 false w).1 ∧
        (rotateBmc Orc.faultless .Fixed 0 false w).2 = some (.Quarantined 900) ∧
        ¬ (rotateBmc Orc.faultless .Fixed 0 false w).1.Authenticates ∧
        (handleRotatingBmc Orc.faultless 0 false 0 w).2 = .Ready) ∧
      (rotateBmc Orc.verifyDown .Fixed 0 false
          (rotateBmc Orc.storeWriteDown .Fixed 0 false laggingBmc).1).2 = some (.Quarantined 900) ∧
      ¬ (rotateBmc Orc.verifyDown .Fixed 0 false
          (rotateBmc Orc.storeWriteDown .Fixed 0 false laggingBmc).1).1.Authenticates ∧
      (handleRotatingBmc Orc.verifyDown 0 false 0
          (rotateBmc Orc.storeWriteDown .Fixed 0 false laggingBmc).1).2 = .Ready := by
  have hahead : Reachable (fun _ => True) (rotateBmc Orc.storeWriteDown .Fixed 0 false laggingBmc).1 :=
    reachable_rotateBmc (reachable_init (by decide) (by decide)) _ _ _ _
  refine ⟨by decide, ⟨_, rfl, hahead.advance trivial rfl, by decide, by decide, by decide,
    by decide⟩, by decide, by decide, by decide⟩

end Carbide.Rotation
