import Mathlib.Order.Basic
import Carbide.Lib.Decimal

/-!
# DPU agent build versions and the upgrade policy

`crates/api-model/src/machine/upgrade_policy.rs`. `BuildVersion::try_from`
splits a version string such as `v2023.09-rc1-27-gc3ce4d5d` into its version,
release candidate, hotfix, commit count and hash; `BuildVersion::cmp` orders
date versions (`20…`) before semver ones, compares two semver versions
numerically when both have three numeric components, and falls back to string
order otherwise. `AgentUpgradePolicy::should_upgrade` compares the agent's
version with the API's.

A `&str` is its list of characters; `str` order is the lexicographic order of
characters, which is the byte order of UTF-8. `try_from` returns `none` where
the source panics (an `unwrap` on a failed `parse` or on an empty part).

* `cmp_swap`: `cmp` is antisymmetric for all versions, so under `UpOnly` two
  valid versions never upgrade to each other (`shouldUpgrade_upOnly_asymm`);
* `build_version_panics_and_cycles`: but parsing panics on versions an agent
  may report, and the string fallback makes the order cyclic.
-/
namespace Carbide.Machine

open Carbide.Lib

/-- `str::parse::<usize>()` on a 64-bit target. -/
def parseUsize (s : List Char) : Option Nat := parseUnsigned 64 s

/-- `str::parse::<u32>()`. -/
def parseU32 (s : List Char) : Option Nat := parseUnsigned 32 s

/-- `char::is_numeric`, on ASCII: the Unicode numerics outside ASCII are not
modelled and read as not numeric. -/
def isNumeric (c : Char) : Bool := c.isDigit

/-- mirrors upgrade_policy.rs:110-121. -/
structure BuildVersion where
  version : List Char
  rc : List Char
  hotfix : Nat
  commits : Nat
  gitHash : List Char
  isDirty : Bool
  deriving DecidableEq, Repr

namespace BuildVersion

/-- mirrors upgrade_policy.rs:124-127. -/
def isDateVersion (v : BuildVersion) : Bool := "20".toList.isPrefixOf v.version

/-- mirrors upgrade_policy.rs:129-143. -/
def parseSemver (v : BuildVersion) : Option (Nat × Nat × Nat) :=
  match v.version.splitOn '.' with
  | major :: minor :: patch :: _ => do
    let major ← parseU32 major
    let minor ← parseU32 minor
    let patch ← parseU32 patch
    pure (major, minor, patch)
  | _ => none

/-- The parts built from the dash-separated pieces after the leading `v`,
once the first piece is known to start with a digit; `none` is a panic.
mirrors upgrade_policy.rs:191-261 -/
def ofParts (isDirty : Bool) : List (List Char) → Option (Except String BuildVersion)
  | [version] => some (.ok ⟨version, [], 0, 0, [], isDirty⟩)
  | [version, rc] => some (.ok ⟨version, rc, 0, 0, [], isDirty⟩)
  | [version, part1, part2] =>
    match part1 with
    -- `parts[1].chars().next().unwrap()` on an empty part
    | [] => none
    | c :: _ =>
      if isNumeric c then
        (parseUsize part1).map fun commits => .ok ⟨version, [], 0, commits, part2, isDirty⟩
      else
        (parseUsize part2).map fun hotfix => .ok ⟨version, part1, hotfix, 0, [], isDirty⟩
  | [version, rc, part2, gitHash] =>
    (parseUsize part2).map fun commits => .ok ⟨version, rc, 0, commits, gitHash, isDirty⟩
  | [version, rc, part2, part3, gitHash] => do
    let hotfix ← parseUsize part2
    let commits ← parseUsize part3
    pure (.ok ⟨version, rc, hotfix, commits, gitHash, isDirty⟩)
  | parts => some (.error ("invalid build version. has " ++ toString parts.length ++
      " dash-separated parts"))

/-- mirrors upgrade_policy.rs:166-264. -/
def tryFrom (input : String) : Option (Except String BuildVersion) :=
  let (s, isDirty) :=
    if "-dirty".toList.isSuffixOf input.toList then
      (input.toList.take (input.toList.length - 6), true)
    else (input.toList, false)
  match s with
  | [] => some (.error "build version is empty")
  | c :: rest =>
    if c ≠ 'v' then some (.error "build version should start with a 'v'")
    else
      match rest.splitOn '-' with
      | [] | [] :: _ => some (.error "build version should have a version number after 'v'")
      | parts@((first :: _) :: _) =>
        if first.isDigit then ofParts isDirty parts
        else some (.error "build version should start with a digit after 'v'")

/-- The comparison of the fields after the version, shared by both regimes. -/
def cmpRest (a b : BuildVersion) : Ordering :=
  (compare a.rc b.rc).then ((compare a.hotfix b.hotfix).then (compare a.commits b.commits))

/-- `(u32, u32, u32)::cmp`. -/
def cmpSemver (x y : Nat × Nat × Nat) : Ordering :=
  (compare x.1 y.1).then ((compare x.2.1 y.2.1).then (compare x.2.2 y.2.2))

/-- mirrors upgrade_policy.rs:266-300. -/
def cmp (a b : BuildVersion) : Ordering :=
  match a.isDateVersion, b.isDateVersion with
  | true, false => .lt
  | false, true => .gt
  | false, false =>
    match a.parseSemver, b.parseSemver with
    | some x, some y => (cmpSemver x y).then (cmpRest a b)
    | _, _ => (compare a.version b.version).then (cmpRest a b)
  | true, true => (compare a.version b.version).then (cmpRest a b)

end BuildVersion

/-- mirrors upgrade_policy.rs:23-32. -/
inductive AgentUpgradePolicy
  | off
  | upOnly
  | upDown
  deriving DecidableEq, Repr

/-- `none` where parsing a version panics.
mirrors upgrade_policy.rs:41-79 -/
def AgentUpgradePolicy.shouldUpgrade (policy : AgentUpgradePolicy) (agentVersion carbideApiVersion :
    String) : Option Bool :=
  match policy with
  | .off => some false
  | .upOnly =>
    match BuildVersion.tryFrom agentVersion with
    | none => none
    -- an agent with an invalid version is forced to upgrade
    | some (.error _) => some true
    | some (.ok agent) =>
      match BuildVersion.tryFrom carbideApiVersion with
      | none => none
      | some (.error _) => some false
      | some (.ok carbide) => some (agent.cmp carbide).isLT
  | .upDown => some (agentVersion != carbideApiVersion)

/-! ## The order -/

namespace BuildVersion

theorem cmpRest_swap (a b : BuildVersion) : cmpRest b a = (cmpRest a b).swap := by
  simp only [cmpRest, Ordering.swap_then]
  rw [Std.OrientedOrd.eq_swap (a := b.rc), Std.OrientedOrd.eq_swap (a := b.hotfix),
    Std.OrientedOrd.eq_swap (a := b.commits)]

theorem cmpSemver_swap (x y : Nat × Nat × Nat) : cmpSemver y x = (cmpSemver x y).swap := by
  simp only [cmpSemver, Ordering.swap_then]
  rw [Std.OrientedOrd.eq_swap (a := y.1), Std.OrientedOrd.eq_swap (a := y.2.1),
    Std.OrientedOrd.eq_swap (a := y.2.2)]

/-- `BuildVersion::cmp` is antisymmetric on all versions: each regime compares
the pair the same way in both orders. -/
theorem cmp_swap (a b : BuildVersion) : b.cmp a = (a.cmp b).swap := by
  have hrest := cmpRest_swap a b
  have hver : compare b.version a.version = (compare a.version b.version).swap :=
    Std.OrientedOrd.eq_swap
  cases ha : a.isDateVersion <;> cases hb : b.isDateVersion
  case false.false =>
    -- both semver: numeric when both parse, string order otherwise
    cases hx : a.parseSemver <;> cases hy : b.parseSemver
    case some.some x y =>
      simp only [cmp, ha, hb, hx, hy, Ordering.swap_then, hrest]
      rw [cmpSemver_swap x y]
    all_goals simp only [cmp, ha, hb, hx, hy, Ordering.swap_then, hrest, hver]
  case false.true => simp only [cmp, ha, hb]; rfl
  case true.false => simp only [cmp, ha, hb]; rfl
  case true.true => simp only [cmp, ha, hb, Ordering.swap_then, hrest, hver]

end BuildVersion

/-- For two versions that parse, `cmp` is antisymmetric and `UpOnly` never
upgrades each to the other. -/
theorem shouldUpgrade_upOnly_asymm {x y : String} {a b : BuildVersion}
    (hx : BuildVersion.tryFrom x = some (.ok a)) (hy : BuildVersion.tryFrom y = some (.ok b)) :
    b.cmp a = (a.cmp b).swap ∧
      (AgentUpgradePolicy.upOnly.shouldUpgrade x y = some true →
        AgentUpgradePolicy.upOnly.shouldUpgrade y x = some false) := by
  have hswap := BuildVersion.cmp_swap a b
  refine ⟨hswap, fun hxy => ?_⟩
  simp only [AgentUpgradePolicy.shouldUpgrade, hx, hy, Option.some.injEq] at hxy ⊢
  -- `a < b` read backwards is `b > a`
  rw [hswap]
  cases h : a.cmp b <;> simp_all [Ordering.swap]

theorem shouldUpgrade_upOnly_asymm_v1 :
    BuildVersion.tryFrom "v1.9.0" = some (.ok ⟨"1.9.0".toList, [], 0, 0, [], false⟩) ∧
      BuildVersion.tryFrom "v1.10.0" = some (.ok ⟨"1.10.0".toList, [], 0, 0, [], false⟩) ∧
      AgentUpgradePolicy.upOnly.shouldUpgrade "v1.9.0" "v1.10.0" = some true ∧
      AgentUpgradePolicy.upOnly.shouldUpgrade "v1.10.0" "v1.9.0" = some false :=
  have hx : BuildVersion.tryFrom "v1.9.0" = some (.ok ⟨"1.9.0".toList, [], 0, 0, [], false⟩) := by
    decide
  have hy : BuildVersion.tryFrom "v1.10.0" =
      some (.ok ⟨"1.10.0".toList, [], 0, 0, [], false⟩) := by decide
  have hxy : AgentUpgradePolicy.upOnly.shouldUpgrade "v1.9.0" "v1.10.0" = some true := by decide
  ⟨hx, hy, hxy, (shouldUpgrade_upOnly_asymm hx hy).2 hxy⟩

/-- `BuildVersion::try_from` panics on versions an agent may report: a commit
count that is not a number, and an empty part where a commit count or a
release candidate belongs; `should_upgrade` panics with it. And the string
fallback makes the order cyclic: `v1.5 < v1.9.0` as strings, `v1.9.0 < v1.10.0`
numerically, and `v1.10.0 < v1.5` as strings again, so `UpOnly` upgrades along
the cycle. -/
theorem build_version_panics_and_cycles :
    BuildVersion.tryFrom "v2023.08-9x-g1" = none ∧ BuildVersion.tryFrom "v2023.08--x" = none ∧
      AgentUpgradePolicy.upOnly.shouldUpgrade "v2023.08-9x-g1" "v2023.08" = none ∧
      (∃ a b c : BuildVersion, BuildVersion.tryFrom "v1.5" = some (.ok a) ∧
        BuildVersion.tryFrom "v1.9.0" = some (.ok b) ∧
        BuildVersion.tryFrom "v1.10.0" = some (.ok c) ∧
        a.cmp b = .lt ∧ b.cmp c = .lt ∧ c.cmp a = .lt) ∧
      AgentUpgradePolicy.upOnly.shouldUpgrade "v1.5" "v1.9.0" = some true ∧
      AgentUpgradePolicy.upOnly.shouldUpgrade "v1.9.0" "v1.10.0" = some true ∧
      AgentUpgradePolicy.upOnly.shouldUpgrade "v1.10.0" "v1.5" = some true :=
  ⟨by decide, by decide, by decide,
    ⟨⟨"1.5".toList, [], 0, 0, [], false⟩, ⟨"1.9.0".toList, [], 0, 0, [], false⟩,
      ⟨"1.10.0".toList, [], 0, 0, [], false⟩, by decide, by decide, by decide, by decide,
      by decide, by decide⟩,
    by decide, by decide, by decide⟩

end Carbide.Machine
