import Carbide.Network.Prefix

/-!
# DPU route reconciliation

`crates/agent/src/dpu/route.rs`. `Route::plan` reads the routes of an
interface (`ip -j route show`, kernel routes dropped), compares them with the
desired routes under the derived equality of all seven `IpRoute` fields, and
returns a `DpuRoutePlan`, a map from `Action::Add` and `Action::Remove` to
routes. `Route::apply` walks the map in its (unspecified) iteration order and
runs `ip route add` or `ip route del` for each route.

The map has two keys, so it is a record of two optional entries, and `apply`
takes the iteration order as an argument. The commands are modelled by what
they name (network, device, source and gateway), not by the shell text.

* `plan_eq`: `Add` lists, in order, the desired routes that are not current,
  but `Remove` lists the whole current list once per stale route, since the
  removal loop extends the entry with `current.clone()`;
* `plan_removes_desired_route`: so a route that is current and desired is
  deleted by `apply`, in either iteration order, as soon as one current route
  is stale.
-/
namespace Carbide.Agent

open Carbide.Network

/-- mirrors route.rs:34-45: a route as `ip -j route` prints it; `dst` is an
`ipnetwork::IpNetwork`, an address and a prefix length like `IpNet`. -/
structure IpRoute where
  dst : IpNet
  dev : Option String
  protocol : Option String
  gateway : Option IpAddr
  scope : Option String
  prefsrc : Option IpAddr
  flags : List String
  deriving DecidableEq

/-- mirrors crates/agent/src/dpu/mod.rs:38-41. -/
inductive Action
  | add
  | remove
  deriving DecidableEq, Repr

/-- `DpuRoutePlan`, a `HashMap<Action, Vec<IpRoute>>`: the entry of each key,
if the map has one. -/
structure DpuRoutePlan where
  add : Option (List IpRoute)
  remove : Option (List IpRoute)
  deriving DecidableEq

namespace DpuRoutePlan

def empty : DpuRoutePlan := ⟨none, none⟩

/-- `plan.get(&action)`. -/
def get (plan : DpuRoutePlan) : Action → Option (List IpRoute)
  | .add => plan.add
  | .remove => plan.remove

/-- `plan.entry(action).or_insert_with(Vec::new).extend(routes)`. -/
def extend (plan : DpuRoutePlan) : Action → List IpRoute → DpuRoutePlan
  | .add, routes => { plan with add := some (plan.add.getD [] ++ routes) }
  | .remove, routes => { plan with remove := some (plan.remove.getD [] ++ routes) }

@[simp] theorem get_extend_self (plan : DpuRoutePlan) (a : Action) (routes : List IpRoute) :
    (plan.extend a routes).get a = some ((plan.get a).getD [] ++ routes) := by
  cases a <;> rfl

@[simp] theorem get_extend_of_ne (plan : DpuRoutePlan) {a b : Action} (h : a ≠ b)
    (routes : List IpRoute) : (plan.extend a routes).get b = plan.get b := by
  cases a <;> cases b <;> first | rfl | exact absurd rfl h

@[simp] theorem get_empty (a : Action) : empty.get a = none := by
  cases a <;> rfl

theorem ext_get {p q : DpuRoutePlan} (h : ∀ a, p.get a = q.get a) : p = q := by
  cases p; cases q
  have h1 := h .add
  have h2 := h .remove
  simp only [get] at h1 h2
  rw [h1, h2]

theorem extend_extend (plan : DpuRoutePlan) (a : Action) (xs ys : List IpRoute) :
    (plan.extend a xs).extend a ys = plan.extend a (xs ++ ys) := by
  apply ext_get
  intro b
  by_cases hb : a = b
  · subst hb
    simp
  · simp [get_extend_of_ne _ hb]

end DpuRoutePlan

/-- mirrors route.rs:230-239: the parsed routes, without those the kernel
provisioned. -/
def currentRoutes (data : List IpRoute) : List IpRoute :=
  data.filter fun d => d.protocol != some "kernel"

/-- mirrors route.rs:68-99. The loop that builds `final_plan` is dead code:
its result is dropped and `plan` is returned. -/
def plan (data : List IpRoute) (desired : List IpRoute) : DpuRoutePlan :=
  let current := currentRoutes data
  let plan := desired.foldl (fun plan route =>
    if current.contains route then plan else plan.extend .add [route]) .empty
  current.foldl (fun plan route =>
    if desired.contains route then plan else plan.extend .remove current) plan

/-- `ip route add` and `ip route del`, by the network, device, source and
gateway they are given. -/
inductive RouteCommand
  | add (net : IpNet) (device : Option String) (sourceIp gatewayIp : Option IpAddr)
  | del (net : IpNet) (device : Option String) (sourceIp gatewayIp : Option IpAddr)
  deriving DecidableEq

/-- mirrors route.rs:101-125: the commands `apply` runs when the map yields its
keys in `order`; a failed command is logged and the walk goes on. -/
def apply (plan : DpuRoutePlan) (order : List Action) : List RouteCommand :=
  order.flatMap fun action =>
    match action with
    | .add => ((plan.get .add).getD []).map fun r => .add r.dst r.dev r.prefsrc r.gateway
    | .remove => ((plan.get .remove).getD []).map fun r => .del r.dst r.dev r.prefsrc r.gateway

/-- An entry holding `routes`, absent when there are none. -/
def entryOf (routes : List IpRoute) : Option (List IpRoute) :=
  if routes = [] then none else some routes

/-! ## What `plan` computes -/

/-- One loop of `plan`: extending the entry of `a` with `f route` for every
route `keep` rejects, from any map. -/
theorem foldl_extend (a : Action) (keep : IpRoute → Bool) (f : IpRoute → List IpRoute) :
    ∀ (routes : List IpRoute) (p : DpuRoutePlan),
      routes.foldl (fun plan route => if keep route then plan else plan.extend a (f route)) p =
        if routes.filter (fun r => !keep r) = [] then p
        else p.extend a ((routes.filter fun r => !keep r).flatMap f)
  | [], p => by simp
  | route :: routes, p => by
    rw [List.foldl_cons, foldl_extend a keep f routes]
    by_cases hk : keep route
    · simp [hk]
    · -- a rejected route extends the entry first, the rest of the loop after it
      by_cases hr : routes.filter (fun r => !keep r) = []
      · simp [hk, hr]
      · simp [hk, hr, DpuRoutePlan.extend_extend]

/-- The entry a loop of `plan` extends. -/
theorem get_foldl_extend_self (a : Action) (keep : IpRoute → Bool) (f : IpRoute → List IpRoute)
    (routes : List IpRoute) (p : DpuRoutePlan) :
    (routes.foldl (fun plan route => if keep route then plan else plan.extend a (f route)) p).get a =
      if routes.filter (fun r => !keep r) = [] then p.get a
      else some ((p.get a).getD [] ++ (routes.filter fun r => !keep r).flatMap f) := by
  rw [foldl_extend]
  split <;> simp

/-- The entry a loop of `plan` leaves alone. -/
theorem get_foldl_extend_of_ne {a b : Action} (h : a ≠ b) (keep : IpRoute → Bool)
    (f : IpRoute → List IpRoute) (routes : List IpRoute) (p : DpuRoutePlan) :
    (routes.foldl (fun plan route => if keep route then plan else plan.extend a (f route)) p).get b =
      p.get b := by
  rw [foldl_extend]
  split <;> simp [DpuRoutePlan.get_extend_of_ne _ h]

/-- `Route::plan` lists under `Add`, in order, the desired routes that are not
current; under `Remove` it lists the whole current list once for every current
route that is not desired. -/
theorem plan_eq (data desired : List IpRoute) :
    plan data desired =
      ⟨entryOf (desired.filter fun r => !(currentRoutes data).contains r),
        entryOf (((currentRoutes data).filter fun r => !desired.contains r).flatMap
          fun _ => currentRoutes data)⟩ := by
  apply DpuRoutePlan.ext_get
  intro b
  cases b with
  | add =>
    -- the removal loop leaves `Add` as the first loop wrote it
    rw [plan, get_foldl_extend_of_ne (by decide), get_foldl_extend_self, DpuRoutePlan.get_empty,
      List.flatMap_singleton']
    simp [entryOf, DpuRoutePlan.get]
  | remove =>
    -- the first loop writes no `Remove` entry
    rw [plan, get_foldl_extend_self, get_foldl_extend_of_ne (by decide), DpuRoutePlan.get_empty]
    simp only [DpuRoutePlan.get, entryOf, Option.getD_none, List.nil_append]
    -- a stale route is a current one, so the copies are empty only when no route is stale
    by_cases hs : (currentRoutes data).filter (fun r => !desired.contains r) = []
    · rw [if_pos hs, if_pos (by rw [hs]; rfl)]
    · obtain ⟨r, hr⟩ := List.exists_mem_of_ne_nil _ hs
      have hcopies : ((currentRoutes data).filter fun r => !desired.contains r).flatMap
          (fun _ => currentRoutes data) ≠ [] := by
        rw [Ne, List.flatMap_eq_nil_iff, not_forall]
        exact ⟨r, fun h => List.ne_nil_of_mem (List.mem_of_mem_filter hr) (h hr)⟩
      rw [if_neg hs, if_neg hcopies]

@[simp] theorem getD_entryOf (routes : List IpRoute) : (entryOf routes).getD [] = routes := by
  unfold entryOf
  split
  · simp_all
  · rfl

/-- As soon as one current route is stale, `apply` deletes every current route,
the desired ones included, in every iteration order in which the map yields
`Remove`. -/
theorem plan_removes_desired_route {data desired : List IpRoute} {r s : IpRoute}
    (hr : r ∈ currentRoutes data) (hs : s ∈ currentRoutes data) (hsd : s ∉ desired) (order : List Action) (horder : Action.remove ∈ order) :
    RouteCommand.del r.dst r.dev r.prefsrc r.gateway ∈ apply (plan data desired) order := by
  rw [apply, List.mem_flatMap]
  refine ⟨.remove, horder, ?_⟩
  -- the stale `s` puts a copy of the whole current list, `r` with it, on `Remove`
  have hcopy : r ∈ ((currentRoutes data).filter fun r => !desired.contains r).flatMap
      fun _ => currentRoutes data :=
    List.mem_flatMap.2 ⟨s, List.mem_filter.2 ⟨hs, by simpa using hsd⟩, hr⟩
  rw [plan_eq]
  simp only [DpuRoutePlan.get, getD_entryOf, List.mem_map]
  exact ⟨r, hcopy, rfl⟩

/-- `169.254.169.253` and `169.254.169.254`. -/
def hbnGateway : IpAddr := .V4 ⟨0xA9FEA9FD, by decide⟩

def hbnSource : IpAddr := .V4 ⟨0xA9FEA9FE, by decide⟩

/-- The route of the test fixture, `10.217.4.168/29 via 169.254.169.253 src
169.254.169.254`, which the agent also desires. -/
def fixtureRoute : IpRoute :=
  ⟨.V4 ⟨0x0AD904A8, by decide⟩ 29 (by decide), none, none, some hbnGateway, none,
    some hbnSource, []⟩

/-- A stale route, `192.168.100.0/24`. -/
def staleRoute : IpRoute :=
  ⟨.V4 ⟨0xC0A86400, by decide⟩ 24 (by decide), none, none, some hbnGateway, none,
    some hbnSource, []⟩

theorem plan_removes_desired_route_fixture :
    fixtureRoute ∈ currentRoutes [fixtureRoute, staleRoute] ∧ fixtureRoute ∈ [fixtureRoute] ∧
      staleRoute ∈ currentRoutes [fixtureRoute, staleRoute] ∧ staleRoute ∉ [fixtureRoute] ∧
      Action.remove ∈ [Action.add, Action.remove] ∧
      RouteCommand.del fixtureRoute.dst fixtureRoute.dev fixtureRoute.prefsrc fixtureRoute.gateway ∈
        apply (plan [fixtureRoute, staleRoute] [fixtureRoute]) [.add, .remove] :=
  ⟨by decide, by decide, by decide, by decide, by decide,
    plan_removes_desired_route (s := staleRoute) (by decide) (by decide) (by decide) _
      (by decide)⟩

end Carbide.Agent
