/-
  Routing with passive health (`routing.rs`): `EndpointGroup` and `FailoverRouter`.

  A group keeps a health entry for each endpoint of a route. Failures are counted up to a
  threshold, then the endpoint is dead until a cooldown has passed; a success clears the count.
  The group is shared by all sessions, so it is the state of the interceptor and not of one
  session. A `RouterState` holds it together with the readings of the clock, one for each call of
  a hook, and what `on_upstream_error` was told (`errors`, which nothing reads).

  Proved: only a failure takes an entry out of `Alive` (`reportSuccess_allAlive`), and the router
  always names an endpoint of the route (`failoverRouter_known`).
-/
import Mathlib.Data.List.AList
import Pgferry.Intercept

namespace Pgferry

/-- Times are in milliseconds. -/
inductive Health where
  | alive (failures : Nat)
  | dead (since : Nat)
  deriving DecidableEq, Repr

/-- `DEFAULT_FAILURE_THRESHOLD`. -/
def defaultFailureThreshold : Nat := 2

/-- `DEFAULT_REVIVE_AFTER`. -/
def defaultReviveAfter : Nat := 30000

structure EndpointGroup where
  inner : StringMap Health
  failureThreshold : Nat
  reviveAfter : Nat
  deriving DecidableEq

namespace EndpointGroup

/-- `EndpointGroup::new`. -/
def new (ids : List String) : EndpointGroup where
  inner := ids.foldl (fun map id => map.insert id (.alive 0)) ∅
  failureThreshold := defaultFailureThreshold
  reviveAfter := defaultReviveAfter

/-- `EndpointGroup::from_endpoints`. -/
def fromEndpoints (endpoints : List EndpointConfig) : EndpointGroup :=
  new (endpoints.map EndpointConfig.id)

/-- `with_failure_threshold`. -/
def withFailureThreshold (g : EndpointGroup) (threshold : Nat) : EndpointGroup :=
  { g with failureThreshold := max threshold 1 }

/-- `with_revive_after`. -/
def withReviveAfter (g : EndpointGroup) (after : Nat) : EndpointGroup :=
  { g with reviveAfter := after }

/-- `is_alive` at the time `now`. Endpoints that are not tracked count as alive. -/
def isAlive (g : EndpointGroup) (now : Nat) (id : String) : Bool :=
  match g.inner.lookup id with
  | none => true
  | some (.alive _) => true
  | some (.dead since) => decide (g.reviveAfter ≤ now - since)

/-- `report_failure` at the time `now`. A dead endpoint has its clock restarted. -/
def reportFailure (g : EndpointGroup) (now : Nat) (id : String) : EndpointGroup :=
  { g with inner := g.inner.insert id (
      match (g.inner.lookup id).getD (.alive 0) with
      | .alive failures =>
          if g.failureThreshold ≤ failures + 1 then .dead now else .alive (failures + 1)
      | .dead _ => .dead now) }

/-- `report_success`. -/
def reportSuccess (g : EndpointGroup) (id : String) : EndpointGroup :=
  if id ∈ g.inner then { g with inner := g.inner.insert id (.alive 0) } else g

/-- `select_first_alive` at the time `now`. -/
def selectFirstAlive (g : EndpointGroup) (now : Nat) (info : RoutingInfo) : Option String :=
  (info.endpoints.find? fun e => g.isAlive now e.id).map EndpointConfig.id

/-! ## Health -/

/-- No entry has left `Alive`. -/
def AllAlive (g : EndpointGroup) : Prop := ∀ id since, g.inner.lookup id ≠ some (.dead since)

theorem insert_alive {map : StringMap Health} {id : String} {failures : Nat}
    (h : ∀ id since, map.lookup id ≠ some (.dead since)) (key : String) (since : Nat) :
    (map.insert id (.alive failures)).lookup key ≠ some (.dead since) := by
  by_cases hk : key = id
  · subst hk
    rw [AList.lookup_insert]
    nofun
  · rw [AList.lookup_insert_ne hk]
    exact h key since

theorem new_allAlive (ids : List String) : (new ids).AllAlive := by
  have hfold : ∀ (ids : List String) (map : StringMap Health),
      (∀ id since, map.lookup id ≠ some (.dead since)) →
      ∀ id since, (ids.foldl (fun map id => map.insert id (.alive 0)) map).lookup id ≠
        some (.dead since) := by
    intro ids
    induction ids with
    | nil => exact fun map h => h
    | cons id ids ih => exact fun map h => ih _ (insert_alive h)
  exact hfold ids ∅ fun id since => by rw [AList.lookup_empty]; nofun

theorem reportSuccess_allAlive {g : EndpointGroup} (h : g.AllAlive) (id : String) :
    (g.reportSuccess id).AllAlive := by
  unfold reportSuccess
  split
  · exact insert_alive h
  · exact h

end EndpointGroup

/-! ## The router -/

/-- What all sessions of a route with a `FailoverRouter` share. -/
structure RouterState where
  group : EndpointGroup
  clock : Nat → Nat
  calls : Nat
  errors : List UpstreamError

namespace RouterState

/-- `FailoverRouter::from_endpoints`. -/
def fromEndpoints (endpoints : List EndpointConfig) (clock : Nat → Nat) : RouterState where
  group := .fromEndpoints endpoints
  clock := clock
  calls := 0
  errors := []

/-- The time at which the next hook runs. -/
def now (r : RouterState) : Nat := r.clock r.calls

/-- No failure was reported and no entry has left `Alive`. -/
structure Unharmed (r : RouterState) : Prop where
  errors : r.errors = []
  alive : r.group.AllAlive

theorem fromEndpoints_unharmed (endpoints : List EndpointConfig) (clock : Nat → Nat) :
    (fromEndpoints endpoints clock).Unharmed :=
  ⟨rfl, EndpointGroup.new_allAlive _⟩

end RouterState

/-- `FailoverRouter`. Its other hooks are the defaults. -/
def failoverRouter : Interceptor RouterState :=
  { Interceptor.noop RouterState with
    upstream := fun r info =>
      ({ r with calls := r.calls + 1 },
        (r.group.selectFirstAlive r.now info).getD info.defaultEndpoint)
    onUpstreamError := fun r error =>
      ({ r with
          group := r.group.reportFailure r.now error.endpoint
          calls := r.calls + 1
          errors := r.errors ++ [error] }, .relink)
    onUpstreamConnected := fun r endpoint =>
      { r with group := r.group.reportSuccess endpoint, calls := r.calls + 1 } }

/-- The interceptor does nothing but route: its other hooks are the defaults. The endpoint it
    picks is one of the route, and picking one and connecting to it keep `P`. -/
structure Interceptor.Routes {κ : Type} (P : κ → Prop) (i : Interceptor κ) : Prop where
  onQuery : ∀ ctx cycle, i.onQuery ctx cycle = (ctx, cycle, .forward)
  onFrontend : ∀ ctx m, i.onFrontend ctx m = (ctx, m, .forward)
  onBackend : ∀ ctx m, i.onBackend ctx m = (ctx, m, .forward)
  wantsRows : i.wantsRows = false
  onCycleEnd : ∀ ctx report, i.onCycleEnd ctx report = ctx
  known : ∀ ctx info, info.endpoints ≠ [] → ∃ e ∈ info.endpoints, (i.upstream ctx info).2 = e.id
  upstream : ∀ ctx info, P ctx → P (i.upstream ctx info).1
  connected : ∀ ctx endpoint, P ctx → P (i.onUpstreamConnected ctx endpoint)

theorem RoutingInfo.defaultEndpoint_known {info : RoutingInfo} (h : info.endpoints ≠ []) :
    ∃ e ∈ info.endpoints, info.defaultEndpoint = e.id := by
  unfold RoutingInfo.defaultEndpoint
  cases he : info.endpoints with
  | nil => exact absurd he h
  | cons e es => exact ⟨e, List.mem_cons_self, rfl⟩

theorem failoverRouter_known (r : RouterState) {info : RoutingInfo} (h : info.endpoints ≠ []) :
    ∃ e ∈ info.endpoints, (failoverRouter.upstream r info).2 = e.id := by
  show ∃ e ∈ info.endpoints,
    (r.group.selectFirstAlive r.now info).getD info.defaultEndpoint = e.id
  unfold EndpointGroup.selectFirstAlive
  cases hf : info.endpoints.find? fun e => r.group.isAlive r.now e.id with
  | none => exact RoutingInfo.defaultEndpoint_known h
  | some e => exact ⟨e, List.mem_of_find?_eq_some hf, rfl⟩

theorem failoverRouter_routes : failoverRouter.Routes RouterState.Unharmed where
  onQuery _ _ := rfl
  onFrontend _ _ := rfl
  onBackend _ _ := rfl
  wantsRows := rfl
  onCycleEnd _ _ := rfl
  known r _ h := failoverRouter_known r h
  upstream _ _ h := ⟨h.errors, h.alive⟩
  connected _ endpoint h := ⟨h.errors, EndpointGroup.reportSuccess_allAlive h.alive endpoint⟩

end Pgferry
