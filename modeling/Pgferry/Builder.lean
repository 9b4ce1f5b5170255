/-
  The configuration of a proxy (`ProxyBuilder` of `proxy.rs`).

  A builder is changed by one call at a time and then built. The calls that touch the route are
  `endpoint` and `password`; `upstream` and `route`, which set it as a whole, are left out here.
  `endpoint` replaces a lone endpoint named "default", which it takes for the implicit one of
  `upstream`, and `password` does nothing while there is no route.

  Proved: the closed form of the route that a list of calls leaves (`after_route`), and from it
  exactly when the endpoints and the last password given are all there, and when moving the
  password call leaves the route as it is (`builder_keeps_iff`).
-/
import Mathlib.Data.List.Induction
import Pgferry.Pool
import Pgferry.Routing

namespace Pgferry

structure ServerTlsConfig where
  cert : String
  key : String
  deriving DecidableEq, Repr

/-- Addresses are texts that `SocketAddr::from_str` accepts. Durations are in milliseconds. -/
structure ProxyConfig where
  listenAddr : String
  route : RouteConfig
  pool : PoolConfig
  maxClientConn : Nat
  adminDatabase : Option String
  metricsAddr : Option String
  tlsServer : Option ServerTlsConfig
  shutdownDrain : Nat

inductive ConfigError where
  | missing (what : String)
  deriving DecidableEq, Repr

/-- `ProxyBuilder`, over the type `ι` of custom services. -/
structure ProxyBuilder (ι : Type) where
  listenAddr : Option String := none
  route : Option RouteConfig := none
  poolConfig : Option PoolConfig := none
  maxClientConn : Nat := 0
  interceptor : Option ι := none
  adminDatabase : Option String := none
  metricsAddr : Option String := none
  tlsServer : Option ServerTlsConfig := none
  shutdownDrain : Option Nat := none

/-- A configured proxy. Its interceptor is a custom service or the built-in failover router,
    given by its endpoint group. -/
structure ConfiguredProxy (ι : Type) where
  config : ProxyConfig
  interceptor : Option (ι ⊕ EndpointGroup)

variable {ι : Type}

namespace ProxyBuilder

/-! ## The calls -/

/-- The endpoints after one more was added. -/
def addEndpoint (endpoints : List EndpointConfig) (endpoint : EndpointConfig) :
    List EndpointConfig :=
  match endpoints with
  | [only] => if only.id = "default" then [endpoint] else [only, endpoint]
  | endpoints => endpoints ++ [endpoint]

/-- `ProxyBuilder::endpoint`. -/
def endpoint (b : ProxyBuilder ι) (id connstring : String) : ProxyBuilder ι :=
  let endpoint : EndpointConfig := { id := id, upstream := connstring }
  { b with
    route := some (match b.route with
      | some route => { route with endpoints := addEndpoint route.endpoints endpoint }
      | none => { name := "default", endpoints := [endpoint] }) }

/-- `ProxyBuilder::password`. -/
def password (b : ProxyBuilder ι) (password : String) : ProxyBuilder ι :=
  { b with route := b.route.map fun route => { route with password := some password } }

/-- `ProxyBuilder::service`. -/
def service (b : ProxyBuilder ι) (interceptor : ι) : ProxyBuilder ι :=
  { b with interceptor := some interceptor }

/-- `ProxyBuilder::build`. -/
def build (b : ProxyBuilder ι) : Except ConfigError (ConfiguredProxy ι) :=
  let interceptor : Option (ι ⊕ EndpointGroup) :=
    match b.interceptor, b.route with
    | some i, _ => some (.inl i)
    | none, some route =>
        if 1 < route.endpoints.length then some (.inr (.fromEndpoints route.endpoints)) else none
    | none, none => none
  match b.listenAddr, b.route with
  | none, _ => .error (.missing "listen")
  | some _, none => .error (.missing "upstream")
  | some listenAddr, some route =>
      .ok {
        interceptor := interceptor
        config := {
          listenAddr := listenAddr
          route := route
          pool := b.poolConfig.getD {}
          maxClientConn := if b.maxClientConn = 0 then 128 else b.maxClientConn
          adminDatabase := b.adminDatabase
          metricsAddr := b.metricsAddr
          tlsServer := b.tlsServer
          shutdownDrain := b.shutdownDrain.getD 30000 } }

end ProxyBuilder

/-- A call on the builder. The addresses of `listen` and `metrics_addr` have been parsed. -/
inductive BuilderCall (ι : Type) where
  | endpoint (id connstring : String)
  | password (password : String)
  | service (interceptor : ι)
  | listen (addr : String)
  | poolConfig (config : PoolConfig)
  | maxClientConn (max : Nat)
  | adminDatabase (name : String)
  | metricsAddr (addr : String)
  | tlsServer (cert key : String)
  | shutdownDrain (drain : Nat)

/-- The endpoint that a call gives. -/
def BuilderCall.endpoint? : BuilderCall ι → Option EndpointConfig
  | .endpoint id connstring => some { id := id, upstream := connstring }
  | _ => none

/-- The password that a call gives. -/
def BuilderCall.password? : BuilderCall ι → Option String
  | .password given => some given
  | _ => none

namespace ProxyBuilder

/-- Carry out a call. -/
def call (b : ProxyBuilder ι) : BuilderCall ι → ProxyBuilder ι
  | .endpoint id connstring => b.endpoint id connstring
  | .password password => b.password password
  | .service interceptor => b.service interceptor
  | .listen addr => { b with listenAddr := some addr }
  | .poolConfig config => { b with poolConfig := some config }
  | .maxClientConn max => { b with maxClientConn := max }
  | .adminDatabase name => { b with adminDatabase := some name }
  | .metricsAddr addr => { b with metricsAddr := some addr }
  | .tlsServer cert key => { b with tlsServer := some { cert := cert, key := key } }
  | .shutdownDrain drain => { b with shutdownDrain := some drain }

/-- The builder after some calls on a fresh one (`Proxy::builder`). -/
def after (calls : List (BuilderCall ι)) : ProxyBuilder ι := calls.foldl call {}

/-! ## What was given -/

def endpointsOf (calls : List (BuilderCall ι)) : List EndpointConfig :=
  calls.filterMap BuilderCall.endpoint?

def passwordsOf (calls : List (BuilderCall ι)) : List String :=
  calls.filterMap BuilderCall.password?

/-- The calls from the first `endpoint` on. -/
def sinceEndpoint (calls : List (BuilderCall ι)) : List (BuilderCall ι) :=
  calls.dropWhile fun c => c.endpoint?.isNone

/-- The endpoints that adding `endpoints` one by one leaves. -/
def addEndpoints (endpoints : List EndpointConfig) : List EndpointConfig :=
  endpoints.foldl addEndpoint []

theorem endpointsOf_append (calls calls' : List (BuilderCall ι)) :
    endpointsOf (calls ++ calls') = endpointsOf calls ++ endpointsOf calls' :=
  List.filterMap_append

theorem passwordsOf_append (calls calls' : List (BuilderCall ι)) :
    passwordsOf (calls ++ calls') = passwordsOf calls ++ passwordsOf calls' :=
  List.filterMap_append

/-- Behind the first endpoint every call counts; before it none does. -/
theorem sinceEndpoint_append (calls calls' : List (BuilderCall ι)) :
    sinceEndpoint (calls ++ calls') =
      if endpointsOf calls = [] then sinceEndpoint calls' else sinceEndpoint calls ++ calls' := by
  induction calls with
  | nil => rfl
  | cons c calls ih =>
      unfold sinceEndpoint endpointsOf at ih ⊢
      rw [List.cons_append, List.filterMap_cons]
      cases hc : c.endpoint? with
      | none =>
          rw [List.dropWhile_cons_of_pos (by simp [hc]), List.dropWhile_cons_of_pos (by simp [hc])]
          exact ih
      | some e =>
          rw [List.dropWhile_cons_of_neg (by simp [hc]), List.dropWhile_cons_of_neg (by simp [hc]),
            if_neg (List.cons_ne_nil _ _)]
          rfl

/-! ## The route -/

/-- The route that a list of calls leaves: nothing without an endpoint, and else the endpoints as
    `addEndpoint` joins them and the last password behind the first endpoint. -/
def routeOf (calls : List (BuilderCall ι)) : Option RouteConfig :=
  if endpointsOf calls = [] then none
  else some {
    name := "default"
    endpoints := addEndpoints (endpointsOf calls)
    password := (passwordsOf (sinceEndpoint calls)).getLast? }

theorem routeOf_endpoint (calls : List (BuilderCall ι)) (id connstring : String) :
    routeOf (calls ++ [.endpoint id connstring]) =
      some (match routeOf calls with
        | some route =>
            { route with
              endpoints := addEndpoint route.endpoints { id := id, upstream := connstring } }
        | none => { name := "default", endpoints := [{ id := id, upstream := connstring }] }) := by
  have hsome : endpointsOf (calls ++ [.endpoint id connstring]) =
      endpointsOf calls ++ [{ id := id, upstream := connstring }] := endpointsOf_append _ _
  unfold routeOf
  rw [hsome, if_neg (by simp), sinceEndpoint_append]
  by_cases hnone : endpointsOf calls = []
  · rw [if_pos hnone, if_pos hnone, hnone]
    rfl
  · rw [if_neg hnone, if_neg hnone, passwordsOf_append]
    dsimp only
    unfold addEndpoints
    rw [List.foldl_append, show passwordsOf [BuilderCall.endpoint (ι := ι) id connstring] = [] from
      rfl, List.append_nil]
    rfl

theorem routeOf_password (calls : List (BuilderCall ι)) (given : String) :
    routeOf (calls ++ [.password given]) =
      (routeOf calls).map fun route => { route with password := some given } := by
  have hsame : endpointsOf (calls ++ [.password given]) = endpointsOf calls := by
    rw [endpointsOf_append]
    exact List.append_nil _
  unfold routeOf
  rw [hsame, sinceEndpoint_append]
  by_cases hnone : endpointsOf calls = []
  · rw [if_pos hnone, if_pos hnone]
    rfl
  · rw [if_neg hnone, if_neg hnone, if_neg hnone, passwordsOf_append]
    have hlast : (passwordsOf (sinceEndpoint calls) ++ passwordsOf [BuilderCall.password (ι := ι)
        given]).getLast? = some given := List.getLast?_concat
    rw [hlast]
    rfl

/-- The other calls leave the route alone. -/
theorem routeOf_other (calls : List (BuilderCall ι)) {c : BuilderCall ι}
    (he : c.endpoint? = none) (hp : c.password? = none) :
    routeOf (calls ++ [c]) = routeOf calls := by
  have hsame : endpointsOf (calls ++ [c]) = endpointsOf calls := by
    rw [endpointsOf_append]
    simp [endpointsOf, he]
  unfold routeOf
  rw [hsame, sinceEndpoint_append]
  by_cases hnone : endpointsOf calls = []
  · rw [if_pos hnone, if_pos hnone]
  · rw [if_neg hnone, if_neg hnone, if_neg hnone, passwordsOf_append]
    simp [passwordsOf, hp]

theorem after_concat (calls : List (BuilderCall ι)) (c : BuilderCall ι) :
    after (calls ++ [c]) = (after calls).call c := by
  unfold after
  rw [List.foldl_append]
  rfl

theorem after_route (calls : List (BuilderCall ι)) : (after calls).route = routeOf calls := by
  induction calls using List.reverseRecOn with
  | nil => rfl
  | append_singleton calls c ih =>
      rw [after_concat]
      cases c with
      | endpoint id connstring =>
          rw [routeOf_endpoint, ← ih]
          rfl
      | password given =>
          rw [routeOf_password, ← ih]
          rfl
      | _ =>
          rw [routeOf_other calls rfl rfl, ← ih]
          rfl

/-! ## When nothing is lost -/

theorem addEndpoint_length_le (endpoints : List EndpointConfig) (e : EndpointConfig) :
    (addEndpoint endpoints e).length ≤ endpoints.length + 1 := by
  unfold addEndpoint
  split
  · split
    · exact Nat.le_add_left _ _
    · exact Nat.le_refl _
  · rw [List.length_append]
    exact Nat.le_refl _

theorem foldl_addEndpoint_length_le (added endpoints : List EndpointConfig) :
    (added.foldl addEndpoint endpoints).length ≤ endpoints.length + added.length := by
  induction added generalizing endpoints with
  | nil => exact Nat.le_refl _
  | cons e added ih =>
      have hstep := addEndpoint_length_le endpoints e
      have hrest := ih (addEndpoint endpoints e)
      rw [List.foldl_cons, List.length_cons]
      omega

/-- Behind an endpoint with another name than "default" nothing is replaced. -/
theorem foldl_addEndpoint {first : EndpointConfig} (h : first.id ≠ "default")
    (added rest : List EndpointConfig) :
    added.foldl addEndpoint (first :: rest) = first :: (rest ++ added) := by
  induction added generalizing rest with
  | nil => rw [List.append_nil]; rfl
  | cons e added ih =>
      have hadd : addEndpoint (first :: rest) e = first :: (rest ++ [e]) := by
        unfold addEndpoint
        split
        case h_1 only heq =>
          cases heq
          exact if_neg h
        case h_2 => rfl
      rw [List.foldl_cons, hadd, ih, List.append_assoc]
      rfl

/-- The endpoints are all there unless the first of several is named "default". -/
theorem addEndpoints_eq_iff (endpoints : List EndpointConfig) :
    addEndpoints endpoints = endpoints ↔
      ∀ first second rest, endpoints = first :: second :: rest → first.id ≠ "default" := by
  unfold addEndpoints
  match endpoints with
  | [] => exact ⟨fun _ _ _ _ h => (nomatch h), fun _ => rfl⟩
  | [only] => exact ⟨fun _ _ _ _ h => (nomatch h), fun _ => rfl⟩
  | first :: second :: rest =>
      have hfirst : (first :: second :: rest).foldl addEndpoint [] =
          (second :: rest).foldl addEndpoint [first] := rfl
      rw [hfirst]
      constructor
      · rintro heq _ _ _ hsplit hdefault
        cases hsplit
        have hlen := foldl_addEndpoint_length_le rest [second]
        have hadd : addEndpoint [first] second = [second] := if_pos hdefault
        rw [List.foldl_cons, hadd] at heq
        rw [heq] at hlen
        simp only [List.length_cons, List.length_nil] at hlen
        omega
      · intro h
        exact foldl_addEndpoint (h first second rest rfl) _ []

/-- The last password counts unless all passwords come before the first endpoint. -/
theorem lastPassword_eq_iff (calls : List (BuilderCall ι)) :
    (passwordsOf (sinceEndpoint calls)).getLast? = (passwordsOf calls).getLast? ↔
      (passwordsOf calls ≠ [] → passwordsOf (sinceEndpoint calls) ≠ []) := by
  have hsplit : passwordsOf calls =
      passwordsOf (calls.takeWhile fun c => c.endpoint?.isNone) ++
        passwordsOf (sinceEndpoint calls) := by
    rw [← passwordsOf_append]
    unfold sinceEndpoint
    rw [List.takeWhile_append_dropWhile]
  constructor
  · intro heq hne hnone
    rw [hnone] at heq
    exact hne (List.getLast?_eq_none_iff.mp heq.symm)
  · intro h
    by_cases hall : passwordsOf calls = []
    · rw [hall] at hsplit ⊢
      rw [(List.append_eq_nil_iff.mp hsplit.symm).2]
    · rw [hsplit, List.getLast?_append_of_ne_nil _ (h hall)]

/-- One password call among others: it counts when an endpoint comes before it. -/
theorem passwordsOf_moved {before rest : List (BuilderCall ι)} (given : String)
    (h : passwordsOf (before ++ rest) = []) :
    (passwordsOf (sinceEndpoint (before ++ .password given :: rest))).getLast? =
      if endpointsOf before = [] then none else some given := by
  rw [passwordsOf_append] at h
  obtain ⟨hbefore, hrest⟩ := List.append_eq_nil_iff.mp h
  -- what is left of a list without passwords has none either
  have hsince : ∀ {calls : List (BuilderCall ι)}, passwordsOf calls = [] →
      passwordsOf (sinceEndpoint calls) = [] := by
    intro calls hcalls
    rw [← List.takeWhile_append_dropWhile (p := fun c => c.endpoint?.isNone) (l := calls),
      passwordsOf_append] at hcalls
    exact (List.append_eq_nil_iff.mp hcalls).2
  rw [sinceEndpoint_append]
  by_cases hnone : endpointsOf before = []
  · rw [if_pos hnone, if_pos hnone]
    have hskip : sinceEndpoint (.password given :: rest) = sinceEndpoint rest := rfl
    rw [hskip, hsince hrest]
    rfl
  · rw [if_neg hnone, if_neg hnone, passwordsOf_append, hsince hbefore]
    have hone : passwordsOf (.password given :: rest) = given :: passwordsOf rest := rfl
    rw [hone, hrest]
    rfl

theorem endpointsOf_moved (before rest : List (BuilderCall ι)) (given : String) :
    endpointsOf (before ++ .password given :: rest) = endpointsOf (before ++ rest) := by
  rw [endpointsOf_append, endpointsOf_append]
  rfl

/-- A built proxy has the route of its calls. -/
theorem build_route {calls : List (BuilderCall ι)} {proxy : ConfiguredProxy ι}
    (h : (after calls).build = .ok proxy) : routeOf calls = some proxy.config.route := by
  rw [← after_route]
  unfold build at h
  dsimp only at h
  split at h
  · cases h
  · cases h
  · cases h
    assumption

/-- The closed form of a built proxy's route. -/
theorem build_route_eq {calls : List (BuilderCall ι)} {proxy : ConfiguredProxy ι}
    (h : (after calls).build = .ok proxy) :
    proxy.config.route = {
      name := "default"
      endpoints := addEndpoints (endpointsOf calls)
      password := (passwordsOf (sinceEndpoint calls)).getLast? } := by
  have hroute := build_route h
  unfold routeOf at hroute
  split at hroute
  · cases hroute
  · exact (Option.some.inj hroute).symm

end ProxyBuilder

open ProxyBuilder in
/-- For every list of builder calls that builds: the route has the endpoints given, in order, and
    the last password given exactly when the first of several endpoints is not named "default"
    and a password is given behind the first endpoint, if any is given. Two lists that differ in
    the place of their one password call build the same route exactly when the call stands behind
    an endpoint in both or in neither. -/
theorem builder_keeps_iff {ι : Type} :
    (∀ (calls : List (BuilderCall ι)) (proxy : ConfiguredProxy ι),
      (after calls).build = .ok proxy →
      ((proxy.config.route.endpoints = endpointsOf calls ∧
          proxy.config.route.password = (passwordsOf calls).getLast?) ↔
        (∀ first second rest, endpointsOf calls = first :: second :: rest →
          first.id ≠ "default") ∧
        (passwordsOf calls ≠ [] → passwordsOf (sinceEndpoint calls) ≠ []))) ∧
      ∀ (before rest before' rest' : List (BuilderCall ι)) (given : String)
        (proxy proxy' : ConfiguredProxy ι), before ++ rest = before' ++ rest' →
        passwordsOf (before ++ rest) = [] →
        (after (before ++ .password given :: rest)).build = .ok proxy →
        (after (before' ++ .password given :: rest')).build = .ok proxy' →
        (proxy.config.route = proxy'.config.route ↔
          (endpointsOf before = [] ↔ endpointsOf before' = [])) := by
  constructor
  · intro calls proxy h
    rw [build_route_eq h, addEndpoints_eq_iff, lastPassword_eq_iff]
  · intro before rest before' rest' given proxy proxy' hsame hnone h h'
    rw [build_route_eq h, build_route_eq h', endpointsOf_moved, endpointsOf_moved, hsame,
      passwordsOf_moved given hnone, passwordsOf_moved given (hsame ▸ hnone)]
    by_cases hb : endpointsOf before = []
    · by_cases hb' : endpointsOf before' = []
      · simp [hb, hb']
      · simp [hb, hb']
    · by_cases hb' : endpointsOf before' = []
      · simp [hb, hb']
      · simp [hb, hb']

open ProxyBuilder in
/-- A password given before the endpoints is lost, and so is a first endpoint with the name
    "default". -/
theorem builder_loses :
    let early : List (BuilderCall Unit) :=
      [.listen "127.0.0.1:6432", .password "secret", .endpoint "primary" "host=a"]
    let named : List (BuilderCall Unit) :=
      [.listen "127.0.0.1:6432", .endpoint "default" "host=a", .endpoint "replica" "host=b"]
    (∃ proxy, (after early).build = .ok proxy ∧
        proxy.config.route.password ≠ (passwordsOf early).getLast?) ∧
      ∃ proxy, (after named).build = .ok proxy ∧
        proxy.config.route.endpoints ≠ endpointsOf named :=
  ⟨⟨_, rfl, by decide⟩, _, rfl, by decide⟩

end Pgferry
