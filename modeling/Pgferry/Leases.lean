/-
  The leases of a scatter (`execute_scatter` of `scatter.rs`).

  `Session.scatterExit` names the way out that `execute_scatter` takes and what it holds there:
  the legs whose query cycle ended, the leg that failed, and the leases of the legs that were
  aborted. A lease that is returned or destroyed is counted out of its pool's `active`; one that
  is dropped is not, and its connection is lost.

  Proved: what each operation of a scatter does to `active` (`checkout_active`,
  `runLegs_active`, `abortLegs_active`, `checkinLegs_active`), with which leases each way out is
  reached and how it leaves them (`executeScatter_leave`), that `checkin_detached` of the legs
  parks each of their connections (`checkinLegs_parks`), and that a scatter conserves its leases
  exactly on the ways out where it holds none that it would drop (`scatter_conserves_iff`).
-/
import Pgferry.Lending
import Pgferry.Merge

namespace Pgferry

variable {σ κ : Type}

/-! ## The way out -/

/-- The way out of `execute_scatter`. -/
inductive ScatterExit (σ : Type) where
  | unknownEndpoint
  /-- The pooled leg `failed` failed after `outcomes`; of the legs that were still running some
      had the leases `aborted`. -/
  | legFailed (failed : LegOutcome σ) (aborted : List (UpstreamLease σ))
      (outcomes : List (LegOutcome σ))
  | sessionLegBroken (outcomes : List (LegOutcome σ))
  | sessionLegFailed (outcomes : List (LegOutcome σ))
  /-- Sum over a column that is not numeric, or a row that is not well formed. -/
  | mergeFailed (outcomes : List (LegOutcome σ))
  | clientGone (outcomes : List (LegOutcome σ))
  | done (outcomes : List (LegOutcome σ))

/-- The outcome of the first leg that fails. -/
def failedLeg (u : Upstream σ) (key : ScatterLeg → PoolKey) (startup : Params) :
    List ScatterLeg → World σ → Option (LegOutcome σ)
  | [], _ => none
  | leg :: legs, w =>
      let done := runLegPooled u w (key leg) leg startup
      if done.2.error.isSome || done.2.connBroken then some done.2
      else failedLeg u key startup legs done.1

/-- The leases of the aborted legs that had one. -/
def abortedLeases (u : Upstream σ) (key : ScatterLeg → PoolKey) :
    List ScatterLeg → List Bool → World σ → List (UpstreamLease σ)
  | leg :: legs, true :: flags, w =>
      match w.checkout u (key leg) with
      | (w, .ok lease) => lease :: abortedLeases u key legs flags (w.abandon lease)
      | (w, .error _) => abortedLeases u key legs flags w
  | _ :: legs, false :: flags, w => abortedLeases u key legs flags w
  | _, _, _ => []

namespace Session

/-- The way out of the merge. -/
def mergeExit (s : Session σ κ) (request : ScatterRequest) (sources : List BackendMessage)
    (totalRows : Nat) (outcomes : List (LegOutcome σ)) : ScatterExit σ :=
  match mergeLegs request sources totalRows with
  | some (.ok (messages, _)) =>
      if (s.writeAll messages).2 then .done outcomes else .clientGone outcomes
  | _ => .mergeFailed outcomes

/-- The way out that `execute_scatter` takes. -/
def scatterExit (env : Env σ) (s : Session σ κ) (request : ScatterRequest) (t : Timing) :
    ScatterExit σ :=
  match request.legs.find? fun leg => (env.route.endpoint leg.endpoint).isNone with
  | some _ => .unknownEndpoint
  | none =>
      let key := fun leg : ScatterLeg => env.poolKey s.params leg.endpoint
      let parts := partitionLegs s.currentEndpoint s.lease.isSome request.legs
      let ran := runLegs env.upstream key s.startupParameters
        (completionOrder parts.2 t.completion)
        { world := s.world, outcomes := [], firstError := none, aborted := [] }
      match failedLeg env.upstream key s.startupParameters
          (completionOrder parts.2 t.completion) s.world with
      | some failed =>
          .legFailed failed (abortedLeases env.upstream key ran.aborted t.aborted ran.world)
            ran.outcomes
      | none =>
          let sess := { s with world := ran.world }.runSessionLeg env parts.1
          match sess.2 with
          | none =>
              sess.1.mergeExit request (ran.outcomes.flatMap LegOutcome.messages)
                (ran.outcomes.map LegOutcome.rows).sum ran.outcomes
          | some r =>
              if r.broken then .sessionLegBroken ran.outcomes
              else
                match r.error with
                | some _ => .sessionLegFailed ran.outcomes
                | none =>
                    sess.1.mergeExit request
                      (r.messages ++ ran.outcomes.flatMap LegOutcome.messages)
                      (r.rows + (ran.outcomes.map LegOutcome.rows).sum) ran.outcomes

end Session

/-- The leases that the outcomes hold. -/
def heldBy (outcomes : List (LegOutcome σ)) : List (UpstreamLease σ) :=
  outcomes.filterMap LegOutcome.lease

namespace ScatterExit

/-- The pooled legs that completed without an error. -/
def outcomes : ScatterExit σ → List (LegOutcome σ)
  | unknownEndpoint => []
  | legFailed _ _ outcomes => outcomes
  | sessionLegBroken outcomes => outcomes
  | sessionLegFailed outcomes => outcomes
  | mergeFailed outcomes => outcomes
  | clientGone outcomes => outcomes
  | done outcomes => outcomes

/-- The pooled legs that completed, with or without an error. -/
def completed : ScatterExit σ → List (LegOutcome σ)
  | legFailed failed _ outcomes => outcomes ++ [failed]
  | exit => exit.outcomes

/-- The leases of the failed leg and of the aborted legs. -/
def lost : ScatterExit σ → List (UpstreamLease σ)
  | legFailed failed aborted _ => failed.lease.toList ++ aborted
  | _ => []

/-- What becomes of the leases of the legs that completed without an error. -/
def leave (u : Upstream σ) : ScatterExit σ → World σ → World σ
  | unknownEndpoint, w => w
  | legFailed _ _ outcomes, w => checkinLegs u outcomes w
  | sessionLegBroken outcomes, w => abandonLegs outcomes w
  | sessionLegFailed outcomes, w => checkinLegs u outcomes w
  | mergeFailed outcomes, w => abandonLegs outcomes w
  | clientGone outcomes, w => abandonLegs outcomes w
  | done outcomes, w => checkinLegs u outcomes w

/-- The failed leg's connection broke and no aborted leg had one; a broken session leg, a failed
    merge and a lost client find no pooled leg. -/
def Settled : ScatterExit σ → Prop
  | legFailed failed aborted _ => failed.connBroken = true ∧ aborted = []
  | sessionLegBroken outcomes => outcomes = []
  | mergeFailed outcomes => outcomes = []
  | clientGone outcomes => outcomes = []
  | _ => True

/-- No pooled leg failed; those that completed are `os`. -/
structure Joined (exit : ScatterExit σ) (os : List (LegOutcome σ)) : Prop where
  outcomes : exit.outcomes = os
  lost : exit.lost = []
  failed : ∀ failed aborted outcomes, exit ≠ .legFailed failed aborted outcomes

end ScatterExit

/-! ## What a scatter keeps of a pool -/

/-- The clock and the configurations are as in `w`. -/
structure World.Steady (w w' : World σ) : Prop where
  now : w'.now = w.now
  config : ∀ key, (w'.pools key).config = (w.pools key).config

namespace World.Steady

variable {w w' : World σ}

theorem refl (w : World σ) : w.Steady w := ⟨rfl, fun _ => rfl⟩

theorem modify (h : w.Steady w') (key : PoolKey) (f : Pool σ → Pool σ)
    (hf : (f (w'.pools key)).config = (w'.pools key).config) : w.Steady (w'.modify key f) := by
  refine ⟨h.now, fun k => ?_⟩
  simp only [World.modify]
  split
  case isTrue hk =>
    rw [hk, hf]
    exact h.config key
  case isFalse => exact h.config k

theorem checkout (h : w.Steady w') (u : Upstream σ) (key : PoolKey) :
    w.Steady (w'.checkout u key).1 := by
  unfold World.checkout
  dsimp only
  split
  · dsimp only
    exact h.modify key _ rfl
  · have hdial : w.Steady { w' with dials := w'.dials + 1 } := ⟨h.now, h.config⟩
    split
    · dsimp only
      exact hdial.modify key _ rfl
    · dsimp only
      exact hdial.modify key _ rfl

theorem abandon (h : w.Steady w') (lease : UpstreamLease σ) : w.Steady (w'.abandon lease) :=
  h.modify _ _ rfl

theorem destroy (h : w.Steady w') (lease : UpstreamLease σ) : w.Steady (w'.destroy lease) :=
  h.modify _ _ rfl

theorem runLegPooled (h : w.Steady w') (u : Upstream σ) (key : PoolKey) (leg : ScatterLeg)
    (startup : Params) : w.Steady (runLegPooled u w' key leg startup).1 := by
  have hc := h.checkout u key
  unfold Pgferry.runLegPooled
  split
  case h_1 heq =>
    rw [heq] at hc
    exact hc
  case h_2 lease heq =>
    rw [heq] at hc
    split
    · exact hc.destroy lease
    · dsimp only
      split
      · exact hc.destroy lease
      · exact hc

theorem runLegs (u : Upstream σ) (key : ScatterLeg → PoolKey) (startup : Params)
    (legs : List ScatterLeg) (r : LegsRun σ) (h : w.Steady r.world) :
    w.Steady (runLegs u key startup legs r).world := by
  induction legs generalizing r with
  | nil => exact h
  | cons leg legs ih =>
      have hleg := h.runLegPooled u (key leg) leg startup
      rw [Pgferry.runLegs]
      split
      · dsimp only
        split
        · exact hleg.abandon _
        · exact hleg
      · exact ih _ hleg

theorem abortLegs (u : Upstream σ) (key : ScatterLeg → PoolKey) (legs : List ScatterLeg)
    (flags : List Bool) (h : w.Steady w') : w.Steady (abortLegs u key legs flags w') := by
  induction legs generalizing flags w' with
  | nil => cases flags <;> exact h
  | cons leg legs ih =>
      cases flags with
      | nil => exact h
      | cons flag flags =>
          cases flag with
          | false => exact ih flags h
          | true =>
              have hc := h.checkout u (key leg)
              rw [Pgferry.abortLegs]
              cases hw : w'.checkout u (key leg) with
              | mk w'' r =>
                  rw [hw] at hc
                  cases r with
                  | error e => exact ih flags hc
                  | ok lease => exact ih flags (hc.abandon lease)

end World.Steady

/-! ## Leases of the legs -/

theorem abandon_active (w : World σ) (lease : UpstreamLease σ) (k : PoolKey) :
    (w.abandon lease).active k = w.active k := by
  rw [World.abandon, modify_active]
  split <;> rfl

/-- A leg that ends at `ReadyForQuery` keeps its lease; one that does not has none. -/
theorem runLegPooled_lease (u : Upstream σ) (w : World σ) (key : PoolKey) (leg : ScatterLeg)
    (startup : Params) :
    (runLegPooled u w key leg startup).2.lease = none ↔
      (runLegPooled u w key leg startup).2.connBroken = true := by
  unfold runLegPooled
  split
  · simp [LegOutcome.unreachable]
  · split
    · simp [LegOutcome.unreachable]
    · dsimp only
      split <;> simp

theorem runLegPooled_active (u : Upstream σ) (w : World σ) (key : PoolKey) (leg : ScatterLeg)
    (startup : Params) (k : PoolKey) :
    (runLegPooled u w key leg startup).1.active k =
      w.active k + leasesOf k (runLegPooled u w key leg startup).2.lease.toList := by
  have hc := checkout_active u w key k
  unfold runLegPooled
  split
  case h_1 heq =>
    rw [heq] at hc
    exact hc
  case h_2 lease heq =>
    rw [heq] at hc
    have hc : _ = w.active k + leasesOf k [lease] := hc
    split
    · dsimp only
      rw [destroy_active, hc, Int.add_sub_cancel]
      exact (Int.add_zero _).symm
    · dsimp only
      split
      · dsimp only
        rw [destroy_active, hc, Int.add_sub_cancel]
        exact (Int.add_zero _).symm
      · rw [hc, leasesOf_cons, Option.toList_some, leasesOf_cons]

theorem heldBy_append (l l' : List (LegOutcome σ)) : heldBy (l ++ l') = heldBy l ++ heldBy l' :=
  List.filterMap_append

theorem heldBy_singleton (o : LegOutcome σ) : heldBy [o] = o.lease.toList := by
  rw [heldBy, List.filterMap_cons]
  cases o.lease <;> rfl

section Legs

variable (u : Upstream σ) (key : ScatterLeg → PoolKey) (startup : Params)

/-- The legs that completed hold their leases, and so does the failed leg until it is dropped. -/
theorem runLegs_active (legs : List ScatterLeg) (r : LegsRun σ) (k : PoolKey) :
    (runLegs u key startup legs r).world.active k + leasesOf k (heldBy r.outcomes) =
      r.world.active k + leasesOf k (heldBy (runLegs u key startup legs r).outcomes) +
        leasesOf k ((failedLeg u key startup legs r.world).bind LegOutcome.lease).toList := by
  induction legs generalizing r with
  | nil => simp [runLegs, failedLeg]
  | cons leg legs ih =>
      have hleg := runLegPooled_active u r.world (key leg) leg startup k
      rw [runLegs, failedLeg]
      by_cases hc : ((runLegPooled u r.world (key leg) leg startup).2.error.isSome ||
          (runLegPooled u r.world (key leg) leg startup).2.connBroken) = true
      · rw [if_pos hc, if_pos hc]
        cases hl : (runLegPooled u r.world (key leg) leg startup).2.lease with
        | none =>
            rw [hl] at hleg
            simp only [Option.bind_some, hl, hleg]
            omega
        | some lease =>
            rw [hl] at hleg
            simp only [Option.bind_some, hl, hleg, abandon_active]
            omega
      · rw [if_neg hc, if_neg hc]
        have h := ih { r with
          world := (runLegPooled u r.world (key leg) leg startup).1
          outcomes := r.outcomes ++ [(runLegPooled u r.world (key leg) leg startup).2] }
        simp only [heldBy_append, heldBy_singleton, leasesOf_append] at h
        omega

theorem runLegs_failed (legs : List ScatterLeg) (r : LegsRun σ) (h : r.firstError = none) :
    (runLegs u key startup legs r).firstError.isSome =
      (failedLeg u key startup legs r.world).isSome := by
  induction legs generalizing r with
  | nil => simp [runLegs, failedLeg, h]
  | cons leg legs ih =>
      rw [runLegs, failedLeg]
      split
      · rfl
      · exact ih _ h

theorem runLegs_leased (legs : List ScatterLeg) (r : LegsRun σ)
    (h : ∀ o ∈ r.outcomes, o.lease ≠ none) :
    ∀ o ∈ (runLegs u key startup legs r).outcomes, o.lease ≠ none := by
  induction legs generalizing r with
  | nil => exact h
  | cons leg legs ih =>
      rw [runLegs]
      split
      case isTrue => exact h
      case isFalse hc =>
        refine ih _ fun o hmem => ?_
        rcases List.mem_append.mp hmem with hmem | hmem
        · exact h o hmem
        · rw [List.mem_singleton.mp hmem, Ne, runLegPooled_lease]
          simp only [Bool.or_eq_true, not_or] at hc
          exact hc.2

theorem failedLeg_lease {u : Upstream σ} {key : ScatterLeg → PoolKey} {startup : Params}
    {legs : List ScatterLeg} {w : World σ} {failed : LegOutcome σ}
    (h : failedLeg u key startup legs w = some failed) :
    failed.lease = none ↔ failed.connBroken = true := by
  induction legs generalizing w with
  | nil => simp [failedLeg] at h
  | cons leg legs ih =>
      rw [failedLeg] at h
      split at h
      · rw [← Option.some.inj h]
        exact runLegPooled_lease _ _ _ _ _
      · exact ih h

theorem abortLegs_active (legs : List ScatterLeg) (flags : List Bool) (w : World σ)
    (k : PoolKey) :
    (abortLegs u key legs flags w).active k =
      w.active k + leasesOf k (abortedLeases u key legs flags w) := by
  induction legs generalizing flags w with
  | nil => simp [abortLegs, abortedLeases]
  | cons leg legs ih =>
      cases flags with
      | nil => simp [abortLegs, abortedLeases]
      | cons flag flags =>
          cases flag with
          | false => exact ih flags w
          | true =>
              have hc := checkout_active u w (key leg) k
              rw [abortLegs, abortedLeases]
              cases hw : w.checkout u (key leg) with
              | mk w' r =>
                  rw [hw] at hc
                  cases r with
                  | error e =>
                      dsimp only
                      rw [ih]
                      have hc : w'.active k = w.active k + 0 := hc
                      omega
                  | ok lease =>
                      dsimp only
                      have hc : w'.active k = w.active k + leasesOf k [lease] := hc
                      rw [ih, abandon_active, hc, leasesOf_cons, leasesOf_cons, leasesOf_nil]
                      omega

theorem checkinLegs_active (outcomes : List (LegOutcome σ)) (w : World σ) (k : PoolKey) :
    (checkinLegs u outcomes w).active k = w.active k - leasesOf k (heldBy outcomes) := by
  induction outcomes generalizing w with
  | nil => exact (Int.sub_zero _).symm
  | cons o outcomes ih =>
      have hheld : heldBy (o :: outcomes) = o.lease.toList ++ heldBy outcomes := by
        rw [← List.singleton_append, heldBy_append, heldBy_singleton]
      rw [checkinLegs, hheld, leasesOf_append]
      cases o.lease with
      | none =>
          dsimp only
          rw [ih]
          simp
      | some lease =>
          dsimp only
          rw [ih, checkinDetached_active, Option.toList_some]
          omega

theorem abandonLegs_active (outcomes : List (LegOutcome σ)) (w : World σ) (k : PoolKey) :
    (abandonLegs outcomes w).active k = w.active k := by
  induction outcomes generalizing w with
  | nil => rfl
  | cons o outcomes ih =>
      rw [abandonLegs]
      split
      · rw [ih, abandon_active]
      · exact ih w

end Legs

/-! ## Conservation -/

namespace Session

theorem writeAll_world (s : Session σ κ) (ms : List BackendMessage) :
    (s.writeAll ms).1.world = s.world := by
  obtain ⟨_, _, hb, _⟩ := writeAll_spec s ms
  exact hb.world

theorem writeMerged_leave (env : Env σ) (s : Session σ κ) (request : ScatterRequest)
    (sources : List BackendMessage) (total : Nat) (outcomes : List (LegOutcome σ)) :
    (s.writeMerged env request sources total outcomes).1.world =
      (s.mergeExit request sources total outcomes).leave env.upstream s.world := by
  unfold writeMerged mergeExit
  cases hm : mergeLegs request sources total with
  | none => rfl
  | some merged =>
      cases merged with
      | error failure => rfl
      | ok merged =>
          have hworld := writeAll_world s merged.1
          dsimp only
          cases hw : s.writeAll merged.1 with
          | mk s' ok =>
              rw [hw] at hworld
              rw [← hworld]
              cases ok <;> rfl

theorem mergeExit_joined (s : Session σ κ) (request : ScatterRequest)
    (sources : List BackendMessage) (total : Nat) (outcomes : List (LegOutcome σ)) :
    (s.mergeExit request sources total outcomes).Joined outcomes := by
  unfold mergeExit
  split
  · split <;> exact ⟨rfl, rfl, fun _ _ _ h => by cases h⟩
  · exact ⟨rfl, rfl, fun _ _ _ h => by cases h⟩

end Session

/-- `w'` is the world in which a scatter that began in `w` takes its way out. -/
structure ScatterExit.Reaches (w : World σ) (exit : ScatterExit σ) (w' : World σ) : Prop where
  active : ∀ k, w'.active k =
    w.active k + leasesOf k (heldBy exit.outcomes) + leasesOf k exit.lost
  steady : w.Steady w'
  leased : ∀ o ∈ exit.outcomes, o.lease ≠ none
  failed : ∀ failed aborted outcomes, exit = .legFailed failed aborted outcomes →
    (failed.lease = none ↔ failed.connBroken = true)

namespace Session

theorem runSessionLeg_world (env : Env σ) (s : Session σ κ) (leg : Option ScatterLeg) :
    (s.runSessionLeg env leg).1.world = s.world := by
  unfold runSessionLeg
  split <;> rfl

/-- Every way out is reached with the leases of its legs out of their pools. -/
theorem executeScatter_leave (env : Env σ) (s : Session σ κ) (request : ScatterRequest)
    (t : Timing) :
    ∃ w, (s.scatterExit env request t).Reaches s.world w ∧
      (s.executeScatter env request t).1.world =
        (s.scatterExit env request t).leave env.upstream w := by
  unfold executeScatter scatterExit
  generalize request.legs.find? (fun leg => (env.route.endpoint leg.endpoint).isNone) = unknown
  cases unknown with
  | some leg =>
      refine ⟨s.world, ⟨fun k => ?_, .refl _, List.forall_mem_nil _, fun _ _ _ h => ?_⟩, rfl⟩
      · simp [ScatterExit.outcomes, ScatterExit.lost, heldBy]
      · cases h
  | none =>
      dsimp only
      generalize completionOrder
        (partitionLegs s.currentEndpoint s.lease.isSome request.legs).2 t.completion = legs
      have hact := runLegs_active env.upstream
        (fun leg : ScatterLeg => env.poolKey s.params leg.endpoint) s.startupParameters legs
        { world := s.world, outcomes := [], firstError := none, aborted := [] }
      have hfail := runLegs_failed env.upstream
        (fun leg : ScatterLeg => env.poolKey s.params leg.endpoint) s.startupParameters legs
        { world := s.world, outcomes := [], firstError := none, aborted := [] } rfl
      have hleased := runLegs_leased env.upstream
        (fun leg : ScatterLeg => env.poolKey s.params leg.endpoint) s.startupParameters legs
        { world := s.world, outcomes := [], firstError := none, aborted := [] }
        (List.forall_mem_nil _)
      have hsteady := World.Steady.runLegs env.upstream
        (fun leg : ScatterLeg => env.poolKey s.params leg.endpoint) s.startupParameters legs
        { world := s.world, outcomes := [], firstError := none, aborted := [] } (.refl s.world)
      generalize runLegs env.upstream (fun leg : ScatterLeg => env.poolKey s.params leg.endpoint)
        s.startupParameters legs _ = ran at hact hfail hleased hsteady ⊢
      simp only [heldBy, List.filterMap_nil, leasesOf_nil, Int.add_zero] at hact
      cases hf : failedLeg env.upstream
          (fun leg : ScatterLeg => env.poolKey s.params leg.endpoint) s.startupParameters legs
          s.world with
      | some failed =>
          rw [hf] at hact hfail
          obtain ⟨error, herr⟩ := Option.isSome_iff_exists.mp hfail
          simp only [herr]
          refine ⟨_, ⟨fun k => ?_, hsteady.abortLegs _ _ _ _, hleased, ?_⟩, rfl⟩
          · have hact := hact k
            rw [abortLegs_active]
            simp only [ScatterExit.outcomes, ScatterExit.lost, leasesOf_append, heldBy]
            simp only [Option.bind_some] at hact
            omega
          · intro failed' aborted outcomes h
            cases h
            exact failedLeg_lease hf
      | none =>
          rw [hf] at hact hfail
          have herr : ran.firstError = none := by simpa using hfail
          simp only [Option.bind_none, Option.toList_none, leasesOf_nil, Int.add_zero] at hact
          have hreach : ∀ exit : ScatterExit σ, exit.Joined ran.outcomes →
              exit.Reaches s.world ran.world := by
            intro exit hj
            refine ⟨fun k => ?_, hsteady, hj.outcomes ▸ hleased, ?_⟩
            · rw [hj.outcomes, hj.lost, leasesOf_nil, Int.add_zero]
              exact hact k
            · exact fun f a o h => absurd h (hj.failed f a o)
          simp only [herr]
          have hsess := runSessionLeg_world env { s with world := ran.world }
            (partitionLegs s.currentEndpoint s.lease.isSome request.legs).1
          generalize ({ s with world := ran.world } : Session σ κ).runSessionLeg env
            (partitionLegs s.currentEndpoint s.lease.isSome request.legs).1 = sess at hsess ⊢
          obtain ⟨s', r⟩ := sess
          replace hsess : s'.world = ran.world := hsess
          refine ⟨ran.world, hreach _ ?_, ?_⟩
          · cases r with
            | none => exact mergeExit_joined _ _ _ _ _
            | some r =>
                dsimp only
                split
                · exact ⟨rfl, rfl, fun _ _ _ h => by cases h⟩
                · split
                  · exact ⟨rfl, rfl, fun _ _ _ h => by cases h⟩
                  · exact mergeExit_joined _ _ _ _ _
          · cases r with
            | none => exact hsess ▸ writeMerged_leave env s' request _ _ ran.outcomes
            | some r =>
                dsimp only
                cases hb : r.broken with
                | true => exact congrArg (abandonLegs ran.outcomes) hsess
                | false =>
                    cases he : r.error with
                    | some error => exact congrArg (checkinLegs env.upstream ran.outcomes) hsess
                    | none => exact hsess ▸ writeMerged_leave env s' request _ _ ran.outcomes

end Session

/-- The connection of the leg's lease, cleaned if the leg left it dirty, is parked, unless the
    cleaning fails or the connection is past `max_lifetime`. -/
def LegOutcome.ParkedIn (u : Upstream σ) (w w' : World σ) (o : LegOutcome σ) : Prop :=
  ∀ lease conn, o.lease = some lease → discardIfDirty u lease.conn o.dirty = .ok conn →
    ¬ (w.pools lease.pool).config.maxLifetime < w.now - lease.createdAt →
    { conn := conn, idleSince := w.now, createdAt := lease.createdAt } ∈
      (w'.pools lease.pool).idle

/-- What `checkin_detached` does to the idle stack of a pool. -/
theorem checkinDetached_idle (u : Upstream σ) (w : World σ) (lease : UpstreamLease σ)
    (dirty : Bool) (key : PoolKey) :
    (w.pools key).idle ⊆ ((w.checkinDetached u lease dirty).pools key).idle := by
  simp only [World.checkinDetached, World.modify]
  split
  · split
    · exact List.Subset.refl _
    · unfold Pool.park
      split
      · exact List.Subset.refl _
      · exact List.subset_cons_self _ _
  · exact List.Subset.refl _

theorem checkinLegs_idle (u : Upstream σ) (outcomes : List (LegOutcome σ)) (w : World σ)
    (key : PoolKey) : (w.pools key).idle ⊆ ((checkinLegs u outcomes w).pools key).idle := by
  induction outcomes generalizing w with
  | nil => exact List.Subset.refl _
  | cons o outcomes ih =>
      rw [checkinLegs]
      split
      · exact List.Subset.trans (checkinDetached_idle u w _ _ key) (ih _)
      · exact ih w

theorem park_mem {p : Pool σ} {now createdAt : Nat} (conn : Conn σ)
    (h : ¬ p.config.maxLifetime < now - createdAt) :
    { conn := conn, idleSince := now, createdAt := createdAt } ∈
      (p.park now conn createdAt).idle := by
  rw [Pool.park, if_neg h]
  exact List.mem_cons_self

theorem checkinDetached_parks (u : Upstream σ) {w : World σ} {o : LegOutcome σ}
    {lease : UpstreamLease σ} (hl : o.lease = some lease) :
    o.ParkedIn u w (w.checkinDetached u lease o.dirty) := by
  intro lease' conn hl' hd hlife
  cases hl.symm.trans hl'
  simp only [World.checkinDetached, World.modify, if_pos, hd]
  exact park_mem conn hlife

theorem World.Steady.checkinDetached {w w' : World σ} (h : w.Steady w') (u : Upstream σ)
    (lease : UpstreamLease σ) (dirty : Bool) : w.Steady (w'.checkinDetached u lease dirty) := by
  refine h.modify _ _ ?_
  split
  · rfl
  · unfold Pool.park
    split <;> rfl

/-- Returning the legs parks the connection of each. -/
theorem checkinLegs_parks (u : Upstream σ) {w w' : World σ} (hw : w.Steady w')
    (outcomes : List (LegOutcome σ)) :
    ∀ o ∈ outcomes, o.ParkedIn u w (checkinLegs u outcomes w') := by
  induction outcomes generalizing w' with
  | nil => exact List.forall_mem_nil _
  | cons o outcomes ih =>
      intro o' ho' lease conn hl hd hlife
      rw [checkinLegs]
      rcases List.mem_cons.mp ho' with rfl | ho'
      · rw [hl]
        refine checkinLegs_idle u outcomes _ _ ?_
        have hpark := checkinDetached_parks u (w := w') hl lease conn hl hd
        rw [hw.now, hw.config] at hpark
        exact hpark hlife
      · split
        · exact ih (hw.checkinDetached u _ _) o' ho' lease conn hl hd hlife
        · exact ih hw o' ho' lease conn hl hd hlife

theorem heldBy_eq_nil {outcomes : List (LegOutcome σ)} (h : ∀ o ∈ outcomes, o.lease ≠ none)
    (hn : heldBy outcomes = []) : outcomes = [] := by
  cases outcomes with
  | nil => rfl
  | cons o outcomes =>
      have hnone := List.filterMap_eq_nil_iff.mp hn o List.mem_cons_self
      exact absurd hnone (h o List.mem_cons_self)

/-- Every lease that the scatter took is counted out of its pool again, and the connections of
    the legs that completed are parked. -/
structure Session.Conserves (env : Env σ) (s : Session σ κ) (request : ScatterRequest)
    (t : Timing) : Prop where
  active : ∀ key, (s.executeScatter env request t).1.world.active key = s.world.active key
  parked : ∀ o ∈ (s.scatterExit env request t).completed,
    o.ParkedIn env.upstream s.world (s.executeScatter env request t).1.world

namespace ScatterExit

variable {w w' : World σ} {exit : ScatterExit σ}

/-- A way out that drops leases leaves `active` up. -/
theorem Reaches.settled (u : Upstream σ) (h : exit.Reaches w w')
    (hact : ∀ key, (exit.leave u w').active key = w.active key) : exit.Settled := by
  have habandon : ∀ os : List (LegOutcome σ), exit.outcomes = os → exit.lost = [] →
      (∀ key, (abandonLegs os w').active key = w.active key) → os = [] := by
    rintro os rfl hlost hdrop
    refine heldBy_eq_nil h.leased (leasesOf_eq_zero fun key => ?_)
    have hup := h.active key
    have hkey := hdrop key
    rw [hlost, leasesOf_nil] at hup
    rw [abandonLegs_active] at hkey
    omega
  cases exit with
  | legFailed failed aborted outcomes =>
      have hlost : failed.lease.toList ++ aborted = [] := by
        refine leasesOf_eq_zero fun key => ?_
        have hup := h.active key
        have hkey := hact key
        simp only [leave, checkinLegs_active] at hkey
        simp only [ScatterExit.outcomes, lost] at hup
        omega
      obtain ⟨hfailed, haborted⟩ := List.append_eq_nil_iff.mp hlost
      exact ⟨(h.failed _ _ _ rfl).mp (by simpa using hfailed), haborted⟩
  | sessionLegBroken outcomes => exact habandon outcomes rfl rfl hact
  | mergeFailed outcomes => exact habandon outcomes rfl rfl hact
  | clientGone outcomes => exact habandon outcomes rfl rfl hact
  | _ => trivial

/-- A settled way out counts every lease out of its pool and parks the connections of the legs
    that completed. -/
theorem Reaches.conserves (u : Upstream σ) (h : exit.Reaches w w') (hs : exit.Settled) :
    (∀ key, (exit.leave u w').active key = w.active key) ∧
      ∀ o ∈ exit.completed, o.ParkedIn u w (exit.leave u w') := by
  have hreturn : ∀ os : List (LegOutcome σ), exit.outcomes = os → exit.lost = [] →
      ∀ key, (checkinLegs u os w').active key = w.active key := by
    rintro os rfl hlost key
    have hup := h.active key
    rw [hlost, leasesOf_nil] at hup
    rw [checkinLegs_active]
    omega
  have hnone : ∀ os : List (LegOutcome σ), os = [] → exit.outcomes = os → exit.lost = [] →
      (∀ key, (abandonLegs os w').active key = w.active key) ∧
        ∀ o ∈ os, o.ParkedIn u w (abandonLegs os w') := by
    rintro os rfl hout hlost
    exact ⟨hreturn [] hout hlost, List.forall_mem_nil _⟩
  cases exit with
  | unknownEndpoint => exact ⟨hreturn [] rfl rfl, List.forall_mem_nil _⟩
  | legFailed failed aborted outcomes =>
      obtain ⟨hbroken, rfl⟩ := hs
      have hlease := (h.failed _ _ _ rfl).mpr hbroken
      refine ⟨hreturn outcomes rfl (by simp [lost, hlease]), fun o ho => ?_⟩
      rcases List.mem_append.mp ho with ho | ho
      · exact checkinLegs_parks u h.steady outcomes o ho
      · rw [List.mem_singleton.mp ho]
        intro lease conn hl
        rw [hlease] at hl
        cases hl
  | sessionLegBroken outcomes => exact hnone outcomes hs rfl rfl
  | sessionLegFailed outcomes =>
      exact ⟨hreturn outcomes rfl rfl, checkinLegs_parks u h.steady outcomes⟩
  | mergeFailed outcomes => exact hnone outcomes hs rfl rfl
  | clientGone outcomes => exact hnone outcomes hs rfl rfl
  | done outcomes => exact ⟨hreturn outcomes rfl rfl, checkinLegs_parks u h.steady outcomes⟩

end ScatterExit

/-- A scatter conserves its leases exactly when the pooled leg that fails it, if any, broke its
    connection and no aborted leg had one, and it leaves through a broken session leg, a failed
    merge or a lost client only without pooled legs. -/
theorem scatter_conserves_iff (env : Env σ) (s : Session σ κ) (request : ScatterRequest)
    (t : Timing) :
    s.Conserves env request t ↔ (s.scatterExit env request t).Settled := by
  obtain ⟨w, hreach, hworld⟩ := Session.executeScatter_leave env s request t
  constructor
  · intro h
    exact hreach.settled env.upstream fun key => hworld ▸ h.active key
  · intro h
    obtain ⟨hact, hpark⟩ := hreach.conserves env.upstream h
    exact ⟨fun key => hworld ▸ hact key, fun o ho => hworld ▸ hpark o ho⟩

namespace Sample

/-- A shard whose only row holds a NULL. -/
def nullShard : Shard where
  fields := [column "n"]
  rows := [{ data := putI32 (-1), fieldCount := 1 }]

end Sample

/-- Sum over a NULL: both legs ended at `ReadyForQuery`, and neither connection is parked or
    counted out. The same when the client has gone. -/
theorem scatter_drops :
    ¬ (Sample.sharded Sample.nullShard Sample.nullShard).Conserves Sample.shardEnv
      (Sample.bothShards .sum) {} ∧
    ¬ ({ Sample.sharded Sample.nullShard Sample.nullShard with sendsLeft := 0 } :
      Session Sample.Shard Unit).Conserves Sample.shardEnv (Sample.bothShards .concat) {} :=
  ⟨fun h => absurd (h.active ⟨"main", "a", "u", none⟩) (by decide),
    fun h => absurd (h.active ⟨"main", "a", "u", none⟩) (by decide)⟩

end Pgferry
