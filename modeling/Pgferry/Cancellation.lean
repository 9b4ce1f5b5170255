/-
  Cancel requests over whole runs of the proxy.

  A client cancels from a connection of its own, with the key that it was greeted with. The request
  goes through the router to the session of that key, whose pump takes its cancel arm some time
  later and cancels on the connection that it leases then. The log notes registrations, requests
  and arms.

  Proved, for every interleaving in which no key is generated with the pid of a live session:
  `cancels_routed`: an arm is taken for a request that carried the key of its session, came behind
  its registration and was not answered by an arm before; a session can take its arm exactly when
  there is such a request, and a request enables the session of its key and no other. The pools and
  the other sessions are left as they are.
  Not claimed: that the request finds the query that the client meant. The arm is one of several,
  and the pump may have moved on.
-/
import Pgferry.Admission

namespace Pgferry

open Loop Table

variable {σ κ : Type}

/-! ## Requests in the log -/

/-- Whether the last thing that happened to the key was a request. -/
def CancelKey.pending (key : CancelKey) (log : List CancelEntry) : Bool :=
  log.foldl (fun b e =>
    match e with
    | .registered k | .cancelled k => if k = key then false else b
    | .requested k => if k = key then true else b) false

section Pending

variable (key k : CancelKey) (log : List CancelEntry)

@[simp] theorem pending_registered :
    key.pending (log ++ [.registered k]) = if k = key then false else key.pending log := by
  simp [CancelKey.pending]

@[simp] theorem pending_cancelled :
    key.pending (log ++ [.cancelled k]) = if k = key then false else key.pending log := by
  simp [CancelKey.pending]

@[simp] theorem pending_requested :
    key.pending (log ++ [.requested k]) = if k = key then true else key.pending log := by
  simp [CancelKey.pending]

end Pending

/-- Every arm in the log was taken for a request that was pending. -/
def Caused (log : List CancelEntry) : Prop :=
  ∀ before key after, log = before ++ .cancelled key :: after → key.pending before = true

/-- An entry is added that is no arm, or the arm of a pending request. -/
theorem Caused.snoc {log : List CancelEntry} (h : Caused log) {x : CancelEntry}
    (hx : ∀ key, x = .cancelled key → key.pending log = true) : Caused (log ++ [x]) := by
  intro before key after heq
  rcases List.eq_nil_or_concat after with rfl | ⟨rest, last, rfl⟩
  · obtain ⟨rfl, hcons⟩ := List.append_inj' heq rfl
    exact hx key (List.cons.inj hcons).1
  · rw [List.concat_eq_append, ← List.cons_append, ← List.append_assoc] at heq
    obtain ⟨rfl, -⟩ := List.append_inj' heq rfl
    exact h before key rest rfl

/-- A task that waits on a channel has its sender in the router, under its own key, and the channel
    is full exactly when a request is pending. -/
def ClientTask.Waits (router : CancelRouter) (log : List CancelEntry) (task : ClientTask) : Prop :=
  ∀ c channel, task.client = some c → task.stage.channel = some channel →
    router.sessions.lookup c.key = some channel ∧ router.full channel = c.key.pending log

theorem ClientTask.waits_none {router : CancelRouter} {log : List CancelEntry} {task : ClientTask}
    (h : task.stage.channel = none) : task.Waits router log := by
  intro _ _ _ hchannel
  rw [h] at hchannel
  cases hchannel

namespace Server

variable {y z : Server σ κ} {a : ServerAct σ}

/-! ## The invariant -/

structure Routed (y : Server σ κ) : Prop where
  separate : y.router.Separate
  caused : Caused y.log
  waits : Each (fun _ => ClientTask.Waits y.router y.log) y.tasks

theorem Routed.wakes (h : y.Routed) {t : Nat} {task : ClientTask} {c : Client} {channel : Nat}
    (htask : y.tasks[t]? = some task) (hc : task.client = some c)
    (hchannel : task.stage.channel = some channel) :
    y.router.wakes channel = c.key.pending y.log := by
  obtain ⟨hlookup, hfull⟩ := h.waits t task htask c channel hc hchannel
  rw [CancelRouter.wakes_of_lookup hlookup, hfull]

/-- Two live clients have two keys. -/
theorem Listed.key_ne (h : y.Listed) {t t' : Nat} {task task' : ClientTask} {c c' : Client}
    (htask : y.tasks[t]? = some task) (htask' : y.tasks[t']? = some task')
    (hlive : task.live = true) (hlive' : task'.live = true) (hc : task.client = some c)
    (hc' : task'.client = some c') (hne : t ≠ t') : c.key ≠ c'.key := by
  intro hkey
  have hmem : (t, c) ∈ y.registered := (h.mem t c).mpr ⟨task, htask, hlive, hc⟩
  have hmem' : (t', c') ∈ y.registered := (h.mem t' c').mpr ⟨task', htask', hlive', hc'⟩
  have heq := List.inj_on_of_nodup_map h.pids hmem hmem' (congrArg CancelKey.pid hkey)
  exact hne (congrArg Prod.fst heq)

section Steps

variable {t : Nat} {task task' : ClientTask}

theorem Routed.put (h : y.Routed) (htasks : z.tasks = y.tasks.set t task')
    (hwaits : task'.Waits y.router y.log) (hrouter : z.router = y.router) (hlog : z.log = y.log) :
    z.Routed := by
  refine ⟨hrouter ▸ h.separate, hlog ▸ h.caused, ?_⟩
  rw [htasks, hrouter, hlog]
  exact each_set hwaits fun k x _ => h.waits k x

/-- A request marks the session of its key. -/
theorem Routed.request (h : y.Routed) (k : CancelKey) : (y.request k).Routed := by
  obtain ⟨hsessions, -⟩ := y.router.cancel_sessions k
  refine ⟨h.separate.cancel k, h.caused.snoc fun key hx => (by cases hx),
    fun t task htask c channel hc hchannel => ?_⟩
  obtain ⟨hlookup, hfull⟩ := h.waits t task htask c channel hc hchannel
  refine ⟨hsessions ▸ hlookup, ?_⟩
  show (y.router.cancel k).1.full channel = c.key.pending (y.log ++ [.requested k])
  rw [CancelRouter.cancel_full, pending_requested, ← hfull]
  by_cases hk : k = c.key
  · rw [hk, hlookup]
    simp
  · have hother : y.router.sessions.lookup k ≠ some channel :=
      fun hl => hk (h.separate.single k c.key channel hl hlookup)
    simp [hk, hother]

/-- The sender of one task goes, and the task waits no longer. -/
theorem Routed.unwire (h : y.Routed) (hlisted : y.Listed) (htask : y.tasks[t]? = some task)
    {c : Client} (hlive : task.live = true) (hc : task.client = some c)
    (htasks : z.tasks = y.tasks.set t task') (hchannel : task'.stage.channel = none)
    (hrouter : z.router = y.router.unregister c.key) (hlog : z.log = y.log) : z.Routed := by
  refine ⟨hrouter ▸ h.separate.unregister c.key, hlog ▸ h.caused, ?_⟩
  rw [htasks, hrouter, hlog]
  refine each_set (ClientTask.waits_none hchannel) fun k x hne hx c' channel hc' hch => ?_
  have hlive' := ClientTask.live_of_greeted (ClientTask.greeted_of_channel hch)
  rw [CancelRouter.lookup_unregister,
    if_neg (hlisted.key_ne hx htask hlive' hlive hc' hc hne)]
  exact h.waits k x hx c' channel hc' hch

/-- A session gets a new channel, which no request has filled. -/
theorem Routed.wire (h : y.Routed) (hlisted : y.Listed) (htask : y.tasks[t]? = some task)
    {c : Client} (hlive : task.live = true) (hc : task.client = some c) (stage : Nat → Stage)
    (hchannel : ∀ channel, (stage channel).channel = some channel) (parameters : Params) :
    (y.wire t task c stage parameters).Routed := by
  refine ⟨h.separate.register c.key, h.caused.snoc fun key hx => (by cases hx),
    each_set (fun c' channel hc' hch => ?_) fun k x hne hx c' channel hc' hch => ?_⟩
  all_goals
    show (y.router.register c.key).1.sessions.lookup c'.key = some channel ∧
      Function.update y.router.full y.router.channels false channel =
        c'.key.pending (y.log ++ [.registered c.key])
    rw [CancelRouter.lookup_register, pending_registered]
  · cases hc.symm.trans hc'
    cases (hchannel _).symm.trans hch
    simp [CancelRouter.register]
  · have hlive' := ClientTask.live_of_greeted (ClientTask.greeted_of_channel hch)
    have hkey := hlisted.key_ne hx htask hlive' hlive hc' hc hne
    obtain ⟨hlookup, hfull⟩ := h.waits k x hx c' channel hc' hch
    have hbelow := h.separate.below c'.key channel hlookup
    rw [if_neg hkey, if_neg hkey.symm, Function.update_of_ne (by omega)]
    exact ⟨hlookup, hfull⟩

/-- An arm takes the message of its own channel. -/
theorem Routed.wake (h : y.Routed) (htask : y.tasks[t]? = some task) {c : Client} {channel : Nat}
    (hc : task.client = some c) (hchannel : task.stage.channel = some channel)
    (hwakes : y.router.wakes channel = true) : (y.wake channel c).Routed := by
  have hpending : c.key.pending y.log = true := by rw [← h.wakes htask hc hchannel, hwakes]
  obtain ⟨hown, -⟩ := h.waits t task htask c channel hc hchannel
  refine ⟨h.separate.recv channel, h.caused.snoc fun key hx => ?_,
    fun k x hx c' channel' hc' hch => ?_⟩
  · cases hx
    exact hpending
  · obtain ⟨hlookup, hfull⟩ := h.waits k x hx c' channel' hc' hch
    refine ⟨hlookup, ?_⟩
    show Function.update y.router.full channel false channel' =
      c'.key.pending (y.log ++ [.cancelled c.key])
    rw [pending_cancelled]
    by_cases hkey : c.key = c'.key
    · rw [← hkey, hown] at hlookup
      cases hlookup
      simp [hkey]
    · have hne : channel' ≠ channel := by
        rintro rfl
        exact hkey (h.separate.single _ _ _ hown hlookup)
      rw [if_neg hkey, Function.update_of_ne hne, hfull]

end Steps

theorem Routed.changes (h : y.Routed) (hlisted : y.Listed) (hchanges : Changes y a z) :
    z.Routed := by
  cases hchanges with
  | still | turn => exact ⟨h.separate, h.caused, h.waits⟩
  | accept => exact ⟨h.separate, h.caused, each_concat (ClientTask.waits_none rfl) h.waits⟩
  | requested t task k => exact (h.request k).put rfl (ClientTask.waits_none rfl) rfl rfl
  | refused | enrolled | closed => exact h.put rfl (ClientTask.waits_none rfl) rfl rfl
  | wired _ t task c stage parameters system htask hstage hc hchannel _ =>
      have hrouted : { y with system := system }.Routed := ⟨h.separate, h.caused, h.waits⟩
      have hsame : { y with system := system }.Listed :=
        ⟨hlisted.known, hlisted.listed, hlisted.pids, hlisted.active, hlisted.total⟩
      exact hrouted.wire hsame htask (ClientTask.live_of_opening (.inr hstage)) hc stage hchannel
        parameters
  | woken _ t task c channel system htask hc hchannel hwakes =>
      have hrouted := h.wake htask hc hchannel hwakes
      exact ⟨hrouted.separate, hrouted.caused, hrouted.waits⟩
  | moved _ t task stage htask hfrom hto hchannel _ =>
      refine h.put rfl (fun c channel hc hch => ?_) rfl rfl
      rcases hchannel with hnone | hsame
      · cases hnone.symm.trans hch
      · exact h.waits t task htask c channel hc (hsame.symm.trans hch)
  | left _ t task c n htask hfrom hc | ended _ t task c htask hfrom hc =>
      exact h.unwire hlisted htask (ClientTask.live_of_greeted hfrom) hc rfl rfl rfl rfl

theorem routed_init (p : ProxyShared σ κ) (world : World σ) : (init p world).Routed where
  separate := CancelRouter.separate_new
  caused := fun before key after heq => by
    change [] = _ at heq
    simp at heq
  waits := each_nil

theorem routed_run (p : ProxyShared σ κ) (world : World σ) (as : List (ServerAct σ))
    (hfresh : Along (act p) Fresh (init p world) as) : (run (act p) (init p world) as).Routed := by
  have hstep : ∀ (y : Server σ κ) (a : ServerAct σ), y.Listed ∧ y.Routed → y.Fresh a →
      (y.act p a).Listed ∧ (y.act p a).Routed := by
    intro y a h hf
    have hchanges := act_changes p y a
    exact ⟨h.1.changes hf hchanges, h.2.changes h.1 hchanges⟩
  exact (run_inv hstep _ as ⟨listed_init p world, routed_init p world⟩ hfresh).2

/-- The cancel arm of a task stays with the session of the task. -/
theorem cancelled_local (p : ProxyShared σ κ) (y : Server σ κ) {t n channel : Nat}
    {task : ClientTask} (htask : y.tasks[t]? = some task)
    (hstage : task.stage = .pumping channel n) :
    (y.act p (.cancelled t)).system.world = y.system.world ∧
      ∀ m, m ≠ n → (y.act p (.cancelled t)).system.sessions[m]? = y.system.sessions[m]? := by
  have hturn : (y.turn p (.cancelled t)).2 = none ∨
      (y.turn p (.cancelled t)).2 = some (.event n .cancel) := by
    unfold turn withTask
    simp only [htask, hstage]
    split
    · split
      case isTrue heq _ _ =>
        cases heq
        exact .inr rfl
      case isFalse => exact .inl rfl
    · exact .inl rfl
    · exact .inl rfl
  unfold act
  rcases hturn with h | h <;> rw [h]
  · exact ⟨rfl, fun _ _ => rfl⟩
  · change (y.system.onSession n fun s => s.step p.env .cancel).world = _ ∧ ∀ m, m ≠ n →
      (y.system.onSession n fun s => s.step p.env .cancel).sessions[m]? = _
    refine ⟨?_, fun m hm => System.onSession_other _ hm⟩
    cases hs : y.system.sessions[n]? with
    | none => rw [System.onSession_none _ hs]
    | some s =>
        rw [System.onSession_some _ hs]
        show (Session.step p.env { s with world := y.system.world } .cancel).world = _
        unfold Session.step
        split
        · rfl
        · show (Session.onCancel p.env { s with world := y.system.world }).world = _
          unfold Session.onCancel
          split <;> rfl

end Server

theorem cancels_routed (p : ProxyShared σ κ) (world : World σ) (as : List (ServerAct σ))
    (hfresh : Along (Server.act p) Server.Fresh (Server.init p world) as) :
    let y := run (Server.act p) (Server.init p world) as
    Caused y.log ∧
    ∀ (t : Nat) (task : ClientTask) c channel, y.tasks[t]? = some task → task.client = some c →
      task.stage.channel = some channel →
      y.router.wakes channel = c.key.pending y.log ∧
      (∀ key, (y.request key).router.wakes channel =
        (decide (key = c.key) || y.router.wakes channel)) ∧
      ∀ n, task.stage = .pumping channel n →
        (y.act p (.cancelled t)).system.world = y.system.world ∧
        ∀ m, m ≠ n → (y.act p (.cancelled t)).system.sessions[m]? = y.system.sessions[m]? := by
  intro y
  have h : y.Routed := Server.routed_run p world as hfresh
  refine ⟨h.caused, fun t task c channel htask hc hchannel => ⟨h.wakes htask hc hchannel, ?_, ?_⟩⟩
  · intro key
    exact CancelRouter.cancel_wakes h.separate (h.waits t task htask c channel hc hchannel).1 key
  · intro n hstage
    exact Server.cancelled_local p y htask hstage

/-- Two clients, and a third connection that cancels for the second one. -/
def Sample.cancelSecond : List (ServerAct Pg) :=
  Sample.dial 0 "d" ⟨1, [7]⟩ ++ Sample.dial 1 "d" ⟨2, [8]⟩ ++
    [.event 0 (Sample.client (.query "SELECT 1")), .event 1 (Sample.client (.query "SELECT 2")),
      .event 0 .upstream, .event 0 .clientGone, .leave 0, .close 0 0, .acquire, .accept,
      .first 2 (.cancelRequest ⟨2, [8]⟩) "10.0.0.2:9" ⟨3, [9]⟩]

theorem cancels_routed_second :
    let y := Sample.server none Sample.cancelSecond
    (y.tasks.map fun task => task.stage.channel) = [none, some 1, none] ∧
      y.router.wakes 1 = CancelKey.pending ⟨2, [8]⟩ y.log ∧ y.router.wakes 1 = true := by
  have htask : ∃ task, (Sample.server none Sample.cancelSecond).tasks[1]? = some task ∧
      (∃ c, task.client = some c ∧ c.key = ⟨2, [8]⟩) ∧ task.stage.channel = some 1 :=
    ⟨_, rfl, ⟨_, rfl, rfl⟩, rfl⟩
  obtain ⟨task, htask, ⟨c, hc, hkey⟩, hchannel⟩ := htask
  have hrouted := (cancels_routed (Sample.shared none) (Sample.world .transaction)
    Sample.cancelSecond (by decide)).2 1 task c 1 htask hc hchannel
  exact ⟨by decide, hkey ▸ hrouted.1, by decide⟩

end Pgferry
