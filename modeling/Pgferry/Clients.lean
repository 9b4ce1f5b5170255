/-
  The clients of the running proxy and their sessions.

  A task that has greeted its client pumps one session of `System`. `Owned` links the two: the
  session was started with the packet of this client, and no other task has it. What is proved of
  the sessions of `System` then holds of clients of the running proxy, through `Server.system_run`.

  Proved: `clients_served`. Without an interceptor, when clients have one cycle open at a time and
  session ends drain in time, in every interleaving of the accept loop, the tasks and the pools,
  each client that is being served has a session of its own, started with its own packet, and this
  session is a relay: every exchange is one with a server that no one else uses meanwhile.
-/
import Pgferry.Admission
import Pgferry.Relay

namespace Pgferry

open Loop Table

variable {σ κ : Type}

/-! ## Sessions keep what they were started with -/

/-- The sessions of `y` are still there, with their parameters. -/
def System.Continues (y z : System σ κ) : Prop :=
  Each (fun n s => ∃ s', z.sessions[n]? = some s' ∧ s'.params = s.params ∧
    s'.startupParameters = s.startupParameters) y.sessions

namespace System

theorem continues_refl (y : System σ κ) : y.Continues y := fun _ s hs => ⟨s, hs, rfl, rfl⟩

/-- One session acts. -/
theorem continues_onSession (y : System σ κ) (n : Nat) {f : Session σ κ → Session σ κ}
    (hf : ∀ s, (f s).params = s.params ∧ (f s).startupParameters = s.startupParameters) :
    y.Continues (y.onSession n f) := by
  intro k s hs
  by_cases hk : k = n
  · subst hk
    exact ⟨_, onSession_self f hs, (hf _).1, (hf _).2⟩
  · exact ⟨s, (onSession_other f hk).trans hs, rfl, rfl⟩

theorem step_parameters (env : Env σ) (s : Session σ κ) (e : Event) :
    (s.step env e).params = s.params ∧
      (s.step env e).startupParameters = s.startupParameters := by
  by_cases he : s.ended = none
  · -- nothing is asked of the pools here
    obtain ⟨-, hkept⟩ : _ ∧ s.Kept (fun _ _ => True) (s.step env e) :=
      Session.step_refines (fun _ _ _ _ _ => trivial) (fun _ _ _ _ _ _ _ _ _ _ => trivial)
        ⟨fun _ _ _ => trivial, fun _ _ _ _ _ _ => trivial⟩ he
        fun _ _ _ _ _ _ _ _ _ _ _ _ _ _ _ _ => trivial
    exact ⟨hkept.params, hkept.startup⟩
  · rw [Session.step_ended he]
    exact ⟨rfl, rfl⟩

theorem finish_parameters (env : Env σ) (s : Session σ κ) (arrived : Nat) :
    (s.finish env arrived).params = s.params ∧
      (s.finish env arrived).startupParameters = s.startupParameters := by
  unfold Session.finish
  split <;> exact ⟨rfl, rfl⟩

theorem act_continues (env : Env σ) (y : System σ κ) (a : Act σ κ) :
    y.Continues (y.act env a) := by
  cases a with
  | connect l =>
      intro n s hs
      refine ⟨s, ?_, rfl, rfl⟩
      show (y.sessions ++ [_])[n]? = some s
      rw [List.getElem?_append_left (List.getElem?_eq_some_iff.mp hs).1, hs]
  | event n e => exact y.continues_onSession n fun s => step_parameters env s e
  | finish n arrived => exact y.continues_onSession n fun s => finish_parameters env s arrived
  | tick => exact y.continues_refl
  | sweep => exact y.continues_refl

end System

/-! ## A session of one's own -/

/-- The session of the task was started with the packet of its client. -/
def ClientTask.Served (system : System σ κ) (task : ClientTask) : Prop :=
  ∀ n, task.stage.session = some n → ∃ s c, system.sessions[n]? = some s ∧
    task.client = some c ∧ s.params = c.packet.params ∧ s.startupParameters = c.packet.parameters

theorem ClientTask.served_none {system : System σ κ} {task : ClientTask}
    (h : task.stage.session = none) : task.Served system := by
  intro n hn
  rw [h] at hn
  cases hn

theorem ClientTask.Served.continue {y z : System σ κ} {task : ClientTask} (h : task.Served y)
    (hsystem : y.Continues z) : task.Served z := by
  intro n hn
  obtain ⟨s, c, hs, hc, hparams, hstartup⟩ := h n hn
  obtain ⟨s', hs', hparams', hstartup'⟩ := hsystem n s hs
  exact ⟨s', c, hs', hc, hparams'.trans hparams, hstartup'.trans hstartup⟩

namespace Server

variable {y z : Server σ κ} {a : ServerAct σ}

structure Owned (y : Server σ κ) : Prop where
  served : Each (fun _ => ClientTask.Served y.system) y.tasks
  apart : Apart (fun task => task.stage.session) y.tasks

theorem Owned.changes (h : y.Owned) (hsystem : y.system.Continues z.system)
    (hchanges : Changes y a z) : z.Owned := by
  have hserved : Each (fun _ => ClientTask.Served z.system) y.tasks :=
    fun t task htask => (h.served t task htask).continue hsystem
  -- one task is replaced
  have hset : ∀ (t : Nat) {task' : ClientTask}, z.tasks = y.tasks.set t task' →
      task'.Served z.system → (∀ n, task'.stage.session = some n →
        Each (fun k x => x.stage.session = some n → k = t) y.tasks) → z.Owned := by
    intro t task' htasks hself hfresh
    constructor <;> rw [htasks]
    · exact each_set hself fun k x _ => hserved k x
    · exact h.apart.set hfresh
  have hnone : ∀ (t : Nat) {task' : ClientTask}, z.tasks = y.tasks.set t task' →
      task'.stage.session = none → z.Owned := by
    intro t task' htasks hn
    refine hset t htasks (ClientTask.served_none hn) fun n hn' => ?_
    cases hn.symm.trans hn'
  have hkept : ∀ {t : Nat} {task : ClientTask} {stage : Stage}, y.tasks[t]? = some task →
      z.tasks = y.tasks.set t { task with stage := stage } →
      stage.session = task.stage.session → z.Owned := by
    intro t task stage htask htasks hsame
    refine hset t htasks (fun n hn => hserved t task htask n (hsame.symm.trans hn)) fun n hn => ?_
    exact h.apart t task n htask (hsame.symm.trans hn)
  cases hchanges with
  | still | turn | woken => exact ⟨hserved, h.apart⟩
  | accept =>
      exact ⟨each_concat (ClientTask.served_none rfl) hserved, h.apart.concat rfl⟩
  | requested t | enrolled t => exact hnone t rfl rfl
  | refused _ t | ended _ t | closed _ t => exact hnone t rfl rfl
  | moved _ t task stage htask hfrom hto hchannel hsession => exact hkept htask rfl hsession
  | left _ t task c n htask hfrom hc hsession => exact hkept htask rfl hsession.symm
  | wired _ t task c stage parameters system htask hstage hc hchannel hsession =>
      cases hs : (stage y.router.channels).session with
      | none => exact hnone t rfl hs
      | some n =>
          obtain ⟨rfl, s, hsessions, hparams, hstartup⟩ := hsession _ n hs
          refine hset t rfl (fun m hm => ?_) fun m hm k x hx hn => ?_
          · cases hs.symm.trans hm
            refine ⟨s, c, ?_, hc, hparams, hstartup⟩
            show system.sessions[_]? = some s
            rw [hsessions, List.getElem?_concat_length]
          · -- the number of the new session is above all others
            cases hs.symm.trans hm
            obtain ⟨_, _, hold, -⟩ := h.served k x hx _ hn
            exact absurd (List.getElem?_eq_some_iff.mp hold).1 (Nat.lt_irrefl _)

theorem act_continues (p : ProxyShared σ κ) (y : Server σ κ) (a : ServerAct σ) :
    y.system.Continues (y.act p a).system := by
  show y.system.Continues (run (System.act p.env) y.system (y.turn p a).2.toList)
  cases (y.turn p a).2 with
  | none => exact y.system.continues_refl
  | some a' => exact System.act_continues p.env y.system a'

theorem owned_run (p : ProxyShared σ κ) (world : World σ) (as : List (ServerAct σ)) :
    (run (act p) (init p world) as).Owned := by
  have hstep : ∀ (y : Server σ κ) (a : ServerAct σ), y.Owned → True → (y.act p a).Owned :=
    fun y a h _ => h.changes (act_continues p y a) (act_changes p y a)
  exact run_inv hstep _ as ⟨each_nil, apart_of_none each_nil⟩ (along_true _ as)

/-! ## From the proxy to the sessions -/

/-- What the act asks of the sessions meets their side conditions. -/
def Orderly (p : ProxyShared σ κ) (y : Server σ κ) (a : ServerAct σ) : Prop :=
  ∀ a' ∈ (y.turn p a).2, System.Within Launch.Plain (Session.OneCycle p.env.upstream)
    (Session.EndsInTime p.env.upstream) y.system a'

instance (p : ProxyShared σ κ) (y : Server σ κ) (a : ServerAct σ) : Decidable (y.Orderly p a) :=
  inferInstanceAs (Decidable (∀ a' ∈ (y.turn p a).2, _))

theorem orderly_sessions {p : ProxyShared σ κ} (y : Server σ κ) (as : List (ServerAct σ))
    (h : Along (act p) (fun y a => y.Orderly p a) y as) :
    Along (System.act p.env) (System.Within Launch.Plain (Session.OneCycle p.env.upstream)
      (Session.EndsInTime p.env.upstream)) y.system (sessionActs p y as) := by
  induction as generalizing y with
  | nil => trivial
  | cons a as ih =>
      obtain ⟨ha, has⟩ := h
      refine (along_append _ _ _).mpr ⟨?_, ih _ has⟩
      cases hturn : (y.turn p a).2 with
      | none => trivial
      | some a' => exact ⟨ha a' hturn, trivial⟩

end Server

/-- Each client that is being served has a session of its own, which relays. -/
theorem clients_served (p : ProxyShared σ κ) (world : World σ) (as : List (ServerAct σ))
    (hu : p.env.upstream.InOrder) (hworld : world.Tidy (QuietPool p.env.upstream))
    (hrun : Along (Server.act p) (fun y a => y.Orderly p a) (Server.init p world) as) :
    let y := run (Server.act p) (Server.init p world) as
    ∀ (t : Nat) (task : ClientTask) n, y.tasks[t]? = some task → task.stage.session = some n →
      (∃ s c, y.system.sessions[n]? = some s ∧ task.client = some c ∧
        s.params = c.packet.params ∧ s.startupParameters = c.packet.parameters ∧
        ((exchanges s.log).reverse.flatMap Exchange.handed).Sublist (received s.log) ∧
        ∀ x ∈ exchanges s.log, x.Direct p.env.upstream
          (Brought p.env world (Server.sessionActs p (Server.init p world) as) n)) ∧
      ∀ (t' : Nat) (task' : ClientTask), y.tasks[t']? = some task' →
        task'.stage.session = some n → t' = t := by
  intro y t task n htask hn
  have howned : y.Owned := Server.owned_run p world as
  obtain ⟨s, c, hs, hc, hparams, hstartup⟩ := howned.served t task htask n hn
  have hrelays : s.toCore.Relays p.env.upstream
      (Brought p.env world (Server.sessionActs p (Server.init p world) as) n) := by
    have hsystem : y.system = _ := Server.system_run p (Server.init p world) as
    rw [hsystem] at hs
    exact System.relays_run hu _ hworld (Server.orderly_sessions _ as hrun) n s hs
  exact ⟨⟨s, c, hs, hc, hparams, hstartup, hrelays.handed ▸ hrelays.mine, hrelays.direct⟩,
    howned.apart t task n htask hn⟩

open Sample

/-- Two clients in a run of the proxy; one is answered and one still waits. -/
def Sample.serveTwo : List (ServerAct Pg) :=
  dial 0 "d" ⟨1, [7]⟩ ++ dial 1 "d" ⟨2, [8]⟩ ++
    [.event 0 (client (.query "SELECT 1")), .event 1 (client (.query "SELECT 2")),
      .event 0 .upstream, .event 0 .upstream]

theorem clients_served_two :
    let y := server none serveTwo
    (y.tasks.map fun task => task.stage.session) = [some 0, some 1] ∧
      ∃ s, y.system.sessions[0]? = some s ∧ (exchanges s.log).map Exchange.released = [true] ∧
        ∀ x ∈ exchanges s.log, x.Direct (env .transaction).upstream
          (Brought (env .transaction) (world .transaction)
            (Server.sessionActs (shared none)
              (Server.init (shared none) (world .transaction)) serveTwo) 0) := by
  have htask : ∃ task, (server none serveTwo).tasks[0]? = some task ∧
      task.stage.session = some 0 := ⟨_, rfl, rfl⟩
  obtain ⟨task, htask, hn⟩ := htask
  obtain ⟨⟨s, c, hs, -, -, -, -, hdirect⟩, -⟩ :=
    clients_served (shared none) (world .transaction) serveTwo
      (pg_inOrder _) (world_quiet .transaction) (by decide) 0 task 0 htask hn
  have hreleased : ∀ s ∈ (server none serveTwo).system.sessions[0]?,
      (exchanges s.log).map Exchange.released = [true] := by decide
  exact ⟨by decide, s, hs, hreleased s hs, hdirect⟩

end Pgferry
