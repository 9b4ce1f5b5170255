/-
  The running proxy: `accept_loop` of `proxy.rs` and the tasks that it spawns (`run_session`,
  `run_session_ready`, `run_admin_session`).

  The loop takes a slot of `client_slots`, accepts a connection and hands both to a new task. The
  task reads the first message, is registered in the runtime, attaches or opens the console, greets
  the client, is registered in the cancel router, and runs. At its end it leaves the router, gives
  the lease back and drops its guard and its slot. When the loop sees the shutdown signal it stops
  to accept and waits for the tasks, or asks for their end when the drain window is over; such a
  task is dropped at one of its await points. Finished tasks stay in the `JoinSet`.

  An act is one task, or the loop, taken from one await point to the next, so every interleaving is
  a list of acts. The sessions themselves are those of `System`. The writes before the pump are
  taken to succeed, and what the pools get back from a dropped task is left out.

  Proved: what an act can change (`act_changes`), and that the sessions take the acts of a run of
  `System` (`system_run`).
-/
import Pgferry.Admin
import Pgferry.Startup
import Pgferry.System

namespace Pgferry

open Loop

variable {σ κ : Type}

/-! ## The state -/

/-- `ProxyShared`, as far as it does not change, and `max_client_conn`. -/
structure ProxyShared (σ κ : Type) where
  env : Env σ
  interceptor : Option (Interceptor κ)
  /-- `new_session_ctx`. -/
  ctx : κ
  adminDatabase : Option String
  maxClientConn : Nat

/-- A client that was registered: its packet, its address and the key that was generated. -/
structure Client where
  packet : Startup
  addr : String
  key : CancelKey

/-- `is_admin`. -/
def ProxyShared.isAdmin (p : ProxyShared σ κ) (c : Client) : Bool :=
  match p.adminDatabase with
  | some db => c.packet.params.database == some db
  | none => false

/-- Where a task is. -/
inductive Stage where
  | opening
  /-- Registered in the runtime, and not greeted yet. -/
  | starting
  /-- In the pump of the session `n`, with the receiver of a cancel channel. -/
  | pumping (channel n : Nat)
  | console (channel : Nat) (session : AdminSession)
  /-- Behind the pump of the session `n`. -/
  | leaving (n : Nat)
  | done

/-- The receiver that a task in this stage holds. -/
def Stage.channel : Stage → Option Nat
  | pumping channel _ => some channel
  | console channel _ => some channel
  | _ => none

/-- The session of a task in this stage. -/
def Stage.session : Stage → Option Nat
  | pumping _ n => some n
  | leaving n => some n
  | _ => none

/-- The client has been greeted, and the task has not ended. -/
def Stage.greeted : Stage → Bool
  | pumping _ _ => true
  | console _ _ => true
  | leaving _ => true
  | _ => false

def Stage.isDone : Stage → Bool
  | done => true
  | _ => false

/-- A task of the `JoinSet`. -/
structure ClientTask where
  stage : Stage := .opening
  client : Option Client := none
  sent : List Greeting := []
  /-- What `finish_authentication` was handed besides the key of the client. -/
  parameters : Option Params := none

/-- A task that still has its slot. -/
def ClientTask.live (task : ClientTask) : Bool := !task.stage.isDone

theorem ClientTask.live_of_opening {task : ClientTask}
    (h : task.stage = .opening ∨ task.stage = .starting) : task.live = true := by
  unfold live
  rcases h with h | h <;> rw [h] <;> rfl

/-- Where `accept_loop` is. -/
inductive LoopStage where
  | waiting
  /-- It has a slot for the next connection. -/
  | holding
  | draining
  /-- No task was left within the drain window. -/
  | stopped
  /-- `abort_all` was called. -/
  | aborted
  deriving DecidableEq, Repr

/-- The slots that the loop itself holds. -/
def LoopStage.held : LoopStage → Nat
  | holding => 1
  | _ => 0

/-- The loop may still accept. -/
def LoopStage.accepts : LoopStage → Bool
  | waiting => true
  | holding => true
  | _ => false

/-- What happened to cancel requests. -/
inductive CancelEntry where
  | registered (key : CancelKey)
  | requested (key : CancelKey)
  /-- The cancel arm of the session with this key was taken. -/
  | cancelled (key : CancelKey)
  deriving DecidableEq, Repr

structure Server (σ κ : Type) where
  loop : LoopStage
  /-- `shutdown_tx.send(true)` was called. -/
  signalled : Bool
  slots : Nat
  tasks : List ClientTask
  /-- The sessions of `RuntimeState`, each with the number of its task. -/
  registered : List (Nat × Client)
  /-- `sessions_total`. -/
  total : Nat
  router : CancelRouter
  log : List CancelEntry
  system : System σ κ

inductive ServerAct (σ : Type) where
  /-- The loop gets a slot. -/
  | acquire
  | accept
  | acceptFailed
  | signal
  /-- The loop sees the signal. -/
  | notice
  | drained
  /-- The drain window is over. -/
  | abort
  /-- A task that is to be aborted is dropped. -/
  | dropped (t : Nat)
  /-- The first message of a task, and the key that is generated for it. -/
  | first (t : Nat) (m : FirstMessage) (addr : String) (key : CancelKey)
  /-- A registered task attaches or opens the console; its client takes `sends` messages. -/
  | start (t sends : Nat)
  | event (t : Nat) (e : Event)
  /-- The cancel arm of a task. -/
  | cancelled (t : Nat)
  | consoleEvent (t : Nat) (e : AdminEvent σ)
  /-- The pump of a task has ended. -/
  | leave (t : Nat)
  | close (t arrived : Nat)
  | tick (elapsed : Nat)
  | sweep (key : PoolKey)

namespace Server

/-! ## What tasks do -/

def put (y : Server σ κ) (t : Nat) (task : ClientTask) : Server σ κ :=
  { y with tasks := y.tasks.set t task }

/-- The task ends: the guard unregisters its session, and the slot is free again. -/
def release (y : Server σ κ) (t : Nat) (task : ClientTask) : Server σ κ :=
  { y.put t { task with stage := .done } with
    slots := y.slots + 1
    registered := match task.client with
      | some c => y.registered.filter fun e => e.2.key.pid != c.key.pid
      | none => y.registered }

/-- `RuntimeState::register`. -/
def enroll (y : Server σ κ) (t : Nat) (task : ClientTask) (c : Client) : Server σ κ :=
  { y.put t { task with stage := .starting, client := some c } with
    registered := y.registered ++ [(t, c)]
    total := y.total + 1 }

/-- `finish_authentication` and `CancelRouter::register`. -/
def wire (y : Server σ κ) (t : Nat) (task : ClientTask) (c : Client) (stage : Nat → Stage)
    (parameters : Params) : Server σ κ :=
  { y.put t { task with
      stage := stage (y.router.register c.key).2
      parameters := some parameters } with
    router := (y.router.register c.key).1
    log := y.log ++ [.registered c.key] }

/-- `CancelRouter::unregister`. -/
def unwire (y : Server σ κ) (c : Client) : Server σ κ :=
  { y with router := y.router.unregister c.key }

/-- `CancelRouter::cancel`. -/
def request (y : Server σ κ) (key : CancelKey) : Server σ κ :=
  { y with router := (y.router.cancel key).1, log := y.log ++ [.requested key] }

/-- `cancel_rx.recv` returns. -/
def wake (y : Server σ κ) (channel : Nat) (c : Client) : Server σ κ :=
  { y with router := y.router.recv channel, log := y.log ++ [.cancelled c.key] }

/-- The first message. -/
def opened (y : Server σ κ) (t : Nat) (task : ClientTask) (addr : String) (key : CancelKey) :
    FirstMessage → Server σ κ
  | .closed | .undecodable => y.release t task
  | .cancelRequest k => (y.request k).release t task
  | .other shown =>
      y.release t { task with
        sent := [sendFatal "08P01" ("pgferry: expected Startup, got " ++ shown)] }
  | .startup packet =>
      match packet.admits with
      | .error sent => y.release t { task with sent := sent }
      | .ok sent => y.enroll t { task with sent := sent } ⟨packet, addr, key⟩

/-- The launch of a registered client. -/
def launch (p : ProxyShared σ κ) (y : Server σ κ) (c : Client) (sends : Nat) : Launch σ κ where
  id := y.system.sessions.length
  sends := sends
  world := y.system.world
  params := c.packet.params
  startup := c.packet.parameters
  hooks := p.interceptor.map fun i => SessionHooks.new i p.ctx

end Server

/-- The parameters of the greeting: those of the baseline in transaction mode, those of the leased
    connection in session mode. -/
def Launch.serverParameters (env : Env σ) (l : Launch σ κ) : Params :=
  if env.transactionMode then
    match (l.new.baselineParamsRouted env).2 with
    | .ok parameters => parameters
    | .error _ => ∅
  else
    match (l.new.start env).lease with
    | some lease => lease.conn.serverParameters
    | none => ∅

/-- An error of a session that did not get to its pump. -/
def Entry.greeting? : Entry → Option Greeting
  | .sent _ _ (.errorResponse info) => some (.error info)
  | _ => none

namespace Server

/-- The rest of `run_session_ready` up to the pump, or the greeting of the console. -/
def started (p : ProxyShared σ κ) (y : Server σ κ) (t : Nat) (task : ClientTask) (c : Client)
    (sends : Nat) : Server σ κ × Option (Act σ κ) :=
  if p.isAdmin c then
    (y.wire t task c (fun channel => .console channel (AdminSession.new sends)) adminParameters,
      none)
  else
    let l := y.launch p c sends
    let s := l.new.start p.env
    (if s.ended.isSome then
        y.release t { task with sent := task.sent ++ s.log.filterMap Entry.greeting? }
      else
        y.wire t task c (fun channel => .pumping channel y.system.sessions.length)
          (l.serverParameters p.env),
      some (.connect l))

/-- An iteration of the pump. The shutdown arm waits for the signal, and the cancel arm is taken
    by `cancelled` only. -/
def pumped (y : Server σ κ) (n : Nat) : Event → Option (Act σ κ)
  | .cancel => none
  | .shutdown => if y.signalled then some (.event n .shutdown) else none
  | e => some (.event n e)

/-- The pump of the session `n` has not ended. -/
def runs (y : Server σ κ) (n : Nat) : Bool :=
  (y.system.sessions[n]?.bind fun s => s.ended).isNone

/-- `SessionInfo` of a registered client; `attached` is the flag that its pump keeps. -/
def info (p : ProxyShared σ κ) (y : Server σ κ) (e : Nat × Client) : SessionInfo where
  pid := e.2.key.pid
  addr := e.2.addr
  user := e.2.packet.params.user
  database := e.2.packet.params.database.getD ""
  isAdmin := p.isAdmin e.2
  attached := match y.tasks[e.1]?.map ClientTask.stage with
    | some (.pumping _ n) | some (.leaving n) =>
        (y.system.sessions[n]?.map fun s => s.attached).getD false
    | _ => false
  connectedFor := ""

/-- `RuntimeState`. -/
def runtime (p : ProxyShared σ κ) (y : Server σ κ) : RuntimeState where
  sessions := y.registered.map (y.info p)
  total := y.total

/-- A round of the console, which sees the sessions that are registered. -/
def consoled (p : ProxyShared σ κ) (y : Server σ κ) (s : AdminSession) :
    AdminEvent σ → AdminSession
  | .message m shared => s.step (.message m { shared with runtime := y.runtime p })
  | .shutdown => if y.signalled then s.step (.shutdown : AdminEvent σ) else s
  | .cancel => s
  | e => s.step e

/-- The loop has seen the signal. -/
def noticed (y : Server σ κ) : Server σ κ :=
  match y.loop with
  | .waiting => { y with loop := .draining }
  | .holding => { y with loop := .draining, slots := y.slots + 1 }
  | _ => y

/-- An act of the task `t`. -/
def withTask (y : Server σ κ) (t : Nat) (f : ClientTask → Server σ κ × Option (Act σ κ)) :
    Server σ κ × Option (Act σ κ) :=
  match y.tasks[t]? with
  | some task => f task
  | none => (y, none)

/-- What the task or the loop of an act does, and what it has the sessions do. An act that is not
    possible where the task or the loop is does nothing. -/
def turn (p : ProxyShared σ κ) (y : Server σ κ) : ServerAct σ → Server σ κ × Option (Act σ κ)
  | .acquire =>
      match y.loop, y.slots with
      | .waiting, n + 1 => ({ y with loop := .holding, slots := n }, none)
      | _, _ => (y, none)
  | .accept =>
      match y.loop with
      | .holding => ({ y with loop := .waiting, tasks := y.tasks ++ [{}] }, none)
      | _ => (y, none)
  | .acceptFailed =>
      match y.loop with
      | .holding => ({ y with loop := .waiting, slots := y.slots + 1 }, none)
      | _ => (y, none)
  | .signal => ({ y with signalled := true }, none)
  | .notice => (if y.signalled then y.noticed else y, none)
  | .drained =>
      match y.loop with
      | .draining =>
          (if y.tasks.all fun task => !task.live then { y with loop := .stopped } else y, none)
      | _ => (y, none)
  | .abort =>
      match y.loop with
      | .draining => ({ y with loop := .aborted }, none)
      | _ => (y, none)
  | .dropped t => y.withTask t fun task =>
      match y.loop with
      -- the future of the task owns its guard and its slot; `unregister` is not run
      | .aborted => (if task.live then y.release t task else y, none)
      | _ => (y, none)
  | .first t m addr key => y.withTask t fun task =>
      match task.stage with
      | .opening => (y.opened t task addr key m, none)
      | _ => (y, none)
  | .start t sends => y.withTask t fun task =>
      match task.stage, task.client with
      | .starting, some c => y.started p t task c sends
      | _, _ => (y, none)
  | .event t e => y.withTask t fun task =>
      match task.stage with
      | .pumping _ n => (y, y.pumped n e)
      | _ => (y, none)
  | .cancelled t => y.withTask t fun task =>
      match task.stage, task.client with
      | .pumping channel n, some c =>
          if y.router.wakes channel && y.runs n then (y.wake channel c, some (.event n .cancel))
          else (y, none)
      | .console channel _, some c =>
          (if y.router.wakes channel then y.wake channel c else y, none)
      | _, _ => (y, none)
  | .consoleEvent t e => y.withTask t fun task =>
      match task.stage, task.client with
      | .console channel s, some c =>
          let s := y.consoled p s e
          (if s.ended then (y.unwire c).release t task
            else y.put t { task with stage := .console channel s }, none)
      | _, _ => (y, none)
  | .leave t => y.withTask t fun task =>
      match task.stage, task.client with
      | .pumping _ n, some c =>
          match y.system.sessions[n]?.bind fun s => s.ended with
          -- the unwinding task does not get to `unregister`
          | some .panicked => (y.put t { task with stage := .leaving n }, none)
          | some _ => ((y.unwire c).put t { task with stage := .leaving n }, none)
          | none => (y, none)
      | _, _ => (y, none)
  | .close t arrived => y.withTask t fun task =>
      match task.stage with
      | .leaving n => (y.release t task, some (.finish n arrived))
      | _ => (y, none)
  | .tick elapsed => (y, some (.tick elapsed))
  | .sweep key => (y, some (.sweep key))

/-- One act. -/
def act (p : ProxyShared σ κ) (y : Server σ κ) (a : ServerAct σ) : Server σ κ :=
  { (y.turn p a).1 with system := run (System.act p.env) y.system (y.turn p a).2.toList }

/-- `serve`, before the first connection. -/
def init (p : ProxyShared σ κ) (world : World σ) : Server σ κ where
  loop := .waiting
  signalled := false
  slots := p.maxClientConn
  tasks := []
  registered := []
  total := 0
  router := CancelRouter.new
  log := []
  system := System.init world

/-! ## What an act can change -/

/-- The changes of an act, apart from what the sessions do. -/
inductive Changes (y : Server σ κ) : ServerAct σ → Server σ κ → Prop
  | still (a : ServerAct σ) (system : System σ κ) (signalled : Bool) :
      Changes y a { y with system := system, signalled := signalled }
  | turn (a : ServerAct σ) (loop : LoopStage) (slots : Nat)
      (hslots : slots + loop.held = y.slots + y.loop.held) (hloop : y.loop.accepts = true ∨
        loop.accepts = false) (hstop : loop = .stopped → ∀ task ∈ y.tasks, task.live = false) :
      Changes y a { y with loop := loop, slots := slots }
  | accept (hloop : y.loop = .holding) :
      Changes y .accept { y with loop := .waiting, tasks := y.tasks ++ [{}] }
  /-- A task ends before its pump, or is dropped. -/
  | refused (a : ServerAct σ) (t : Nat) (task : ClientTask) (sent : List Greeting)
      (system : System σ κ) (htask : y.tasks[t]? = some task) (hlive : task.live = true) :
      Changes y a ({ y with system := system }.release t { task with sent := sent })
  | requested (t : Nat) (task : ClientTask) (k : CancelKey) (addr : String) (key : CancelKey)
      (htask : y.tasks[t]? = some task) (hstage : task.stage = .opening) :
      Changes y (.first t (.cancelRequest k) addr key) ((y.request k).release t task)
  | enrolled (t : Nat) (task : ClientTask) (packet : Startup) (addr : String) (key : CancelKey)
      (sent : List Greeting) (htask : y.tasks[t]? = some task) (hstage : task.stage = .opening) :
      Changes y (.first t (.startup packet) addr key)
        (y.enroll t { task with sent := sent } ⟨packet, addr, key⟩)
  | wired (a : ServerAct σ) (t : Nat) (task : ClientTask) (c : Client) (stage : Nat → Stage)
      (parameters : Params) (system : System σ κ) (htask : y.tasks[t]? = some task)
      (hstage : task.stage = .starting) (hc : task.client = some c)
      (hchannel : ∀ channel, (stage channel).channel = some channel)
      (hsession : ∀ channel n, (stage channel).session = some n → n = y.system.sessions.length ∧
        ∃ s, system.sessions = y.system.sessions ++ [s] ∧ s.params = c.packet.params ∧
          s.startupParameters = c.packet.parameters) :
      Changes y a ({ y with system := system }.wire t task c stage parameters)
  | woken (a : ServerAct σ) (t : Nat) (task : ClientTask) (c : Client) (channel : Nat)
      (system : System σ κ) (htask : y.tasks[t]? = some task) (hc : task.client = some c)
      (hchannel : task.stage.channel = some channel) (hwakes : y.router.wakes channel = true) :
      Changes y a { y.wake channel c with system := system }
  /-- A round of the console, or the end of a pump that panics. -/
  | moved (a : ServerAct σ) (t : Nat) (task : ClientTask) (stage : Stage)
      (htask : y.tasks[t]? = some task) (hfrom : task.stage.greeted = true)
      (hto : stage.greeted = true)
      (hchannel : stage.channel = none ∨ stage.channel = task.stage.channel)
      (hsession : stage.session = task.stage.session) :
      Changes y a (y.put t { task with stage := stage })
  | left (a : ServerAct σ) (t : Nat) (task : ClientTask) (c : Client) (n : Nat)
      (htask : y.tasks[t]? = some task) (hfrom : task.stage.greeted = true)
      (hc : task.client = some c) (hsession : task.stage.session = some n) :
      Changes y a ((y.unwire c).put t { task with stage := .leaving n })
  | ended (a : ServerAct σ) (t : Nat) (task : ClientTask) (c : Client)
      (htask : y.tasks[t]? = some task) (hfrom : task.stage.greeted = true)
      (hc : task.client = some c) :
      Changes y a ((y.unwire c).release t task)
  | closed (a : ServerAct σ) (t : Nat) (task : ClientTask) (system : System σ κ)
      (htask : y.tasks[t]? = some task) (hfrom : task.stage.greeted = true)
      (hchannel : task.stage.channel = none) :
      Changes y a ({ y with system := system }.release t task)

section Changes

variable {y : Server σ κ} {t : Nat} {task : ClientTask}

/-- What a task and its sessions do is a change. -/
def Turns (p : ProxyShared σ κ) (y : Server σ κ) (a : ServerAct σ)
    (r : Server σ κ × Option (Act σ κ)) : Prop :=
  Changes y a { r.1 with system := run (System.act p.env) y.system r.2.toList }

theorem turns_none (p : ProxyShared σ κ) (a : ServerAct σ) : Turns p y a (y, none) :=
  Changes.still a y.system y.signalled

theorem withTask_turns {p : ProxyShared σ κ} {a : ServerAct σ}
    {f : ClientTask → Server σ κ × Option (Act σ κ)}
    (h : ∀ task, y.tasks[t]? = some task → Turns p y a (f task)) :
    Turns p y a (y.withTask t f) := by
  unfold withTask
  split
  case h_1 task htask =>
    exact h task htask
  case h_2 => exact turns_none p a

theorem opened_turns (p : ProxyShared σ κ) (htask : y.tasks[t]? = some task)
    (hstage : task.stage = .opening) (m : FirstMessage) (addr : String) (key : CancelKey) :
    Turns p y (.first t m addr key) (y.opened t task addr key m, none) := by
  have hrefused : ∀ sent, Turns p y (.first t m addr key)
      (y.release t { task with sent := sent }, none) := fun sent =>
    Changes.refused _ t task sent y.system htask (ClientTask.live_of_opening (.inl hstage))
  cases m with
  | closed => exact hrefused task.sent
  | undecodable => exact hrefused task.sent
  | cancelRequest k => exact Changes.requested t task k addr key htask hstage
  | other shown => exact hrefused _
  | startup packet =>
      unfold opened
      dsimp only
      split
      case h_1 sent _ => exact hrefused sent
      case h_2 sent _ => exact Changes.enrolled t task packet addr key sent htask hstage

theorem started_turns (p : ProxyShared σ κ) (a : ServerAct σ) {c : Client}
    (htask : y.tasks[t]? = some task) (hstage : task.stage = .starting)
    (hc : task.client = some c) (sends : Nat) : Turns p y a (y.started p t task c sends) := by
  unfold started
  split
  · exact Changes.wired a t task c (fun channel => .console channel (AdminSession.new sends)) _
      y.system htask hstage hc (fun _ => rfl) fun _ _ h => by cases h
  · dsimp only
    split
    · exact Changes.refused a t task _ (y.system.act p.env (.connect _)) htask
        (ClientTask.live_of_opening (.inr hstage))
    · -- nothing is asked of the pools here
      obtain ⟨hkept, -⟩ : _ ∧ Session.Starts p.env (fun _ _ => True) _ _ _ _ :=
        Session.start_spec (s := (y.launch p c sends).new) (fun _ _ _ _ _ => trivial)
          (fun _ _ _ _ _ => trivial) ⟨fun _ _ _ => trivial, fun _ _ _ _ _ _ => trivial⟩
      refine Changes.wired a t task c (fun channel => .pumping channel y.system.sessions.length) _
        (y.system.act p.env (.connect _)) htask hstage hc (fun _ => rfl) fun channel n hn => ?_
      cases hn
      exact ⟨rfl, _, rfl, hkept.params, hkept.startup⟩

theorem noticed_turns (p : ProxyShared σ κ) (a : ServerAct σ) : Turns p y a (y.noticed, none) := by
  unfold noticed
  split
  case h_1 h =>
    exact Changes.turn a .draining y.slots (by rw [h]; rfl) (.inr rfl) fun h => by cases h
  case h_2 h =>
    exact Changes.turn a .draining (y.slots + 1) (by rw [h]; rfl) (.inr rfl) fun h => by cases h
  case h_3 => exact turns_none p a

end Changes

theorem act_changes (p : ProxyShared σ κ) (y : Server σ κ) (a : ServerAct σ) :
    Changes y a (y.act p a) := by
  show Turns p y a (y.turn p a)
  unfold turn
  cases a <;> dsimp only
  case signal => exact Changes.still _ y.system true
  case tick elapsed => exact Changes.still _ _ y.signalled
  case sweep key => exact Changes.still _ _ y.signalled
  case acquire =>
    split
    case h_1 n hloop hslots =>
      exact Changes.turn _ .holding n (by rw [hloop, hslots]; rfl) (.inl (by rw [hloop]; rfl))
        fun h => by cases h
    case h_2 => exact turns_none p _
  case accept =>
    split
    case h_1 hloop =>
      exact Changes.accept hloop
    case h_2 => exact turns_none p _
  case acceptFailed =>
    split
    case h_1 hloop =>
      exact Changes.turn _ .waiting (y.slots + 1) (by rw [hloop]; rfl)
        (.inl (by rw [hloop]; rfl)) fun h => by cases h
    case h_2 => exact turns_none p _
  case notice =>
    split
    · exact noticed_turns p _
    · exact turns_none p _
  case drained =>
    split
    case h_1 hloop =>
      split
      case isTrue hdone =>
        refine Changes.turn _ .stopped y.slots (by rw [hloop]; rfl) (.inr rfl)
          fun _ task htask => ?_
        exact Bool.not_eq_true' _ ▸ List.all_eq_true.mp hdone task htask
      case isFalse => exact turns_none p _
    case h_2 => exact turns_none p _
  case abort =>
    split
    case h_1 hloop =>
      exact Changes.turn _ .aborted y.slots (by rw [hloop]; rfl) (.inr rfl) fun h => by cases h
    case h_2 => exact turns_none p _
  case dropped t =>
    refine withTask_turns fun task htask => ?_
    split
    · split
      case isTrue hlive =>
        exact Changes.refused _ t task task.sent y.system htask hlive
      case isFalse => exact turns_none p _
    · exact turns_none p _
  case first t m addr key =>
    refine withTask_turns fun task htask => ?_
    split
    case h_1 hstage =>
      exact opened_turns p htask hstage m addr key
    case h_2 => exact turns_none p _
  case start t sends =>
    refine withTask_turns fun task htask => ?_
    split
    case h_1 c hstage hc =>
      exact started_turns p _ htask hstage hc sends
    case h_2 => exact turns_none p _
  case event t e =>
    refine withTask_turns fun task htask => ?_
    split
    · exact Changes.still _ _ y.signalled
    · exact turns_none p _
  case cancelled t =>
    refine withTask_turns fun task htask => ?_
    split
    case h_1 channel n c hstage hc =>
      split
      case isTrue hwakes =>
        exact Changes.woken _ t task c channel _ htask hc (by rw [hstage]; rfl)
          (Bool.and_eq_true_iff.mp hwakes).1
      case isFalse => exact turns_none p _
    case h_2 channel s c hstage hc =>
      split
      case isTrue hwakes =>
        exact Changes.woken _ t task c channel y.system htask hc (by rw [hstage]; rfl) hwakes
      case isFalse => exact turns_none p _
    case h_3 => exact turns_none p _
  case consoleEvent t e =>
    refine withTask_turns fun task htask => ?_
    split
    case h_1 channel s c hstage hc =>
      have hfrom : task.stage.greeted = true := by rw [hstage]; rfl
      split
      · exact Changes.ended _ t task c htask hfrom hc
      · exact Changes.moved _ t task _ htask hfrom rfl (.inr (by rw [hstage]; rfl))
          (by rw [hstage]; rfl)
    case h_2 => exact turns_none p _
  case leave t =>
    refine withTask_turns fun task htask => ?_
    split
    case h_1 channel n c hstage hc =>
      have hfrom : task.stage.greeted = true := by rw [hstage]; rfl
      split
      · exact Changes.moved _ t task _ htask hfrom rfl (.inl rfl) (by rw [hstage]; rfl)
      · exact Changes.left _ t task c n htask hfrom hc (by rw [hstage]; rfl)
      · exact turns_none p _
    case h_2 => exact turns_none p _
  case close t arrived =>
    refine withTask_turns fun task htask => ?_
    split
    case h_1 n hstage =>
      exact Changes.closed _ t task (y.system.act p.env (.finish n arrived)) htask
        (by rw [hstage]; rfl) (by rw [hstage]; rfl)
    case h_2 => exact turns_none p _

/-! ## The sessions -/

/-- The acts of `System` in a run. -/
def sessionActs (p : ProxyShared σ κ) : Server σ κ → List (ServerAct σ) → List (Act σ κ)
  | _, [] => []
  | y, a :: as => (y.turn p a).2.toList ++ sessionActs p (y.act p a) as

/-- The sessions of the running proxy take a run of `System`. -/
theorem system_run (p : ProxyShared σ κ) (y : Server σ κ) (as : List (ServerAct σ)) :
    (run (act p) y as).system = run (System.act p.env) y.system (sessionActs p y as) := by
  induction as generalizing y with
  | nil => rfl
  | cons a as ih =>
      rw [run_cons, ih, sessionActs, run_append]
      rfl

end Server

end Pgferry
