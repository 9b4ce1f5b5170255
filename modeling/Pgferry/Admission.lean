/-
  The clients of the running proxy: their slots and the list of sessions.

  Proved, for every interleaving of the accept loop and the tasks:
  `clients_bounded`: a slot is free, held by the loop or held by one task, so there are never more
  than `max_client_conn` clients; once the loop has seen the shutdown signal no client is added, and
  a loop that has drained has every slot back. A task that is to be aborted has its slot until it is
  dropped.
  `clients_listed`: the sessions of `RuntimeState` are those of the registered tasks that have not
  ended, each once, as long as no key is generated with the pid of a live session.
-/
import Pgferry.Lib.Table
import Pgferry.Server

namespace Pgferry

open Loop Table

variable {σ κ : Type}

namespace ClientTask

theorem live_of_greeted {task : ClientTask} (h : task.stage.greeted = true) : task.live = true := by
  unfold live
  cases hs : task.stage with
  | done =>
      rw [hs] at h
      cases h
  | _ => rfl

theorem greeted_of_channel {stage : Stage} {channel : Nat} (h : stage.channel = some channel) :
    stage.greeted = true := by
  cases stage with
  | pumping _ _ => rfl
  | console _ _ => rfl
  | _ => cases h

end ClientTask

namespace Server

variable {y z : Server σ κ} {a : ServerAct σ}

/-! ## Slots -/

/-- Every slot is accounted for, and a loop that has stopped has no task left. -/
structure Admits (max : Nat) (y : Server σ κ) : Prop where
  slots : y.slots + y.loop.held + y.tasks.countP ClientTask.live = max
  stopped : y.loop = .stopped → ∀ task ∈ y.tasks, task.live = false

section Admits

variable {max t : Nat} {task : ClientTask}

/-- A live task goes on or ends. -/
theorem Admits.set (h : y.Admits max) (htask : y.tasks[t]? = some task) (hlive : task.live = true)
    {task' : ClientTask} {b : Bool} (hlive' : task'.live = b) (hloop : z.loop = y.loop)
    (hslots : z.slots + b.toNat = y.slots + 1) (htasks : z.tasks = y.tasks.set t task') :
    z.Admits max := by
  have hcount := countP_set_add htask ClientTask.live task'
  refine ⟨?_, fun hstop => ?_⟩
  · have hold := h.slots
    rw [hlive, hlive', Bool.toNat_true] at hcount
    rw [hloop, htasks]
    omega
  · have hnone := h.stopped (hloop ▸ hstop) task (List.mem_of_getElem? htask)
    rw [hlive] at hnone
    cases hnone

theorem Admits.changes (h : y.Admits max) (hchanges : Changes y a z) : z.Admits max := by
  cases hchanges with
  | still _ system signalled => exact ⟨h.slots, h.stopped⟩
  | turn _ loop slots hslots hloop hstop =>
      refine ⟨?_, hstop⟩
      have hold := h.slots
      show slots + loop.held + y.tasks.countP ClientTask.live = max
      omega
  | accept hloop =>
      refine ⟨?_, fun hstop => by cases hstop⟩
      have hold := h.slots
      rw [hloop] at hold
      show y.slots + 0 + (y.tasks ++ [({} : ClientTask)]).countP _ = max
      rw [List.countP_append, ← hold]
      show _ + (_ + 1) = _ + 1 + _
      omega
  | woken => exact ⟨h.slots, h.stopped⟩
  | refused _ t task sent system htask hlive => exact h.set htask hlive rfl rfl rfl rfl
  | requested t task k addr key htask hstage | enrolled t task _ _ _ _ htask hstage =>
      exact h.set htask (ClientTask.live_of_opening (.inl hstage)) rfl rfl rfl rfl
  | wired _ t task c stage parameters system htask hstage hc hchannel _ =>
      exact h.set htask (ClientTask.live_of_opening (.inr hstage))
        (ClientTask.live_of_greeted (ClientTask.greeted_of_channel (hchannel _))) rfl rfl rfl
  | moved _ t task stage htask hfrom hto hchannel _ =>
      exact h.set htask (ClientTask.live_of_greeted hfrom) (ClientTask.live_of_greeted hto)
        rfl rfl rfl
  | left _ t task c n htask hfrom | ended _ t task c htask hfrom | closed _ t task _ htask hfrom =>
      exact h.set htask (ClientTask.live_of_greeted hfrom) rfl rfl rfl rfl

/-- Behind a loop that has seen the signal no task is added. -/
theorem Changes.drains (hloop : y.loop.accepts = false) (hchanges : Changes y a z) :
    z.loop.accepts = false ∧ z.tasks.length = y.tasks.length := by
  cases hchanges with
  | turn _ loop slots hslots hturn hstop =>
      refine ⟨hturn.resolve_left fun h => ?_, rfl⟩
      rw [hloop] at h
      cases h
  | accept h =>
      rw [h] at hloop
      cases hloop
  | still | woken => exact ⟨hloop, rfl⟩
  | refused | requested | enrolled | wired | moved | left | ended | closed =>
      exact ⟨hloop, List.length_set⟩

end Admits

end Server

/-- The pid of the key that is generated. -/
def ServerAct.pid? : ServerAct σ → Option Int
  | .first _ (.startup _) _ key => some key.pid
  | _ => none

namespace Server

variable {y z : Server σ κ} {a : ServerAct σ}

/-! ## The list of sessions -/

/-- The registered sessions are those of the live tasks that have a client, each with a pid of
    its own, and `total` counts all that ever were. -/
structure Listed (y : Server σ κ) : Prop where
  known : ∀ e ∈ y.registered, e.1 < y.tasks.length
  listed : Each (fun t task =>
    (∀ c, (t, c) ∈ y.registered ↔ task.live = true ∧ task.client = some c) ∧
      (task.stage = .opening → task.client = none)) y.tasks
  pids : (y.registered.map fun e => e.2.key.pid).Nodup
  active : y.registered.length = y.tasks.countP fun task => task.live && task.client.isSome
  total : y.total = y.tasks.countP fun task => task.client.isSome

/-- A key that is generated has the pid of no live session. -/
def Fresh (y : Server σ κ) (a : ServerAct σ) : Prop :=
  ∀ pid ∈ a.pid?, ∀ e ∈ y.registered, e.2.key.pid ≠ pid

instance (y : Server σ κ) (a : ServerAct σ) : Decidable (y.Fresh a) :=
  inferInstanceAs (Decidable (∀ pid ∈ a.pid?, ∀ e ∈ y.registered, e.2.key.pid ≠ pid))

section Listed

variable {t : Nat} {task task' : ClientTask}

theorem Listed.mem (h : y.Listed) (t : Nat) (c : Client) : (t, c) ∈ y.registered ↔
    ∃ task, y.tasks[t]? = some task ∧ task.live = true ∧ task.client = some c := by
  constructor
  · intro hmem
    have htask := List.getElem?_eq_getElem (h.known _ hmem)
    exact ⟨_, htask, ((h.listed t _ htask).1 c).mp hmem⟩
  · rintro ⟨task, htask, hlive⟩
    exact ((h.listed t task htask).1 c).mpr hlive

/-- The guard takes out one entry. -/
theorem length_filter_pid {registered : List (Nat × Client)} {e : Nat × Client}
    (hpids : (registered.map fun e => e.2.key.pid).Nodup) (he : e ∈ registered) :
    (registered.filter fun e' => e'.2.key.pid != e.2.key.pid).length + 1 = registered.length := by
  have hmap : (registered.filter fun e' => e'.2.key.pid != e.2.key.pid).map
      (fun e => e.2.key.pid) = (registered.map fun e => e.2.key.pid).erase e.2.key.pid := by
    rw [hpids.erase_eq_filter, List.filter_map]
    rfl
  have hmem : e.2.key.pid ∈ registered.map fun e => e.2.key.pid := List.mem_map_of_mem he
  have hlength := congrArg List.length hmap
  rw [List.length_map, List.length_erase_of_mem hmem, List.length_map] at hlength
  have := List.length_pos_of_mem he
  omega

/-- A task whose client stays the same. -/
theorem Listed.count (h : y.Listed) (htask : y.tasks[t]? = some task)
    (hclient : task'.client = task.client) (htasks : z.tasks = y.tasks.set t task')
    (htotal : z.total = y.total) : z.total = z.tasks.countP fun task => task.client.isSome := by
  have hcount := countP_set_add htask (fun task => task.client.isSome) task'
  rw [hclient] at hcount
  rw [htotal, h.total, htasks]
  omega

/-- A live task goes on. -/
theorem Listed.put (h : y.Listed) (htask : y.tasks[t]? = some task) (hlive : task.live = true)
    (htasks : z.tasks = y.tasks.set t task') (hlive' : task'.live = true)
    (hclient : task'.client = task.client) (hopening : task'.stage ≠ .opening)
    (hregistered : z.registered = y.registered) (htotal : z.total = y.total) : z.Listed := by
  refine ⟨?_, ?_, hregistered ▸ h.pids, ?_, h.count htask hclient htasks htotal⟩
  · rw [hregistered, htasks, List.length_set]
    exact h.known
  · rw [hregistered, htasks]
    refine each_set ⟨fun c => ?_, fun hstage => absurd hstage hopening⟩ fun k x _ => h.listed k x
    rw [(h.listed t task htask).1, hlive, hlive', hclient]
  · have hcount := countP_set_add htask (fun task => task.live && task.client.isSome) task'
    rw [hlive, hlive', hclient] at hcount
    rw [hregistered, h.active, htasks]
    omega

/-- A live task ends. Its pid is the only one of its kind, so the guard takes out its session and
    no other. -/
theorem Listed.release (h : y.Listed) (htask : y.tasks[t]? = some task)
    (hlive : task.live = true) (htasks : z.tasks = y.tasks.set t task')
    (hdone : task'.stage = .done) (hclient : task'.client = task.client)
    (hregistered : z.registered = match task.client with
      | some c => y.registered.filter fun e => e.2.key.pid != c.key.pid
      | none => y.registered) (htotal : z.total = y.total) : z.Listed := by
  have hdead : task'.live = false := by
    unfold ClientTask.live
    rw [hdone]
    rfl
  have hself : ∀ c, (t, c) ∈ y.registered ↔ task.client = some c := fun c => by
    rw [(h.listed t task htask).1, hlive]
    exact and_iff_right rfl
  have hrest : ∀ k c, (k, c) ∈ z.registered ↔ (k, c) ∈ y.registered ∧ k ≠ t := by
    intro k c
    rw [hregistered]
    split
    case h_1 c₀ hc =>
      rw [List.mem_filter, bne_iff_ne]
      refine and_congr_right fun hmem => not_congr ⟨fun hpid => ?_, ?_⟩
      · exact congrArg Prod.fst (List.inj_on_of_nodup_map h.pids hmem ((hself c₀).mpr hc) hpid)
      · rintro rfl
        cases hc.symm.trans ((hself c).mp hmem)
        rfl
    case h_2 hc =>
      refine ⟨fun hmem => ⟨hmem, ?_⟩, fun hmem => hmem.1⟩
      rintro rfl
      cases hc.symm.trans ((hself c).mp hmem)
  refine ⟨fun e he => ?_, ?_, ?_, ?_, h.count htask hclient htasks htotal⟩
  · rw [htasks, List.length_set]
    exact h.known e ((hrest e.1 e.2).mp he).1
  · rw [htasks]
    refine each_set ⟨fun c => ?_, fun hstage => ?_⟩ fun k x hk hx => ?_
    · simp [hrest, hdead]
    · cases hdone.symm.trans hstage
    · simpa [hrest, hk] using h.listed k x hx
  · rw [hregistered]
    split
    · exact (List.filter_sublist.map _).nodup h.pids
    · exact h.pids
  · have hcount := countP_set_add htask (fun task => task.live && task.client.isSome) task'
    have hactive := h.active
    rw [hlive, hdead] at hcount
    rw [hregistered, htasks]
    split
    case h_1 c hc =>
      have hlength : (y.registered.filter fun e => e.2.key.pid != c.key.pid).length + 1 =
          y.registered.length := length_filter_pid h.pids ((hself c).mpr hc)
      rw [hc] at hcount
      simp only [Option.isSome_some, Bool.and_self, Bool.toNat_true, Bool.false_and,
        Bool.toNat_false] at hcount
      omega
    case h_2 hc =>
      rw [hc] at hcount
      rw [hactive]
      exact hcount.symm

/-- A session is registered under a pid that no other one has. -/
theorem Listed.enroll (h : y.Listed) (htask : y.tasks[t]? = some task)
    (hstage : task.stage = .opening) {c : Client} {sent : List Greeting}
    (hfresh : ∀ e ∈ y.registered, e.2.key.pid ≠ c.key.pid) :
    (y.enroll t { task with sent := sent } c).Listed := by
  have hnone := (h.listed t task htask).2 hstage
  have hother : ∀ k c', (k, c') ∈ y.registered ++ [(t, c)] ↔
      (k, c') ∈ y.registered ∨ k = t ∧ c' = c := by simp
  refine ⟨fun e he => ?_, ?_, ?_, ?_, ?_⟩
  · show e.1 < (y.tasks.set t _).length
    rw [List.length_set]
    rcases (hother e.1 e.2).mp he with hold | ⟨ht, -⟩
    · exact h.known e hold
    · exact ht ▸ (List.getElem?_eq_some_iff.mp htask).1
  · refine each_set ⟨fun c' => ?_, fun hopening => (by cases hopening)⟩ fun k x hk hx => ?_
    · refine (hother t c').trans ?_
      rw [(h.listed t task htask).1, hnone]
      constructor
      · rintro (⟨-, hc⟩ | ⟨-, rfl⟩)
        · cases hc
        · exact ⟨rfl, rfl⟩
      · rintro ⟨-, hc⟩
        cases hc
        exact .inr ⟨rfl, rfl⟩
    · refine ⟨fun c' => (hother k c').trans ?_, (h.listed k x hx).2⟩
      simpa [hk] using (h.listed k x hx).1 c'
  · show ((y.registered ++ [(t, c)]).map _).Nodup
    rw [List.map_append, List.nodup_append]
    refine ⟨h.pids, List.nodup_singleton _, ?_⟩
    intro pid hpid pid' hpid'
    obtain ⟨e, he, rfl⟩ := List.mem_map.mp hpid
    cases List.mem_singleton.mp hpid'
    exact hfresh e he
  · have hcount := countP_set_add htask (fun task => task.live && task.client.isSome)
      ⟨.starting, some c, sent, task.parameters⟩
    rw [hnone, Option.isSome_none, Bool.and_false] at hcount
    show (y.registered ++ [(t, c)]).length =
      (y.tasks.set t ⟨.starting, some c, sent, task.parameters⟩).countP _
    rw [List.length_append, h.active]
    exact hcount.symm
  · have hcount := countP_set_add htask (fun task => task.client.isSome)
      ⟨.starting, some c, sent, task.parameters⟩
    rw [hnone] at hcount
    show y.total + 1 = (y.tasks.set t ⟨.starting, some c, sent, task.parameters⟩).countP _
    rw [h.total]
    exact hcount.symm

theorem Listed.changes (h : y.Listed) (hfresh : y.Fresh a) (hchanges : Changes y a z) :
    z.Listed := by
  cases hchanges with
  | still | turn | woken => exact ⟨h.known, h.listed, h.pids, h.active, h.total⟩
  | accept hloop =>
      refine ⟨fun e he => ?_, each_concat ⟨fun c => ⟨fun hmem => ?_, ?_⟩, fun _ => rfl⟩ h.listed,
        h.pids, ?_, ?_⟩
      · have := h.known e he
        show e.1 < (y.tasks ++ [_]).length
        rw [List.length_append]
        omega
      · exact absurd (h.known _ hmem) (Nat.lt_irrefl _)
      · rintro ⟨-, hc⟩
        cases hc
      · show y.registered.length = (y.tasks ++ [({} : ClientTask)]).countP _
        rw [List.countP_append, h.active]
        rfl
      · show y.total = (y.tasks ++ [({} : ClientTask)]).countP _
        rw [List.countP_append, h.total]
        rfl
  | refused _ t task sent system htask hlive => exact h.release htask hlive rfl rfl rfl rfl rfl
  | requested t task k addr key htask hstage =>
      exact h.release htask (ClientTask.live_of_opening (.inl hstage)) rfl rfl rfl rfl rfl
  | enrolled t task packet addr key sent htask hstage =>
      exact h.enroll htask hstage (hfresh key.pid rfl)
  | wired _ t task c stage parameters system htask hstage hc hchannel _ =>
      have hgreeted := ClientTask.greeted_of_channel (hchannel (y.router.register c.key).2)
      refine h.put htask (ClientTask.live_of_opening (.inr hstage)) rfl
        (ClientTask.live_of_greeted hgreeted) rfl (fun hopening => ?_) rfl rfl
      rw [show stage _ = _ from hopening] at hgreeted
      cases hgreeted
  | moved _ t task stage htask hfrom hto hchannel _ =>
      refine h.put htask (ClientTask.live_of_greeted hfrom) rfl (ClientTask.live_of_greeted hto)
        rfl (fun hopening => ?_) rfl rfl
      rw [show stage = _ from hopening] at hto
      cases hto
  | left _ t task c n htask hfrom hc _ =>
      exact h.put htask (ClientTask.live_of_greeted hfrom) rfl rfl rfl Stage.noConfusion rfl rfl
  | ended _ t task c htask hfrom hc =>
      exact h.release htask (ClientTask.live_of_greeted hfrom) rfl rfl rfl rfl rfl
  | closed _ t task system htask hfrom hchannel =>
      exact h.release htask (ClientTask.live_of_greeted hfrom) rfl rfl rfl rfl rfl

theorem listed_init (p : ProxyShared σ κ) (world : World σ) : (init p world).Listed :=
  ⟨List.forall_mem_nil _, each_nil, List.nodup_nil, rfl, rfl⟩

/-- The list of sessions along a run. -/
theorem listed_run (p : ProxyShared σ κ) (world : World σ) (as : List (ServerAct σ))
    (hfresh : Along (act p) Fresh (init p world) as) : (run (act p) (init p world) as).Listed :=
  run_inv (fun y a h hf => h.changes hf (act_changes p y a)) _ as (listed_init p world) hfresh

end Listed

end Server

/-! ## Whole runs -/

/-- The slots of the clients, in every interleaving. -/
theorem clients_bounded (p : ProxyShared σ κ) (world : World σ) (as : List (ServerAct σ)) :
    let y := run (Server.act p) (Server.init p world) as
    y.slots + y.loop.held + y.tasks.countP ClientTask.live = p.maxClientConn ∧
      (y.loop = .stopped → (∀ task ∈ y.tasks, task.live = false) ∧ y.slots = p.maxClientConn) ∧
      (y.loop.accepts = false → ∀ bs, (run (Server.act p) y bs).tasks.length = y.tasks.length) := by
  intro y
  have hadmits : y.Admits p.maxClientConn :=
    run_inv (fun y a h _ => h.changes (Server.act_changes p y a)) _ as
      ⟨rfl, fun hstop => by cases hstop⟩ (along_true _ as)
  refine ⟨hadmits.slots, fun hstop => ⟨hadmits.stopped hstop, ?_⟩, fun hloop bs => ?_⟩
  · have hslots := hadmits.slots
    have hnone : y.tasks.countP ClientTask.live = 0 :=
      List.countP_eq_zero.mpr fun task hmem => by
        rw [hadmits.stopped hstop task hmem]
        exact Bool.false_ne_true
    rw [hstop, hnone] at hslots
    exact hslots
  · have hdrains : ∀ (z : Server σ κ) (a : ServerAct σ),
        (z.loop.accepts = false ∧ z.tasks.length = y.tasks.length) → True →
        (z.act p a).loop.accepts = false ∧ (z.act p a).tasks.length = y.tasks.length := by
      rintro z a ⟨haccepts, hlength⟩ -
      obtain ⟨h1, h2⟩ := Server.Changes.drains haccepts (Server.act_changes p z a)
      exact ⟨h1, h2.trans hlength⟩
    exact (run_inv hdrains y bs ⟨hloop, rfl⟩ (along_true _ bs)).2

/-- `SHOW CLIENTS` and the session metrics: the clients that are registered and have not ended,
    each once and under its own pid. -/
theorem clients_listed (p : ProxyShared σ κ) (world : World σ) (as : List (ServerAct σ))
    (hfresh : Along (Server.act p) Server.Fresh (Server.init p world) as) :
    let y := run (Server.act p) (Server.init p world) as
    (∀ t c, (t, c) ∈ y.registered ↔
      ∃ task, y.tasks[t]? = some task ∧ task.live = true ∧ task.client = some c) ∧
    ((y.runtime p).sessions.map SessionInfo.pid).Nodup ∧
    (y.runtime p).sessionsActive =
      y.tasks.countP (fun task => task.live && task.client.isSome) ∧
    (y.runtime p).sessionsTotal = y.tasks.countP fun task => task.client.isSome := by
  intro y
  have h := Server.listed_run p world as hfresh
  refine ⟨h.mem, ?_, ?_, h.total⟩
  · show ((y.registered.map (y.info p)).map SessionInfo.pid).Nodup
    rw [List.map_map]
    exact h.pids
  · show (y.registered.map (y.info p)).length = _
    rw [List.length_map]
    exact h.active

namespace Sample

/-- The small deployment with a console and two slots. -/
def shared (i : Option (Interceptor Unit)) : ProxyShared Pg Unit where
  env := env .transaction
  interceptor := i
  ctx := ()
  adminDatabase := some "pgferry"
  maxClientConn := 2

/-- A client of the user `u` connects and names a database. -/
def dial (t : Nat) (database : String) (key : CancelKey) : List (ServerAct Pg) :=
  [.acquire, .accept,
    .first t (.startup ⟨3, 0, [⟨"user", "u"⟩, ⟨"database", database⟩].toAList⟩) "10.0.0.1:9" key,
    .start t 100]

/-- The proxy after the acts. -/
def server (i : Option (Interceptor Unit)) (as : List (ServerAct Pg)) : Server Pg Unit :=
  run (Server.act (shared i)) (Server.init (shared i) (world .transaction)) as

end Sample

/-- A console, a session that ends, and one that gets the pid of that session again. -/
def Sample.dialAgain : List (ServerAct Pg) :=
  Sample.dial 0 "pgferry" ⟨1, [7]⟩ ++ Sample.dial 1 "d" ⟨2, [8]⟩ ++
    [.event 1 .clientGone, .leave 1, .close 1 0] ++ Sample.dial 2 "d" ⟨2, [9]⟩

theorem clients_listed_again :
    let runtime := (Sample.server none Sample.dialAgain).runtime (Sample.shared none)
    (runtime.sessionsActive = 2 ∧ runtime.sessionsTotal = 3) ∧
      (runtime.sessions.map SessionInfo.pid).Nodup :=
  ⟨by decide, (clients_listed (Sample.shared none) (Sample.world .transaction) Sample.dialAgain
    (by decide)).2.1⟩

end Pgferry
