/-
  The metrics endpoint (`metrics.rs`).

  `render` writes two metrics of the sessions and eleven of every live pool. The labels of a pool
  are its route, its user and its database, each escaped by three replacements one after the other.
  A pool is keyed by its endpoint as well, which is not among the labels, and a missing database is
  written like an empty one.

  Proved: the three replacements escape character by character (`escape_eq`); the text reads back
  as exactly one sample for each metric and pool, with the pool's own strings (`render_reads`); and
  `metrics_identify_iff`, the samples tell the pools apart exactly when no two live pools agree in
  route, user and database.
-/
import Pgferry.Lib.Exposition
import Pgferry.Runtime

namespace Pgferry

open Exposition (Sample Labels Reads)

variable {σ : Type}

/-! ## The code -/

/-- `str::replace` of a character. -/
def replaceChar (ch : Char) (text s : List Char) : List Char :=
  s.flatMap fun c => if c = ch then text else [c]

/-- `escape`. -/
def escape (value : String) : String :=
  String.ofList (replaceChar '\n' ['\\', 'n'] (replaceChar '"' ['\\', '"']
    (replaceChar '\\' ['\\', '\\'] value.toList)))

/-- One metric of a pool. -/
structure Series where
  name : String
  kind : String
  value : String

namespace Series

/-- The macro `counter!`. -/
def counter (name : String) (value : Nat) : Series where
  name := "pgferry_pool_" ++ name ++ "_total"
  kind := "counter"
  value := toString value

def gauge (name : String) (value : Int) : Series where
  name := "pgferry_pool_" ++ name
  kind := "gauge"
  value := toString value

/-- The type line and the sample. -/
def render (labels : String) (series : Series) : String :=
  "# TYPE " ++ series.name ++ " " ++ series.kind ++ "\n" ++
    series.name ++ "\x7b" ++ labels ++ "\x7d " ++ series.value ++ "\n"

end Series

/-- The metrics of a pool, in the order of `render`. -/
def poolSeries (pool : Pool σ) : List Series :=
  let m := pool.metrics
  [.counter "checkouts" m.checkouts,
    .counter "checkouts_reused" m.reused,
    .counter "connections_created" m.created,
    .counter "checkins" m.checkedIn,
    .counter "connections_dropped" m.dropped,
    .counter "connections_evicted" m.evicted,
    .counter "stale_probes" m.probed,
    .gauge "connections_active" m.active,
    .gauge "connections_idle" pool.idleLen,
    .gauge "clients_waiting" m.waiting,
    .gauge "max_size" pool.config.maxSize]

/-- The labels of a pool. -/
def labels (key : PoolKey) : String :=
  "route=\"" ++ escape key.route ++ "\",user=\"" ++ escape key.user ++ "\",database=\"" ++
    escape (key.database.getD "") ++ "\""

/-- The lines of a pool, pushed onto `out`. -/
def renderPool (out : String) (key : PoolKey) (pool : Pool σ) : String :=
  (poolSeries pool).foldl (fun out series => out ++ series.render (labels key)) out

/-- `render`. -/
def render (state : RuntimeState) (pools : PoolManager σ) : String :=
  let out := "# TYPE pgferry_sessions_active gauge\n" ++
    "pgferry_sessions_active " ++ toString state.sessionsActive ++ "\n" ++
    "# TYPE pgferry_sessions_total counter\n" ++
    "pgferry_sessions_total " ++ toString state.sessionsTotal ++ "\n"
  pools.entries.foldl (fun out e => renderPool out e.1 e.2) out

/-! ## What is written -/

/-- The labels of a pool, as they are meant. -/
def labelsOf (key : PoolKey) : Labels :=
  [("route".toList, key.route.toList), ("user".toList, key.user.toList),
    ("database".toList, (key.database.getD "").toList)]

/-- The sample of a metric of a pool. -/
def Series.sample (key : PoolKey) (series : Series) : Sample where
  name := series.name.toList
  labels := labelsOf key
  value := series.value.toList

/-- The samples of the sessions. -/
def sessionSamples (state : RuntimeState) : List Sample :=
  [{ name := "pgferry_sessions_active".toList, labels := [],
      value := (toString state.sessionsActive).toList },
    { name := "pgferry_sessions_total".toList, labels := [],
      value := (toString state.sessionsTotal).toList }]

/-- The replacements do not meet each other's output. -/
theorem escape_eq (value : String) :
    (escape value).toList = value.toList.flatMap Exposition.escapeChar := by
  unfold escape replaceChar
  rw [String.toList_ofList, List.flatMap_assoc, List.flatMap_assoc]
  congr 1
  funext ch
  unfold Exposition.escapeChar
  by_cases hback : ch = '\\'
  · subst hback
    rfl
  · by_cases hquote : ch = '"'
    · subst hquote
      rfl
    · by_cases hline : ch = '\n'
      · subst hline
        rfl
      · simp [hback, hquote, hline]

theorem labels_toList (key : PoolKey) :
    (labels key).toList = Exposition.labelsText (labelsOf key) := by
  delta labels
  simp [labelsOf, Exposition.labelsText, Exposition.labelText, List.intercalate, escape_eq]

theorem nat_isValue (n : Nat) : Exposition.IsValue (toString n).toList := by
  have hdigits : ∀ ch ∈ (toString n).toList, ch.isDigit = true := by
    intro ch hch
    rw [show toString n = n.repr from rfl, Nat.toList_repr] at hch
    exact Nat.isDigit_of_mem_toDigits (by decide) (by decide) hch
  refine ⟨?_, fun hmem => absurd (hdigits _ hmem) (by decide),
    fun hmem => absurd (hdigits _ hmem) (by decide)⟩
  rw [show toString n = n.repr from rfl, Nat.toList_repr]
  exact Nat.toDigits_ne_nil

theorem int_isValue (n : Int) : Exposition.IsValue (toString n).toList := by
  cases n with
  | ofNat n => exact nat_isValue n
  | negSucc n =>
      obtain ⟨-, hblank, hline⟩ := nat_isValue (n + 1)
      have htext : (toString (Int.negSucc n)).toList = '-' :: (toString (n + 1)).toList := by
        show ("-" ++ toString (n + 1)).toList = _
        simp
      rw [htext]
      exact ⟨List.cons_ne_nil _ _, List.not_mem_cons_of_ne_of_not_mem (by decide) hblank,
        List.not_mem_cons_of_ne_of_not_mem (by decide) hline⟩

/-- A metric that can be written: a name, a kind without a line feed, and a value. -/
def Series.WellFormed (series : Series) : Prop :=
  Exposition.IsName series.name.toList ∧ '\n' ∉ series.kind.toList ∧
    Exposition.IsValue series.value.toList

theorem poolSeries_wellFormed (pool : Pool σ) : ∀ series ∈ poolSeries pool, series.WellFormed := by
  have hcounter : ∀ name value, Exposition.IsName ("pgferry_pool_" ++ name ++ "_total").toList →
      (Series.counter name value).WellFormed :=
    fun name value hname => ⟨hname, show '\n' ∉ "counter".toList by decide, nat_isValue value⟩
  have hgauge : ∀ name value, Exposition.IsName ("pgferry_pool_" ++ name).toList →
      (Series.gauge name value).WellFormed :=
    fun name value hname => ⟨hname, show '\n' ∉ "gauge".toList by decide, int_isValue value⟩
  unfold poolSeries
  simp only [List.mem_cons, List.not_mem_nil, or_false, forall_eq_or_imp, forall_eq]
  exact ⟨hcounter _ _ (by decide), hcounter _ _ (by decide), hcounter _ _ (by decide),
    hcounter _ _ (by decide), hcounter _ _ (by decide), hcounter _ _ (by decide),
    hcounter _ _ (by decide), hgauge _ _ (by decide), hgauge _ _ (by decide),
    hgauge _ _ (by decide), hgauge _ _ (by decide)⟩

/-! ## What is read -/

theorem labelsOf_names (key : PoolKey) : ∀ label ∈ labelsOf key, Exposition.IsName label.1 := by
  unfold labelsOf
  simp only [List.mem_cons, List.not_mem_nil, or_false, forall_eq_or_imp, forall_eq]
  exact ⟨by decide, by decide, by decide⟩

theorem Series.WellFormed.reads {series : Series} (h : series.WellFormed) (key : PoolKey)
    {rest : List Char} {samples : List Sample} (hrest : Reads rest samples) :
    Reads ((series.render (labels key)).toList ++ rest) (series.sample key :: samples) := by
  obtain ⟨hname, hkind, hvalue⟩ := h
  have htext : (series.render (labels key)).toList ++ rest =
      '#' :: (" TYPE ".toList ++ series.name.toList ++ ' ' :: series.kind.toList) ++ '\n' ::
        (series.name.toList ++ '{' :: (Exposition.labelsText (labelsOf key) ++ '}' :: ' ' ::
          (series.value.toList ++ '\n' :: rest))) := by
    delta Series.render
    simp [labels_toList]
  rw [htext]
  refine Reads.comment _ ?_ (Reads.labelled hname (List.cons_ne_nil _ _) (labelsOf_names key)
    hvalue hrest)
  simp [hname.no_newline, hkind]

/-- The lines of one pool. -/
theorem series_reads (key : PoolKey) {list : List Series}
    (h : ∀ series ∈ list, series.WellFormed) {rest : List Char} {samples : List Sample}
    (hrest : Reads rest samples) :
    Reads (list.flatMap (fun series => (series.render (labels key)).toList) ++ rest)
      (list.map (Series.sample key) ++ samples) := by
  induction list with
  | nil => exact hrest
  | cons series list ih =>
      rw [List.flatMap_cons, List.append_assoc]
      exact Series.WellFormed.reads (h series List.mem_cons_self) key
        (ih fun s hs => h s (List.mem_cons_of_mem _ hs))

theorem renderPool_toList (out : String) (key : PoolKey) (pool : Pool σ) :
    (renderPool out key pool).toList = out.toList ++
      (poolSeries pool).flatMap fun series => (series.render (labels key)).toList := by
  unfold renderPool
  generalize poolSeries pool = list
  induction list generalizing out with
  | nil => simp
  | cons series list ih => simp [ih]

theorem renderPools_toList (entries : List (Σ _ : PoolKey, Pool σ)) (out : String) :
    (entries.foldl (fun out e => renderPool out e.1 e.2) out).toList = out.toList ++
      entries.flatMap fun e =>
        (poolSeries e.2).flatMap fun series => (series.render (labels e.1)).toList := by
  induction entries generalizing out with
  | nil => simp
  | cons e entries ih =>
      rw [List.foldl_cons, ih, renderPool_toList, List.flatMap_cons, List.append_assoc]

/-- The samples of all pools. -/
def poolSamples (entries : List (Σ _ : PoolKey, Pool σ)) : List Sample :=
  entries.flatMap fun e => (poolSeries e.2).map (Series.sample e.1)

theorem pools_reads (entries : List (Σ _ : PoolKey, Pool σ)) :
    Reads (entries.flatMap fun e =>
        (poolSeries e.2).flatMap fun series => (series.render (labels e.1)).toList)
      (poolSamples entries) := by
  induction entries with
  | nil => exact Reads.nil
  | cons e entries ih => exact series_reads e.1 (poolSeries_wellFormed e.2) ih

/-- The lines of a metric without labels. -/
theorem plain_reads {name kind value : String} (hname : Exposition.IsName name.toList)
    (hkind : '\n' ∉ kind.toList) (hvalue : Exposition.IsValue value.toList)
    {rest : List Char} {samples : List Sample} (hrest : Reads rest samples) :
    Reads
      (("# TYPE " ++ name ++ " " ++ kind ++ "\n" ++ name ++ " " ++ value ++ "\n").toList ++ rest)
      ({ name := name.toList, labels := [], value := value.toList } :: samples) := by
  have htext : ("# TYPE " ++ name ++ " " ++ kind ++ "\n" ++ name ++ " " ++ value ++ "\n").toList ++
      rest = '#' :: (" TYPE ".toList ++ name.toList ++ ' ' :: kind.toList) ++ '\n' ::
        (name.toList ++ ' ' :: (value.toList ++ '\n' :: rest)) := by
    simp
  rw [htext]
  refine Reads.comment _ ?_ (Reads.plain _ hname hvalue hrest)
  simp [hname.no_newline, hkind]

/-- The text reads back as the two samples of the sessions and those of the pools. -/
theorem render_reads (state : RuntimeState) (pools : PoolManager σ) :
    Reads (render state pools).toList (sessionSamples state ++ poolSamples pools.entries) := by
  unfold render
  rw [renderPools_toList]
  have htotal := plain_reads (show Exposition.IsName "pgferry_sessions_total".toList by decide)
    (show '\n' ∉ "counter".toList by decide) (nat_isValue state.sessionsTotal)
    (pools_reads pools.entries)
  have hactive := plain_reads (show Exposition.IsName "pgferry_sessions_active".toList by decide)
    (show '\n' ∉ "gauge".toList by decide) (nat_isValue state.sessionsActive) htotal
  rw [← List.append_assoc, ← String.toList_append] at hactive
  -- the source writes the type lines and the names as whole literals
  have hactiveText : "# TYPE " ++ "pgferry_sessions_active" ++ " " ++ "gauge" ++ "\n" ++
      "pgferry_sessions_active" ++ " " =
      "# TYPE pgferry_sessions_active gauge\n" ++ "pgferry_sessions_active " := by decide
  have htotalText : "# TYPE " ++ "pgferry_sessions_total" ++ " " ++ "counter" ++ "\n" ++
      "pgferry_sessions_total" ++ " " =
      "# TYPE pgferry_sessions_total counter\n" ++ "pgferry_sessions_total " := by decide
  rw [hactiveText, htotalText] at hactive
  have hassoc : ∀ a b c d e : String, a ++ (b ++ c ++ d ++ e) = a ++ b ++ c ++ d ++ e := by
    intro a b c d e
    simp only [String.append_assoc]
  rw [hassoc] at hactive
  exact hactive

/-! ## Telling the pools apart -/

/-- The names of the metrics of a pool. -/
def poolMetricNames : List String :=
  ["pgferry_pool_checkouts_total", "pgferry_pool_checkouts_reused_total",
    "pgferry_pool_connections_created_total", "pgferry_pool_checkins_total",
    "pgferry_pool_connections_dropped_total", "pgferry_pool_connections_evicted_total",
    "pgferry_pool_stale_probes_total", "pgferry_pool_connections_active",
    "pgferry_pool_connections_idle", "pgferry_pool_clients_waiting", "pgferry_pool_max_size"]

/-- The label sets of the samples of one metric. -/
def labelSets (samples : List Sample) (name : String) : List Labels :=
  (samples.filter fun sample => sample.name == name.toList).map Sample.labels

/-- The labels have the pool's own strings as their values. -/
def Describes (key : PoolKey) (labels : Labels) : Prop :=
  labels.lookup "route".toList = some key.route.toList ∧
    labels.lookup "user".toList = some key.user.toList ∧
    labels.lookup "database".toList = some (key.database.getD "").toList

/-- The text has, for each metric, one sample for each pool, whose label values are the pool's own
    strings; the label sets are pairwise different, and the key can be recovered from them. -/
def Identifies (text : String) (keys : List PoolKey) : Prop :=
  ∃ samples, Exposition.read text.toList = some samples ∧ ∀ name ∈ poolMetricNames,
    List.Forall₂ Describes keys (labelSets samples name) ∧ (labelSets samples name).Nodup ∧
      ∃ keyOf : Labels → PoolKey, (labelSets samples name).map keyOf = keys

/-- What the labels show of a key. -/
def PoolKey.shown (key : PoolKey) : String × String × String :=
  (key.route, key.user, key.database.getD "")

theorem labelsOf_describes (key : PoolKey) : Describes key (labelsOf key) := ⟨rfl, rfl, rfl⟩

theorem labelsOf_eq_iff (a b : PoolKey) : labelsOf a = labelsOf b ↔ a.shown = b.shown := by
  simp [labelsOf, PoolKey.shown, String.toList_inj]

theorem poolSeries_names (pool : Pool σ) : (poolSeries pool).map Series.name = poolMetricNames :=
  rfl

/-- A pool has one sample of each metric. -/
theorem labelSets_series (key : PoolKey) (pool : Pool σ) {name : String}
    (h : name ∈ poolMetricNames) :
    labelSets ((poolSeries pool).map (Series.sample key)) name = [labelsOf key] := by
  have hnodup : poolMetricNames.Nodup := by decide
  have hcount : ((poolSeries pool).map Series.name).count name = 1 := by
    rw [poolSeries_names]
    exact List.count_eq_one_of_mem hnodup h
  have hpred : (fun sample : Sample => sample.name == name.toList) ∘ Series.sample key =
      (· == name) ∘ Series.name := by
    funext series
    show (series.name.toList == name.toList) = (series.name == name)
    rw [Bool.eq_iff_iff, beq_iff_eq, beq_iff_eq]
    exact String.toList_inj
  have hlength : ((poolSeries pool).filter ((· == name) ∘ Series.name)).length = 1 := by
    rw [← List.countP_eq_length_filter, ← List.countP_map]
    exact hcount
  unfold labelSets
  rw [List.filter_map, hpred, List.map_map]
  obtain ⟨series, hone⟩ := List.length_eq_one_iff.mp hlength
  rw [hone]
  rfl

theorem labelSets_pools (entries : List (Σ _ : PoolKey, Pool σ)) {name : String}
    (h : name ∈ poolMetricNames) :
    labelSets (poolSamples entries) name = (entries.map Sigma.fst).map labelsOf := by
  induction entries with
  | nil => rfl
  | cons e entries ih =>
      have hcons : labelSets (poolSamples (e :: entries)) name =
          labelSets ((poolSeries e.2).map (Series.sample e.1)) name ++
            labelSets (poolSamples entries) name := by
        simp [labelSets, poolSamples]
      rw [hcons, labelSets_series e.1 e.2 h, ih]
      rfl

/-- The metrics of the sessions are none of a pool's. -/
theorem labelSets_sessions (state : RuntimeState) {name : String} (h : name ∈ poolMetricNames) :
    labelSets (sessionSamples state) name = [] := by
  have hactive : "pgferry_sessions_active" ∉ poolMetricNames := by decide
  have htotal : "pgferry_sessions_total" ∉ poolMetricNames := by decide
  have hne : ∀ other : String, other ∉ poolMetricNames → (other.toList == name.toList) = false := by
    intro other hother
    refine beq_eq_false_iff_ne.mpr fun heq => hother ?_
    rwa [String.toList_inj.mp heq]
  simp only [labelSets, sessionSamples, List.filter_cons, hne _ hactive, hne _ htotal]
  rfl

/-- The label sets of a metric are those of the live pools, in their order. -/
theorem labelSets_render (state : RuntimeState) (entries : List (Σ _ : PoolKey, Pool σ))
    {name : String} (h : name ∈ poolMetricNames) :
    labelSets (sessionSamples state ++ poolSamples entries) name =
      (entries.map Sigma.fst).map labelsOf := by
  have happend : labelSets (sessionSamples state ++ poolSamples entries) name =
      labelSets (sessionSamples state) name ++ labelSets (poolSamples entries) name := by
    simp [labelSets]
  rw [happend, labelSets_sessions state h, labelSets_pools entries h, List.nil_append]

/-- Different label sets lead back to the keys. -/
theorem exists_keyOf {keys : List PoolKey} (h : (keys.map labelsOf).Nodup) :
    ∃ keyOf : Labels → PoolKey, (keys.map labelsOf).map keyOf = keys := by
  refine ⟨fun labels => (keys.find? fun key => labelsOf key = labels).getD ⟨"", "", "", none⟩, ?_⟩
  rw [List.map_map]
  refine (List.map_congr_left fun key hkey => ?_).trans (List.map_id keys)
  obtain ⟨found, hfound⟩ : ∃ found, (keys.find? fun k => labelsOf k = labelsOf key) = some found :=
    Option.isSome_iff_exists.mp (List.find?_isSome.mpr ⟨key, hkey, by simp⟩)
  have hsame : labelsOf found = labelsOf key := by simpa using List.find?_some hfound
  have heq : found = key :=
    List.inj_on_of_nodup_map h (List.mem_of_find?_eq_some hfound) hkey hsame
  show ((keys.find? fun k => labelsOf k = labelsOf key).getD _) = key
  rw [hfound, heq]
  rfl

theorem nodup_labelsOf_iff (keys : List PoolKey) :
    (keys.map labelsOf).Nodup ↔ (keys.map PoolKey.shown).Nodup := by
  simp only [List.Nodup, List.pairwise_map, ne_eq, labelsOf_eq_iff]

theorem Identifies.shown_nodup {state : RuntimeState} {pools : PoolManager σ}
    (h : Identifies (render state pools) pools.keys) : (pools.keys.map PoolKey.shown).Nodup := by
  obtain ⟨samples, hread, hall⟩ := h
  obtain rfl : sessionSamples state ++ poolSamples pools.entries = samples :=
    Option.some.inj ((render_reads state pools).symm.trans hread)
  obtain ⟨-, hdistinct, -⟩ := hall "pgferry_pool_max_size" (by decide)
  rw [labelSets_render state pools.entries (by decide)] at hdistinct
  exact (nodup_labelsOf_iff _).mp hdistinct

/-- The metrics tell the live pools apart exactly when no two of them have the same route, user
    and database, a missing database taken as the empty one. -/
theorem metrics_identify_iff (state : RuntimeState) (pools : PoolManager σ) :
    Identifies (render state pools) pools.keys ↔ (pools.keys.map PoolKey.shown).Nodup := by
  refine ⟨Identifies.shown_nodup, fun h => ?_⟩
  have hdistinct : (pools.keys.map labelsOf).Nodup := (nodup_labelsOf_iff _).mpr h
  refine ⟨_, render_reads state pools, fun name hname => ?_⟩
  rw [labelSets_render state pools.entries hname]
  refine ⟨?_, hdistinct, exists_keyOf hdistinct⟩
  rw [List.forall₂_map_right_iff]
  exact List.forall₂_same.mpr fun key _ => labelsOf_describes key

/-- The registry after the first use of each key. -/
def registered (keys : List PoolKey) : PoolManager Unit :=
  keys.foldl (fun manager key => (getOrCreate manager key (Pool.new {})).1) ∅

/-- The pools of two endpoints of one route share every label set. So do those of a user without a
    database and with an empty one. -/
theorem metrics_collide :
    ¬ Identifies (render { sessions := [], total := 0 }
        (registered [⟨"main", "a", "u", none⟩, ⟨"main", "b", "u", none⟩]))
        (registered [⟨"main", "a", "u", none⟩, ⟨"main", "b", "u", none⟩]).keys ∧
      ¬ Identifies (render { sessions := [], total := 0 }
        (registered [⟨"main", "a", "u", none⟩, ⟨"main", "a", "u", some ""⟩]))
        (registered [⟨"main", "a", "u", none⟩, ⟨"main", "a", "u", some ""⟩]).keys := by
  refine ⟨fun h => ?_, fun h => ?_⟩
  · exact absurd h.shown_nodup (by decide)
  · exact absurd h.shown_nodup (by decide)

end Pgferry
