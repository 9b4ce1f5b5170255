/-
  Which client message the traffic of a connection belongs to.

  `Conn.tags` lists, in the order in which a client can still see something of them, the origins
  of the queued replies, of what the server is still busy with, and of what is fed but not
  flushed. Feeding adds an origin at the end and reading takes one from the front.

  Proved: flushing and cancelling bring no new origin in (`flush_tags_mem`, `cancel_tags_mem`)
  and keep them in the order of the messages (`flush_tags_sorted`, `cancel_tags_sorted`).
-/
import Pgferry.Conn

namespace Pgferry

variable {σ : Type}

/-- The position of the message in its client's stream. -/
def Origin.seq : Origin → Nat
  | .client _ n => n
  | .proxy => 0

/-- The origins are in the order of their messages. -/
def Sorted (os : List Origin) : Prop := os.Pairwise fun a b => a.seq ≤ b.seq

instance (os : List Origin) : Decidable (Sorted os) :=
  inferInstanceAs (Decidable (os.Pairwise fun a b => a.seq ≤ b.seq))

theorem Sorted.snoc {os : List Origin} {o : Origin} (h : Sorted os)
    (hle : ∀ a ∈ os, a.seq ≤ o.seq) : Sorted (os ++ [o]) :=
  List.pairwise_append.mpr ⟨h, List.pairwise_singleton _ _, fun a ha b hb => by
    rw [List.mem_singleton.mp hb]
    exact hle a ha⟩

theorem sorted_replicate (o : Origin) (n : Nat) : Sorted (List.replicate n o) :=
  List.pairwise_replicate.mpr (.inr (Nat.le_refl _))

/-! ## Answers -/

theorem Upstream.answer_tags_mem (u : Upstream σ) (ms : List (Origin × FrontendMessage)) :
    ∀ b : σ, ∀ o ∈ (u.answer b ms).2.map Prod.fst, o ∈ ms.map Prod.fst := by
  induction ms with
  | nil => exact fun b o h => h
  | cons x ms ih =>
      intro b o h
      simp only [answer, List.map_append, List.mem_append, List.map_map, List.mem_map,
        Function.comp_apply] at h
      rcases h with ⟨_, _, rfl⟩ | h
      · exact List.mem_cons_self
      · exact List.mem_cons_of_mem _ (ih _ o (List.mem_map.mpr h))

theorem Upstream.answer_tags_sorted (u : Upstream σ) (ms : List (Origin × FrontendMessage)) :
    ∀ b : σ, Sorted (ms.map Prod.fst) → Sorted ((u.answer b ms).2.map Prod.fst) := by
  induction ms with
  | nil => exact fun b h => h
  | cons x ms ih =>
      intro b h
      obtain ⟨hx, hms⟩ := List.pairwise_cons.mp h
      simp only [answer, List.map_append, List.map_map]
      refine List.pairwise_append.mpr ⟨?_, ih _ hms, fun a ha o ho => ?_⟩
      · have : List.map (Prod.fst ∘ fun m => (x.1, m)) (u.respond b x.2).2 =
            List.replicate (u.respond b x.2).2.length x.1 := List.map_const'
        rw [this]
        exact sorted_replicate _ _
      · obtain ⟨_, _, rfl⟩ := List.mem_map.mp ha
        exact hx o (u.answer_tags_mem ms _ o ho)

/-! ## The tags of a connection -/

namespace Conn

/-- The server has not finished what it was given. -/
def busy (u : Upstream σ) (c : Conn σ) : Bool :=
  decide (u.owed c.backend ≠ 0) || u.copying c.backend

def tags (u : Upstream σ) (c : Conn σ) : List Origin :=
  c.inbox.map Prod.fst ++ ((if c.busy u then [c.running] else []) ++ c.outbox.map Prod.fst)

variable {u : Upstream σ} {c : Conn σ}

theorem Quiet.busy (h : c.Quiet u) : c.busy u = false := by
  simp [Conn.busy, h.owed, h.copying]

theorem Quiet.tags (h : c.Quiet u) : c.tags u = [] := by
  simp [Conn.tags, h.busy, h.inbox, h.outbox]

theorem busy_of_interrupt (hu : u.InOrder) (hb : c.busy u = false) :
    (u.interrupt c.backend).2 = [] ∧ (c.cancel u).busy u = false := by
  simp only [busy, Bool.or_eq_false_iff, decide_eq_false_iff_not, not_not] at hb ⊢
  obtain ⟨h1, h2⟩ := hu.interrupt_idle c.backend hb.1 hb.2
  have := hu.interrupt_owed c.backend
  exact ⟨h1, by simp only [cancel]; omega, h2⟩

theorem feed_tags (o : Origin) (m : FrontendMessage) :
    (c.feed o m).tags u = c.tags u ++ [o] := by
  show c.inbox.map Prod.fst ++
    ((if c.busy u then [c.running] else []) ++ (c.outbox ++ [(o, m)]).map Prod.fst) = _
  simp [tags, List.append_assoc]

theorem take_tags {o : Origin} {m : BackendMessage} {rest : List (Origin × BackendMessage)}
    (hin : c.inbox = (o, m) :: rest) :
    c.tags u = o :: { c with inbox := rest, consumed := c.consumed + m.ready }.tags u := by
  show c.inbox.map Prod.fst ++ _ = o :: (rest.map Prod.fst ++ _)
  rw [hin]
  rfl

/-- What a flush makes of the tags. -/
theorem flush_tags (hne : c.outbox ≠ []) :
    ∃ last, c.outbox.map Prod.fst = (c.outbox.map Prod.fst).dropLast ++ [last] ∧
      (c.flush u).tags u = c.inbox.map Prod.fst ++
        ((u.answer c.backend c.outbox).2.map Prod.fst ++
          if (c.flush u).busy u then [last] else []) := by
  have hne' : c.outbox.map Prod.fst ≠ [] := by simpa using hne
  refine ⟨(c.outbox.map Prod.fst).getLast hne', (List.dropLast_append_getLast hne').symm, ?_⟩
  have hrun : (c.flush u).running = (c.outbox.map Prod.fst).getLast hne' := by
    show (c.outbox.getLast?.map Prod.fst).getD c.running = _
    rw [List.getLast?_eq_some_getLast hne, List.getLast_map]
    rfl
  show (c.inbox ++ (u.answer c.backend c.outbox).2).map Prod.fst ++
    ((if (c.flush u).busy u then [(c.flush u).running] else []) ++ []) = _
  rw [hrun, List.map_append, List.append_nil, List.append_assoc]

theorem flush_tags_nil (h : c.outbox = []) : (c.flush u).tags u = c.tags u := by
  simp [tags, flush, busy, h]

theorem flush_tags_mem : ∀ o ∈ (c.flush u).tags u, o ∈ c.tags u := by
  intro o ho
  by_cases hne : c.outbox = []
  · rwa [flush_tags_nil hne] at ho
  obtain ⟨last, hlast, htags⟩ := flush_tags (u := u) hne
  rw [htags] at ho
  have hout : o ∈ c.outbox.map Prod.fst → o ∈ c.tags u := fun h =>
    List.mem_append_right _ (List.mem_append_right _ h)
  rcases List.mem_append.mp ho with ho | ho
  · exact List.mem_append_left _ ho
  rcases List.mem_append.mp ho with ho | ho
  · exact hout (u.answer_tags_mem _ _ o ho)
  · split at ho
    · rw [List.mem_singleton.mp ho] at hout ⊢
      exact hout (hlast ▸ List.mem_append_right _ (List.mem_singleton_self _))
    · cases ho

theorem flush_tags_sorted (h : Sorted (c.tags u)) : Sorted ((c.flush u).tags u) := by
  by_cases hne : c.outbox = []
  · rwa [flush_tags_nil hne]
  obtain ⟨last, hlast, htags⟩ := flush_tags (u := u) hne
  rw [htags]
  obtain ⟨hin, hrest, hcross⟩ := List.pairwise_append.mp h
  have hout : Sorted (c.outbox.map Prod.fst) := (List.pairwise_append.mp hrest).2.1
  have hmem : last ∈ c.outbox.map Prod.fst :=
    hlast ▸ List.mem_append_right _ (List.mem_singleton_self _)
  have hle : ∀ a ∈ c.outbox.map Prod.fst, a.seq ≤ last.seq := by
    intro a ha
    rw [hlast] at ha hout
    rcases List.mem_append.mp ha with ha | ha
    · exact (List.pairwise_append.mp hout).2.2 a ha last (List.mem_singleton_self _)
    · rw [List.mem_singleton.mp ha]
  have hans := u.answer_tags_mem c.outbox c.backend
  -- Everything behind the inbox is an origin of the outbox.
  have htail : ∀ a ∈ (u.answer c.backend c.outbox).2.map Prod.fst ++
      (if (c.flush u).busy u then [last] else []), a ∈ c.outbox.map Prod.fst := by
    intro a ha
    rcases List.mem_append.mp ha with ha | ha
    · exact hans a ha
    · split at ha
      · rwa [List.mem_singleton.mp ha]
      · cases ha
  refine List.pairwise_append.mpr ⟨hin, ?_, fun a ha b hb =>
    hcross a ha b (List.mem_append_right _ (htail b hb))⟩
  have hsort := u.answer_tags_sorted _ c.backend hout
  split
  · exact Sorted.snoc hsort fun a ha => hle a (hans a ha)
  · rwa [List.append_nil]

/-- What a cancel makes of the tags. -/
theorem cancel_tags :
    (c.cancel u).tags u = c.inbox.map Prod.fst ++
      (List.replicate ((u.interrupt c.backend).2.length + ((c.cancel u).busy u).toNat) c.running ++
        c.outbox.map Prod.fst) := by
  show (c.inbox ++ (u.interrupt c.backend).2.map (fun m => (c.running, m))).map Prod.fst ++
    ((if (c.cancel u).busy u then [c.running] else []) ++ c.outbox.map Prod.fst) = _
  rw [List.map_append, List.map_map, List.append_assoc, List.replicate_add]
  have : List.map (Prod.fst ∘ fun m => (c.running, m)) (u.interrupt c.backend).2 =
      List.replicate (u.interrupt c.backend).2.length c.running := List.map_const'
  rw [this]
  cases (c.cancel u).busy u <;> simp

theorem cancel_tags_idle (hu : u.InOrder) (hb : c.busy u = false) :
    (c.cancel u).tags u = c.tags u := by
  obtain ⟨hnil, hb'⟩ := busy_of_interrupt hu hb
  unfold tags
  rw [hb, hb']
  simp [cancel, hnil]

theorem cancel_tags_mem (hu : u.InOrder) : ∀ o ∈ (c.cancel u).tags u, o ∈ c.tags u := by
  intro o ho
  cases hb : c.busy u with
  | false => rwa [cancel_tags_idle hu hb] at ho
  | true =>
      rw [cancel_tags] at ho
      unfold tags
      rw [hb]
      simp only [List.mem_append, List.mem_replicate] at ho
      rcases ho with ho | ⟨_, rfl⟩ | ho
      · exact List.mem_append_left _ ho
      · exact List.mem_append_right _ (List.mem_append_left _ (List.mem_singleton_self _))
      · exact List.mem_append_right _ (List.mem_append_right _ ho)

theorem cancel_tags_sorted (hu : u.InOrder) (h : Sorted (c.tags u)) :
    Sorted ((c.cancel u).tags u) := by
  cases hb : c.busy u with
  | false => rwa [cancel_tags_idle hu hb]
  | true =>
      rw [cancel_tags]
      unfold tags at h
      rw [hb] at h
      obtain ⟨hin, hrest, hcross⟩ := List.pairwise_append.mp h
      obtain ⟨_, hout, hrun⟩ := List.pairwise_append.mp hrest
      have hrep : ∀ {n a}, a ∈ List.replicate n c.running → a ∈ [c.running] := fun ha =>
        List.mem_singleton.mpr (List.eq_of_mem_replicate ha)
      refine List.pairwise_append.mpr ⟨hin, List.pairwise_append.mpr ⟨sorted_replicate _ _, hout,
        fun a ha b hb => hrun a (hrep ha) b hb⟩, fun a ha b hb => ?_⟩
      rcases List.mem_append.mp hb with hb | hb
      · exact hcross a ha b (List.mem_append_left _ (hrep hb))
      · exact hcross a ha b (List.mem_append_right _ hb)

/-- Forwarding a message. -/
theorem put_tags_mem (o : Origin) (m : FrontendMessage) :
    ∀ a ∈ (if m.triggersResponse then c.send u o m else c.feed o m).tags u,
      a ∈ c.tags u ++ [o] := by
  intro a ha
  split at ha
  · exact feed_tags (u := u) o m ▸ flush_tags_mem a ha
  · rwa [feed_tags] at ha

theorem put_tags_sorted (h : Sorted (c.tags u)) {o : Origin} (hle : ∀ a ∈ c.tags u, a.seq ≤ o.seq)
    (m : FrontendMessage) :
    Sorted ((if m.triggersResponse then c.send u o m else c.feed o m).tags u) := by
  have hfeed : Sorted ((c.feed o m).tags u) := by
    rw [feed_tags]
    exact h.snoc hle
  split
  · exact flush_tags_sorted hfeed
  · exact hfeed

end Conn

end Pgferry
