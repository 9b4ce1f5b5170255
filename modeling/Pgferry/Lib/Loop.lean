/-
  Loop bodies with early exits, and runs of a step function.

  A body of a `loop { .. }` falls through to its next phase, leaves the iteration with
  `continue`, or leaves the loop with `break`. `Flow` is the outcome of one phase, `andThen`
  chains the phases and `Flow.Post` is the postcondition of a phase: one assertion for falling
  through and one for the two exits. `andThen_post` is the rule for a chain of phases.

  `run` folds a step function over a list of events. `Along ok` says that every step of a run
  meets the side condition `ok` in the state in which it is taken, and `run_inv` is the rule
  that lifts an invariant of the step to the run. `observe` runs with an observer who takes notes
  and changes nothing. `total` adds up what the steps of a run add, and
  `run_total` is the rule for an amount that every step changes by so much.
-/
import Mathlib.Data.List.Basic

namespace Loop

variable {S E α β : Type}

/-! ## One iteration -/

/-- The outcome of one phase of a loop body. `halt s none` is `continue` and `halt s (some e)`
    is `break` with the reason `e`. -/
inductive Flow (S E α : Type) where
  | next (s : S) (a : α)
  | halt (s : S) (e : Option E)

namespace Flow

/-- Run the next phase when the first one falls through. -/
def andThen (f : Flow S E α) (g : S → α → Flow S E β) : Flow S E β :=
  match f with
  | next s a => g s a
  | halt s e => halt s e

/-- The state after the iteration and the reason for leaving the loop, if any. -/
def close (f : Flow S E Unit) : S × Option E :=
  match f with
  | next s _ => (s, none)
  | halt s e => (s, e)

/-- Postcondition of a phase: `P` when it falls through, `Q` when it leaves the iteration. -/
def Post (f : Flow S E α) (P : S → α → Prop) (Q : S → Option E → Prop) : Prop :=
  match f with
  | next s a => P s a
  | halt s e => Q s e

@[simp] theorem andThen_next (s : S) (a : α) (g : S → α → Flow S E β) :
    (next s a : Flow S E α).andThen g = g s a := rfl

@[simp] theorem andThen_halt (s : S) (e : Option E) (g : S → α → Flow S E β) :
    (halt s e : Flow S E α).andThen g = halt s e := rfl

theorem andThen_assoc {γ : Type} (f : Flow S E α) (g : S → α → Flow S E β)
    (k : S → β → Flow S E γ) :
    (f.andThen g).andThen k = f.andThen fun s a => (g s a).andThen k := by
  cases f <;> rfl

/-- A chain falls through when both phases do. -/
theorem andThen_eq_next {f : Flow S E α} {g : S → α → Flow S E β} {s' : S} {b : β}
    (h : f.andThen g = next s' b) : ∃ s a, f = next s a ∧ g s a = next s' b := by
  cases f with
  | next s a => exact ⟨s, a, rfl, h⟩
  | halt s e => cases h

@[simp] theorem post_next (s : S) (a : α) (P : S → α → Prop) (Q : S → Option E → Prop) :
    (next s a : Flow S E α).Post P Q ↔ P s a := Iff.rfl

@[simp] theorem post_halt (s : S) (e : Option E) (P : S → α → Prop) (Q : S → Option E → Prop) :
    (halt s e : Flow S E α).Post P Q ↔ Q s e := Iff.rfl

@[simp] theorem close_next (s : S) : (next s () : Flow S E Unit).close = (s, none) := rfl

@[simp] theorem close_halt (s : S) (e : Option E) :
    (halt s e : Flow S E Unit).close = (s, e) := rfl

/-- Chaining rule: the second phase starts from whatever the first one guarantees. -/
theorem andThen_post {f : Flow S E α} {g : S → α → Flow S E β} {P : S → α → Prop}
    {P' : S → β → Prop} {Q : S → Option E → Prop} (hf : f.Post P Q)
    (hg : ∀ s a, P s a → (g s a).Post P' Q) : (f.andThen g).Post P' Q := by
  cases f with
  | next s a => exact hg s a hf
  | halt s e => exact hf

theorem Post.mono {f : Flow S E α} {P P' : S → α → Prop} {Q Q' : S → Option E → Prop}
    (h : f.Post P Q) (hP : ∀ s a, P s a → P' s a) (hQ : ∀ s e, Q s e → Q' s e) :
    f.Post P' Q' := by
  cases f with
  | next s a => exact hP s a h
  | halt s e => exact hQ s e h

theorem close_post {f : Flow S E Unit} {Q : S → Option E → Prop}
    (h : f.Post (fun s _ => Q s none) Q) : Q f.close.1 f.close.2 := by
  cases f with
  | next s a => exact h
  | halt s e => exact h

end Flow

/-! ## Runs -/

section Runs

variable (step : S → E → S)

/-- The state after the events `es`, in order. -/
def run (s : S) (es : List E) : S := es.foldl step s

/-- Every step of the run from `s` meets `ok` in the state in which it is taken. -/
def Along (ok : S → E → Prop) : S → List E → Prop
  | _, [] => True
  | s, e :: es => ok s e ∧ Along ok (step s e) es

instance decidableAlong (ok : S → E → Prop) [∀ s e, Decidable (ok s e)] :
    ∀ (s : S) (es : List E), Decidable (Along step ok s es)
  | _, [] => isTrue trivial
  | s, e :: es =>
      @instDecidableAnd _ _ (inferInstanceAs (Decidable (ok s e)))
        (decidableAlong ok (step s e) es)

@[simp] theorem run_nil (s : S) : run step s [] = s := rfl

@[simp] theorem run_cons (s : S) (e : E) (es : List E) :
    run step s (e :: es) = run step (step s e) es := rfl

theorem run_append (s : S) (es fs : List E) :
    run step s (es ++ fs) = run step (run step s es) fs := by
  simp [run, List.foldl_append]

variable {step}

theorem along_append {ok : S → E → Prop} (s : S) (es fs : List E) :
    Along step ok s (es ++ fs) ↔ Along step ok s es ∧ Along step ok (run step s es) fs := by
  induction es generalizing s with
  | nil => simp [Along]
  | cons e es ih =>
      simp only [List.cons_append, Along, run_cons]
      rw [ih, and_assoc]

theorem Along.mono {ok ok' : S → E → Prop} (h : ∀ s e, ok s e → ok' s e) (s : S) (es : List E)
    (ha : Along step ok s es) : Along step ok' s es := by
  induction es generalizing s with
  | nil => trivial
  | cons e es ih => exact ⟨h s e ha.1, ih _ ha.2⟩

theorem Along.and {ok ok' : S → E → Prop} {s : S} {es : List E} (h : Along step ok s es)
    (h' : Along step ok' s es) : Along step (fun s e => ok s e ∧ ok' s e) s es := by
  induction es generalizing s with
  | nil => trivial
  | cons e es ih => exact ⟨⟨h.1, h'.1⟩, ih h.2 h'.2⟩

/-- A side condition may use where in the run it is asked for. -/
theorem Along.positions {ok ok' : S → E → Prop} {s : S} {es : List E} (ha : Along step ok s es)
    (h : ∀ es₁ e es₂, es = es₁ ++ e :: es₂ → ok (run step s es₁) e → ok' (run step s es₁) e) :
    Along step ok' s es := by
  induction es generalizing s with
  | nil => trivial
  | cons e es ih =>
      refine ⟨h [] e es rfl ha.1, ih ha.2 fun es₁ e' es₂ hes hok => ?_⟩
      exact h (e :: es₁) e' es₂ (by rw [hes]; rfl) hok

/-- Without side conditions every run is admissible. -/
theorem along_true (s : S) (es : List E) : Along step (fun _ _ => True) s es := by
  induction es generalizing s with
  | nil => trivial
  | cons e es ih => exact ⟨trivial, ih _⟩

/-- What every admissible step from a state with the invariant meets, every step of an admissible
    run meets. -/
theorem Along.of_inv {ok good : S → E → Prop} {Inv : S → Prop}
    (hstep : ∀ s e, Inv s → ok s e → good s e ∧ Inv (step s e)) (s : S) (es : List E) (hs : Inv s)
    (ha : Along step ok s es) : Along step good s es := by
  induction es generalizing s with
  | nil => trivial
  | cons e es ih =>
      obtain ⟨hgood, hinv⟩ := hstep s e hs ha.1
      exact ⟨hgood, ih _ hinv ha.2⟩

/-- An invariant that every admissible step preserves holds after every admissible run. -/
theorem run_inv {ok : S → E → Prop} {Inv : S → Prop}
    (hstep : ∀ s e, Inv s → ok s e → Inv (step s e)) (s : S) (es : List E) (hs : Inv s)
    (ha : Along step ok s es) : Inv (run step s es) := by
  induction es generalizing s with
  | nil => exact hs
  | cons e es ih => exact ih _ (hstep s e hs ha.1) ha.2

/-! ## Observers -/

section Observe

variable (step) (f : S → E → List α)

/-- A step together with what an observer notes at it. -/
def observe (p : S × List α) (e : E) : S × List α := (step p.1 e, p.2 ++ f p.1 e)

/-- The observer does not change which runs are admissible. -/
theorem along_observe {ok : S → E → Prop} (p : S × List α) (es : List E)
    (ha : Along step ok p.1 es) : Along (observe step f) (fun p e => ok p.1 e) p es := by
  induction es generalizing p with
  | nil => trivial
  | cons e es ih => exact ⟨ha.1, ih (observe step f p e) ha.2⟩

end Observe

/-! ## Sums along a run -/

variable (step) in
/-- The sum of what every step of the run from `s` adds. -/
def total (w : S → E → Int) : S → List E → Int
  | _, [] => 0
  | s, e :: es => w s e + total w (step s e) es

/-- An amount that every step changes by `w` has changed by the sum after a run. -/
theorem run_total {f : S → Int} {w : S → E → Int} (h : ∀ s e, f (step s e) = f s + w s e)
    (s : S) (es : List E) : f (run step s es) = f s + total step w s es := by
  induction es generalizing s with
  | nil => exact (Int.add_zero _).symm
  | cons e es ih =>
      rw [run_cons, ih, h, total]
      omega

/-- Steps that add the same. -/
theorem total_congr {w w' : S → E → Int} (s : S) (es : List E)
    (h : Along step (fun s e => w s e = w' s e) s es) : total step w s es = total step w' s es := by
  induction es generalizing s with
  | nil => rfl
  | cons e es ih => rw [total, total, h.1, ih _ h.2]

theorem total_neg {w : S → E → Int} (s : S) (es : List E) :
    total step (fun s e => -w s e) s es = -total step w s es := by
  induction es generalizing s with
  | nil => rfl
  | cons e es ih =>
      rw [total, total, ih]
      omega

/-- A sum of amounts that are never negative. -/
theorem total_nonneg {w : S → E → Int} (h : ∀ s e, 0 ≤ w s e) (s : S) (es : List E) :
    0 ≤ total step w s es := by
  induction es generalizing s with
  | nil => exact Int.le_refl 0
  | cons e es ih => exact Int.add_nonneg (h s e) (ih _)

theorem total_eq_zero {w : S → E → Int} (h : ∀ s e, 0 ≤ w s e) (s : S) (es : List E) :
    total step w s es = 0 ↔ Along step (fun s e => w s e = 0) s es := by
  induction es generalizing s with
  | nil => exact iff_of_true rfl trivial
  | cons e es ih =>
      have h1 := h s e
      have h2 : 0 ≤ total step w (step s e) es := total_nonneg h (step s e) es
      rw [total, Along, ← ih]
      omega

end Runs

end Loop
