/-
  Tables: lists that are read by index and whose entries are replaced in place.

  `Each P` says that every entry has `P`, which may depend on its index, and `Apart f` that no two
  entries have the same key `f`. The rules say what is left to prove when one entry is replaced or
  added; `countP_set_add` is the count of a table in which one entry was replaced.
-/
import Mathlib.Data.List.Basic

namespace Table

variable {α β : Type} {P : Nat → α → Prop} {f : α → Option β} {xs : List α} {t : Nat} {x x' : α}

/-! ## Entries -/

def Each (P : Nat → α → Prop) (xs : List α) : Prop := ∀ k x, xs[k]? = some x → P k x

theorem each_nil : Each P [] := fun _ _ h => by cases h

theorem each_set (hself : P t x') (hother : ∀ k x, k ≠ t → xs[k]? = some x → P k x) :
    Each P (xs.set t x') := by
  intro k x hx
  by_cases hk : k = t
  · subst hk
    rw [List.getElem?_set] at hx
    split at hx
    · split at hx <;> cases hx
      exact hself
    · exact absurd rfl ‹_›
  · rw [List.getElem?_set_ne (Ne.symm hk)] at hx
    exact hother k x hk hx

theorem each_concat (hlast : P xs.length x') (h : Each P xs) : Each P (xs ++ [x']) := by
  intro k x hx
  rcases Nat.lt_trichotomy k xs.length with hlt | rfl | hgt
  · exact h k x (by rwa [List.getElem?_append_left hlt] at hx)
  · rw [List.getElem?_concat_length] at hx
    cases hx
    exact hlast
  · rw [List.getElem?_eq_none (by rw [List.length_append, List.length_singleton]; omega)] at hx
    cases hx

/-! ## Keys -/

/-- Two entries with the same key are one. -/
def Apart (f : α → Option β) (xs : List α) : Prop :=
  ∀ k x b, xs[k]? = some x → f x = some b → Each (fun k' x' => f x' = some b → k' = k) xs

theorem apart_of_none (h : Each (fun _ x => f x = none) xs) : Apart f xs := by
  intro k x b hx hb
  rw [h k x hx] at hb
  cases hb

/-- The new entry has a key that no other entry has. -/
theorem Apart.set (h : Apart f xs)
    (hfresh : ∀ b, f x' = some b → Each (fun k x => f x = some b → k = t) xs) :
    Apart f (xs.set t x') := by
  intro k x b hx hb
  by_cases hk : k = t
  · subst hk
    rw [List.getElem?_set_self (by simpa using (List.getElem?_eq_some_iff.mp hx).1)] at hx
    cases hx
    exact each_set (fun _ => rfl) fun k' y _ => hfresh b hb k' y
  · rw [List.getElem?_set_ne (Ne.symm hk)] at hx
    refine each_set (fun hb' => ?_) fun k' y _ => h k x b hx hb k' y
    exact absurd (hfresh b hb' k x hx hb) hk

theorem Apart.concat (h : Apart f xs) (hnone : f x' = none) : Apart f (xs ++ [x']) := by
  intro k x b hx hb
  have hlast : f x' ≠ some b := by simp [hnone]
  have hold : Each (fun k x => f x = some b → xs[k]? = some x) (xs ++ [x']) :=
    each_concat (fun hb' => absurd hb' hlast) fun k y hy _ => hy
  exact each_concat (fun hb' => absurd hb' hlast) (h k x b (hold k x hx hb) hb)

/-! ## Counts -/

theorem countP_set_add (h : xs[t]? = some x) (q : α → Bool) (x' : α) :
    (xs.set t x').countP q + (q x).toNat = xs.countP q + (q x').toNat := by
  induction xs generalizing t with
  | nil => cases h
  | cons a xs ih =>
      cases t with
      | zero =>
          cases h
          rw [List.set_cons_zero, List.countP_cons, List.countP_cons]
          cases q x <;> cases q x' <;> simp
      | succ t =>
          have h' : xs[t]? = some x := h
          have := ih h'
          rw [List.set_cons_succ, List.countP_cons, List.countP_cons]
          omega

end Table
