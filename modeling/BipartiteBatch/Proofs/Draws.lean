import BipartiteBatch.Draw.Bounded
import Mathlib.Data.List.Forall2

/-!
# Draws for a list

A list of items is drawn for one by one, each draw starting where the random stream was left by the one
before it.

* `length_mapDraws`, `forall_mem_mapDraws`, `forall₂_mapDraws` : what holds of every draw holds of a list
  of them;
* `mapDraws_append` : draws for a list continue those for the list before it;
* `mapDraws_map` : what is made of each draw can be made of them afterwards;
* `mapDraws_of_still` : items that take no draw.
-/

namespace BipartiteBatch.Draw

variable {α β γ : Type} {f : α → Keystream → β × Keystream}

@[simp] theorem length_mapDraws (xs : List α) (s : Keystream) :
    (mapDraws f xs s).1.length = xs.length := by
  induction xs generalizing s with
  | nil => rfl
  | cons x xs ih => rw [mapDraws_cons, List.length_cons, List.length_cons, ih]

theorem forall_mem_mapDraws {P : β → Prop} {xs : List α} (h : ∀ x ∈ xs, ∀ s, P (f x s).1)
    (s : Keystream) : ∀ y ∈ (mapDraws f xs s).1, P y := by
  induction xs generalizing s with
  | nil => intro y hy; cases hy
  | cons x xs ih =>
    rw [mapDraws_cons, List.forall_mem_cons]
    exact ⟨h x List.mem_cons_self s, ih (fun x hx => h x (List.mem_cons_of_mem _ hx)) _⟩

/-- What holds of every draw for an item holds of the item and its place in a list of draws. -/
theorem forall₂_mapDraws {P : α → β → Prop} {xs : List α} (h : ∀ x ∈ xs, ∀ s, P x (f x s).1)
    (s : Keystream) : List.Forall₂ P xs (mapDraws f xs s).1 := by
  induction xs generalizing s with
  | nil => exact .nil
  | cons x xs ih =>
    rw [mapDraws_cons]
    exact .cons (h x List.mem_cons_self s) (ih (fun x hx => h x (List.mem_cons_of_mem _ hx)) _)

theorem mapDraws_append (xs ys : List α) (s : Keystream) :
    mapDraws f (xs ++ ys) s
      = ((mapDraws f xs s).1 ++ (mapDraws f ys (mapDraws f xs s).2).1,
        (mapDraws f ys (mapDraws f xs s).2).2) := by
  induction xs generalizing s with
  | nil => rfl
  | cons x xs ih =>
    rw [List.cons_append, mapDraws_cons, mapDraws_cons, ih]
    rfl

theorem mapDraws_map (g : β → γ) (xs : List α) (s : Keystream) :
    mapDraws (fun x s => (g (f x s).1, (f x s).2)) xs s
      = ((mapDraws f xs s).1.map g, (mapDraws f xs s).2) := by
  induction xs generalizing s with
  | nil => rfl
  | cons x xs ih =>
    rw [mapDraws_cons, mapDraws_cons, ih]
    rfl

theorem mapDraws_of_still {g : α → β} {xs : List α} {s : Keystream} (h : ∀ x ∈ xs, f x s = (g x, s)) :
    mapDraws f xs s = (xs.map g, s) := by
  induction xs with
  | nil => rfl
  | cons x xs ih =>
    rw [List.forall_mem_cons] at h
    rw [mapDraws_cons, h.1, ih h.2, List.map_cons]

end BipartiteBatch.Draw
