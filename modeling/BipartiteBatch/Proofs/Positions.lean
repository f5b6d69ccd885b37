import BipartiteBatch.Draw.Subset
import Mathlib.Data.List.Basic

/-!
# Distinct positions

However a choice is made and whatever is drawn for it, it has as many positions as were asked for, no
position twice, and all of them below the length. Growing keeps this with every position that is added,
since the number that is put in for a repeated draw is above all those before it. Shuffling only ever
swaps places.

* `Chosen` : distinct positions below a length, as many as were asked for;
* `Chosen.place`, `Chosen.append` : one more position, `chosen_growFrom` : any number of them;
* `perm_shuffleFrom`, `perm_mixFrom` : swaps keep the positions;
* `chosen_positions` : every choice is of this kind.
-/

namespace BipartiteBatch.Draw

/-- The positions are distinct and below a length, and there are `amount` of them. -/
structure Chosen (length amount : Nat) (chosen : List Nat) : Prop where
  nodup : chosen.Nodup
  lt : ∀ p ∈ chosen, p < length
  length_eq : chosen.length = amount

variable {length amount : Nat} {chosen : List Nat}

theorem Chosen.perm {other : List Nat} (h : Chosen length amount chosen) (hperm : other.Perm chosen) :
    Chosen length amount other where
  nodup := hperm.nodup_iff.2 h.nodup
  lt p hp := h.lt p (hperm.mem_iff.1 hp)
  length_eq := hperm.length_eq.trans h.length_eq

/-! ## Growing -/

/-- A choice of positions below `j` grows by `j` or by a position below it. -/
theorem Chosen.cons {j t : Nat} (h : Chosen j amount chosen) (ht : t ≤ j) (hnew : t ∉ chosen) :
    Chosen (j + 1) (amount + 1) (t :: chosen) where
  nodup := List.nodup_cons.2 ⟨hnew, h.nodup⟩
  lt := by
    rw [List.forall_mem_cons]
    exact ⟨Nat.lt_succ_of_le ht, fun p hp => Nat.lt_succ_of_lt (h.lt p hp)⟩
  length_eq := by rw [List.length_cons, h.length_eq]

theorem Chosen.not_mem {j : Nat} (h : Chosen j amount chosen) : j ∉ chosen :=
  fun hj => Nat.lt_irrefl j (h.lt j hj)

theorem Chosen.place {j t : Nat} (h : Chosen j amount chosen) (ht : t ≤ j) :
    Chosen (j + 1) (amount + 1) (place chosen t j) := by
  unfold Draw.place
  split
  · -- `j` goes where the repeated position stands
    have hperm := List.perm_insertIdx j chosen (i := chosen.idxOf t) List.idxOf_le_length
    exact (h.cons (Nat.le_refl j) h.not_mem).perm hperm
  · next hnew =>
    rw [List.contains_iff_mem] at hnew
    exact (h.cons ht hnew).perm (List.perm_append_singleton t chosen)

theorem Chosen.append {j t : Nat} (h : Chosen j amount chosen) (ht : t ≤ j) :
    Chosen (j + 1) (amount + 1) (append chosen t j) := by
  unfold Draw.append
  refine Chosen.perm ?_ (List.perm_append_singleton _ chosen)
  split
  · exact h.cons (Nat.le_refl j) h.not_mem
  · next hnew =>
    rw [List.contains_iff_mem] at hnew
    exact h.cons ht hnew

theorem chosen_growFrom {add : List Nat → Nat → Nat → List Nat}
    (hadd : ∀ {j amount t chosen}, Chosen j amount chosen → t ≤ j →
      Chosen (j + 1) (amount + 1) (add chosen t j)) :
    ∀ (count : Nat) {j amount : Nat} {chosen : List Nat}, Chosen j amount chosen →
      ∀ s, Chosen (j + count) (amount + count) (growFrom add count j chosen s).1
  | 0, _, _, _, h, _ => h
  | count + 1, j, amount, chosen, h, s => by
    have hdrawn : (below .word (j + 1) s).1 ≤ j := Nat.le_of_lt_succ (below_lt .word (Nat.succ_pos j) s)
    have hrest := chosen_growFrom hadd count (hadd h hdrawn) (below .word (j + 1) s).2
    rw [Nat.add_right_comm, Nat.add_right_comm amount] at hrest
    exact hrest

theorem chosen_grow {add : List Nat → Nat → Nat → List Nat}
    (hadd : ∀ {j amount t chosen}, Chosen j amount chosen → t ≤ j →
      Chosen (j + 1) (amount + 1) (add chosen t j)) (h : amount ≤ length) (s : Keystream) :
    Chosen length amount (grow add length amount s).1 := by
  have hnone : Chosen (length - amount) 0 [] := ⟨List.nodup_nil, nofun, rfl⟩
  have hgrown := chosen_growFrom hadd amount hnone s
  rwa [Nat.sub_add_cancel h, Nat.zero_add] at hgrown

/-! ## Swapping -/

theorem perm_swapIfInBounds (a : Array Nat) (i j : Nat) :
    (a.swapIfInBounds i j).toList.Perm a.toList := by
  unfold Array.swapIfInBounds
  split
  · split
    · exact (Array.swap_perm _ _).toList
    · exact .refl _
  · exact .refl _

theorem perm_mixFrom : ∀ (i : Nat) (a : Array Nat) (s : Keystream),
    (mixFrom i a s).1.toList.Perm a.toList
  | 0, a, _ => .refl a.toList
  | i + 1, a, s => (perm_mixFrom i _ _).trans (perm_swapIfInBounds a (i + 1) (below .word (i + 2) s).1)

theorem perm_shuffleFrom : ∀ (count i : Nat) (a : Array Nat) (s : Keystream),
    (shuffleFrom count i a s).1.toList.Perm a.toList
  | 0, _, a, _ => .refl a.toList
  | count + 1, i, a, s =>
    (perm_shuffleFrom count (i + 1) _ _).trans
      (perm_swapIfInBounds a i (i + (below .word (a.size - i) s).1))

theorem chosen_shuffle (h : amount ≤ length) (s : Keystream) :
    Chosen length amount (shuffle length amount s).1 := by
  have hperm : (shuffleFrom amount 0 (Array.range length) s).1.toList.Perm (List.range length) := by
    rw [← Array.toList_range]
    exact perm_shuffleFrom amount 0 (Array.range length) s
  have hall : Chosen length length (shuffleFrom amount 0 (Array.range length) s).1.toList :=
    Chosen.perm ⟨List.nodup_range, fun p hp => List.mem_range.1 hp, List.length_range⟩ hperm
  exact ⟨hall.nodup.sublist (List.take_sublist _ _), fun p hp => hall.lt p (List.mem_of_mem_take hp),
    by rw [shuffle, List.length_take, hall.length_eq, Nat.min_eq_left h]⟩

/-! ## Choosing -/

/-- Every choice is of as many distinct positions as were asked for. -/
theorem chosen_positions (h : amount ≤ length) (s : Keystream) :
    Chosen length amount (positions length amount s).1 := by
  unfold positions
  split
  · exact chosen_grow Chosen.place h s
  · exact (chosen_grow Chosen.append h s).perm (perm_mixFrom _ _ _)
  · exact chosen_shuffle h s

end BipartiteBatch.Draw
