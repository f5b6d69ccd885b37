import Mathlib.Data.List.Forall2

/-!
# Results that may be errors

When a sequence of steps gives a value, each step has given one; when it fails, the first step that fails
has failed so. A list of steps gives the list of their values or fails as the first of them that fails.

* `except_bind_eq_ok`, `except_bind_eq_error` : a sequence of two steps;
* `errorOf?` : the error of a result, `errorOf?_both`, `errorOf?_mapM` : of several, the first;
* `mapM_eq_ok`, `mapM_eq_error` : a list of steps.
-/

namespace BipartiteBatch

variable {ε ε' α β δ : Type}

theorem except_bind_eq_ok {x : Except ε α} {f : α → Except ε β} {b : β} :
    (x >>= f) = .ok b ↔ ∃ a, x = .ok a ∧ f a = .ok b := by
  cases x with
  | error e =>
    constructor
    · intro h; cases h
    · rintro ⟨a, h, -⟩; cases h
  | ok a =>
    constructor
    · intro h; exact ⟨a, rfl, h⟩
    · rintro ⟨a', h, hf⟩
      obtain rfl := Except.ok.inj h
      exact hf

theorem except_bind_eq_error {x : Except ε α} {f : α → Except ε β} {e : ε} :
    (x >>= f) = .error e ↔ x = .error e ∨ ∃ a, x = .ok a ∧ f a = .error e := by
  cases x with
  | error e' =>
    constructor
    · intro h
      cases h
      exact .inl rfl
    · rintro (h | ⟨a, h, -⟩)
      · cases h
        rfl
      · cases h
  | ok a =>
    constructor
    · intro h
      exact .inr ⟨a, rfl, h⟩
    · rintro (h | ⟨a', h, hf⟩)
      · cases h
      · obtain rfl := Except.ok.inj h
        exact hf

theorem except_pure_eq_ok {a b : α} : (pure a : Except ε α) = .ok b ↔ a = b := by
  show Except.ok a = .ok b ↔ a = b
  rw [Except.ok.injEq]

theorem except_unless_eq_ok {x : Except ε α} {p : α → Prop} [DecidablePred p] {e : ε} {a : α} :
    (do
      let a ← x
      if p a then throw e
      return a : Except ε α) = .ok a ↔ x = .ok a ∧ ¬ p a := by
  cases x with
  | error e' => exact iff_of_false nofun nofun
  | ok b =>
    show (if p b then _ else _) = _ ↔ _
    by_cases hb : p b
    · rw [if_pos hb]
      refine iff_of_false nofun ?_
      rintro ⟨⟨⟩, ha⟩
      exact ha hb
    · rw [if_neg hb]
      constructor
      · rintro ⟨⟩
        exact ⟨rfl, hb⟩
      · rintro ⟨⟨⟩, -⟩
        rfl

theorem except_map_eq_ok {x : Except ε α} {f : α → β} {b : β} :
    x.map f = .ok b ↔ ∃ a, x = .ok a ∧ f a = b := by
  cases x with
  | error e =>
    constructor
    · intro h; cases h
    · rintro ⟨a, h, -⟩; cases h
  | ok a => simp [Except.map]

theorem mapError_eq_ok {x : Except ε α} {f : ε → ε'} {a : α} : x.mapError f = .ok a ↔ x = .ok a := by
  cases x with
  | error e =>
    constructor
    · intro h; cases h
    · intro h; cases h
  | ok b => simp [Except.mapError]

theorem mapError_eq_error {x : Except ε α} {f : ε → ε'} (hf : ∀ e e', f e = f e' → e = e') {e : ε} :
    x.mapError f = .error (f e) ↔ x = .error e := by
  cases x with
  | error e' =>
    simp only [Except.mapError, Except.error.injEq]
    exact ⟨hf _ _, congrArg f⟩
  | ok a => simp [Except.mapError]

theorem except_exists_ok_iff {x : Except ε α} : (∃ a, x = .ok a) ↔ ∀ e, x ≠ .error e := by
  cases x with
  | error e => simp
  | ok a => simp

def errorOf? : Except ε α → Option ε
  | .ok _ => none
  | .error e => some e

theorem errorOf?_eq_some {x : Except ε α} {e : ε} : errorOf? x = some e ↔ x = .error e := by
  cases x with
  | error e' => simp [errorOf?]
  | ok a => simp [errorOf?]

theorem errorOf?_eq_none {x : Except ε α} : errorOf? x = none ↔ ∃ a, x = .ok a := by
  cases x with
  | error e => simp [errorOf?]
  | ok a => simp [errorOf?]

/-- Where a first step does not fail, the two fail as the second does, here in the same way after every
value. -/
theorem errorOf?_bind {x : Except ε α} {f : α → Except ε β} {second : Option ε}
    (h : ∀ a, errorOf? (f a) = second) : errorOf? (x >>= f) = (errorOf? x).or second := by
  cases x with
  | error e => rfl
  | ok a => exact h a

theorem errorOf?_map {x : Except ε α} {f : α → β} : errorOf? (x.map f) = errorOf? x := by
  cases x with
  | error e => rfl
  | ok a => rfl

theorem errorOf?_bind_pure {x : Except ε α} {f : α → β} :
    errorOf? (do let a ← x; return f a) = errorOf? x := by
  cases x with
  | error e => rfl
  | ok a => rfl

/-- Two steps that do not depend on each other have the first of their errors. -/
theorem errorOf?_both {x : Except ε α} {y : Except ε β} {f : α → β → δ} :
    errorOf? (do let a ← x; let b ← y; return f a b) = (errorOf? x).or (errorOf? y) :=
  errorOf?_bind fun _ => errorOf?_bind_pure

theorem exists_mem_of_forall₂ {R : α → β → Prop} {xs : List α} {ys : List β}
    (h : List.Forall₂ R xs ys) {y : β} (hy : y ∈ ys) : ∃ x ∈ xs, R x y := by
  induction h with
  | nil => cases hy
  | cons hR _ ih =>
    rcases List.mem_cons.1 hy with rfl | hy
    · exact ⟨_, List.mem_cons_self, hR⟩
    · obtain ⟨x, hx, hR⟩ := ih hy
      exact ⟨x, List.mem_cons_of_mem _ hx, hR⟩

/-- A list of steps gives values if each step gives the value at its place. -/
theorem mapM_eq_ok {f : α → Except ε β} {xs : List α} {ys : List β} :
    xs.mapM f = .ok ys ↔ List.Forall₂ (fun x y => f x = .ok y) xs ys := by
  induction xs generalizing ys with
  | nil =>
    rw [List.mapM_nil, except_pure_eq_ok, List.forall₂_nil_left_iff]
    exact eq_comm
  | cons x xs ih =>
    rw [List.mapM_cons, except_bind_eq_ok]
    constructor
    · rintro ⟨y, hy, h⟩
      obtain ⟨rest, hrest, h⟩ := except_bind_eq_ok.1 h
      obtain rfl := except_pure_eq_ok.1 h
      exact .cons hy (ih.1 hrest)
    · intro h
      cases h with
      | cons hy hrest => exact ⟨_, hy, except_bind_eq_ok.2 ⟨_, ih.2 hrest, rfl⟩⟩

theorem mapM_eq_map {f : α → Except ε β} {g : α → β} {xs : List α}
    (h : ∀ x ∈ xs, f x = .ok (g x)) : xs.mapM f = .ok (xs.map g) := by
  rw [mapM_eq_ok, List.forall₂_map_right_iff, List.forall₂_same]
  exact h

theorem exists_mapM_eq_ok {f : α → Except ε β} {xs : List α} (h : ∀ x ∈ xs, ∃ y, f x = .ok y) :
    ∃ ys, xs.mapM f = .ok ys := by
  induction xs with
  | nil => exact ⟨[], rfl⟩
  | cons x xs ih =>
    obtain ⟨y, hy⟩ := h x List.mem_cons_self
    obtain ⟨ys, hys⟩ := ih fun x hx => h x (List.mem_cons_of_mem _ hx)
    exact ⟨y :: ys, mapM_eq_ok.2 (.cons hy (mapM_eq_ok.1 hys))⟩

theorem errorOf?_mapM {f : α → Except ε β} {xs : List α} :
    errorOf? (xs.mapM f) = xs.findSome? fun x => errorOf? (f x) := by
  induction xs with
  | nil => rfl
  | cons x xs ih =>
    rw [List.mapM_cons, errorOf?_both, ih, List.findSome?_cons]
    cases errorOf? (f x) with
    | none => rfl
    | some e => rfl

theorem mapM_eq_error {f : α → Except ε β} {xs : List α} {e : ε} :
    xs.mapM f = .error e ↔ ∃ before x after, xs = before ++ x :: after
      ∧ (∀ y ∈ before, ∃ b, f y = .ok b) ∧ f x = .error e := by
  rw [← errorOf?_eq_some, errorOf?_mapM, List.findSome?_eq_some_iff]
  simp only [errorOf?_eq_some, errorOf?_eq_none]
  constructor
  · rintro ⟨before, x, after, hxs, hx, hbefore⟩
    exact ⟨before, x, after, hxs, hbefore, hx⟩
  · rintro ⟨before, x, after, hxs, hbefore, hx⟩
    exact ⟨before, x, after, hxs, hx, hbefore⟩

/-- If the steps that fail are those for bad items, a list of steps fails as the one for the first bad
item. -/
theorem mapM_eq_error_iff_find? {f : α → Except ε β} {g : α → ε} {p : α → Bool} {xs : List α} {e : ε}
    (hok : ∀ x ∈ xs, p x = false → ∃ y, f x = .ok y) (herror : ∀ x ∈ xs, p x = true → f x = .error (g x)) :
    xs.mapM f = .error e ↔ ∃ x, xs.find? p = some x ∧ e = g x := by
  rw [mapM_eq_error]
  constructor
  · rintro ⟨before, x, after, rfl, hbefore, hx⟩
    have hmem : x ∈ before ++ x :: after := by simp
    have hbad : p x = true := by
      by_contra hgood
      obtain ⟨y, hy⟩ := hok x hmem (eq_false_of_ne_true hgood)
      rw [hx] at hy
      cases hy
    have hfirst : ∀ y ∈ before, p y = false := by
      intro y hy
      by_contra hbad
      obtain ⟨b, hb⟩ := hbefore y hy
      rw [herror y (List.mem_append_left _ hy) (eq_true_of_ne_false hbad)] at hb
      cases hb
    refine ⟨x, List.find?_eq_some_iff_append.2 ⟨hbad, before, after, rfl, ?_⟩, ?_⟩
    · intro y hy
      rw [hfirst y hy]
      rfl
    · rw [herror x hmem hbad] at hx
      exact (Except.error.inj hx).symm
  · rintro ⟨x, hfind, rfl⟩
    obtain ⟨hbad, before, after, rfl, hbefore⟩ := List.find?_eq_some_iff_append.1 hfind
    refine ⟨before, x, after, rfl, fun y hy => ?_, herror x (by simp) hbad⟩
    exact hok y (List.mem_append_left _ hy) (by simpa using hbefore y hy)

theorem forall_ok_of_mapM {f : α → Except ε β} {xs : List α} {ys : List β} (h : xs.mapM f = .ok ys) :
    ∀ x ∈ xs, ∃ y, f x = .ok y := by
  have hall := mapM_eq_ok.1 h
  clear h
  induction hall with
  | nil => exact nofun
  | cons hx _ ih => exact List.forall_mem_cons.2 ⟨⟨_, hx⟩, ih⟩

end BipartiteBatch
