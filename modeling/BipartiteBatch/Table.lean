/-!
# Tables ordered by name

A table holds values under names, its entries in ascending order of the names. Names are compared
character by character. Since the order is part of the type, tables with the same values under the same
names are equal, whatever was done to get them (`Table.ext_get?`).

* `get?`, `insert`, `erase`, `names`, `size` : the operations;
* `get?_insert`, `get?_erase`, `get?_empty` : what they do to the values under the names.
-/

namespace BipartiteBatch

def Ascending {α : Type} (entries : List (String × α)) : Prop :=
  entries.Pairwise fun a b => a.1 < b.1

def insertEntry {α : Type} (name : String) (value : α) : List (String × α) → List (String × α)
  | [] => [(name, value)]
  | e :: es =>
    if name < e.1 then (name, value) :: e :: es
    else if name = e.1 then (name, value) :: es
    else e :: insertEntry name value es

theorem mem_insertEntry {α : Type} {name : String} {value : α} {x : String × α} :
    ∀ {es : List (String × α)}, x ∈ insertEntry name value es → x = (name, value) ∨ x ∈ es
  | [], h => by simpa [insertEntry] using h
  | e :: es, h => by
    unfold insertEntry at h
    split at h
    · simpa using h
    · split at h
      · rcases List.mem_cons.1 h with h | h
        · exact .inl h
        · exact .inr (List.mem_cons_of_mem _ h)
      · rcases List.mem_cons.1 h with h | h
        · exact .inr (h ▸ List.mem_cons_self)
        · exact (mem_insertEntry h).imp id (List.mem_cons_of_mem _)

theorem ascending_insertEntry {α : Type} (name : String) (value : α) :
    ∀ {es : List (String × α)}, Ascending es → Ascending (insertEntry name value es)
  | [], _ => by simp [insertEntry, Ascending]
  | e :: es, h => by
    have hh := List.pairwise_cons.1 h
    unfold insertEntry
    split
    · rename_i hlt
      refine List.pairwise_cons.2 ⟨fun x hx => ?_, h⟩
      rcases List.mem_cons.1 hx with rfl | hx
      · exact hlt
      · exact String.lt_trans hlt (hh.1 x hx)
    · split
      · rename_i heq
        refine List.pairwise_cons.2 ⟨fun x hx => ?_, hh.2⟩
        exact heq ▸ hh.1 x hx
      · rename_i hlt hne
        refine List.pairwise_cons.2 ⟨fun x hx => ?_, ascending_insertEntry name value hh.2⟩
        rcases mem_insertEntry hx with rfl | hx
        · exact Std.lt_of_le_of_ne (String.not_lt.1 hlt) (Ne.symm hne)
        · exact hh.1 x hx

/-- The value of the first entry with a name. -/
def findValue? {α : Type} (name : String) : List (String × α) → Option α
  | [] => none
  | e :: es => if e.1 = name then some e.2 else findValue? name es

theorem findValue?_insertEntry {α : Type} (name other : String) (value : α) :
    ∀ es : List (String × α), findValue? other (insertEntry name value es)
      = if name = other then some value else findValue? other es
  | [] => rfl
  | e :: es => by
    unfold insertEntry
    split
    · rfl
    · split
      · rename_i heq
        simp only [findValue?, ← heq]
        split <;> rfl
      · rename_i hne
        simp only [findValue?, findValue?_insertEntry name other value es]
        split
        · rename_i he
          rw [if_neg fun h => hne (h.trans he.symm)]
        · rfl

theorem findValue?_filter_ne {α : Type} (name other : String) :
    ∀ es : List (String × α), findValue? other (es.filter fun e => e.1 ≠ name)
      = if name = other then none else findValue? other es
  | [] => by simp [findValue?]
  | e :: es => by
    have ih := findValue?_filter_ne name other es
    by_cases he : e.1 = name
    · rw [List.filter_cons_of_neg (by simpa using he), ih]
      by_cases h : name = other
      · rw [if_pos h, if_pos h]
      · rw [if_neg h, if_neg h, findValue?, if_neg fun h' => h (he.symm.trans h')]
    · rw [List.filter_cons_of_pos (by simpa using he), findValue?, findValue?, ih]
      by_cases h : e.1 = other
      · rw [if_pos h, if_pos h, if_neg fun h' => he (h.trans h'.symm)]
      · rw [if_neg h, if_neg h]

theorem findValue?_eq_none_of_lt {α : Type} {name : String} :
    ∀ {es : List (String × α)}, (∀ e ∈ es, name < e.1) → findValue? name es = none
  | [], _ => rfl
  | e :: es, h => by
    have hne : e.1 ≠ name := fun heq => String.lt_irrefl name (heq ▸ h e List.mem_cons_self)
    rw [findValue?, if_neg hne]
    exact findValue?_eq_none_of_lt fun x hx => h x (List.mem_cons_of_mem _ hx)

theorem findValue?_head_isSome {α : Type} (e : String × α) (es : List (String × α)) :
    findValue? e.1 (e :: es) = some e.2 := if_pos rfl

theorem not_lt_head {α : Type} {e f : String × α} {es fs : List (String × α)}
    (hf : Ascending (f :: fs)) (h : ∀ name, findValue? name (e :: es) = findValue? name (f :: fs)) :
    ¬ e.1 < f.1 := fun hlt => by
  have h1 := h e.1
  rw [findValue?_head_isSome, findValue?_eq_none_of_lt] at h1
  · exact Option.some_ne_none _ h1
  · intro x hx
    rcases List.mem_cons.1 hx with rfl | hx
    · exact hlt
    · exact String.lt_trans hlt ((List.pairwise_cons.1 hf).1 x hx)

theorem eq_of_findValue? {α : Type} :
    ∀ {es fs : List (String × α)}, Ascending es → Ascending fs →
      (∀ name, findValue? name es = findValue? name fs) → es = fs
  | [], [], _, _, _ => rfl
  | [], f :: fs, _, _, h => by
    have h1 := h f.1
    rw [findValue?_head_isSome] at h1
    exact absurd h1.symm (Option.some_ne_none _)
  | e :: es, [], _, _, h => by
    have h1 := h e.1
    rw [findValue?_head_isSome] at h1
    exact absurd h1 (Option.some_ne_none _)
  | e :: es, f :: fs, he, hf, h => by
    have hname : e.1 = f.1 :=
      Std.le_antisymm (String.not_lt.1 (not_lt_head he fun name => (h name).symm))
        (String.not_lt.1 (not_lt_head hf h))
    have hvalue : e.2 = f.2 := by
      have h1 := h e.1
      rw [findValue?_head_isSome, hname, findValue?_head_isSome] at h1
      exact Option.some.inj h1
    have he' := List.pairwise_cons.1 he
    have hf' := List.pairwise_cons.1 hf
    have htail : es = fs := by
      refine eq_of_findValue? he'.2 hf'.2 fun name => ?_
      by_cases hn : e.1 = name
      · rw [findValue?_eq_none_of_lt (hn ▸ he'.1), findValue?_eq_none_of_lt (hn ▸ hname ▸ hf'.1)]
      · have h1 := h name
        rwa [findValue?, findValue?, if_neg hn, if_neg (hname ▸ hn)] at h1
    rw [htail, Prod.ext hname hvalue]

/-- Values under names, in ascending order of the names. -/
structure Table (α : Type) where
  entries : List (String × α) := []
  ascending : Ascending entries := by exact List.Pairwise.nil

namespace Table

variable {α : Type}

def empty : Table α := {}

def get? (t : Table α) (name : String) : Option α := findValue? name t.entries

def contains (t : Table α) (name : String) : Bool := (t.get? name).isSome

/-- Put a value under a name, in place of the one that is there. -/
def insert (t : Table α) (name : String) (value : α) : Table α :=
  ⟨insertEntry name value t.entries, ascending_insertEntry name value t.ascending⟩

def erase (t : Table α) (name : String) : Table α :=
  ⟨t.entries.filter fun e => e.1 ≠ name, List.Pairwise.filter _ t.ascending⟩

def names (t : Table α) : List String := t.entries.map (·.1)

def size (t : Table α) : Nat := t.entries.length

def ofList (entries : List (String × α)) : Table α :=
  entries.foldl (fun t e => t.insert e.1 e.2) empty

@[simp] theorem get?_empty (name : String) : (empty : Table α).get? name = none := rfl

theorem get?_insert (t : Table α) (name other : String) (value : α) :
    (t.insert name value).get? other = if name = other then some value else t.get? other :=
  findValue?_insertEntry name other value t.entries

theorem get?_erase (t : Table α) (name other : String) :
    (t.erase name).get? other = if name = other then none else t.get? other :=
  findValue?_filter_ne name other t.entries

theorem ext_get? {t u : Table α} (h : ∀ name, t.get? name = u.get? name) : t = u := by
  obtain ⟨es, he⟩ := t
  obtain ⟨fs, hf⟩ := u
  obtain rfl : es = fs := eq_of_findValue? he hf h
  rfl

/-- Of two values put in under one name the second stays. -/
theorem insert_insert (t : Table α) (name : String) (first second : α) :
    (t.insert name first).insert name second = t.insert name second := by
  refine ext_get? fun other => ?_
  rw [get?_insert, get?_insert, get?_insert]
  split
  · rfl
  · rfl

end Table

end BipartiteBatch
