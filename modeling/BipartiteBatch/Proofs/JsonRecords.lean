import BipartiteBatch.Json.Codec
import BipartiteBatch.Proofs.JsonTexts
import BipartiteBatch.Table
import Mathlib.Data.List.Forall2

/-!
# Records in JSON read back

What is written for a leaf, a list or a record is read back as it was. A key stands once at most among
members with distinct keys, and then its value is the one that is found first.

* `Json.toSize?_ofNat`, `Json.toUInt64?_ofNat`, `Json.toUInt16?_ofNat` : whole numbers in range;
* `Json.ReadsBack` : the text of a float reads back;
* `Json.fields?_ofMembers`, `Json.options?_ofMembers` : the members of a record that was written.
-/

namespace BipartiteBatch

theorem mapM_map_eq_some {α β γ : Type} {f : β → Option γ} {g : α → β} {k : α → γ} {xs : List α}
    (h : ∀ x ∈ xs, f (g x) = some (k x)) : (xs.map g).mapM f = some (xs.map k) := by
  induction xs with
  | nil => rfl
  | cons x xs ih =>
    obtain ⟨hx, hxs⟩ := List.forall_mem_cons.1 h
    rw [List.map_cons, List.mapM_cons, hx, ih hxs]
    rfl

theorem forall₂_of_mapM {α β : Type} {f : α → Option β} {xs : List α} {ys : List β}
    (h : xs.mapM f = some ys) : List.Forall₂ (fun x y => f x = some y) xs ys := by
  induction xs generalizing ys with
  | nil =>
    obtain rfl : [] = ys := Option.some.inj h
    exact .nil
  | cons x xs ih =>
    rw [List.mapM_cons] at h
    obtain ⟨y, hy, h⟩ := Option.bind_eq_some_iff.1 h
    obtain ⟨more, hmore, h⟩ := Option.bind_eq_some_iff.1 h
    obtain rfl : y :: more = ys := Option.some.inj h
    exact .cons hy (ih hmore)

theorem findValue?_of_mem {α : Type} {ms : List (String × α)} (h : (ms.map Prod.fst).Nodup)
    {m : String × α} (hm : m ∈ ms) : findValue? m.1 ms = some m.2 := by
  induction ms with
  | nil => cases hm
  | cons m' ms ih =>
    obtain ⟨hm', hms⟩ := List.nodup_cons.1 h
    rcases List.mem_cons.1 hm with rfl | hm
    · exact findValue?_head_isSome m ms
    · rw [findValue?, if_neg fun heq => hm' (List.mem_map.2 ⟨m, hm, heq.symm⟩)]
      exact ih hms hm

namespace Json

theorem toNat?_ofNat_eq_some {largest n m : Nat} : (ofNat n).toNat? largest = some m ↔ n ≤ largest ∧ n = m := by
  show (some n).filter (fun m => decide (m ≤ largest)) = some m ↔ _
  rw [Option.filter_eq_some_iff, Option.some.injEq, decide_eq_true_eq]
  constructor
  · rintro ⟨rfl, h⟩
    exact ⟨h, rfl⟩
  · rintro ⟨h, rfl⟩
    exact ⟨rfl, h⟩

theorem toNat?_ofNat {largest n : Nat} (h : n ≤ largest) : (ofNat n).toNat? largest = some n :=
  toNat?_ofNat_eq_some.2 ⟨h, rfl⟩

theorem toSize?_ofNat {n : Nat} (h : n ≤ 0xFFFFFFFFFFFFFFFF) : (ofNat n).toSize? = some n :=
  toNat?_ofNat h

theorem toUInt64?_ofNat {n : Nat} (h : n ≤ 0xFFFFFFFFFFFFFFFF) :
    (ofNat n).toUInt64? = some (UInt64.ofNat n) := by
  rw [toUInt64?, toSize?_ofNat h, Option.map_some]

theorem toUInt16?_ofNat {n : Nat} (h : n ≤ 0xFFFF) : (ofNat n).toUInt16? = some (UInt16.ofNat n) := by
  rw [toUInt16?, toNat?_ofNat h, Option.map_some]

theorem toUInt64?_toNat (c : UInt64) : (ofNat c.toNat).toUInt64? = some c := by
  rw [toUInt64?_ofNat (Nat.le_of_lt_succ c.toNat_lt), UInt64.ofNat_toNat]

theorem toUInt16?_toNat (c : UInt16) : (ofNat c.toNat).toUInt16? = some c := by
  rw [toUInt16?_ofNat (Nat.le_of_lt_succ c.toNat_lt), UInt16.ofNat_toNat]

/-- The text of the float reads back to the same bits. -/
def ReadsBack (x : Float32) : Prop := (parse? (ofFloat32 x).compact).bind toFloat32? = some x

instance (x : Float32) : Decidable (ReadsBack x) := inferInstanceAs (Decidable (_ = _))

theorem toFloat32?_ofFloat32 {x : Float32} (h : ReadsBack x) : (ofFloat32 x).toFloat32? = some x := by
  rwa [ReadsBack, parse?_compact] at h

theorem toList?_map {α β : Type} {f : Json → Option β} {g : α → Json} {k : α → β} {xs : List α}
    (h : ∀ x ∈ xs, f (g x) = some (k x)) : (ofList g xs).toList? f = some (xs.map k) :=
  mapM_map_eq_some h

theorem toList?_ofList {α : Type} {f : Json → Option α} {g : α → Json} {xs : List α}
    (h : ∀ x ∈ xs, f (g x) = some x) : (ofList g xs).toList? f = some xs := by
  rw [toList?_map h, List.map_id']

theorem forall₂_of_toList? {α β : Type} {f : Json → Option β} {g : α → Json} {xs : List α} {ys : List β}
    (h : (ofList g xs).toList? f = some ys) : List.Forall₂ (fun x y => f (g x) = some y) xs ys :=
  List.forall₂_map_left_iff.1 (forall₂_of_mapM h)

theorem members_map (ms : List (String × Json)) :
    members (ms.map fun m => (some m.1, m.2)) = some ms := by
  induction ms with
  | nil => rfl
  | cons m ms ih =>
    rw [List.map_cons, members, ih]
    rfl

theorem once?_of_nodup {ms : List (String × Json)} (h : (ms.map Prod.fst).Nodup) (name : String) :
    once? ms name = some (findValue? name ms) := by
  induction ms with
  | nil => rfl
  | cons m ms ih =>
    obtain ⟨hm, hms⟩ := List.nodup_cons.1 h
    have ih := ih hms
    unfold once? at ih ⊢
    by_cases hname : m.1 = name
    · have hnone : ms.filter (fun m => m.1 == name) = [] := by
        rw [List.filter_eq_nil_iff]
        intro m' hm' heq
        exact hm (List.mem_map.2 ⟨m', hm', (eq_of_beq heq).trans hname.symm⟩)
      rw [List.filter_cons_of_pos (by simpa using hname), hnone, findValue?, if_pos hname]
    · rw [List.filter_cons_of_neg (by simpa using hname), findValue?, if_neg hname]
      exact ih

/-- The fields of a record that was written are found again. -/
theorem fields?_ofMembers {ms : List (String × Json)} {names : List String}
    (hms : ms.map Prod.fst = names) (hnames : names.Nodup) :
    (ofMembers ms).fields? names = some (ms.map Prod.snd) := by
  subst hms
  show ((members (ms.map fun m => (some m.1, m.2))).bind fun ms' =>
    (ms.map Prod.fst).mapM fun name => (once? ms' name).join) = _
  rw [members_map, Option.bind_some]
  refine mapM_map_eq_some fun m hm => ?_
  rw [once?_of_nodup hnames, findValue?_of_mem hnames hm]
  rfl

/-- The options of a record that was written are found again; those that are left out have no value. -/
theorem options?_ofMembers {ms : List (String × Json)} {names : List String}
    (hms : (ms.map Prod.fst).Nodup) (hnames : ∀ m ∈ ms, m.1 ∈ names) :
    (ofMembers ms).options? names = some (names.map fun name => findValue? name ms) := by
  have hall : ms.all (fun m => names.contains m.1) = true :=
    List.all_eq_true.2 fun m hm => List.contains_iff_mem.2 (hnames m hm)
  show ((members (ms.map fun m => (some m.1, m.2))).bind fun ms' =>
    if ms'.all fun m => names.contains m.1 then names.mapM fun name => once? ms' name else none) = _
  rw [members_map, Option.bind_some, if_pos hall]
  have h := mapM_map_eq_some (g := id) fun name (_ : name ∈ names) => once?_of_nodup hms name
  rwa [List.map_id] at h

end Json

end BipartiteBatch
