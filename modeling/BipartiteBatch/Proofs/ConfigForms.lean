import BipartiteBatch.Proofs.Layers
import BipartiteBatch.Proofs.OptionTexts

/-!
# Configurations in two forms

Natural numbers given for options make a configuration text, item by item, and the text of a JSON object.
Both are accepted for the same numbers and give the same configuration. A number out of range is found in
the one when its item is read; in the other it has no value, or one that the check refuses. What is written
in JSON for a configuration that passes the check is read as this configuration.

* `Choice.inRange_of_read`, `Choice.inRange_of_ofJson?` : what is accepted is in range, in either form;
* `Config.readOn?_eq_some` : a JSON object is read option by option;
* `Config.ofJsonText_toJson` : a configuration that was written is read back;
* `Config.ofText_agrees_ofJsonText` : choices in both forms.
-/

namespace BipartiteBatch

open Number Text

/-! ## Numbers in texts -/

theorem toString_inj {n m : Nat} (h : toString n = toString m) : n = m := by
  have hdigits : Nat.toDigits 10 n = Nat.toDigits 10 m := by
    rw [← Nat.toList_repr, ← Nat.toList_repr, ← Nat.toString_eq_repr, ← Nat.toString_eq_repr, h]
  -- both are read from the same digits
  have hread := readNat_toDigits (n + m) n
  rw [hdigits, readNat_toDigits, if_pos (Nat.le_add_left m n), if_pos (Nat.le_add_right n m)] at hread
  exact (Except.ok.inj hread).symm

theorem pos_of_ofNat_ne_zero {n : Nat} (h : UInt64.ofNat n ≠ 0) : 0 < n := by
  rw [Nat.pos_iff_ne_zero]
  rintro rfl
  exact h rfl

theorem inRange_of_words {ns : List Nat} {words : List UInt64}
    (h : List.Forall₂ (fun n word => n ≤ 0xFFFFFFFFFFFFFFFF ∧ UInt64.ofNat n = word) ns words)
    (hne : words.contains 0 = false) : ∀ n ∈ ns, 0 < n ∧ n ≤ 0xFFFFFFFFFFFFFFFF := by
  intro n hn
  obtain ⟨word, hmem, hle, rfl⟩ := exists_mem_of_forall₂ h.flip hn
  refine ⟨pos_of_ofNat_ne_zero fun hzero => ?_, hle⟩
  rw [hzero] at hmem
  rw [List.contains_iff_mem.2 hmem] at hne
  cases hne

namespace Setting

variable {s : Setting} {n : Nat}

theorem readWord_toString_eq_ok {word : UInt64} :
    s.readWord (toString n) = .ok word ↔ n ≤ 0xFFFFFFFFFFFFFFFF ∧ UInt64.ofNat n = word := by
  by_cases hn : n ≤ 0xFFFFFFFFFFFFFFFF
  · rw [readWord_toString hn, Except.ok.injEq, and_iff_right hn]
  · rw [readWord, trim_toString, readUInt64, Nat.toString_eq_repr, Nat.toList_repr, readNat_toDigits,
      if_neg hn]
    constructor
    · intro h
      cases h
    · intro h
      exact absurd h.1 hn

theorem inRange_of_readPositives {ns : List Nat} {words : List UInt64}
    (h : s.readPositives (",".intercalate (ns.map toString)) = .ok words) :
    ∀ n ∈ ns, 0 < n ∧ n ≤ 0xFFFFFFFFFFFFFFFF := by
  obtain ⟨hwords, hne⟩ := readPositives_eq_ok.1 h
  rw [pieces_intercalate_toString, mapM_eq_ok, List.forall₂_map_left_iff] at hwords
  exact inRange_of_words (hwords.imp fun _ _ => readWord_toString_eq_ok.1) hne

theorem le_of_readTag {tag : Tag} (h : s.readTag (toString n) = .ok tag) : n ≤ 0xFFFF := by
  by_contra hn
  rw [readTag, trim_toString, readUInt16, Nat.toString_eq_repr, Nat.toList_repr, readNat_toDigits,
    if_neg hn] at h
  cases h

theorem le_of_readFlag {flag : Bool} (h : s.readFlag (toString n) = .ok flag) : n ≤ 1 := by
  rw [readFlag, trim_toString] at h
  by_cases hone : toString n = "1"
  · exact Nat.le_of_eq (toString_inj (m := 1) hone)
  · by_cases hzero : toString n = "0"
    · exact Nat.le_succ_of_le (Nat.le_of_eq (toString_inj (m := 0) hzero))
    · rw [if_neg hone, if_neg hzero] at h
      cases h

end Setting

namespace Choice

variable {a : Choice}

theorem inRange_of_read {v : a.setting.Value} (h : a.setting.read a.given = .ok v) : a.InRange := by
  cases a with
  | batch n | numNeg n =>
    obtain ⟨hword, hne⟩ := Setting.readPositive_eq_ok.1 h
    obtain ⟨hle, rfl⟩ := Setting.readWord_toString_eq_ok.1 hword
    exact ⟨pos_of_ofNat_ne_zero hne, hle⟩
  | isTrain n | useNeighFeat n =>
    unfold setting given Setting.read at h
    exact Setting.le_of_readFlag h
  | userTag n | itemTag n =>
    unfold setting given Setting.read at h
    exact Setting.le_of_readTag h
  | numNeighbors ns =>
    exact Setting.inRange_of_readPositives h

end Choice

/-! ## Numbers in JSON -/

namespace Setting

def ofJson? : (s : Setting) → Json → Option s.Value
  | batch | numNeg => Json.toUInt64?
  | isTrain | useNeighFeat => Config.flagOfJson?
  | numNeighbors => Json.toList? Json.toUInt64?
  | userTag | itemTag => Json.toUInt16?

def toJson : (s : Setting) → s.Value → Json
  | batch, n | numNeg, n => .ofNat n.toNat
  | isTrain, flag | useNeighFeat, flag => .bool flag
  | numNeighbors, ns => .ofList (fun n => Json.ofNat n.toNat) ns
  | userTag, tag | itemTag, tag => .ofNat tag.toNat

theorem ofJson?_toJson (s : Setting) (v : s.Value) : s.ofJson? (s.toJson v) = some v := by
  cases s with
  | batch | numNeg => exact Json.toUInt64?_toNat v
  | isTrain | useNeighFeat => rfl
  | numNeighbors => exact Json.toList?_ofList fun n _ => Json.toUInt64?_toNat n
  | userTag | itemTag => exact Json.toUInt16?_toNat v

end Setting

namespace Choice

variable {a : Choice}

theorem of_toUInt64?_ofNat {n : Nat} {word : UInt64} (h : (Json.ofNat n).toUInt64? = some word) :
    n ≤ 0xFFFFFFFFFFFFFFFF ∧ UInt64.ofNat n = word := by
  obtain ⟨m, hm, rfl⟩ := Option.map_eq_some_iff.1 h
  obtain ⟨hle, rfl⟩ := Json.toNat?_ofNat_eq_some.1 hm
  exact ⟨hle, rfl⟩

/-- What is accepted for an option in JSON is in range, if the check does not refuse it. -/
theorem inRange_of_ofJson? {v : a.setting.Value} (h : a.setting.ofJson? a.json = some v)
    (hv : a.setting.Admits v) : a.InRange := by
  cases a with
  | batch n | numNeg n =>
    obtain ⟨hle, rfl⟩ := of_toUInt64?_ofNat h
    exact ⟨pos_of_ofNat_ne_zero hv, hle⟩
  | isTrain n | useNeighFeat n =>
    match n, h with
    | 0, _ => exact Nat.zero_le 1
    | 1, _ => exact Nat.le_refl 1
  | userTag n | itemTag n =>
    obtain ⟨m, hm, -⟩ := Option.map_eq_some_iff.1 h
    exact (Json.toNat?_ofNat_eq_some.1 hm).1
  | numNeighbors ns =>
    exact inRange_of_words ((Json.forall₂_of_toList? h).imp fun _ _ => of_toUInt64?_ofNat) hv

end Choice

namespace Config

variable {c d : Config}

/-- Options are read from JSON one by one, and those without a value stay as they are. -/
theorem readOn?_eq_some {value? : Setting → Option Json} : readOn? c value? = some d
    ↔ ∀ s : Setting, option? (c.value s) s.ofJson? (value? s) = some (d.value s) := by
  unfold readOn?
  simp only [Option.bind_eq_bind, Option.bind_eq_some_iff]
  constructor
  · rintro ⟨batch, hbatch, isTrain, hisTrain, numNeg, hnumNeg, numNeighbors, hnumNeighbors, useNeighFeat,
      huseNeighFeat, userTag, huserTag, itemTag, hitemTag, ⟨⟩⟩ s
    cases s <;> assumption
  · intro h
    exact ⟨_, h .batch, _, h .isTrain, _, h .numNeg, _, h .numNeighbors, _, h .useNeighFeat, _, h .userTag,
      _, h .itemTag, rfl⟩

theorem ofJsonText_eq_ok {text : String} :
    ofJsonText text = .ok c ↔ JsonCodec.ofJsonText? text = some c ∧ c.check = .ok () := by
  unfold ofJsonText
  cases (JsonCodec.ofJsonText? text : Option Config) with
  | none => exact iff_of_false nofun nofun
  | some d =>
    dsimp only
    rw [mapError_eq_ok, Option.some.injEq]
    constructor
    · intro h
      obtain rfl := checked_eq_ok h
      obtain ⟨_, hcheck, -⟩ := except_bind_eq_ok.1 h
      exact ⟨rfl, hcheck⟩
    · rintro ⟨rfl, hcheck⟩
      rw [checked, hcheck]
      rfl

theorem positive_of_check (h : c.check = .ok ()) : c.Positive := by
  unfold check at h
  split_ifs at h with hbatch hnumNeg hnumNeighbors htags
  exact ⟨hbatch, hnumNeg, Bool.not_eq_true _ ▸ hnumNeighbors⟩

/-! ## Choices -/

variable {choices written : List Choice} {text : String}

theorem inRange_of_ofText (h : (ofText (textOf choices)).1 = .ok c) : ∀ a ∈ choices, a.InRange := by
  intro a ha
  have hresult : (apply {} (textOf choices)).result = .ok () := by
    obtain ⟨_, hresult, -⟩ := except_bind_eq_ok.1 (show (apply {} (textOf choices)).result >>= _ = _ from h)
    exact hresult
  rw [apply, items_textOf] at hresult
  obtain ⟨assignments, hassigns, -⟩ := exists_assigns_of_ok hresult
  obtain ⟨⟨s, v⟩, hitem⟩ := hassigns.exists_of_mem a.item (List.mem_map_of_mem ha)
  obtain ⟨given, hsplit, hread⟩ := Assignment.ofItem_eq_ok.1 hitem
  rw [a.splitItem_item] at hsplit
  obtain ⟨hkey, rfl⟩ := Prod.mk.inj (Except.ok.inj hsplit)
  obtain rfl : a.setting = s := key_inj.1 hkey
  exact Choice.inRange_of_read hread

theorem inRange_of_ofJsonText (hdistinct : (written.map Choice.setting).Nodup)
    (hjson : Json.parse? text = some (objectOf written)) (h : ofJsonText text = .ok c) :
    ∀ a ∈ written, a.InRange := by
  intro a ha
  obtain ⟨hread, hcheck⟩ := ofJsonText_eq_ok.1 h
  rw [JsonCodec.ofJsonText?, hjson, Option.bind_some, ofJson?_objectOf hdistinct, readOn?_eq_some] at hread
  have hvalue : jsonFor? written a.setting = some a.json :=
    findValue?_of_mem (nodup_keys hdistinct) (List.mem_map_of_mem ha)
  have hsetting := hread a.setting
  rw [hvalue, option?_some] at hsetting
  exact Choice.inRange_of_ofJson? hsetting (positive_iff.1 (positive_of_check hcheck) a.setting)

/-! ## Written configurations -/

theorem toJson_eq (c : Config) : JsonCodec.toJson c
    = .ofMembers (Setting.all.map fun s => (s.key, s.toJson (c.value s))) := rfl

/-- A configuration that was written is read back, if it passes the check. -/
theorem ofJsonText_toJson (hcheck : c.check = .ok ()) (hjson : Json.parse? text = some (JsonCodec.toJson c)) :
    ofJsonText text = .ok c := by
  have hkeys : ((Setting.all.map fun s => (s.key, s.toJson (c.value s))).map Prod.fst).Nodup := by
    rw [List.map_map]
    exact List.Nodup.map (fun _ _ => key_inj.1) (by decide)
  have hknown : ∀ m ∈ Setting.all.map fun s => (s.key, s.toJson (c.value s)),
      m.1 ∈ Setting.all.map Setting.key := by
    intro m hm
    obtain ⟨s, hs, rfl⟩ := List.mem_map.1 hm
    exact List.mem_map_of_mem hs
  refine ofJsonText_eq_ok.2 ⟨?_, hcheck⟩
  rw [JsonCodec.ofJsonText?, hjson, Option.bind_some, toJson_eq, ofJson?_ofMembers hkeys hknown,
    readOn?_eq_some]
  intro s
  rw [findValue?_of_mem hkeys (List.mem_map_of_mem s.mem_all), option?_some, s.ofJson?_toJson]

/-! ## Both forms -/

/-- Choices for different options are written as a configuration text and, in any order, as a JSON text. If
their numbers are in range and the configuration with them passes the check, both texts give this
configuration; otherwise both are refused. A configuration that passes the check is read back from its JSON
texts. -/
theorem ofText_agrees_ofJsonText :
    (∀ (choices written : List Choice) (text : String), (choices.map Choice.setting).Nodup →
      written.Perm choices → Json.LaidOut (objectOf written) text →
      ((∀ a ∈ choices, a.InRange) ∧ (chosen {} choices).check = .ok ()
        ∧ (ofText (textOf choices)).1 = .ok (chosen {} choices) ∧ ofJsonText text = .ok (chosen {} choices))
      ∨ ∃ e e', (ofText (textOf choices)).1 = .error e ∧ ofJsonText text = .error e')
    ∧ ∀ c : Config, c.check = .ok () → ofJsonText (JsonCodec.toJsonText c) = .ok c
      ∧ ∀ text, Json.LaidOut (JsonCodec.toJson c) text → ofJsonText text = .ok c := by
  refine ⟨fun choices written text hdistinct hperm htext => ?_, fun c hcheck =>
    ⟨ofJsonText_toJson hcheck (Json.parse?_compact _), fun text htext =>
      ofJsonText_toJson hcheck htext.parse?_eq⟩⟩
  have hwritten : (written.map Choice.setting).Nodup := (hperm.map Choice.setting).nodup_iff.2 hdistinct
  by_cases hrange : ∀ a ∈ choices, a.InRange
  · rw [ofText_textOf hrange, ofJsonText_eq hrange hdistinct hperm htext.parse?_eq]
    cases hchecked : (chosen {} choices).checked with
    | ok c =>
      obtain rfl := checked_eq_ok hchecked
      obtain ⟨_, hcheck, -⟩ := except_bind_eq_ok.1 hchecked
      exact .inl ⟨hrange, hcheck, rfl, rfl⟩
    | error e => exact .inr ⟨e, .config e, rfl, rfl⟩
  · -- neither form is accepted, as what is accepted in it is in range
    right
    cases hitems : (ofText (textOf choices)).1 with
    | ok c => exact absurd (inRange_of_ofText hitems) hrange
    | error e =>
      cases hjson : ofJsonText text with
      | ok c =>
        have hall := inRange_of_ofJsonText hwritten htext.parse?_eq hjson
        exact absurd (fun a ha => hall a (hperm.mem_iff.2 ha)) hrange
      | error e' => exact ⟨e, e', rfl, rfl⟩

/-- A list and a flag in two orders, a tag that is too large, and a configuration that is read back. -/
theorem ofText_agrees_ofJsonText_reordered :
    (ofText "num_neighbors=3,2;is_train=0").1 = .ok { numNeighbors := [3, 2], isTrain := false }
    ∧ ofJsonText "\x7b\"is_train\":0,\"num_neighbors\":[3,2]\x7d"
      = .ok { numNeighbors := [3, 2], isTrain := false }
    ∧ (∃ e e', (ofText "item_ns_id=65536").1 = .error e
      ∧ ofJsonText "\x7b\"item_ns_id\":65536\x7d" = .error e')
    ∧ ofJsonText (JsonCodec.toJsonText ({ batch := 2, useNeighFeat := true } : Config))
      = .ok { batch := 2, useNeighFeat := true } := by
  obtain ⟨hforms, hwritten⟩ := ofText_agrees_ofJsonText
  have hobject : (objectOf [.isTrain 0, .numNeighbors [3, 2]]).compact
      = "\x7b\"is_train\":0,\"num_neighbors\":[3,2]\x7d" := by decide +kernel
  have htag : (objectOf [.itemTag 65536]).compact = "\x7b\"item_ns_id\":65536\x7d" := by decide +kernel
  have hboth := hforms [.numNeighbors [3, 2], .isTrain 0] _ _ (by decide) (.swap _ _ _)
    (Json.laidOut_compact (objectOf [.isTrain 0, .numNeighbors [3, 2]]))
  have hlarge := hforms [.itemTag 65536] _ _ (by decide) (.refl _)
    (Json.laidOut_compact (objectOf [.itemTag 65536]))
  rw [hobject] at hboth
  rw [htag] at hlarge
  obtain ⟨-, -, htext, hjson⟩ | ⟨e, -, htext, -⟩ := hboth
  · refine ⟨htext, hjson, hlarge.resolve_left fun h => ?_, (hwritten _ rfl).1⟩
    exact absurd h.1 (by decide)
  · cases htext

end Config

end BipartiteBatch
