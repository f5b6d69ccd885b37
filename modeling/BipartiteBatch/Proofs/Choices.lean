import BipartiteBatch.Codec.Settings
import BipartiteBatch.Proofs.JsonRecords
import BipartiteBatch.Proofs.Pieces
import BipartiteBatch.Proofs.Results
import Mathlib.Data.List.Nodup

/-!
# Choices for the options of a reader

A choice gives an option a natural number, or the fan-outs a list of them. It is written as a `key=value`
item or as a member of a JSON object. Where the numbers are in range, both readers accept it and change
the option that it names, and only the tags of the two groups can be refused together.

* `Choice` : a choice, with its `item` and its `member`, `Choice.InRange` : its numbers can be accepted;
* `Choice.applyTo`, `Config.chosen` : a configuration with choices;
* `Choice.applyItem_item`, `Config.applyItems_append` : the items of choices;
* `Config.ofJson?_choices` : the JSON object of choices for different options;
* `Config.chosen_perm` : the order of choices for different options.
-/

namespace BipartiteBatch

open Number Text

/-- An option with the natural numbers given for it. -/
inductive Choice where
  | batch (n : Nat)
  | isTrain (n : Nat)
  | numNeg (n : Nat)
  | numNeighbors (ns : List Nat)
  | useNeighFeat (n : Nat)
  | userTag (n : Nat)
  | itemTag (n : Nat)
deriving DecidableEq, Repr

namespace Choice

def setting : Choice → Setting
  | batch _ => .batch
  | isTrain _ => .isTrain
  | numNeg _ => .numNeg
  | numNeighbors _ => .numNeighbors
  | useNeighFeat _ => .useNeighFeat
  | userTag _ => .userTag
  | itemTag _ => .itemTag

def given : Choice → String
  | numNeighbors ns => ",".intercalate (ns.map toString)
  | batch n | isTrain n | numNeg n | useNeighFeat n | userTag n | itemTag n => toString n

def json : Choice → Json
  | numNeighbors ns => .ofList Json.ofNat ns
  | batch n | isTrain n | numNeg n | useNeighFeat n | userTag n | itemTag n => .ofNat n

def item (a : Choice) : String := a.setting.key ++ "=" ++ a.given

def member (a : Choice) : String × Json := (a.setting.key, a.json)

/-- The numbers of a choice can be accepted for its option. -/
def InRange : Choice → Prop
  | batch n | numNeg n => 0 < n ∧ n ≤ 0xFFFFFFFFFFFFFFFF
  | numNeighbors ns => ∀ n ∈ ns, 0 < n ∧ n ≤ 0xFFFFFFFFFFFFFFFF
  | isTrain n | useNeighFeat n => n ≤ 1
  | userTag n | itemTag n => n ≤ 0xFFFF

instance : DecidablePred InRange
  | batch n | numNeg n => inferInstanceAs (Decidable (0 < n ∧ n ≤ 0xFFFFFFFFFFFFFFFF))
  | numNeighbors ns => inferInstanceAs (Decidable (∀ n ∈ ns, 0 < n ∧ n ≤ 0xFFFFFFFFFFFFFFFF))
  | isTrain n | useNeighFeat n => inferInstanceAs (Decidable (n ≤ 1))
  | userTag n | itemTag n => inferInstanceAs (Decidable (n ≤ 0xFFFF))

def applyTo (c : Config) : Choice → Config
  | batch n => { c with batch := UInt64.ofNat n }
  | isTrain n => { c with isTrain := n == 1 }
  | numNeg n => { c with numNeg := UInt64.ofNat n }
  | numNeighbors ns => { c with numNeighbors := ns.map UInt64.ofNat }
  | useNeighFeat n => { c with useNeighFeat := n == 1 }
  | userTag n => { c with userTag := UInt16.ofNat n }
  | itemTag n => { c with itemTag := UInt16.ofNat n }

end Choice

def Config.chosen (c : Config) (choices : List Choice) : Config := choices.foldl Choice.applyTo c

/-! ## Items -/

theorem Setting.ofKey?_key (s : Setting) : Setting.ofKey? s.key = some s := by
  cases s <;> decide

theorem Setting.mem_all (s : Setting) : s ∈ Setting.all := by
  cases s <;> decide

theorem ofNat_ne_zero {n : Nat} (h : 0 < n ∧ n ≤ 0xFFFFFFFFFFFFFFFF) : UInt64.ofNat n ≠ 0 := by
  intro heq
  have hn : (UInt64.ofNat n).toNat = n := UInt64.toNat_ofNat_of_lt' (Nat.lt_succ_of_le h.2)
  rw [heq] at hn
  have hzero : 0 = n := hn
  omega

theorem isBlank_of_mem_toString {n : Nat} : ∀ c ∈ (toString n).toList, isBlank c = false := by
  intro c hc
  rw [Nat.toString_eq_repr, Nat.toList_repr] at hc
  exact isBlank_of_isDigit (isDigit_of_mem_toDigits hc)

theorem trim_toString (n : Nat) : trim (toString n) = toString n := trim_of_forall isBlank_of_mem_toString

namespace Setting

variable {s : Setting} {n : Nat}

theorem readWord_toString (hn : n ≤ 0xFFFFFFFFFFFFFFFF) :
    s.readWord (toString n) = .ok (UInt64.ofNat n) := by
  rw [readWord, trim_toString, readUInt64, Nat.toString_eq_repr, Nat.toList_repr, readNat_toDigits,
    if_pos hn]
  rfl

theorem readPositive_toString (hn : 0 < n ∧ n ≤ 0xFFFFFFFFFFFFFFFF) :
    s.readPositive (toString n) = .ok (UInt64.ofNat n) := by
  rw [readPositive, readWord_toString hn.2]
  show (if UInt64.ofNat n = 0 then _ else _) = _
  rw [if_neg (ofNat_ne_zero hn)]
  rfl

theorem readTag_toString (hn : n ≤ 0xFFFF) : s.readTag (toString n) = .ok (UInt16.ofNat n) := by
  rw [readTag, trim_toString, readUInt16, Nat.toString_eq_repr, Nat.toList_repr, readNat_toDigits,
    if_pos hn]
  rfl

theorem readFlag_toString (hn : n ≤ 1) : s.readFlag (toString n) = .ok (n == 1) := by
  rw [readFlag, trim_toString]
  match n with
  | 0 => rfl
  | 1 => rfl

theorem plain_toString {isEnd : Char → Bool} (hdigit : ∀ c, c.isDigit = true → isEnd c = false)
    (n : Nat) : Plain isEnd (toString n) where
  ne_empty := Nat.repr_ne_empty
  isBlank_eq := isBlank_of_mem_toString
  isEnd_eq c hc := by
    rw [Nat.toString_eq_repr, Nat.toList_repr] at hc
    exact hdigit c (isDigit_of_mem_toDigits hc)

theorem contains_zero_map {ns : List Nat} (hns : ∀ n ∈ ns, 0 < n ∧ n ≤ 0xFFFFFFFFFFFFFFFF) :
    (ns.map UInt64.ofNat).contains 0 = false := by
  rw [List.contains_eq_mem, decide_eq_false_iff_not, List.mem_map]
  rintro ⟨n, hn, hn0⟩
  exact ofNat_ne_zero (hns n hn) hn0

theorem pieces_intercalate_toString (ns : List Nat) :
    pieces (· == ',') (",".intercalate (ns.map toString)) = ns.map toString := by
  have hcomma : ∀ c : Char, c.isDigit = true → (c == ',') = false := by
    intro c hc
    rw [beq_eq_false_iff_ne]
    rintro rfl
    cases hc
  refine pieces_intercalate (c := ',') rfl rfl fun text htext => ?_
  obtain ⟨n, -, rfl⟩ := List.mem_map.1 htext
  exact plain_toString hcomma n

theorem readPositives_intercalate {ns : List Nat} (hns : ∀ n ∈ ns, 0 < n ∧ n ≤ 0xFFFFFFFFFFFFFFFF) :
    s.readPositives (",".intercalate (ns.map toString)) = .ok (ns.map UInt64.ofNat) := by
  have hread : (ns.map toString).mapM s.readWord = .ok (ns.map UInt64.ofNat) := by
    rw [mapM_eq_ok, List.forall₂_map_left_iff, List.forall₂_map_right_iff, List.forall₂_same]
    exact fun n hn => readWord_toString (hns n hn).2
  show (do
    let ns ← (pieces (· == ',') (",".intercalate (ns.map toString))).mapM s.readWord
    if ns.contains 0 then throw (.notPositive s)
    return ns : Except ConfigError (List UInt64)) = _
  rw [pieces_intercalate_toString, hread]
  show (if (ns.map UInt64.ofNat).contains 0 = true then _ else _) = _
  rw [contains_zero_map hns]
  rfl

end Setting

namespace Choice

variable {a : Choice} {c : Config}

theorem assign_given (ha : a.InRange) :
    (Config.assign a.setting a.given).run.run c = (.ok (), a.applyTo c) := by
  cases a with
  | batch n | numNeg n =>
    simp only [setting, given, Config.assign, Setting.readPositive_toString ha]
    rfl
  | isTrain n | useNeighFeat n =>
    simp only [setting, given, Config.assign, Setting.readFlag_toString ha]
    rfl
  | userTag n | itemTag n =>
    simp only [setting, given, Config.assign, Setting.readTag_toString ha]
    rfl
  | numNeighbors ns =>
    simp only [setting, given, Config.assign, Setting.readPositives_intercalate ha]
    rfl

/-- The characters that end an item of a configuration text. -/
def endsItem (ch : Char) : Bool := ch == ';' || ch == '\n'

theorem mem_key (s : Setting) : ∀ ch ∈ s.key.toList,
    isBlank ch = false ∧ (ch == '=') = false ∧ endsItem ch = false := by
  have hall : s.key.toList.all (fun ch => !isBlank ch && (!(ch == '=') && !endsItem ch)) = true := by
    cases s <;> decide
  intro ch hch
  have h := List.all_eq_true.1 hall ch hch
  simp only [Bool.and_eq_true, Bool.not_eq_true'] at h
  exact h

theorem mem_given (a : Choice) : ∀ ch ∈ a.given.toList, ch.isDigit = true ∨ ch = ',' := by
  have hnumber : ∀ n : Nat, ∀ ch ∈ (toString n).toList, ch.isDigit = true ∨ ch = ',' := by
    intro n ch hch
    rw [Nat.toString_eq_repr, Nat.toList_repr] at hch
    exact .inl (isDigit_of_mem_toDigits hch)
  have hlist : ∀ ns : List Nat, ∀ ch ∈ (",".intercalate (ns.map toString)).toList,
      ch.isDigit = true ∨ ch = ',' := by
    intro ns
    induction ns with
    | nil => exact nofun
    | cons n ns ih =>
      by_cases hnil : ns.map toString = []
      · rw [List.map_cons, hnil, String.intercalate_singleton]
        exact hnumber n
      · intro ch hch
        rw [List.map_cons, String.intercalate_cons_of_ne_nil hnil, String.toList_append,
          String.toList_append, List.mem_append, List.mem_append] at hch
        rcases hch with (hch | hch) | hch
        · exact hnumber n ch hch
        · exact .inr (List.mem_singleton.1 hch)
        · exact ih ch hch
  cases a with
  | numNeighbors ns => exact hlist ns
  | batch n | isTrain n | numNeg n | useNeighFeat n | userTag n | itemTag n => exact hnumber n

theorem isBlank_of_mem_given : ∀ ch ∈ a.given.toList, isBlank ch = false := by
  intro ch hch
  rcases a.mem_given ch hch with hdigit | rfl
  · exact isBlank_of_isDigit hdigit
  · rfl

theorem endsItem_of_mem_given : ∀ ch ∈ a.given.toList, endsItem ch = false := by
  intro ch hch
  rcases a.mem_given ch hch with hdigit | rfl
  · rw [endsItem, Bool.or_eq_false_iff, beq_eq_false_iff_ne, beq_eq_false_iff_ne]
    constructor
    · rintro rfl
      cases hdigit
    · rintro rfl
      cases hdigit
  · rfl

/-- An item has no blanks, and ends only where another text follows. -/
theorem plain_item (a : Choice) : Plain endsItem a.item := by
  have hmem : ∀ ch ∈ a.item.toList,
      ch ∈ a.setting.key.toList ∨ ch = '=' ∨ ch ∈ a.given.toList := by
    intro ch hch
    rw [item, String.toList_append, String.toList_append, List.mem_append, List.mem_append] at hch
    rcases hch with (hch | hch) | hch
    · exact .inl hch
    · exact .inr (.inl (List.mem_singleton.1 hch))
    · exact .inr (.inr hch)
  refine ⟨fun hempty => ?_, fun ch hch => ?_, fun ch hch => ?_⟩
  · have hlength := congrArg String.length hempty
    rw [item, String.length_append, String.length_append] at hlength
    have hone : "=".length = 1 := rfl
    have hzero : "".length = 0 := rfl
    omega
  · rcases hmem ch hch with h | rfl | h
    · exact (mem_key _ ch h).1
    · rfl
    · exact isBlank_of_mem_given ch h
  · rcases hmem ch hch with h | rfl | h
    · exact (mem_key _ ch h).2.2
    · rfl
    · exact endsItem_of_mem_given ch h

theorem splitItem_item (a : Choice) : Config.splitItem a.item = .ok (a.setting.key, a.given) := by
  have honce : splitOnce? (· == '=') a.item = some (a.setting.key, a.given) :=
    splitOnce?_append (c := '=') rfl rfl fun ch hch => (mem_key a.setting ch hch).2.1
  rw [Config.splitItem, honce]
  dsimp only
  rw [trim_of_forall fun ch hch => (mem_key a.setting ch hch).1, trim_of_forall isBlank_of_mem_given]

theorem applyItem_item (ha : a.InRange) (c : Config) :
    c.applyItem a.item = ⟨.ok (), a.applyTo c, [.settingAccepted a.setting.key a.given]⟩ := by
  rw [Config.applyItem, a.splitItem_item]
  dsimp only
  rw [Config.attempt, Setting.ofKey?_key]
  dsimp only
  rw [assign_given ha]

end Choice

/-! ## Configuration texts -/

namespace Config

def textOf (choices : List Choice) : String := ";".intercalate (choices.map Choice.item)

theorem items_eq (text : String) : items text = pieces Choice.endsItem text := rfl

theorem items_textOf (choices : List Choice) : items (textOf choices) = choices.map Choice.item := by
  rw [items_eq, textOf]
  refine pieces_intercalate (c := ';') rfl rfl fun text htext => ?_
  obtain ⟨a, -, rfl⟩ := List.mem_map.1 htext
  exact a.plain_item

/-- After a semicolon the items of another text follow. -/
theorem items_append (s t : String) : items (s ++ ";" ++ t) = items s ++ items t :=
  pieces_append (c := ';') rfl rfl s t

variable {choices : List Choice}

theorem applyItems_append (hrange : ∀ a ∈ choices, a.InRange) (c : Config) (items : List String) :
    (c.applyItems (choices.map Choice.item ++ items)).result = ((c.chosen choices).applyItems items).result
    ∧ (c.applyItems (choices.map Choice.item ++ items)).config
      = ((c.chosen choices).applyItems items).config := by
  induction choices generalizing c with
  | nil => exact ⟨rfl, rfl⟩
  | cons a choices ih =>
    obtain ⟨ha, hchoices⟩ := List.forall_mem_cons.1 hrange
    rw [List.map_cons, List.cons_append, applyItems, a.applyItem_item ha]
    exact ih hchoices (a.applyTo c)

/-- A text after choices in range is applied to the configuration with the choices. -/
theorem apply_textOf_append (hrange : ∀ a ∈ choices, a.InRange) (c : Config) (text : String) :
    (c.apply (textOf choices ++ ";" ++ text)).result = ((c.chosen choices).apply text).result
    ∧ (c.apply (textOf choices ++ ";" ++ text)).config = ((c.chosen choices).apply text).config := by
  unfold apply
  rw [items_append, items_textOf]
  exact applyItems_append hrange c (items text)

theorem apply_textOf (hrange : ∀ a ∈ choices, a.InRange) (c : Config) :
    (c.apply (textOf choices)).result = .ok () ∧ (c.apply (textOf choices)).config = c.chosen choices := by
  have h := applyItems_append hrange c []
  rw [List.append_nil] at h
  rwa [apply, items_textOf]

/-! ## JSON objects -/

def objectOf (choices : List Choice) : Json := .ofMembers (choices.map Choice.member)

/-- The value that choices give for an option in JSON, if there is one for it. -/
def jsonFor? (choices : List Choice) (s : Setting) : Option Json :=
  findValue? s.key (choices.map Choice.member)

/-- The configuration with the options for which there is a value in JSON. -/
def readOn? (c : Config) (value? : Setting → Option Json) : Option Config := do
  return {
    batch := ← option? c.batch Json.toUInt64? (value? .batch)
    isTrain := ← option? c.isTrain flagOfJson? (value? .isTrain)
    numNeg := ← option? c.numNeg Json.toUInt64? (value? .numNeg)
    numNeighbors := ← option? c.numNeighbors (Json.toList? Json.toUInt64?) (value? .numNeighbors)
    useNeighFeat := ← option? c.useNeighFeat flagOfJson? (value? .useNeighFeat)
    userTag := ← option? c.userTag Json.toUInt16? (value? .userTag)
    itemTag := ← option? c.itemTag Json.toUInt16? (value? .itemTag) }

theorem key_inj {s t : Setting} : s.key = t.key ↔ s = t := by
  constructor
  · intro h
    have hs := s.ofKey?_key
    rw [h, t.ofKey?_key] at hs
    exact (Option.some.inj hs).symm
  · rintro rfl
    rfl

theorem nodup_keys (hdistinct : (choices.map Choice.setting).Nodup) :
    ((choices.map Choice.member).map Prod.fst).Nodup := by
  have hkeys : (choices.map Choice.member).map Prod.fst
      = (choices.map Choice.setting).map Setting.key := by
    rw [List.map_map, List.map_map]
    rfl
  rw [hkeys]
  exact List.Nodup.map (fun _ _ h => key_inj.1 h) hdistinct

theorem ofJson?_ofMembers {members : List (String × Json)} (hdistinct : (members.map Prod.fst).Nodup)
    (hknown : ∀ m ∈ members, m.1 ∈ Setting.all.map Setting.key) :
    JsonCodec.ofJson? (Json.ofMembers members) = readOn? {} fun s => findValue? s.key members := by
  have hoptions := Json.options?_ofMembers hdistinct hknown
  simp only [JsonCodec.ofJson?, hoptions]
  rfl

theorem ofJson?_objectOf (hdistinct : (choices.map Choice.setting).Nodup) :
    JsonCodec.ofJson? (objectOf choices) = readOn? {} (jsonFor? choices) := by
  refine ofJson?_ofMembers (nodup_keys hdistinct) fun m hm => ?_
  obtain ⟨a, -, rfl⟩ := List.mem_map.1 hm
  exact List.mem_map_of_mem a.setting.mem_all

theorem flagOfJson?_ofNat {n : Nat} (hn : n ≤ 1) : flagOfJson? (.ofNat n) = some (n == 1) := by
  match n with
  | 0 => rfl
  | 1 => rfl

section

variable {α : Type} (default : α) (read : Json → Option α)

theorem option?_none : option? default read none = some default := rfl

theorem option?_some (j : Json) : option? default read (some j) = read j := rfl

end

/-- A choice in range is read as the option that it is for. -/
theorem readOn?_of_choice {a : Choice} (ha : a.InRange) (c : Config) {rest? : Setting → Option Json}
    (hrest : rest? a.setting = none) :
    readOn? c (fun s => if s = a.setting then some a.json else rest? s)
      = readOn? (a.applyTo c) rest? := by
  cases a with
  | batch n | numNeg n =>
    dsimp only [Choice.setting] at hrest
    simp only [readOn?, Choice.setting, Choice.json, Choice.applyTo, if_true, reduceCtorEq, if_false,
      hrest, option?_none, option?_some, Json.toUInt64?_ofNat ha.2]
  | isTrain n | useNeighFeat n =>
    dsimp only [Choice.setting] at hrest
    simp only [readOn?, Choice.setting, Choice.json, Choice.applyTo, if_true, reduceCtorEq, if_false,
      hrest, option?_none, option?_some, flagOfJson?_ofNat ha]
  | userTag n | itemTag n =>
    dsimp only [Choice.setting] at hrest
    simp only [readOn?, Choice.setting, Choice.json, Choice.applyTo, if_true, reduceCtorEq, if_false,
      hrest, option?_none, option?_some, Json.toUInt16?_ofNat ha]
  | numNeighbors ns =>
    dsimp only [Choice.setting] at hrest
    have hlist : Json.toList? Json.toUInt64? (.ofList Json.ofNat ns) = some (ns.map UInt64.ofNat) :=
      Json.toList?_map fun n hn => Json.toUInt64?_ofNat (ha n hn).2
    simp only [readOn?, Choice.setting, Choice.json, Choice.applyTo, if_true, reduceCtorEq, if_false,
      hrest, option?_none, option?_some, hlist]

theorem jsonFor?_cons (a : Choice) (choices : List Choice) :
    jsonFor? (a :: choices) = fun s => if s = a.setting then some a.json else jsonFor? choices s := by
  funext s
  show (if a.setting.key = s.key then some a.json else jsonFor? choices s) = _
  simp only [key_inj, eq_comm]

theorem jsonFor?_of_not_mem {s : Setting} (h : s ∉ choices.map Choice.setting) :
    jsonFor? choices s = none := by
  induction choices with
  | nil => rfl
  | cons a choices ih =>
    rw [List.map_cons, List.mem_cons, not_or] at h
    rw [jsonFor?_cons]
    exact (if_neg h.1).trans (ih h.2)

/-- The object of choices in range for different options is read as the configuration with the choices. -/
theorem ofJson?_choices (hrange : ∀ a ∈ choices, a.InRange)
    (hdistinct : (choices.map Choice.setting).Nodup) :
    JsonCodec.ofJson? (objectOf choices) = some (chosen {} choices) := by
  -- for every `c`: the choices before these have changed it
  have hread : ∀ c, readOn? c (jsonFor? choices) = some (chosen c choices) := by
    induction choices with
    | nil => exact fun c => rfl
    | cons a choices ih =>
      obtain ⟨ha, hchoices⟩ := List.forall_mem_cons.1 hrange
      obtain ⟨hnew, hdistinct⟩ := List.nodup_cons.1 hdistinct
      intro c
      rw [jsonFor?_cons, readOn?_of_choice ha c (jsonFor?_of_not_mem hnew)]
      exact ih hchoices hdistinct (a.applyTo c)
  rw [ofJson?_objectOf hdistinct, hread]

/-! ## The order of choices -/

theorem applyTo_comm {a b : Choice} (h : a.setting ≠ b.setting) (c : Config) :
    b.applyTo (a.applyTo c) = a.applyTo (b.applyTo c) := by
  cases a <;> cases b <;> first | rfl | exact absurd rfl h

/-- The order of choices for different options does not matter. -/
theorem chosen_perm {written : List Choice} (hperm : written.Perm choices)
    (hdistinct : (choices.map Choice.setting).Nodup) (c : Config) : c.chosen written = c.chosen choices := by
  refine hperm.foldl_eq' (fun a ha b hb c => ?_) c
  by_cases h : a.setting = b.setting
  · rw [List.inj_on_of_nodup_map hdistinct (hperm.mem_iff.1 ha) (hperm.mem_iff.1 hb) h]
  · exact applyTo_comm h c

/-! ## The check -/

structure Positive (c : Config) : Prop where
  batch : c.batch ≠ 0
  numNeg : c.numNeg ≠ 0
  numNeighbors : c.numNeighbors.contains 0 = false

theorem positive_default : Positive {} := ⟨by decide, by decide, rfl⟩

/-- Choices in range keep the numbers positive. -/
theorem Positive.chosen {c : Config} (hc : c.Positive) (hrange : ∀ a ∈ choices, a.InRange) :
    (c.chosen choices).Positive := by
  induction choices generalizing c with
  | nil => exact hc
  | cons a choices ih =>
    obtain ⟨ha, hchoices⟩ := List.forall_mem_cons.1 hrange
    refine ih ?_ hchoices
    cases a with
    | batch n => exact { hc with batch := ofNat_ne_zero ha }
    | numNeg n => exact { hc with numNeg := ofNat_ne_zero ha }
    | numNeighbors ns => exact { hc with numNeighbors := Setting.contains_zero_map ha }
    | isTrain n | useNeighFeat n | userTag n | itemTag n => exact { hc with }

/-- If the numbers are positive, only equal tags are refused. -/
theorem Positive.checked_eq {c : Config} (hc : c.Positive) :
    c.checked = if c.userTag = c.itemTag then .error (.sameTags c.userTag) else .ok c := by
  have hcheck : c.check = if c.userTag = c.itemTag then .error (.sameTags c.userTag) else .ok () := by
    rw [check, if_neg hc.batch, if_neg hc.numNeg, if_neg (by rw [hc.numNeighbors]; decide)]
  rw [checked, hcheck]
  split
  · rfl
  · rfl

end Config

end BipartiteBatch
