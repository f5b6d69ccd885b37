import BipartiteBatch.Proofs.Exhaustion
import BipartiteBatch.Proofs.InstanceTexts
import BipartiteBatch.Proofs.ReadableBlocks
import Mathlib.Data.List.Forall2

/-!
# Blocks from texts

A block is loaded from a text of its own, from a slot of an instance, or from the list in such a slot.
Three arrays of the right kinds are taken for a block, whatever they hold: that a block has the form of
those that are built is not checked, and reading a loaded block may fail. What was written for blocks of
this form is loaded with it.

* `Loads` : a text gives a block at one of the three places;
* `Saved` : a text was written for well-formed blocks, `Saved.wellFormed` : so are those that are loaded;
* `Reader.fill_wellFormed` : the blocks that a reader makes are;
* `exists_loads_iff` : the shapes of the blocks that there are texts for;
* `loads_reads` : when the rows of a loaded block can be read;
* `loads_malformed` : texts of blocks that cannot be read.
-/

namespace BipartiteBatch

open JsonCodec

/-! ## Lists that are decoded -/

namespace Json

variable {β : Type} {f : Json → Option β}

theorem exists_of_mem_toList? {j : Json} {ys : List β} (h : j.toList? f = some ys) {y : β}
    (hy : y ∈ ys) : ∃ j, f j = some y := by
  cases j with
  | array js =>
    obtain ⟨j, -, hj⟩ := exists_mem_of_forall₂ (forall₂_of_mapM h) hy
    exact ⟨j, hj⟩
  | _ => cases h

theorem eq_of_toSize?_ofNat {n m : Nat} (h : (ofNat n).toSize? = some m) : n = m :=
  (toNat?_ofNat_eq_some.1 h).2

theorem fitsWord_of_toSize? {j : Json} {n : Nat} (h : j.toSize? = some n) : FitsWord n := by
  unfold toSize? toNat? at h
  split at h
  · exact of_decide_eq_true (Option.filter_eq_some_iff.1 h).2
  · cases h

end Json

/-! ## Blocks -/

namespace Csr

/-- The same offsets and columns, and as many values. -/
structure SameShape (csr other : Csr) : Prop where
  rowOffset : other.rowOffset = csr.rowOffset
  col : other.col = csr.col
  size_value : other.value.size = csr.value.size

theorem WellFormed.of_sameShape {csr other : Csr} (h : csr.WellFormed) (hshape : csr.SameShape other) :
    other.WellFormed where
  start := hshape.rowOffset ▸ h.start
  ascending := hshape.rowOffset ▸ h.ascending
  stop := hshape.rowOffset ▸ hshape.col ▸ h.stop
  values := by rw [hshape.size_value, h.values, hshape.col]

theorem exists_arrays_of_ofJson? {csr : Csr} {j : Json} (h : ofJson? j = some csr) :
    ∃ rowOffset col value, j.fields? ["row_offset", "col", "value"] = some [rowOffset, col, value]
      ∧ rowOffset.toList? Json.toSize? = some csr.rowOffset.toList
      ∧ col.toList? Json.toUInt64? = some csr.col.toList
      ∧ value.toList? Json.toFloat32? = some csr.value.toList := by
  simp only [ofJson?, Option.bind_eq_bind] at h
  obtain ⟨fields, hfields, h⟩ := Option.bind_eq_some_iff.1 h
  split at h
  · obtain ⟨offsets, hoffsets, h⟩ := Option.bind_eq_some_iff.1 h
    obtain ⟨cols, hcols, h⟩ := Option.bind_eq_some_iff.1 h
    obtain ⟨values, hvalues, h⟩ := Option.bind_eq_some_iff.1 h
    obtain rfl := Option.some.inj h
    exact ⟨_, _, _, hfields, hoffsets, hcols, hvalues⟩
  · cases h

theorem fitsWord_of_ofJson? {csr : Csr} {j : Json} (h : ofJson? j = some csr) :
    ∀ n ∈ csr.rowOffset.toList, FitsWord n := by
  obtain ⟨rowOffset, -, -, -, hoffsets, -, -⟩ := exists_arrays_of_ofJson? h
  intro n hn
  obtain ⟨item, hitem⟩ := Json.exists_of_mem_toList? hoffsets hn
  exact Json.fitsWord_of_toSize? hitem

/-- What is decoded from the form of a block has its shape, whatever becomes of the values. -/
theorem sameShape_of_ofJson? {csr other : Csr} (h : ofJson? (toJson csr) = some other) :
    csr.SameShape other := by
  obtain ⟨rowOffset, col, value, hfields, hoffsets, hcols, hvalues⟩ := exists_arrays_of_ofJson? h
  rw [csr.fields?_toJson] at hfields
  injection hfields with hfields
  injection hfields with hrowOffset hfields
  injection hfields with hcol hfields
  injection hfields with hvalue
  subst hrowOffset hcol hvalue
  have hoffsets := (Json.forall₂_of_toList? hoffsets).imp fun _ _ => Json.eq_of_toSize?_ofNat
  have hcols := (Json.forall₂_of_toList? hcols).imp fun c d hd =>
    Option.some.inj ((Json.toUInt64?_toNat c).symm.trans hd)
  have hvalues := (Json.forall₂_of_toList? hvalues).length_eq
  rw [List.forall₂_eq_eq_eq] at hoffsets hcols
  exact ⟨Array.toList_inj.1 hoffsets.symm, Array.toList_inj.1 hcols.symm, by simpa using hvalues.symm⟩

end Csr

/-! ## Slots -/

namespace SlotValue

def blocks : SlotValue → List Csr
  | csr block => [block]
  | csrList blocks => blocks
  | _ => []

def WellFormed (value : SlotValue) : Prop := ∀ csr ∈ value.blocks, csr.WellFormed

theorem exists_ofJson?_of_mem_blocks {kind : SlotKind} {data : Json} {value : SlotValue} {block : Csr}
    (h : ofKindAndData? kind data = some value) (hmem : block ∈ value.blocks) :
    ∃ j, ofJson? j = some block := by
  cases kind with
  | csr =>
    obtain ⟨held, hheld, rfl⟩ := Option.map_eq_some_iff.1 h
    obtain rfl := List.mem_singleton.1 hmem
    exact ⟨data, hheld⟩
  | csrList =>
    obtain ⟨held, hheld, rfl⟩ := Option.map_eq_some_iff.1 h
    exact Json.exists_of_mem_toList? hheld hmem
  | indices | nodes | labels =>
    obtain ⟨_, -, rfl⟩ := Option.map_eq_some_iff.1 h
    cases hmem

theorem forall₂_blocks {value other : SlotValue}
    (h : ofKindAndData? value.kind value.dataJson = some other) :
    List.Forall₂ Csr.SameShape value.blocks other.blocks := by
  cases value with
  | csr block =>
    obtain ⟨held, hheld, rfl⟩ := Option.map_eq_some_iff.1 h
    exact .cons (Csr.sameShape_of_ofJson? hheld) .nil
  | csrList blocks =>
    obtain ⟨held, hheld, rfl⟩ := Option.map_eq_some_iff.1 h
    exact (Json.forall₂_of_toList? hheld).imp fun _ _ => Csr.sameShape_of_ofJson?
  | indices | nodes | labels =>
    obtain ⟨_, -, rfl⟩ := Option.map_eq_some_iff.1 h
    exact .nil

theorem exists_kindAndData {outer : Nat} {j : Json} {value : SlotValue}
    (h : ofJsonWithin? outer j = some value) :
    ∃ kind data, ofKindAndData? kind data = some value := by
  unfold ofJsonWithin? at h
  split at h
  · obtain ⟨kind, -, h⟩ := Option.bind_eq_some_iff.1 h
    exact ⟨kind, _, h⟩
  · obtain ⟨named, -, h⟩ := Option.bind_eq_some_iff.1 h
    split at h
    · obtain ⟨kind, -, h⟩ := Option.bind_eq_some_iff.1 h
      exact ⟨kind, _, h⟩
    · split at h
      · obtain ⟨kind, -, h⟩ := Option.bind_eq_some_iff.1 h
        exact ⟨kind, _, h⟩
      · cases h
    · cases h
  · cases h

end SlotValue

/-! ## Instances -/

namespace Table

variable {α : Type}

theorem mem_of_get?_foldl_insert {es : List (String × α)} {t : Table α} {name : String}
    {value : α} (h : (es.foldl (fun t e => t.insert e.1 e.2) t).get? name = some value) :
    (name, value) ∈ es ∨ t.get? name = some value := by
  induction es generalizing t with
  | nil => exact .inr h
  | cons e es ih =>
    rcases ih h with h | h
    · exact .inl (List.mem_cons_of_mem _ h)
    · rw [get?_insert] at h
      split at h
      · rename_i hname
        obtain rfl := Option.some.inj h
        exact .inl (hname ▸ List.mem_cons_self)
      · exact .inr h

theorem mem_entries_iff {t : Table α} {name : String} {value : α} :
    (name, value) ∈ t.entries ↔ t.get? name = some value := by
  constructor
  · intro h
    have hnodup : (t.entries.map Prod.fst).Nodup :=
      List.pairwise_map.2 (t.ascending.imp fun hlt => (String.ne_of_lt hlt))
    exact findValue?_of_mem hnodup h
  · intro h
    rw [← t.ofList_entries] at h
    exact (mem_of_get?_foldl_insert h).resolve_right nofun

end Table

namespace Json

theorem eq_map_of_members {ms : List (Option String × Json)} {named : List (String × Json)}
    (h : members ms = some named) : ms = named.map fun m => (some m.1, m.2) := by
  induction ms generalizing named with
  | nil =>
    obtain rfl : [] = named := Option.some.inj h
    rfl
  | cons m ms ih =>
    obtain ⟨_ | name, j⟩ := m
    · cases h
    · obtain ⟨more, hmore, rfl⟩ := Option.map_eq_some_iff.1 h
      rw [ih hmore]
      rfl

end Json

namespace Instance

theorem exists_member_of_get? {ms : List (Option String × Json)} {slots : Table SlotValue}
    {name : String} {value : SlotValue} (h : slotsOfJson? (.object ms) = some slots)
    (hget : slots.get? name = some value) :
    ∃ j, (some name, j) ∈ ms ∧ SlotValue.ofJsonWithin? 2 j = some value := by
  obtain ⟨named, hnamed, h⟩ := Option.bind_eq_some_iff.1 h
  obtain ⟨entries, hentries, h⟩ := Option.bind_eq_some_iff.1 h
  obtain rfl := Option.some.inj h
  -- of members with one name the last is found, but it is one of them in any case
  have hmem := (Table.mem_of_get?_foldl_insert hget).resolve_right nofun
  obtain ⟨m, hm, hvalue⟩ := exists_mem_of_forall₂ (forall₂_of_mapM hentries) hmem
  obtain ⟨decoded, hdecoded, heq⟩ := Option.map_eq_some_iff.1 hvalue
  obtain ⟨rfl, rfl⟩ := Prod.mk.inj heq
  rw [Json.eq_map_of_members hnamed]
  exact ⟨m.2, List.mem_map_of_mem hm, hdecoded⟩

def blocks (inst : Instance) : List Csr := inst.slots.entries.flatMap fun e => e.2.blocks

def WellFormed (inst : Instance) : Prop := ∀ csr ∈ inst.blocks, csr.WellFormed

theorem mem_blocks_of_get? {inst : Instance} {name : String} {value : SlotValue} {block : Csr}
    (hget : inst.get? name = some value) (hmem : block ∈ value.blocks) : block ∈ inst.blocks :=
  List.mem_flatMap.2 ⟨_, Table.mem_entries_iff.2 hget, hmem⟩

theorem exists_members_of_ofJson? {inst : Instance} {j : Json} (h : ofJson? j = some inst) :
    ∃ ms batchSize, j.fields? ["slots", "batch_size"] = some [.object ms, batchSize]
      ∧ slotsOfJson? (.object ms) = some inst.slots := by
  simp only [ofJson?, Option.bind_eq_bind] at h
  obtain ⟨fields, hfields, h⟩ := Option.bind_eq_some_iff.1 h
  split at h
  · rename_i slots batchSize
    obtain ⟨decoded, hdecoded, h⟩ := Option.bind_eq_some_iff.1 h
    obtain ⟨size, -, h⟩ := Option.bind_eq_some_iff.1 h
    obtain rfl := Option.some.inj h
    cases slots with
    | object ms => exact ⟨ms, batchSize, hfields, hdecoded⟩
    | _ => cases hdecoded
  · cases h

/-- A block in an instance is decoded from a part of what the instance is decoded from. -/
theorem exists_ofJson?_of_mem_blocks {inst : Instance} {j : Json} {block : Csr}
    (h : ofJson? j = some inst) (hmem : block ∈ inst.blocks) : ∃ j, ofJson? j = some block := by
  obtain ⟨⟨name, value⟩, hentry, hmem⟩ := List.mem_flatMap.1 hmem
  obtain ⟨ms, -, -, hslots⟩ := exists_members_of_ofJson? h
  obtain ⟨member, -, hvalue⟩ := exists_member_of_get? hslots (Table.mem_entries_iff.1 hentry)
  obtain ⟨kind, data, hvalue⟩ := SlotValue.exists_kindAndData hvalue
  exact SlotValue.exists_ofJson?_of_mem_blocks hvalue hmem

/-- A block that is decoded from the form of an instance has the shape of a block of the instance. -/
theorem exists_sameShape_of_mem_blocks {inst other : Instance} {block : Csr}
    (h : ofJson? (toJson inst) = some other) (hmem : block ∈ other.blocks) :
    ∃ written ∈ inst.blocks, written.SameShape block := by
  obtain ⟨⟨name, value⟩, hentry, hmem⟩ := List.mem_flatMap.1 hmem
  obtain ⟨ms, _, hfields, hslots⟩ := exists_members_of_ofJson? h
  rw [inst.fields?_toJson] at hfields
  injection hfields with hfields
  injection hfields with hms
  injection hms with hms
  obtain ⟨member, hmember, hvalue⟩ := exists_member_of_get? hslots (Table.mem_entries_iff.1 hentry)
  rw [← hms, List.map_map] at hmember
  obtain ⟨e, he, heq⟩ := List.mem_map.1 hmember
  obtain ⟨-, rfl⟩ := Prod.mk.inj heq
  rw [SlotValue.ofJsonWithin?_toJson] at hvalue
  obtain ⟨written, hwritten, hshape⟩ := exists_mem_of_forall₂ (SlotValue.forall₂_blocks hvalue) hmem
  exact ⟨written, List.mem_flatMap.2 ⟨e, he, hwritten⟩, hshape⟩

end Instance

/-! ## Texts -/

/-- Where a text has a block: by itself, in a slot of an instance, or in the list in such a slot. -/
inductive BlockPlace where
  | alone
  | slot
  | list

/-- The text is accepted, and gives the block at the place. -/
def Loads (place : BlockPlace) (text : String) (csr : Csr) : Prop :=
  match place with
  | .alone => ofJsonText? text = some csr
  | .slot => ∃ (inst : Instance) (name : String), ofJsonText? text = some inst
      ∧ inst.csr? name = some csr
  | .list => ∃ (inst : Instance) (name : String) (blocks : List Csr), ofJsonText? text = some inst
      ∧ inst.csrList? name = some blocks ∧ csr ∈ blocks

/-- The text was written for a value, in one line or over lines. -/
def IsTextOf {α : Type} [JsonCodec α] (text : String) (a : α) : Prop :=
  text = toJsonText a ∨ text = toJsonLines a

/-- The text was written for a well-formed block, or for an instance all of whose blocks are. -/
inductive Saved (text : String) : Prop
  | block (csr : Csr) (htext : IsTextOf text csr) (h : csr.WellFormed)
  | inst (inst : Instance) (htext : IsTextOf text inst) (h : inst.WellFormed)

variable {place : BlockPlace} {text : String} {csr : Csr}

theorem ofJsonText?_of_isTextOf {α β : Type} [JsonCodec α] [JsonCodec β] {a : α} (h : IsTextOf text a) :
    (ofJsonText? text : Option β) = ofJson? (toJson a) := by
  rcases h with rfl | rfl
  · rw [ofJsonText?, toJsonText, Json.parse?_compact, Option.bind_some]
  · rw [ofJsonText?, toJsonLines, Json.parse?_pretty, Option.bind_some]

theorem Loads.alone_or_mem_blocks (h : Loads place text csr) : ofJsonText? text = some csr
    ∨ ∃ inst : Instance, ofJsonText? text = some inst ∧ csr ∈ inst.blocks := by
  cases place with
  | alone => exact .inl h
  | slot =>
    obtain ⟨inst, name, hinst, hslot⟩ := h
    obtain ⟨value, hget, hvalue⟩ := Option.bind_eq_some_iff.1 hslot
    refine .inr ⟨inst, hinst, Instance.mem_blocks_of_get? hget ?_⟩
    cases value with
    | csr block =>
      obtain rfl := Option.some.inj hvalue
      exact List.mem_singleton_self _
    | _ => cases hvalue
  | list =>
    obtain ⟨inst, name, blocks, hinst, hslot, hmem⟩ := h
    obtain ⟨value, hget, hvalue⟩ := Option.bind_eq_some_iff.1 hslot
    refine .inr ⟨inst, hinst, Instance.mem_blocks_of_get? hget ?_⟩
    cases value with
    | csrList held =>
      obtain rfl := Option.some.inj hvalue
      exact hmem
    | _ => cases hvalue

theorem Loads.fitsWord (h : Loads place text csr) : ∀ n ∈ csr.rowOffset.toList, FitsWord n := by
  have hdecoded : ∃ j, ofJson? j = some csr := by
    rcases h.alone_or_mem_blocks with h | ⟨inst, hinst, hmem⟩
    · obtain ⟨j, -, hj⟩ := Option.bind_eq_some_iff.1 h
      exact ⟨j, hj⟩
    · obtain ⟨j, -, hj⟩ := Option.bind_eq_some_iff.1 hinst
      exact Instance.exists_ofJson?_of_mem_blocks hj hmem
  obtain ⟨j, hj⟩ := hdecoded
  exact Csr.fitsWord_of_ofJson? hj

-- The two forms have no field in common, so neither is taken for the other.

theorem ofJson?_instance_of_csr (csr : Csr) : (ofJson? (toJson csr) : Option Instance) = none := rfl

theorem ofJson?_csr_of_instance (inst : Instance) : (ofJson? (toJson inst) : Option Csr) = none := rfl

theorem Saved.wellFormed (hsaved : Saved text) (h : Loads place text csr) : csr.WellFormed := by
  cases hsaved with
  | block written htext hwritten =>
    rcases h.alone_or_mem_blocks with h | ⟨other, hother, -⟩
    · rw [ofJsonText?_of_isTextOf htext] at h
      exact hwritten.of_sameShape (Csr.sameShape_of_ofJson? h)
    · rw [ofJsonText?_of_isTextOf htext, ofJson?_instance_of_csr] at hother
      cases hother
  | inst written htext hwritten =>
    rcases h.alone_or_mem_blocks with h | ⟨other, hother, hmem⟩
    · rw [ofJsonText?_of_isTextOf htext, ofJson?_csr_of_instance] at h
      cases h
    · rw [ofJsonText?_of_isTextOf htext] at hother
      obtain ⟨block, hblock, hshape⟩ := Instance.exists_sameShape_of_mem_blocks hother hmem
      exact (hwritten block hblock).of_sameShape hshape

/-! ## What a reader writes -/

theorem Instance.mem_of_get?_insertAll {inst : Instance} {entries : List (String × SlotValue)}
    {name : String} {value : SlotValue} (h : (inst.insertAll entries).get? name = some value) :
    (name, value) ∈ entries ∨ inst.get? name = some value := by
  have hslots (inst : Instance) :
      (inst.insertAll entries).slots = entries.foldl (fun t e => t.insert e.1 e.2) inst.slots :=
    (List.foldl_hom Instance.slots fun _ _ => rfl).symm
  rw [Instance.get?, hslots] at h
  exact Table.mem_of_get?_foldl_insert h

theorem Instance.wellFormed_insertAll {entries : List (String × SlotValue)}
    (h : ∀ e ∈ entries, e.2.WellFormed) (size : Nat) :
    ((empty.insertAll entries).withBatchSize size).WellFormed := by
  intro csr hcsr
  obtain ⟨⟨name, value⟩, hentry, hcsr⟩ := List.mem_flatMap.1 hcsr
  have hget := Table.mem_entries_iff.1 hentry
  exact h _ ((mem_of_get?_insertAll hget).resolve_right nofun) csr hcsr

theorem SlotValue.wellFormed_csr_ofRows (rows : List (List Entry)) :
    (SlotValue.csr (.ofRows rows)).WellFormed :=
  List.forall_mem_singleton.2 (Csr.wellFormed_ofRows rows)

theorem Block.wellFormed_of_mem_pairsOf {directed : Bool} {levels : List (List NodeId)}
    {maps : List NeighborMap} :
    ∀ pair ∈ pairsOf directed levels maps, pair.self.WellFormed ∧ pair.neighbors.WellFormed := by
  fun_induction pairsOf directed levels maps with
  | case1 level next levels map maps ih =>
    exact List.forall_mem_cons.2 ⟨⟨Csr.wellFormed_ofRows _, Csr.wellFormed_ofRows _⟩, ih⟩
  | case2 => exact nofun

theorem Findings.wellFormed_entries (found : Findings) (slots : EncoderSlots) :
    ∀ e ∈ found.entries slots, e.2.WellFormed := by
  intro e he
  unfold entries at he
  simp only [List.mem_append, List.mem_cons, List.mem_map, List.not_mem_nil, or_false] at he
  rcases he with (rfl | ⟨rows, -, rfl⟩) | rfl | rfl
  · exact SlotValue.wellFormed_csr_ofRows _
  · exact SlotValue.wellFormed_csr_ofRows _
  · exact List.forall_mem_map.2 fun pair hpair => (Block.wellFormed_of_mem_pairsOf pair hpair).1
  · exact List.forall_mem_map.2 fun pair hpair => (Block.wellFormed_of_mem_pairsOf pair hpair).2

theorem wellFormed_edgeEntries (slots : SlotNames) (rows : List Block.EdgeRow) :
    ∀ e ∈ edgeEntries slots rows, e.2.WellFormed := by
  intro e he
  simp only [edgeEntries, List.mem_cons, List.not_mem_nil, or_false] at he
  rcases he with rfl | rfl | rfl <;> exact List.forall_mem_nil _

theorem wellFormed_lookupEntries {flat : FlatIndex} {block : Csr} {nodes : List NodeId}
    (h : Block.lookupBlock flat nodes = .ok block) (slots : SlotNames) :
    ∀ e ∈ lookupEntries slots block nodes, e.2.WellFormed := by
  obtain ⟨indices, -, rfl⟩ := Block.lookupBlock_eq_ok.1 h
  intro e he
  simp only [lookupEntries, List.mem_cons, List.not_mem_nil, or_false] at he
  rcases he with rfl | rfl
  · exact SlotValue.wellFormed_csr_ofRows _
  · exact List.forall_mem_nil _

/-- Whatever comes of a call of a reader, the blocks in the instance are well-formed. -/
theorem Reader.fill_wellFormed {γ σ : Type} [GraphClient γ] [NegativeSampler σ] (a : Assembly γ σ) :
    (Reader.fill a).2.inst.WellFormed := by
  by_cases hok : (Reader.fill a).1 = .ok true
  · have hfill : Reader.fill a = (.ok true, (Reader.fill a).2) := Prod.ext hok rfl
    cases hmode : a.reader.config.isTrain with
    | true =>
      obtain ⟨records, input, read, lists, users, items, rows, -, h⟩ := (fill_train hmode).1 hfill
      rw [h.inst]
      exact Instance.wellFormed_insertAll (List.forall_mem_append.2 ⟨List.forall_mem_append.2
        ⟨users.wellFormed_entries _, items.wellFormed_entries _⟩, wellFormed_edgeEntries _ rows⟩) _
    | false =>
      obtain ⟨records, input, read, users, items, block, -, h⟩ := (fill_predict hmode).1 hfill
      rw [h.inst]
      exact Instance.wellFormed_insertAll (List.forall_mem_append.2 ⟨List.forall_mem_append.2
        ⟨users.wellFormed_entries _, items.wellFormed_entries _⟩,
        wellFormed_lookupEntries h.lookupBlock _⟩) _
  · rw [fill_inst_eq_empty hok]
    exact nofun

/-- The blocks loaded from the text of what a reader left in an instance can be read. -/
theorem Reader.exists_reads_of_fill {γ σ : Type} [GraphClient γ] [NegativeSampler σ] {a : Assembly γ σ}
    (htext : IsTextOf text (Reader.fill a).2.inst) (h : Loads place text csr) :
    ∃ rows, csr.Reads rows :=
  ((Saved.inst _ htext (Reader.fill_wellFormed a)).wellFormed h).exists_reads

/-! ## Shapes -/

/-- A text that has a block at a place. -/
def BlockPlace.write (place : BlockPlace) (csr : Csr) : String :=
  match place with
  | .alone => toJsonText csr
  | .slot => toJsonText (Instance.empty.insert "block" (.csr csr))
  | .list => toJsonText (Instance.empty.insert "blocks" (.csrList [csr]))

theorem Instance.ofJson?_toJson_insert (name : String) {value : SlotValue}
    (hsizes : ∀ n ∈ value.sizes, FitsWord n) (hfloats : ∀ x ∈ value.floats, Json.ReadsBack x) :
    ofJson? (toJson (empty.insert name value)) = some (empty.insert name value) := by
  have hall : (empty.insert name value).sizes = 0 :: (value.sizes ++ [])
      ∧ (empty.insert name value).floats = value.floats ++ [] := ⟨rfl, rfl⟩
  refine ofJson?_toJson (fun n hn => ?_) fun x hx => ?_
  · rw [hall.1, List.append_nil] at hn
    rcases List.mem_cons.1 hn with rfl | hn
    · exact Nat.zero_le _
    · exact hsizes n hn
  · rw [hall.2, List.append_nil] at hx
    exact hfloats x hx

/-- A block of any offsets is loaded from its text. -/
theorem loads_write (place : BlockPlace) (hsizes : ∀ n ∈ csr.rowOffset.toList, FitsWord n)
    (hfloats : ∀ x ∈ csr.value.toList, Json.ReadsBack x) : Loads place (place.write csr) csr := by
  have htext {α : Type} [JsonCodec α] (a : α) :
      (ofJsonText? (toJsonText a) : Option α) = ofJson? (toJson a) := ofJsonText?_of_isTextOf (.inl rfl)
  cases place with
  | alone => exact (htext csr).trans (Csr.ofJson?_toJson hsizes hfloats)
  | slot =>
    exact ⟨_, "block", (htext _).trans (Instance.ofJson?_toJson_insert "block" hsizes hfloats), rfl⟩
  | list =>
    have hsizes : ∀ n ∈ (SlotValue.csrList [csr]).sizes, FitsWord n := by
      simpa [SlotValue.sizes] using hsizes
    have hfloats : ∀ x ∈ (SlotValue.csrList [csr]).floats, Json.ReadsBack x := by
      simpa [SlotValue.floats] using hfloats
    exact ⟨_, "blocks", [csr], (htext _).trans
      (Instance.ofJson?_toJson_insert "blocks" hsizes hfloats), rfl, List.mem_singleton_self _⟩

/-- There is a text for a block of given offsets, columns and number of values if and only if the offsets
are 64-bit numbers. -/
theorem exists_loads_iff {offsets : List Nat} {cols : List UInt64} {count : Nat} :
    (∃ text csr, Loads place text csr ∧ csr.rowOffset.toList = offsets ∧ csr.col.toList = cols
      ∧ csr.value.size = count) ↔ ∀ n ∈ offsets, FitsWord n := by
  constructor
  · rintro ⟨text, csr, h, rfl, -, -⟩
    exact h.fitsWord
  · intro hfits
    let csr : Csr := ⟨offsets.toArray, cols.toArray, (List.replicate count 0).toArray⟩
    have hfloats : ∀ x ∈ csr.value.toList, Json.ReadsBack x := by
      intro x hx
      obtain rfl := List.eq_of_mem_replicate hx
      decide +kernel
    exact ⟨_, csr, loads_write place hfits hfloats, rfl, rfl, by simp [csr]⟩

/-! ## Reading what was loaded -/

/-- That a text is accepted says nothing about how the offsets of a block in it relate to each other, to
the columns and to the values: blocks of all shapes are loaded, at all places. A loaded block can be read
if and only if it has an offset and each two neighboring offsets cut a row out; row `i` alone can be read
if and only if it is none of those counted or its own two offsets cut it out. A well-formed block can be
read, and what is loaded from a text that was written for well-formed blocks is well-formed. -/
theorem loads_reads (place : BlockPlace) :
    (∀ (offsets : List Nat) (cols : List UInt64) (count : Nat),
      (∃ text csr, Loads place text csr ∧ csr.rowOffset.toList = offsets ∧ csr.col.toList = cols
        ∧ csr.value.size = count) ↔ ∀ n ∈ offsets, FitsWord n)
    ∧ ∀ (text : String) (csr : Csr), Loads place text csr →
      ((∃ rows, csr.Reads rows) ↔ csr.rowOffset ≠ #[] ∧ csr.rowOffset.toList.IsChain csr.Cuts)
      ∧ (∀ i, (∃ row, csr.row i = .ok row) ↔ csr.rowCount ≤ i
        ∨ ∃ first last, csr.rowOffset[i]? = some first ∧ csr.rowOffset[i + 1]? = some last
          ∧ csr.Cuts first last)
      ∧ (csr.WellFormed → ∃ rows, csr.Reads rows)
      ∧ (Saved text → csr.WellFormed) :=
  ⟨fun _ _ _ => exists_loads_iff, fun _ _ h => ⟨Csr.exists_reads_iff, fun _ => Csr.row_isOk_iff,
    fun hform => hform.exists_reads, fun hsaved => hsaved.wellFormed h⟩⟩

def openBlock : Csr := (Csr.ofRows [[(3, 0.1)], []]).emplace 18446744073709551615 (-0.0)

theorem loads_reads_openBlock : ∃ csr, Loads .slot (BlockPlace.slot.write openBlock) csr
    ∧ Saved (BlockPlace.slot.write openBlock) ∧ csr.WellFormed ∧ csr.Reads [[(3, 0.1)], []] := by
  have hloads : Loads .slot (BlockPlace.slot.write openBlock) openBlock :=
    loads_write .slot (by decide) (by decide +kernel)
  have hholds : openBlock.Holds [[(3, 0.1)], []] [(18446744073709551615, -0.0)] :=
    (Csr.holds_ofRows _).emplace _ _
  have hsaved : Saved (BlockPlace.slot.write openBlock) := by
    refine .inst (Instance.empty.insert "block" (.csr openBlock)) (.inl rfl) fun csr hcsr => ?_
    obtain rfl := List.mem_singleton.1 hcsr
    exact hholds.wellFormed
  obtain ⟨-, -, hreads, hform⟩ := (loads_reads .slot).2 _ openBlock hloads
  obtain ⟨rows, hrows⟩ := hreads (hform hsaved)
  obtain rfl := Except.ok.inj (hrows.rows_eq.symm.trans hholds.rows_eq)
  exact ⟨openBlock, hloads, hsaved, hform hsaved, hrows⟩

/-- A block whose second row ends before it begins. -/
def decreasingText : String := "\x7b\"row_offset\":[0,2,1],\"col\":[4,5],\"value\":[1.0,2.0]\x7d"

/-- An instance with a block that has no offset. -/
def noOffsetText : String :=
  "\x7b\"slots\":\x7b\"s\":\x7b\"kind\":\"csr\",\"data\":[[],[],[]]\x7d\x7d,\"batch_size\":1\x7d"

/-- Both texts are accepted, and neither block is well-formed. Of one neither the second row nor all rows
can be read; the other counts rows although it has none, and the first of them cannot be read. -/
theorem loads_malformed :
    (∃ csr, Loads .alone decreasingText csr ∧ ¬ csr.WellFormed
      ∧ csr.row 1 = .error (.between 2 1) ∧ csr.rows = .error (.between 2 1))
    ∧ ∃ csr, Loads .slot noOffsetText csr ∧ ¬ csr.WellFormed
      ∧ csr.rowCount = 18446744073709551615 ∧ csr.row 0 = .error .missing := by
  constructor
  · have hparts : (ofJsonText? decreasingText : Option Csr).map
        (fun csr => (csr.rowOffset, csr.col, csr.value)) = some (#[0, 2, 1], #[4, 5], #[1.0, 2.0]) := by
      decide +kernel
    obtain ⟨⟨_, _, _⟩, hload, heq⟩ := Option.map_eq_some_iff.1 hparts
    cases heq
    exact ⟨_, hload, by decide, rfl, rfl⟩
  · have hparts : ((ofJsonText? noOffsetText : Option Instance).bind fun inst => inst.csr? "s").map
        (fun csr => (csr.rowOffset, csr.col, csr.value)) = some (#[], #[], #[]) := by
      decide +kernel
    obtain ⟨⟨_, _, _⟩, hslot, heq⟩ := Option.map_eq_some_iff.1 hparts
    obtain ⟨inst, hload, hslot⟩ := Option.bind_eq_some_iff.1 hslot
    cases heq
    exact ⟨_, ⟨inst, "s", hload, hslot⟩, by decide, rfl, rfl⟩

end BipartiteBatch
