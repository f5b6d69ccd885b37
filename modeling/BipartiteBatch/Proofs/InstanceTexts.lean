import BipartiteBatch.Codec.Instance
import BipartiteBatch.Proofs.JsonRecords

/-!
# Instances read back

An instance is written as a JSON text, in one line or over lines, and read back from it. The whole numbers
of an instance are sizes and positions and fit into 64 bits; of its floats it is required that the text of
each one reads back.

* `Instance.sizes`, `Instance.floats` : the numbers of an instance;
* `Instance.texts_read_back` : both texts of an instance read back.
-/

namespace BipartiteBatch

open JsonCodec

/-! ## Blocks -/

/-- A size or a position that a text may give. -/
def FitsWord (n : Nat) : Prop := n ≤ 0xFFFFFFFFFFFFFFFF

instance (n : Nat) : Decidable (FitsWord n) := inferInstanceAs (Decidable (_ ≤ _))

theorem Csr.fields?_toJson (csr : Csr) : (toJson csr).fields? ["row_offset", "col", "value"]
    = some [.ofList Json.ofNat csr.rowOffset.toList,
      .ofList (fun c => Json.ofNat c.toNat) csr.col.toList,
      .ofList Json.ofFloat32 csr.value.toList] := Json.fields?_ofMembers rfl (by decide)

theorem Csr.ofJson?_toJson {csr : Csr} (hsizes : ∀ n ∈ csr.rowOffset.toList, FitsWord n)
    (hfloats : ∀ x ∈ csr.value.toList, Json.ReadsBack x) : ofJson? (toJson csr) = some csr := by
  have hrowOffset := Json.toList?_ofList fun n hn => Json.toSize?_ofNat (hsizes n hn)
  have hcol := Json.toList?_ofList fun c (_ : c ∈ csr.col.toList) => Json.toUInt64?_toNat c
  have hvalue := Json.toList?_ofList fun x hx => Json.toFloat32?_ofFloat32 (hfloats x hx)
  simp only [ofJson?, csr.fields?_toJson, Option.bind_eq_bind, Option.bind_some, hrowOffset, hcol,
    hvalue]
  rfl

/-! ## Slot values -/

namespace SlotValue

def sizes : SlotValue → List Nat
  | csr block => block.rowOffset.toList
  | csrList blocks => blocks.flatMap fun block => block.rowOffset.toList
  | indices items => items
  | nodes _ => []
  | labels _ => []

def floats : SlotValue → List Float32
  | csr block => block.value.toList
  | csrList blocks => blocks.flatMap fun block => block.value.toList
  | indices _ => []
  | nodes _ => []
  | labels items => items

variable {value : SlotValue}

/-- The data of a value stand for it, given its kind. -/
theorem ofKindAndData?_dataJson (hsizes : ∀ n ∈ value.sizes, FitsWord n)
    (hfloats : ∀ x ∈ value.floats, Json.ReadsBack x) :
    ofKindAndData? value.kind value.dataJson = some value := by
  cases value with
  | csr block =>
    show (ofJson? (toJson block)).map csr = _
    rw [Csr.ofJson?_toJson hsizes hfloats, Option.map_some]
  | csrList blocks =>
    have hblocks : ∀ block ∈ blocks, ofJson? (toJson block) = some block := fun block hblock =>
      Csr.ofJson?_toJson (fun n hn => hsizes n (List.mem_flatMap.2 ⟨block, hblock, hn⟩))
        fun x hx => hfloats x (List.mem_flatMap.2 ⟨block, hblock, hx⟩)
    show ((Json.ofList toJson blocks).toList? ofJson?).map csrList = _
    rw [Json.toList?_ofList hblocks, Option.map_some]
  | indices items =>
    have hitems : (Json.ofList Json.ofNat items).toList? Json.toSize? = some items :=
      Json.toList?_ofList fun n hn => Json.toSize?_ofNat (hsizes n hn)
    show ((Json.ofList Json.ofNat items).toList? Json.toSize?).map indices = _
    rw [hitems, Option.map_some]
  | nodes items =>
    show ((Json.ofList (fun n => Json.ofNat n.toNat) items).toList? Json.toUInt64?).map nodes = _
    rw [Json.toList?_ofList fun n _ => Json.toUInt64?_toNat n, Option.map_some]
  | labels items =>
    have hitems : (Json.ofList Json.ofFloat32 items).toList? Json.toFloat32? = some items :=
      Json.toList?_ofList fun x hx => Json.toFloat32?_ofFloat32 (hfloats x hx)
    show ((Json.ofList Json.ofFloat32 items).toList? Json.toFloat32?).map labels = _
    rw [hitems, Option.map_some]

/-- A value is written as its kind before its data, so that nothing has to be set aside. -/
theorem ofJsonWithin?_toJson (outer : Nat) (value : SlotValue) :
    ofJsonWithin? outer (toJson value) = ofKindAndData? value.kind value.dataJson := by
  cases value with
  | csr _ => rfl
  | csrList _ => rfl
  | indices _ => rfl
  | nodes _ => rfl
  | labels _ => rfl

end SlotValue

/-! ## Tables -/

namespace Table

variable {α : Type}

theorem get?_foldl_insert {es : List (String × α)} (hes : Ascending es) (t : Table α) (name : String) :
    (es.foldl (fun t e => t.insert e.1 e.2) t).get? name = (findValue? name es).or (t.get? name) := by
  induction es generalizing t with
  | nil => rfl
  | cons e es ih =>
    obtain ⟨he, hes⟩ := List.pairwise_cons.1 hes
    rw [List.foldl_cons, ih hes, get?_insert, findValue?]
    by_cases hname : e.1 = name
    · subst hname
      rw [if_pos rfl, if_pos rfl, findValue?_eq_none_of_lt he]
      rfl
    · rw [if_neg hname, if_neg hname]

theorem ofList_entries (t : Table α) : ofList t.entries = t := by
  refine ext_get? fun name => ?_
  rw [ofList, get?_foldl_insert t.ascending, get?_empty, Option.or_none]
  rfl

end Table

/-! ## Instances -/

namespace Instance

def sizes (inst : Instance) : List Nat :=
  inst.batchSize :: inst.slots.entries.flatMap fun e => e.2.sizes

def floats (inst : Instance) : List Float32 := inst.slots.entries.flatMap fun e => e.2.floats

variable {inst : Instance}

theorem slotsOfJson?_ofMembers (hsizes : ∀ n ∈ inst.sizes, FitsWord n)
    (hfloats : ∀ x ∈ inst.floats, Json.ReadsBack x) :
    slotsOfJson? (.ofMembers (inst.slots.entries.map fun e => (e.1, toJson e.2)))
      = some inst.slots := by
  have hentry : ∀ e ∈ inst.slots.entries,
      ((SlotValue.ofJsonWithin? 2 (toJson e.2)).map fun value => (e.1, value)) = some e := by
    intro e he
    have hvalue := SlotValue.ofKindAndData?_dataJson
      (fun n hn => hsizes n (List.mem_cons_of_mem _ (List.mem_flatMap.2 ⟨e, he, hn⟩)))
      fun x hx => hfloats x (List.mem_flatMap.2 ⟨e, he, hx⟩)
    rw [SlotValue.ofJsonWithin?_toJson, hvalue, Option.map_some]
  show ((Json.members (List.map _ (List.map _ _))).bind fun ms =>
    (ms.mapM fun m => (SlotValue.ofJsonWithin? 2 m.2).map fun value => (m.1, value)).bind
      fun entries => some (Table.ofList entries)) = _
  rw [Json.members_map, Option.bind_some, mapM_map_eq_some hentry, Option.bind_some, List.map_id',
    Table.ofList_entries]

theorem fields?_toJson (inst : Instance) : (toJson inst).fields? ["slots", "batch_size"]
    = some [.ofMembers (inst.slots.entries.map fun e => (e.1, toJson e.2)), .ofNat inst.batchSize] :=
  Json.fields?_ofMembers rfl (by decide)

theorem ofJson?_toJson (hsizes : ∀ n ∈ inst.sizes, FitsWord n)
    (hfloats : ∀ x ∈ inst.floats, Json.ReadsBack x) : ofJson? (toJson inst) = some inst := by
  have hbatch := Json.toSize?_ofNat (hsizes inst.batchSize List.mem_cons_self)
  simp only [ofJson?, inst.fields?_toJson, Option.bind_eq_bind, Option.bind_some,
    slotsOfJson?_ofMembers hsizes hfloats, hbatch]
  rfl

/-- An instance of finite floats is read back from its text, be it in one line or over lines as it is
kept in a file, with each float as it was. The only property of floats that this takes is that the text
of a finite one reads back. -/
theorem texts_read_back (hsizes : ∀ n ∈ inst.sizes, FitsWord n)
    (hfinite : ∀ x ∈ inst.floats, x.isFinite = true)
    (hreads : ∀ x ∈ inst.floats, x.isFinite = true → Json.ReadsBack x) :
    ofJsonText? (toJsonText inst) = some inst ∧ ofJsonText? (toJsonLines inst) = some inst := by
  have hread := ofJson?_toJson hsizes fun x hx => hreads x hx (hfinite x hx)
  constructor
  · rw [ofJsonText?, toJsonText, Json.parse?_compact, Option.bind_some, hread]
  · rw [ofJsonText?, toJsonLines, Json.parse?_pretty, Option.bind_some, hread]

/-- An instance with slots of all five kinds: a block with an open row, columns and nodes above 2 ^ 53,
names with a quote, a control character and a character beyond ASCII, and a zero with a sign. -/
def allKinds : Instance :=
  let block : Csr := ((Csr.ofRows [[(3, 0.1)], []]).emplace 18446744073709551615 (-0.0))
  (((((empty.insert "block" (.csr block)).insert "\"hops\"" (.csrList [block, .empty])).insert "row\n"
    (.indices [0, 18446744073709551615])).insert "né" (.nodes [9007199254740993])).insert ""
      (.labels [1.0, 1e-45])).withBatchSize 18446744073709551615

theorem texts_read_back_allKinds : 0x80000000 ∈ allKinds.floats.map Float32.toBits
    ∧ ofJsonText? (toJsonText allKinds) = some allKinds
    ∧ ofJsonText? (toJsonLines allKinds) = some allKinds :=
  ⟨by decide +kernel, texts_read_back (by decide +kernel) (by decide +kernel) (by decide +kernel)⟩

end Instance

end BipartiteBatch
