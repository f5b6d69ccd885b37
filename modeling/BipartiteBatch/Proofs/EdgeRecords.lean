import BipartiteBatch.Proofs.EdgeTexts
import BipartiteBatch.Proofs.LineBatches

/-!
# Graph texts as records

The edges of a graph text can also be read as records, batch by batch. The records are then the nodes of
its edges, one record for each edge and in the same order, and no line is skipped. A line may hold a record
and be none of a graph text, but only for what stands after its two nodes.

* `EdgeLine.Surplus` : faults in what stands after two nodes, `EdgeLine.ofWords_of_record` : a record is an
  edge but for these;
* `EdgeText.recordsOfText_eq` : the records of a graph text;
* `LineReader.Yields`, `LineReader.yields_ofBytes` : calls that give the records of a text;
* `Graph.ofRecords` : the graph of records, `Graph.ofLines_records` : graph texts as records.
-/

namespace BipartiteBatch

open Number Text

/-! ## Edges and records -/

namespace EdgeLine

def record (e : EdgeLine) : EdgeRecord := ⟨e.src, e.dst⟩

/-- A fault of words in what stands after two nodes: more than one word, or one that is no weight. -/
inductive Surplus : List String → LineFault → Prop
  | fields {words : List String} (h : 3 < words.length) : Surplus words (.weightedFields words.length)
  | weight {a b w : String} {fault : FloatFault} (h : readFloat32 w = .error fault) :
      Surplus [a, b, w] (.weight w fault)

end EdgeLine

/-- Words hold a record if the first two of them are nodes. -/
theorem EdgeRecord.ofWords_eq_ok {words : List String} {x : EdgeRecord} :
    (Record.ofWords words : Except LineFault EdgeRecord) = .ok x
      ↔ ∃ a b rest, words = a :: b :: rest ∧ readUInt64 a = .ok x.src ∧ readUInt64 b = .ok x.dst := by
  constructor
  · intro h
    match words, h with
    | a :: b :: rest, h =>
      obtain ⟨src, dst, hsrc, hdst, rfl⟩ := nodesOfWords_eq_ok.1 h
      exact ⟨a, b, rest, rfl, hsrc, hdst⟩
  · rintro ⟨a, b, rest, rfl, hsrc, hdst⟩
    exact nodesOfWords_eq_ok.2 ⟨_, _, hsrc, hdst, rfl⟩

namespace EdgeLine

theorem WrittenBy.ofWords_record {words : List String} {e : EdgeLine} (h : WrittenBy words e) :
    Record.ofWords words = .ok e.record := by
  obtain ⟨hsrc, hdst⟩ | ⟨hsrc, hdst, -⟩ := h
  · exact EdgeRecord.ofWords_eq_ok.2 ⟨_, _, _, rfl, hsrc, hdst⟩
  · exact EdgeRecord.ofWords_eq_ok.2 ⟨_, _, _, rfl, hsrc, hdst⟩

/-- Words that hold a record are an edge with its nodes, or have a fault in what stands after the nodes. -/
theorem ofWords_of_record {words : List String} {x : EdgeRecord} (h : Record.ofWords words = .ok x) :
    (∃ e, ofWords words = .ok e ∧ e.record = x) ∨ ∃ fault, ofWords words = .error fault ∧ Surplus words fault := by
  obtain ⟨a, b, rest, rfl, hsrc, hdst⟩ := EdgeRecord.ofWords_eq_ok.1 h
  match rest with
  | [] => exact .inl ⟨⟨x.src, x.dst, 1.0⟩, ofWords_eq_ok.2 (.unweighted hsrc hdst), rfl⟩
  | [w] =>
    cases hweight : readFloat32 w with
    | ok weight => exact .inl ⟨⟨x.src, x.dst, weight⟩, ofWords_eq_ok.2 (.weighted hsrc hdst hweight), rfl⟩
    | error fault =>
      refine .inr ⟨.weight w fault, ?_, .weight hweight⟩
      rw [ofWords, hweight]
  | w :: v :: rest => exact .inr ⟨_, rfl, .fields (by simp)⟩

end EdgeLine

theorem Reading.ofLine_eq_record {ρ : Type} [Record ρ] {text : String} {x : ρ} :
    Reading.ofLine text = .record x ↔ ¬ PassedOver text ∧ Record.ofWords (words text) = .ok x := by
  rw [← isIgnored_trim]
  unfold ofLine
  dsimp only
  rw [words_trim]
  by_cases hignored : isIgnored (trim text) = true
  · simp [hignored]
  · rw [if_neg hignored]
    cases (Record.ofWords (words text) : Except LineFault ρ) with
    | ok y => simp [hignored]
    | error fault => simp

namespace EdgeText

variable {lines : List String} {edges : List EdgeLine}

/-- Lines with edges hold the records of the edges. -/
theorem filterMap_record (h : EdgeText lines edges) :
    (lines.map .ok).filterMap (Line.record? EdgeRecord) = edges.map EdgeLine.record := by
  induction h with
  | nil => rfl
  | passed h _ ih =>
    have hnone : Line.record? EdgeRecord (.ok _) = none :=
      Line.record?_eq_none fun x hx => (Reading.ofLine_eq_record.1 hx).1 h
    rw [List.map_cons, List.filterMap_cons_none hnone, ih]
  | edge h he _ ih =>
    have hrecord : Line.record? EdgeRecord (.ok _) = some _ :=
      Line.record?_ok.2 (Reading.ofLine_eq_record.2 ⟨h, he.ofWords_record⟩)
    rw [List.map_cons, List.filterMap_cons_some hrecord, ih, List.map_cons]

theorem countP_isMalformed (h : EdgeText lines edges) :
    (lines.map .ok).countP (Line.isMalformed EdgeRecord) = 0 := by
  rw [List.countP_eq_zero, List.forall_mem_map]
  induction h with
  | nil => exact nofun
  | passed h _ ih =>
    refine List.forall_mem_cons.2 ⟨fun hbad => ?_, ih⟩
    obtain ⟨fault, hfault⟩ := Line.isMalformed_ok.1 hbad
    rw [Reading.ofLine_eq_ignored.2 (isIgnored_trim.2 h)] at hfault
    cases hfault
  | edge h he _ ih =>
    refine List.forall_mem_cons.2 ⟨fun hbad => ?_, ih⟩
    obtain ⟨fault, hfault⟩ := Line.isMalformed_ok.1 hbad
    rw [Reading.ofLine_eq_record.2 ⟨h, he.ofWords_record⟩] at hfault
    cases hfault

/-- The records of a graph text are those of its edges. -/
theorem recordsOfText_eq {text : String} (h : EdgeText (textLines text) edges) :
    recordsOfText EdgeRecord text = edges.map EdgeLine.record := by
  rw [recordsOfText, ofText_eq_map, h.filterMap_record]

end EdgeText

/-! ## Calls with any numbers of records -/

namespace LineReader

variable {ρ : Type} [Record ρ]

/-- The numbers of records for which there is room. -/
def withRoom (ρ : Type) [Record ρ] (counts : List Nat) : List Nat :=
  counts.filter fun count => fits count (Record.width ρ)

/-- Calls for more records than there is room for give none and change nothing. -/
theorem calls_withRoom (counts : List Nat) (r : LineReader) :
    recordsBy ρ counts r = recordsBy ρ (withRoom ρ counts) r
      ∧ afterCalls (callsFor ρ counts) r = afterCalls (callsFor ρ (withRoom ρ counts)) r := by
  induction counts generalizing r with
  | nil => exact ⟨rfl, rfl⟩
  | cons count counts ih =>
    obtain ⟨hrecords, hafter⟩ := ih (r.next ρ count).2.1
    by_cases hfits : fits count (Record.width ρ) = true
    · have hroom : withRoom ρ (count :: counts) = count :: withRoom ρ counts := List.filter_cons_of_pos hfits
      rw [hroom]
      exact ⟨congrArg _ hrecords, hafter⟩
    · have hroom : withRoom ρ (count :: counts) = withRoom ρ counts := List.filter_cons_of_neg hfits
      rw [next_of_not_fits hfits] at hrecords hafter
      rw [hroom]
      constructor
      · rw [recordsBy, next_of_not_fits hfits]
        exact hrecords
      · show afterCalls (callsFor ρ counts) (r.next ρ count).2.1 = _
        rw [next_of_not_fits hfits]
        exact hafter

theorem allowed_withRoom {counts : List Nat} (h : ∀ count ∈ counts, 0 < count) :
    ∀ c ∈ callsFor ρ (withRoom ρ counts), c.Allowed := by
  intro c hc
  obtain ⟨count, hcount, rfl⟩ := List.mem_map.1 hc
  obtain ⟨hmem, hfits⟩ := List.mem_filter.1 hcount
  exact ⟨h count hmem, hfits⟩

theorem malformedBy_callsFor (counts : List Nat) (r : LineReader) :
    malformedBy (callsFor ρ counts) r = (readBy (callsFor ρ counts) r).countP (Line.isMalformed ρ) := by
  induction counts generalizing r with
  | nil => rfl
  | cons count counts ih =>
    show _ + malformedBy (callsFor ρ counts) _ = (_ ++ readBy (callsFor ρ counts) _).countP _
    rw [ih, List.countP_append]

/-- Calls for these numbers of records give the first of the records and skip no line. The next call gives
the records after them, or none if there are no more; without room for its records it aborts. -/
structure Yields (r : LineReader) (records : List ρ) (counts : List Nat) : Prop where
  skipped_eq : (afterCalls (callsFor ρ counts) r).skipped = 0
  recordsBy_eq : recordsBy ρ counts r = records.take (withRoom ρ counts).sum
  result_eq : ∀ count, 0 < count → fits count (Record.width ρ) →
    Call.result ⟨ρ, count⟩ (afterCalls (callsFor ρ counts) r)
      = .ok (if (records.drop (withRoom ρ counts).sum).isEmpty then none
        else some ((records.drop (withRoom ρ counts).sum).take count))
  aborts : ∀ count, ¬ fits count (Record.width ρ) →
    Call.result ⟨ρ, count⟩ (afterCalls (callsFor ρ counts) r) = .error (.abort (.capacity count))

variable {counts : List Nat}

theorem Yields.recordsBy_of_none {r : LineReader} {records : List ρ} (h : r.Yields records counts) {count : Nat}
    (hpos : 0 < count) (hnone : Call.result ⟨ρ, count⟩ (afterCalls (callsFor ρ counts) r) = .ok none) :
    recordsBy ρ counts r = records := by
  rw [h.recordsBy_eq, List.take_eq_self_iff, ← List.drop_eq_nil_iff]
  by_cases hfits : fits count (Record.width ρ) = true
  · rw [h.result_eq count hpos hfits] at hnone
    cases hleft : records.drop (withRoom ρ counts).sum with
    | nil => rfl
    | cons x rest =>
      rw [hleft] at hnone
      cases hnone
  · rw [h.aborts count hfits] at hnone
    cases hnone

theorem yields_ofBytes (text : String) (hclean : (Line.ofText text).countP (Line.isMalformed ρ) = 0)
    (hcounts : ∀ count ∈ counts, 0 < count) :
    (ofBytes text.toByteArray).Yields (recordsOfText ρ text) counts := by
  have hallowed := allowed_withRoom (ρ := ρ) hcounts
  obtain ⟨hrecords, hafter⟩ := calls_withRoom (ρ := ρ) counts (ofBytes text.toByteArray)
  obtain ⟨htaken, hpending⟩ := recordsBy_of_pending hallowed (pending_ofBytes (ρ := ρ) text)
  obtain ⟨hreads, -, hskipped⟩ := readBy_text text hallowed
  refine ⟨?_, hrecords.trans htaken, fun count hpos hfits => ?_, fun count hfits => ?_⟩
  · have hlines : (ofBytes text.toByteArray).left = Line.ofText text := Line.ofBytes_toByteArray text
    rw [← hlines, ← hreads.left_eq, List.countP_append, Nat.add_eq_zero_iff] at hclean
    rw [hafter, hskipped, malformedBy_callsFor, hclean.1]
  · obtain ⟨r', events, hnext, -⟩ := next_of_pending hpending hpos hfits
    rw [hafter, Call.result, show next ρ count _ = _ from hnext]
  · rw [Call.result, next_of_not_fits hfits]

end LineReader

/-! ## The graph of records -/

namespace Graph

/-- The graph of records with weights, whose edges are added one after the other. -/
def ofRecords (weighted : List (EdgeRecord × Float32)) : Graph :=
  weighted.foldl (fun g x => g.addEdge x.1.src x.1.dst x.2) empty

theorem ofRecords_eq (weighted : List (EdgeRecord × Float32)) :
    ofRecords weighted = ofAdditions (weighted.map fun x => .oneWay x.1.src x.1.dst x.2) := by
  rw [ofAdditions, List.foldl_map]
  rfl

/-- The neighbor nodes of records are the same whatever their weights are. -/
theorem nodes_ofRecords (weighted : List (EdgeRecord × Float32)) (node : NodeId) :
    ((ofRecords weighted).neighbors node).map Neighbor.node
      = ((weighted.map Prod.fst).filter fun x => x.src == node).map EdgeRecord.dst := by
  rw [ofRecords_eq, neighbors_ofAdditions, storedBy, List.flatMap_map]
  induction weighted with
  | nil => rfl
  | cons x weighted ih =>
    rw [List.flatMap_cons, List.filter_append, List.map_append, List.map_append, ih]
    by_cases h : x.1.src = node <;> simp [EdgeAddition.edges, h]

theorem ofAdditions_directed (edges : List EdgeLine) :
    ofAdditions (edges.map (EdgeLine.addition false)) = ofRecords (edges.map fun e => (e.record, e.weight)) := by
  rw [ofRecords_eq, List.map_map]
  rfl

/-- A text with a graph can be read as records, by calls for any positive numbers of them: no line is
skipped, and until a call gives none they give one record for each edge, with the nodes of the edges in
their order. Added one after the other with any weights, the records make a graph with the same neighbor
nodes as the directed graph of the text. The graph of the text counts as many edges as there are records, or
twice as many if it is undirected. In any text, a line that holds a record is an edge with its nodes, or it
has a fault in what stands after the nodes; no other fault of such a line fails the text. -/
theorem ofLines_records (text : String) (undirected : Bool) :
    (∀ g, ofLines undirected (Line.ofBytes text.toByteArray) = .ok g →
      ∃ edges, EdgeText (textLines text) edges
        ∧ (∀ counts : List Nat, (∀ count ∈ counts, 0 < count) →
          (LineReader.ofBytes text.toByteArray).Yields (edges.map EdgeLine.record) counts
          ∧ ∀ count, 0 < count →
            LineReader.Call.result ⟨EdgeRecord, count⟩ (LineReader.afterCalls
              (LineReader.callsFor EdgeRecord counts) (LineReader.ofBytes text.toByteArray)) = .ok none →
            LineReader.recordsBy EdgeRecord counts (LineReader.ofBytes text.toByteArray)
              = edges.map EdgeLine.record)
        ∧ g.numEdges = (if undirected then 2 else 1) * (edges.map EdgeLine.record).length
        ∧ ∃ directed, ofLines false (Line.ofBytes text.toByteArray) = .ok directed
          ∧ ∀ weighted : List (EdgeRecord × Float32), weighted.map Prod.fst = edges.map EdgeLine.record →
            ∀ node, ((ofRecords weighted).neighbors node).map Neighbor.node
              = (directed.neighbors node).map Neighbor.node)
    ∧ ∀ (i : Nat) (line : String) (x : EdgeRecord), (textLines text)[i]? = some line →
      Reading.ofLine line = .record x →
      ((∃ e, EdgeLine.ofWords (words line) = .ok e ∧ e.record = x)
        ∨ ∃ fault, EdgeLine.ofWords (words line) = .error fault ∧ EdgeLine.Surplus (words line) fault)
      ∧ ∀ fault, ofLines undirected (Line.ofBytes text.toByteArray) = .error (.line (i + 1) fault) →
        EdgeLine.Surplus (words line) fault := by
  rw [Line.ofBytes_toByteArray, ofText_eq_map]
  constructor
  · intro g hg
    obtain ⟨edges, hedges, rfl⟩ := (ofLines_eq_ok undirected).1 hg
    refine ⟨edges, hedges, fun counts hcounts => ?_, ?_, _, ofLines_of_edgeText false hedges,
      fun weighted hweighted node => ?_⟩
    · have hyields := LineReader.yields_ofBytes (ρ := EdgeRecord) text
        (by rw [ofText_eq_map, hedges.countP_isMalformed]) hcounts
      rw [hedges.recordsOfText_eq] at hyields
      exact ⟨hyields, fun count hpos => hyields.recordsBy_of_none hpos⟩
    · rw [(stores_ofAdditions undirected edges).numEdges_eq, List.length_map]
      cases undirected with
      | true => rfl
      | false => exact (Nat.one_mul _).symm
    · rw [ofAdditions_directed, nodes_ofRecords, nodes_ofRecords, hweighted, List.map_map]
      rfl
  · intro i line x hline hrecord
    have hwords := EdgeLine.ofWords_of_record (Reading.ofLine_eq_record.1 hrecord).2
    refine ⟨hwords, fun fault hfault => ?_⟩
    obtain ⟨line', hline', hbad⟩ := exists_line_of_error undirected hfault
    obtain rfl : line = line' := Option.some.inj (hline.symm.trans hline')
    -- a line that fails the text is no edge, so its fault is the one beyond the record
    obtain ⟨e, he, -⟩ | ⟨fault', hofWords, hsurplus⟩ := hwords
    · rw [he] at hbad
      cases hbad
    · rw [hofWords] at hbad
      cases hbad
      exact hsurplus

theorem ofLines_records_pairsText :
    (∃ g, ofLines true (Line.ofBytes pairsText.toByteArray) = .ok g ∧ g.numEdges = 6)
    ∧ LineReader.recordsBy EdgeRecord [2, 0x8000000000000000, 2] (LineReader.ofBytes pairsText.toByteArray)
      = [⟨1, 2⟩, ⟨2, 1⟩, ⟨3, 3⟩]
    ∧ ofLines false (Line.ofBytes "1 2\n1 2 3 4".toByteArray) = .error (.line 2 (.weightedFields 4))
    ∧ EdgeLine.Surplus (words "1 2 3 4") (.weightedFields 4) := by
  obtain ⟨edges, hedges⟩ := exists_edgeText_pairsText
  obtain ⟨g, hg⟩ : ∃ g, ofLines true (Line.ofBytes pairsText.toByteArray) = .ok g := by
    rw [Line.ofBytes_toByteArray, ofText_eq_map]
    exact ⟨_, ofLines_of_edgeText true hedges⟩
  obtain ⟨edges', hedges', hyields, hnum, -⟩ := (ofLines_records pairsText true).1 g hg
  have hrecords : edges'.map EdgeLine.record = [⟨1, 2⟩, ⟨2, 1⟩, ⟨3, 3⟩] := by
    rw [← hedges'.recordsOfText_eq]
    rfl
  have hfault : ofLines false (Line.ofBytes "1 2\n1 2 3 4".toByteArray)
      = .error (.line 2 (.weightedFields 4)) := by
    rw [Line.ofBytes_toByteArray]
    rfl
  refine ⟨⟨g, hg, ?_⟩, ?_, hfault, ?_⟩
  · rw [hnum, hrecords]
    rfl
  · rw [(hyields [2, 0x8000000000000000, 2] (by decide)).1.recordsBy_eq, hrecords]
    rfl
  · exact ((ofLines_records "1 2\n1 2 3 4" false).2 1 "1 2 3 4" ⟨1, 2⟩ rfl rfl).2 _ hfault

end Graph

end BipartiteBatch
