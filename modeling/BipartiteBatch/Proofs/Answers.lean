import BipartiteBatch.Graph.Stored
import BipartiteBatch.Proofs.Batches
import BipartiteBatch.Proofs.UniformNegatives

/-!
# Collaborators that always answer

A graph held in memory answers every question with one list per node. The uniform sampler gives each
query as many negatives as were asked for, all of them from the population. With such collaborators a
batch can be made of any records whose nodes are all users or items: nothing is left that could fail.

* `GraphClient.Answering`, `NegativeSampler.Answering` : collaborators that answer;
* `Findings.exists_found` : what such a graph finds for an encoder;
* `Assembly.Prepared` : edges with negatives and findings, `Assembly.exists_prepared` : all edges are;
* `Assembly.exists_trained`, `Assembly.exists_predicted` : batches of known nodes;
* `Reader.exists_fill_train`, `Reader.exists_fill_predict` : the calls that give them.
-/

namespace BipartiteBatch

/-! ## Graphs -/

/-- A graph that answers every question with one list per node. -/
class GraphClient.Answering (γ : Type) [GraphClient γ] : Prop where
  sampleNeighbors : ∀ (nodes : List NodeId) (count : Nat) (g : γ), ∃ lists g',
    GraphClient.sampleNeighbors nodes count g = (.ok lists, g') ∧ lists.length = nodes.length
  nodeFeatures : ∀ (nodes : List NodeId) (g : γ), ∃ rows g',
    GraphClient.nodeFeatures nodes g = (.ok rows, g') ∧ rows.length = nodes.length
  neighborFeatures : ∀ (nodes : List NodeId) (g : γ), ∃ rows g',
    GraphClient.neighborFeatures nodes g = (.ok rows, g') ∧ rows.length = nodes.length

instance : GraphClient.Answering Graph where
  sampleNeighbors _ _ _ := ⟨_, _, rfl, Draw.length_mapDraws _ _⟩
  nodeFeatures _ g := ⟨_, g, rfl, List.length_map _⟩
  neighborFeatures _ g := ⟨_, g, rfl, List.length_map _⟩

section Graphs
variable {γ : Type} [GraphClient γ] [GraphClient.Answering γ]

theorem Subgraph.exists_answered (level : List NodeId) (fanout : List Nat) (g : γ) :
    ∃ answers g', Answered g level fanout answers g' := by
  induction fanout generalizing level g with
  | nil => exact ⟨[], g, .done g level⟩
  | cons count fanout ih =>
    obtain ⟨lists, g₁, hask, hlength⟩ :=
      GraphClient.Answering.sampleNeighbors level count g
    obtain ⟨answers, g', ha⟩ := ih (nextLevel level lists) g₁
    exact ⟨lists :: answers, g', .hop hask hlength ha⟩

theorem Findings.exists_found (config : Config) (nodes : List NodeId) (g : γ) :
    ∃ found g', Found config nodes g found g' := by
  obtain ⟨answers, g₁, ha⟩ :=
    Subgraph.exists_answered nodes.eraseDups (config.numNeighbors.map UInt64.toNat) g
  have hsample := Subgraph.sample_eq_ok.2 ⟨answers, ha, rfl⟩
  obtain ⟨features, g₂, hfeatures, hlength⟩ :=
    GraphClient.Answering.nodeFeatures (Subgraph.deepest _) g₁
  cases hwanted : config.useNeighFeat with
  | false =>
    exact ⟨⟨_, features, none⟩, g₂, ⟨g₁, g₂, hsample, hfeatures, rfl⟩, Nat.le_of_eq hlength.symm,
      hwanted.symm, nofun⟩
  | true =>
    obtain ⟨rows, g₃, hrows, hcount⟩ :=
      GraphClient.Answering.neighborFeatures (Subgraph.deepest _) g₂
    refine ⟨⟨_, features, some rows⟩, g₃, ⟨g₁, g₂, hsample, hfeatures, hrows⟩,
      Nat.le_of_eq hlength.symm, hwanted.symm, ?_⟩
    rintro _ ⟨⟩
    exact Nat.le_of_eq hcount.symm

end Graphs

/-! ## Samplers -/

/-- A sampler that draws from the queries themselves whatever has room. -/
class NegativeSampler.Answering (σ : Type) [NegativeSampler σ] : Prop where
  negatives : ∀ (count : Nat) (nodes : List NodeId) (s : σ), fits count 8 → ∃ lists s',
    NegativeSampler.negatives count nodes nodes s = (.ok lists, s')
      ∧ lists.length = nodes.length ∧ (∀ list ∈ lists, list.length = count)
      ∧ ∀ list ∈ lists, ∀ node ∈ list, node ∈ nodes

instance : NegativeSampler.Answering UniformSampler where
  negatives count nodes u hfits := by
    have hsome : ¬ (0 < count ∧ nodes ≠ [] ∧ nodes = []) := fun h => h.2.1 h.2.2
    obtain ⟨lists, u', hok, hlists⟩ := UniformSampler.exists_negatives hfits hsome
      (UniformSampler.serves_of_count_eq_zero (u := u)) fun hnodes _ s => UniformSampler.serves_draw hnodes s
    have hserves : ∀ list ∈ lists, ∃ query, Serves nodes u.exclusion count query list := by
      intro list hlist
      obtain ⟨i, hi, rfl⟩ := List.mem_iff_getElem.1 hlist
      exact ⟨_, hlists.get (hlists.length_eq ▸ hi) hi⟩
    refine ⟨lists, u', hok, hlists.length_eq.symm, fun list hlist => ?_, fun list hlist => ?_⟩
    · obtain ⟨_, hlist⟩ := hserves list hlist
      exact hlist.length_eq
    · obtain ⟨_, hlist⟩ := hserves list hlist
      exact hlist.mem

/-! ## Batches of known nodes -/

namespace Assembly

variable {γ σ : Type} [GraphClient γ]

/-- A known node of a batch has a flat index. -/
theorem exists_flatIndex {config : Config} {nodes : List NodeId} {users items : Findings}
    {g between g' : γ} (husers : users.Found config (Partition.ofList config.tags nodes).users g between)
    (hitems : items.Found config (Partition.ofList config.tags nodes).items between g')
    {node : NodeId} (hnode : node ∈ nodes) (hknown : config.tags.Known node) :
    ∃ i, Block.flatIndex (flatOf config.tags users items) node = .ok i := by
  obtain ⟨group, hgroup⟩ := hknown.exists_group
  obtain ⟨i, hi⟩ := exists_index_of_mem_nodes husers hitems (mem_nodes_ofList.2 ⟨hnode, hgroup⟩)
  exact ⟨i, Block.flatIndex_eq_ok.2 hi⟩

/-- From `a`, negatives can be drawn for edges, and the graph finds this for all nodes of the edges and of
their negatives. -/
structure Prepared [NegativeSampler σ] (records : List EdgeRecord) (a : Assembly γ σ)
    (lists : List (List NodeId)) (users items : Findings) (graph : γ) (sampler : σ) : Prop where
  negatives : NegativeSampler.negatives a.reader.config.numNeg.toNat (records.map EdgeRecord.dst)
    (records.map EdgeRecord.dst) a.sampler = (.ok lists, sampler)
  length_lists : lists.length = records.length
  length_of_mem_lists : ∀ list ∈ lists, list.length = a.reader.config.numNeg.toNat
  found : ∃ between,
    users.Found a.reader.config
      (Partition.ofList a.reader.config.tags (trainingNodes records lists)).users a.graph between
    ∧ items.Found a.reader.config
      (Partition.ofList a.reader.config.tags (trainingNodes records lists)).items between graph

section Prepared
variable [NegativeSampler σ] {records : List EdgeRecord} {a : Assembly γ σ} {lists : List (List NodeId)}
  {users items : Findings} {graph : γ} {sampler : σ}

theorem Prepared.lengths (h : Prepared records a lists users items graph sampler) :
    (records.map EdgeRecord.src).length = (records.map EdgeRecord.dst).length
      ∧ (records.map EdgeRecord.dst).length = lists.length := by
  rw [List.length_map, List.length_map, h.length_lists]
  exact ⟨rfl, rfl⟩

theorem Prepared.exists_trained (h : Prepared records a lists users items graph sampler)
    {rows : List Block.EdgeRow}
    (hrows : Block.edgeRows (Block.flatIndex (flatOf a.reader.config.tags users items))
      (Block.flatIndex (flatOf a.reader.config.tags users items)) (records.map EdgeRecord.src)
      (records.map EdgeRecord.dst) lists = .ok rows) :
    ∃ a', Trained records a lists users items rows a' :=
  ⟨{ reader := _, graph := graph, sampler := sampler, inst := _, events := _ },
    h.negatives, h.length_lists, h.length_of_mem_lists, h.found, hrows, rfl, rfl, rfl⟩

end Prepared

variable [GraphClient.Answering γ]

/-- All edges can be prepared, and their negatives are among their destinations. -/
theorem exists_prepared [NegativeSampler σ] [NegativeSampler.Answering σ] (a : Assembly γ σ)
    (records : List EdgeRecord) (hfits : fits a.reader.config.numNeg.toNat 8) :
    ∃ lists users items graph sampler, Prepared records a lists users items graph sampler
      ∧ ∀ node ∈ lists.flatten, node ∈ records.map EdgeRecord.dst := by
  obtain ⟨lists, sampler, hnegatives, hlength, hcount, hmem⟩ :=
    NegativeSampler.Answering.negatives a.reader.config.numNeg.toNat (records.map EdgeRecord.dst)
      a.sampler hfits
  rw [List.length_map] at hlength
  let p := Partition.ofList a.reader.config.tags (trainingNodes records lists)
  obtain ⟨users, between, husers⟩ := Findings.exists_found a.reader.config p.users a.graph
  obtain ⟨items, graph, hitems⟩ := Findings.exists_found a.reader.config p.items between
  refine ⟨lists, users, items, graph, sampler,
    ⟨hnegatives, hlength, hcount, between, husers, hitems⟩, fun node hnode => ?_⟩
  obtain ⟨list, hlist, hnode⟩ := List.mem_flatten.1 hnode
  exact hmem list hlist node hnode

theorem known_of_mem_trainingNodes {tags : GroupTags} {records : List EdgeRecord}
    {lists : List (List NodeId)} (hmem : ∀ node ∈ lists.flatten, node ∈ records.map EdgeRecord.dst)
    (hknown : ∀ record ∈ records, tags.Known record.src ∧ tags.Known record.dst) :
    ∀ node ∈ trainingNodes records lists, tags.Known node := by
  have hdsts : ∀ node ∈ records.map EdgeRecord.dst, tags.Known node := by
    intro node hnode
    obtain ⟨record, hrecord, rfl⟩ := List.mem_map.1 hnode
    exact (hknown record hrecord).2
  intro node hnode
  rcases List.mem_append.1 hnode with hnode | hnode
  · rcases List.mem_append.1 hnode with hnode | hnode
    · obtain ⟨record, hrecord, rfl⟩ := List.mem_map.1 hnode
      exact (hknown record hrecord).1
    · exact hdsts node hnode
  · exact hdsts node (hmem node hnode)

/-- Edges between known nodes can be made into a training batch. -/
theorem exists_trained [NegativeSampler σ] [NegativeSampler.Answering σ] (a : Assembly γ σ)
    {records : List EdgeRecord} (hfits : fits a.reader.config.numNeg.toNat 8)
    (hknown : ∀ record ∈ records, a.reader.config.tags.Known record.src
      ∧ a.reader.config.tags.Known record.dst) :
    ∃ lists users items rows a', Trained records a lists users items rows a' := by
  obtain ⟨lists, users, items, graph, sampler, h, hmem⟩ := exists_prepared a records hfits
  obtain ⟨between, husers, hitems⟩ := h.found
  obtain ⟨rows, hrows⟩ := (Block.exists_edgeRows h.lengths).2 fun node hnode =>
    exists_flatIndex husers hitems hnode (known_of_mem_trainingNodes hmem hknown node hnode)
  obtain ⟨a', htrained⟩ := h.exists_trained hrows
  exact ⟨lists, users, items, rows, a', htrained⟩

theorem exists_predicted (a : Assembly γ σ) {records : List NodeRecord}
    (hknown : ∀ record ∈ records, a.reader.config.tags.Known record.node) :
    ∃ users items block a', Predicted records a users items block a' := by
  let p := Partition.ofList a.reader.config.tags (records.map NodeRecord.node)
  obtain ⟨users, between, husers⟩ := Findings.exists_found a.reader.config p.users a.graph
  obtain ⟨items, graph, hitems⟩ := Findings.exists_found a.reader.config p.items between
  have hindex : ∀ node ∈ records.map NodeRecord.node,
      ∃ i, Block.flatIndex (flatOf a.reader.config.tags users items) node = .ok i := by
    intro node hnode
    apply exists_flatIndex husers hitems hnode
    obtain ⟨record, hrecord, rfl⟩ := List.mem_map.1 hnode
    exact hknown record hrecord
  obtain ⟨indices, hindices⟩ := exists_mapM_eq_ok hindex
  exact ⟨users, items, _,
    { reader := _, graph := graph, sampler := a.sampler, inst := _, events := _ }, rfl,
    ⟨between, husers, hitems⟩, Block.lookupBlock_eq_ok.2 ⟨indices, hindices, rfl⟩, rfl, rfl, rfl⟩

end Assembly

namespace Reader

variable {γ σ : Type} [GraphClient γ] [GraphClient.Answering γ] [NegativeSampler σ] {a : Assembly γ σ}
  {input : LineReader} {events : List Event}

/-- A call in training gives a batch of any edges between known nodes. -/
theorem exists_fill_train [NegativeSampler.Answering σ] (hmode : a.reader.config.isTrain = true)
    (hfits : fits a.reader.config.numNeg.toNat 8) {records : List EdgeRecord}
    (hnext : a.reader.input.next EdgeRecord a.reader.config.batch.toNat
      = (.ok (some records), input, events))
    (hknown : ∀ record ∈ records, a.reader.config.tags.Known record.src
      ∧ a.reader.config.tags.Known record.dst) :
    ∃ a', Reader.fill a = (.ok true, a') := by
  obtain ⟨lists, users, items, rows, a', h⟩ :=
    Assembly.exists_trained (a.cleared.withInput input events) hfits hknown
  exact ⟨a', (fill_train hmode).2 ⟨records, input, events, lists, users, items, rows, hnext, h⟩⟩

theorem exists_fill_predict (hmode : a.reader.config.isTrain = false) {records : List NodeRecord}
    (hnext : a.reader.input.next NodeRecord a.reader.config.batch.toNat
      = (.ok (some records), input, events))
    (hknown : ∀ record ∈ records, a.reader.config.tags.Known record.node) :
    ∃ a', Reader.fill a = (.ok true, a') := by
  obtain ⟨users, items, block, a', h⟩ :=
    Assembly.exists_predicted (a.cleared.withInput input events) hknown
  exact ⟨a', (fill_predict hmode).2 ⟨records, input, events, users, items, block, hnext, h⟩⟩

end Reader

end BipartiteBatch
