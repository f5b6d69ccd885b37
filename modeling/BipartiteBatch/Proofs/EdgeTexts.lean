import BipartiteBatch.Graph.Text
import BipartiteBatch.Proofs.Input
import BipartiteBatch.Proofs.Results
import BipartiteBatch.Proofs.StoredEdges
import BipartiteBatch.Proofs.Words

/-!
# Graphs of texts

A text is a graph if each of its lines is blank, a comment, or an edge in two or three words. The graph
then stores the edges of the lines in their order, and nothing else; if it is to be undirected, it stores
the reverse of each edge right after the edge, so that a loop is stored twice.

* `EdgeLine.WrittenBy` : the words that write an edge;
* `EdgeText` : lines with their edges, `EdgeText.exists_iff` : lines that have edges in this way;
* `Graph.ofLines_eq_ok`, `Graph.ofLines_of_bad` : the graph of a text, and the first line that is no edge;
* `Graph.Stores` : a graph that stores edges, `Graph.ofLines_stores` : the graph of a text does.
-/

namespace BipartiteBatch

open Number Text

/-! ## Edges in words -/

/-- Two or three words write an edge: its nodes, and its weight, which is one if it is not given. -/
inductive EdgeLine.WrittenBy : List String → EdgeLine → Prop
  | unweighted {a b : String} {src dst : NodeId} (hsrc : readUInt64 a = .ok src)
      (hdst : readUInt64 b = .ok dst) : WrittenBy [a, b] ⟨src, dst, 1.0⟩
  | weighted {a b w : String} {src dst : NodeId} {weight : Float32} (hsrc : readUInt64 a = .ok src)
      (hdst : readUInt64 b = .ok dst) (hweight : readFloat32 w = .ok weight) :
      WrittenBy [a, b, w] ⟨src, dst, weight⟩

theorem nodeOfWord_eq_ok {word : String} {node : NodeId} :
    nodeOfWord word = .ok node ↔ readUInt64 word = .ok node := by
  unfold nodeOfWord
  cases readUInt64 word with
  | ok n => simp
  | error fault => simp

theorem nodesOfWords_eq_ok {α : Type} {a b : String} {f : NodeId → NodeId → α} {x : α} :
    (do return f (← nodeOfWord a) (← nodeOfWord b) : Except LineFault α) = .ok x
      ↔ ∃ src dst, readUInt64 a = .ok src ∧ readUInt64 b = .ok dst ∧ f src dst = x := by
  constructor
  · intro h
    obtain ⟨src, hsrc, h⟩ := except_bind_eq_ok.1 h
    obtain ⟨dst, hdst, h⟩ := except_bind_eq_ok.1 h
    exact ⟨src, dst, nodeOfWord_eq_ok.1 hsrc, nodeOfWord_eq_ok.1 hdst, except_pure_eq_ok.1 h⟩
  · rintro ⟨src, dst, hsrc, hdst, rfl⟩
    exact except_bind_eq_ok.2 ⟨src, nodeOfWord_eq_ok.2 hsrc,
      except_bind_eq_ok.2 ⟨dst, nodeOfWord_eq_ok.2 hdst, rfl⟩⟩

namespace EdgeLine

variable {a b w : String} {e : EdgeLine}

theorem ofWords_two : ofWords [a, b] = .ok e ↔ WrittenBy [a, b] e := by
  refine nodesOfWords_eq_ok.trans ⟨?_, ?_⟩
  · rintro ⟨src, dst, hsrc, hdst, rfl⟩
    exact .unweighted hsrc hdst
  · rintro ⟨hsrc, hdst⟩
    exact ⟨_, _, hsrc, hdst, rfl⟩

theorem ofWords_three : ofWords [a, b, w] = .ok e ↔ WrittenBy [a, b, w] e := by
  rw [ofWords]
  constructor
  · cases hweight : readFloat32 w with
    | error fault => exact nofun
    | ok weight =>
      intro h
      obtain ⟨src, dst, hsrc, hdst, rfl⟩ := nodesOfWords_eq_ok.1 h
      exact .weighted hsrc hdst hweight
  · rintro (_ | ⟨hsrc, hdst, hweight⟩)
    rw [hweight]
    exact nodesOfWords_eq_ok.2 ⟨_, _, hsrc, hdst, rfl⟩

theorem ofWords_eq_ok {words : List String} : ofWords words = .ok e ↔ WrittenBy words e := by
  match words with
  | [] => exact iff_of_false nofun nofun
  | [a] => exact iff_of_false nofun nofun
  | [a, b] => exact ofWords_two
  | [a, b, w] => exact ofWords_three
  | a :: b :: w :: x :: words => exact iff_of_false nofun nofun

end EdgeLine

/-! ## Lines with edges -/

def textLines (text : String) : List String :=
  (Line.split (· == '\n') text.toList).map String.ofList

theorem ofText_eq_map (text : String) : Line.ofText text = (textLines text).map .ok := by
  rw [Line.ofText, textLines, List.map_map]
  rfl

/-- The line is one of a graph text: it is blank, a comment, or an edge. -/
def IsGraphLine (line : String) : Prop := PassedOver line ∨ ∃ e, EdgeLine.WrittenBy (words line) e

/-- The lines are those of a graph text and hold these edges. -/
inductive EdgeText : List String → List EdgeLine → Prop
  | nil : EdgeText [] []
  | passed {line : String} {lines : List String} {edges : List EdgeLine} (h : PassedOver line)
      (rest : EdgeText lines edges) : EdgeText (line :: lines) edges
  | edge {line : String} {lines : List String} {e : EdgeLine} {edges : List EdgeLine}
      (h : ¬ PassedOver line) (he : EdgeLine.WrittenBy (words line) e) (rest : EdgeText lines edges) :
      EdgeText (line :: lines) (e :: edges)

namespace EdgeText

variable {lines : List String} {edges : List EdgeLine}

theorem exists_iff : (∃ edges, EdgeText lines edges) ↔ ∀ line ∈ lines, IsGraphLine line := by
  constructor
  · rintro ⟨edges, h⟩
    induction h with
    | nil => exact nofun
    | passed h _ ih => exact List.forall_mem_cons.2 ⟨.inl h, ih⟩
    | edge _ he _ ih => exact List.forall_mem_cons.2 ⟨.inr ⟨_, he⟩, ih⟩
  · intro h
    induction lines with
    | nil => exact ⟨[], .nil⟩
    | cons line lines ih =>
      obtain ⟨hline, hlines⟩ := List.forall_mem_cons.1 h
      obtain ⟨edges, hedges⟩ := ih hlines
      by_cases hpassed : PassedOver line
      · exact ⟨edges, .passed hpassed hedges⟩
      · obtain ⟨e, he⟩ := hline.resolve_left hpassed
        exact ⟨e :: edges, .edge hpassed he hedges⟩

/-- Each line that is not passed over holds one edge. -/
theorem length_eq (h : EdgeText lines edges) :
    edges.length = lines.countP fun line => !decide (PassedOver line) := by
  induction h with
  | nil => rfl
  | passed h _ ih => rw [ih, List.countP_cons_of_neg (by simpa using h)]
  | edge h _ _ ih => rw [List.length_cons, ih, List.countP_cons_of_pos (by simpa using h)]

end EdgeText

/-- Lines that are not all lines of a graph text have a first one that is not. -/
theorem exists_first_bad {lines : List String} (h : ¬ ∀ line ∈ lines, IsGraphLine line) :
    ∃ before bad after, lines = before ++ bad :: after ∧ (∀ line ∈ before, IsGraphLine line)
      ∧ ¬ IsGraphLine bad := by
  induction lines with
  | nil => exact absurd (List.forall_mem_nil _) h
  | cons line lines ih =>
    by_cases hline : IsGraphLine line
    · have hlines : ¬ ∀ line ∈ lines, IsGraphLine line := fun hall => h (List.forall_mem_cons.2 ⟨hline, hall⟩)
      obtain ⟨before, bad, after, rfl, hbefore, hbad⟩ := ih hlines
      exact ⟨line :: before, bad, after, rfl, List.forall_mem_cons.2 ⟨hline, hbefore⟩, hbad⟩
    · exact ⟨[], line, lines, rfl, List.forall_mem_nil _, hline⟩

/-! ## The graph of lines -/

def EdgeLine.addition (undirected : Bool) (e : EdgeLine) : EdgeAddition :=
  if undirected then .bothWays e.src e.dst e.weight else .oneWay e.src e.dst e.weight

/-- What an edge of a text stores for a node: its end if it begins there and, if the graph is undirected,
its beginning if it ends there. -/
def EdgeLine.storedFor (undirected : Bool) (node : NodeId) (e : EdgeLine) : List Neighbor :=
  (if e.src = node then [⟨e.dst, e.weight⟩] else [])
    ++ if undirected ∧ e.dst = node then [⟨e.src, e.weight⟩] else []

namespace Graph

variable {undirected : Bool} {g : Graph} {lines : List String} {edges : List EdgeLine}

theorem addLine_eq_add (g : Graph) (e : EdgeLine) : g.addLine undirected e = g.add (e.addition undirected) := by
  unfold addLine EdgeLine.addition
  split
  · rfl
  · rfl

/-- A line that kept its end is taken in as the line without it. -/
theorem addLines_cons_append {blanks : String} (h : ∀ c ∈ blanks.toList, isBlank c = true) (g : Graph)
    (read : Nat) (text : String) (rest : List Line) :
    addLines undirected g read (.ok (text ++ blanks) :: rest)
      = addLines undirected g read (.ok text :: rest) := by
  rw [addLines, addLines, trim_append h]

/-- Lines with edges are taken in, and then the lines after them. -/
theorem addLines_append (h : EdgeText lines edges) (g : Graph) (read : Nat) (rest : List Line) :
    addLines undirected g read (lines.map .ok ++ rest)
      = addLines undirected ((edges.map (EdgeLine.addition undirected)).foldl add g) (read + lines.length)
        rest := by
  induction h generalizing g read with
  | nil => rfl
  | passed h _ ih =>
    rw [List.map_cons, List.cons_append, addLines, if_pos (isIgnored_trim.2 h), ih, List.length_cons,
      Nat.add_assoc, Nat.add_comm 1]
  | edge h he _ ih =>
    rw [List.map_cons, List.cons_append, addLines, if_neg (mt isIgnored_trim.1 h), words_trim,
      EdgeLine.ofWords_eq_ok.2 he]
    dsimp only
    rw [ih, addLine_eq_add, List.length_cons, Nat.add_assoc, Nat.add_comm 1]
    rfl

variable (undirected)

theorem ofLines_of_edgeText (h : EdgeText lines edges) :
    ofLines undirected (lines.map .ok) = .ok (ofAdditions (edges.map (EdgeLine.addition undirected))) := by
  have hadd : addLines undirected empty 0 (lines.map .ok ++ []) = _ := addLines_append h empty 0 []
  rw [List.append_nil] at hadd
  exact hadd

/-- The first line that is none of a graph text fails the text, with its number and its fault. -/
theorem ofLines_of_bad {before : List String} {bad : String} (hbefore : ∀ line ∈ before, IsGraphLine line)
    (hbad : ¬ IsGraphLine bad) (after : List String) :
    ∃ fault, EdgeLine.ofWords (words bad) = .error fault
      ∧ ofLines undirected ((before ++ bad :: after).map .ok) = .error (.line (before.length + 1) fault) := by
  obtain ⟨edges, hedges⟩ := EdgeText.exists_iff.2 hbefore
  obtain ⟨hpassed, hnone⟩ := not_or.1 hbad
  cases hfault : EdgeLine.ofWords (words bad) with
  | ok e => exact absurd ⟨e, EdgeLine.ofWords_eq_ok.1 hfault⟩ hnone
  | error fault =>
    refine ⟨fault, rfl, ?_⟩
    rw [List.map_append, List.map_cons, ofLines, addLines_append hedges, addLines,
      if_neg (mt isIgnored_trim.1 hpassed), words_trim, hfault, Nat.zero_add]

/-- A text has a graph if its lines hold edges, and it is the graph of these edges. -/
theorem ofLines_eq_ok : ofLines undirected (lines.map .ok) = .ok g
    ↔ ∃ edges, EdgeText lines edges ∧ g = ofAdditions (edges.map (EdgeLine.addition undirected)) := by
  constructor
  · intro h
    by_cases hall : ∀ line ∈ lines, IsGraphLine line
    · obtain ⟨edges, hedges⟩ := EdgeText.exists_iff.2 hall
      rw [ofLines_of_edgeText undirected hedges] at h
      exact ⟨edges, hedges, (Except.ok.inj h).symm⟩
    · obtain ⟨before, bad, after, rfl, hbefore, hbad⟩ := exists_first_bad hall
      obtain ⟨fault, -, herror⟩ := ofLines_of_bad undirected hbefore hbad after
      rw [herror] at h
      cases h
  · rintro ⟨edges, hedges, rfl⟩
    exact ofLines_of_edgeText undirected hedges

theorem exists_line_of_error {i : Nat} {fault : LineFault}
    (h : ofLines undirected (lines.map .ok) = .error (.line (i + 1) fault)) :
    ∃ line, lines[i]? = some line ∧ EdgeLine.ofWords (words line) = .error fault := by
  have hbad : ¬ ∀ line ∈ lines, IsGraphLine line := by
    intro hall
    obtain ⟨edges, hedges⟩ := EdgeText.exists_iff.2 hall
    rw [ofLines_of_edgeText undirected hedges] at h
    cases h
  -- it is the first line that is none of a graph text
  obtain ⟨before, bad, after, rfl, hbefore, hbad⟩ := exists_first_bad hbad
  obtain ⟨fault', hfault, herror⟩ := ofLines_of_bad undirected hbefore hbad after
  rw [herror] at h
  injection h with h
  injection h with hnumber hfaults
  obtain rfl : before.length = i := Nat.succ.inj hnumber
  refine ⟨bad, ?_, hfaults ▸ hfault⟩
  rw [List.getElem?_append_right (Nat.le_refl _), Nat.sub_self, List.getElem?_cons_zero]

/-! ## Stored edges -/

/-- How often an edge from `a` to `b` with these bits of its weight is stored. -/
def multiplicity (g : Graph) (a b : NodeId) (bits : UInt32) : Nat :=
  (g.neighbors a).countP fun n => n.node == b && n.weight.toBits == bits

/-- The graph stores these edges, and if it is undirected the reverse of each. -/
structure Stores (g : Graph) (undirected : Bool) (edges : List EdgeLine) : Prop where
  neighbors_eq : ∀ node, g.neighbors node = edges.flatMap (EdgeLine.storedFor undirected node)
  numEdges_eq : g.numEdges = if undirected then 2 * edges.length else edges.length
  exists_nodes : ∃ nodes : Finset NodeId, (∀ node, node ∈ nodes ↔ g.neighbors node ≠ [])
    ∧ g.numNodes = nodes.card ∧ g.numEdges = ∑ node ∈ nodes, (g.neighbors node).length
  symmetric : undirected = true → ∀ a b bits, g.multiplicity a b bits = g.multiplicity b a bits
  loops : undirected = true → ∀ a bits, g.multiplicity a a bits
    = 2 * edges.countP fun e => e.src == a && e.dst == a && e.weight.toBits == bits

variable {undirected}

theorem storedBy_additions (edges : List EdgeLine) (node : NodeId) :
    storedBy (edges.map (EdgeLine.addition undirected)) node
      = edges.flatMap (EdgeLine.storedFor undirected node) := by
  induction edges with
  | nil => rfl
  | cons e edges ih =>
    have hstored : storedBy [e.addition undirected] node = e.storedFor undirected node := by
      unfold EdgeLine.addition EdgeLine.storedFor storedBy
      cases undirected with
      | true =>
        by_cases hsrc : e.src = node <;> by_cases hdst : e.dst = node <;>
          simp [EdgeAddition.edges, hsrc, hdst]
      | false => by_cases hsrc : e.src = node <;> simp [EdgeAddition.edges, hsrc]
    rw [List.flatMap_cons, ← ih, ← hstored]
    simp [storedBy]

theorem length_additions (edges : List EdgeLine) :
    ((edges.map (EdgeLine.addition undirected)).flatMap EdgeAddition.edges).length
      = if undirected then 2 * edges.length else edges.length := by
  induction edges with
  | nil => cases undirected <;> rfl
  | cons e edges ih =>
    rw [List.map_cons, List.flatMap_cons, List.length_append, ih, List.length_cons]
    cases undirected with
    | true => simp [EdgeLine.addition, EdgeAddition.edges]; omega
    | false => simp [EdgeLine.addition, EdgeAddition.edges]; omega

/-- In an undirected graph an edge of a text is stored at `a` towards `b` once for each of its ends at `a`
with the other end at `b`. -/
theorem countP_storedFor (e : EdgeLine) (a b : NodeId) (bits : UInt32) :
    (e.storedFor true a).countP (fun n => n.node == b && n.weight.toBits == bits)
      = [e].countP (fun e => e.src == a && e.dst == b && e.weight.toBits == bits)
        + [e].countP (fun e => e.src == b && e.dst == a && e.weight.toBits == bits) := by
  unfold EdgeLine.storedFor
  rw [List.countP_append]
  congr 1
  · by_cases h : e.src = a <;> simp [h, List.countP_cons]
  · by_cases h : e.dst = a <;> simp [h, List.countP_cons]

theorem multiplicity_of_undirected {edges : List EdgeLine}
    (h : ∀ node, g.neighbors node = edges.flatMap (EdgeLine.storedFor true node)) (a b : NodeId)
    (bits : UInt32) : g.multiplicity a b bits
      = edges.countP (fun e => e.src == a && e.dst == b && e.weight.toBits == bits)
        + edges.countP (fun e => e.src == b && e.dst == a && e.weight.toBits == bits) := by
  rw [multiplicity, h]
  clear h
  induction edges with
  | nil => rfl
  | cons e edges ih =>
    rw [List.flatMap_cons, List.countP_append, ih, countP_storedFor, ← List.singleton_append (l := edges),
      List.countP_append, List.countP_append]
    omega

theorem stores_ofAdditions (undirected : Bool) (edges : List EdgeLine) :
    Stores (ofAdditions (edges.map (EdgeLine.addition undirected))) undirected edges := by
  have hneighbors : ∀ node, (ofAdditions (edges.map (EdgeLine.addition undirected))).neighbors node
      = edges.flatMap (EdgeLine.storedFor undirected node) := by
    intro node
    rw [neighbors_ofAdditions, storedBy_additions]
  refine ⟨hneighbors, ?_, exists_nodes _, ?_, ?_⟩
  · rw [(tallies_ofAdditions _).numEdges_eq, length_additions]
  · rintro rfl a b bits
    rw [multiplicity_of_undirected hneighbors, multiplicity_of_undirected hneighbors, Nat.add_comm]
  · rintro rfl a bits
    rw [multiplicity_of_undirected hneighbors, Nat.two_mul]

/-- A text has a graph if and only if each of its lines is blank, a comment, or an edge in two or three
words. If some line is none of these, the first such line fails the text with its number. Otherwise the
graph stores exactly the edges of the lines, in their order. -/
theorem ofLines_stores (text : String) (undirected : Bool) :
    ((∃ g, ofLines undirected (Line.ofBytes text.toByteArray) = .ok g)
      ↔ ∀ line ∈ textLines text, IsGraphLine line)
    ∧ ((¬ ∀ line ∈ textLines text, IsGraphLine line) → ∃ before bad after fault,
      textLines text = before ++ bad :: after ∧ (∀ line ∈ before, IsGraphLine line) ∧ ¬ IsGraphLine bad
      ∧ EdgeLine.ofWords (words bad) = .error fault
      ∧ ofLines undirected (Line.ofBytes text.toByteArray) = .error (.line (before.length + 1) fault))
    ∧ ∀ g, ofLines undirected (Line.ofBytes text.toByteArray) = .ok g →
      ∃ edges, EdgeText (textLines text) edges
        ∧ edges.length = (textLines text).countP (fun line => !decide (PassedOver line))
        ∧ g.Stores undirected edges := by
  rw [Line.ofBytes_toByteArray, ofText_eq_map]
  refine ⟨?_, fun hbad => ?_, fun g hg => ?_⟩
  · rw [← EdgeText.exists_iff]
    constructor
    · rintro ⟨g, hg⟩
      obtain ⟨edges, hedges, -⟩ := (ofLines_eq_ok undirected).1 hg
      exact ⟨edges, hedges⟩
    · rintro ⟨edges, hedges⟩
      exact ⟨_, ofLines_of_edgeText undirected hedges⟩
  · obtain ⟨before, bad, after, hlines, hbefore, hbad⟩ := exists_first_bad hbad
    obtain ⟨fault, hfault, herror⟩ := ofLines_of_bad undirected hbefore hbad after
    rw [← hlines] at herror
    exact ⟨before, bad, after, fault, hlines, hbefore, hbad, hfault, herror⟩
  · obtain ⟨edges, hedges, rfl⟩ := (ofLines_eq_ok undirected).1 hg
    exact ⟨edges, hedges, hedges.length_eq, stores_ofAdditions undirected edges⟩

/-- A comment, two parallel edges in opposite directions, a blank line and a loop without a line feed. -/
def pairsText : String := "# pairs\r\n1 2\n2 1 0.5\n \n3 3"

theorem exists_edgeText_pairsText : ∃ edges, EdgeText (textLines pairsText) edges := by
  have hedge {line : String} {e : EdgeLine} (h : EdgeLine.ofWords (words line) = .ok e) :
      EdgeLine.WrittenBy (words line) e := EdgeLine.ofWords_eq_ok.1 h
  have hloop : EdgeText ["3 3"] _ := .edge (by decide) (hedge rfl) .nil
  have hedges : EdgeText ["1 2", "2 1 0.5", " ", "3 3"] _ :=
    .edge (by decide) (hedge rfl) (.edge (by decide) (hedge rfl) (.passed (by decide) hloop))
  have hlines : textLines pairsText = ["# pairs\r", "1 2", "2 1 0.5", " ", "3 3"] := by rfl
  rw [hlines]
  exact ⟨_, .passed (by decide) hedges⟩

theorem ofLines_stores_pairsText :
    (∃ g, ofLines true (Line.ofBytes pairsText.toByteArray) = .ok g ∧ g.numEdges = 6
      ∧ ∀ bits, g.multiplicity 1 2 bits = g.multiplicity 2 1 bits)
    ∧ ∃ number fault, ofLines true (Line.ofBytes "1 2\n3".toByteArray) = .error (.line number fault) := by
  have hbad : ¬ IsGraphLine "3" := by
    rintro (hpassed | ⟨e, he⟩)
    · revert hpassed
      decide
    · cases EdgeLine.ofWords_eq_ok.2 he
  obtain ⟨g, hg⟩ := (ofLines_stores pairsText true).1.2 (EdgeText.exists_iff.1 exists_edgeText_pairsText)
  obtain ⟨edges, -, hlength, hstores⟩ := (ofLines_stores pairsText true).2.2 g hg
  obtain ⟨before, bad, after, fault, -, -, -, -, herror⟩ :=
    (ofLines_stores "1 2\n3" true).2.1 fun h => hbad (h "3" (by decide))
  refine ⟨⟨g, hg, ?_, fun bits => hstores.symmetric rfl 1 2 bits⟩, _, fault, herror⟩
  rw [hstores.numEdges_eq, hlength]
  rfl

end Graph

end BipartiteBatch
