import BipartiteBatch.Graph.Stored
import BipartiteBatch.Input.Line
import BipartiteBatch.Input.Record

/-!
# Graphs in texts

A line of a graph text is blank, a comment, or an edge: two nodes and an optional weight, which is one
if it is not given. The first line that is none of these fails the whole text, with its number.

* `EdgeLine.ofWords` : the edge in the words of a line;
* `Graph.ofLines` : the graph of a text.
-/

namespace BipartiteBatch

open Number Text

structure EdgeLine where
  src : NodeId
  dst : NodeId
  weight : Float32

namespace EdgeLine

/-- The edge in the words of a line. The weight is read first. -/
def ofWords : List String → Except LineFault EdgeLine
  | [src, dst] => do return ⟨← nodeOfWord src, ← nodeOfWord dst, 1.0⟩
  | [src, dst, word] =>
    match readFloat32 word with
    | .error fault => .error (.weight word fault)
    | .ok weight => do return ⟨← nodeOfWord src, ← nodeOfWord dst, weight⟩
  | words => .error (.weightedFields words.length)

end EdgeLine

namespace Graph

def addLine (g : Graph) (undirected : Bool) (e : EdgeLine) : Graph :=
  if undirected then g.addUndirectedEdge e.src e.dst e.weight else g.addEdge e.src e.dst e.weight

/-- Add the edges of the lines that follow the first `read` ones. -/
def addLines (undirected : Bool) (g : Graph) (read : Nat) : List Line → Except BatchError Graph
  | [] => .ok g
  | .error fault :: _ => .error (.read fault)
  | .ok text :: rest =>
    let text := trim text
    if isIgnored text then addLines undirected g (read + 1) rest
    else
      match EdgeLine.ofWords (words text) with
      | .ok e => addLines undirected (g.addLine undirected e) (read + 1) rest
      | .error fault => .error (.line (read + 1) fault)

def ofLines (undirected : Bool) (lines : List Line) : Except BatchError Graph :=
  addLines undirected empty 0 lines

end Graph

end BipartiteBatch
