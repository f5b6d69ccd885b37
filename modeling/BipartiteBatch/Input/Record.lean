import BipartiteBatch.Error
import BipartiteBatch.Text.Blank

/-!
# Records

A line of an input is blank, a comment that begins with `#`, or a sequence of words. The first words
make a record: two nodes for an edge, one for a node; further words are ignored.

* `Record` : a kind of record, with the bytes that one takes in a buffer;
* `EdgeRecord`, `NodeRecord` : the two kinds;
* `Reading.ofLine` : what a line holds.
-/

namespace BipartiteBatch

open Number Text

structure EdgeRecord where
  src : NodeId
  dst : NodeId
deriving DecidableEq, Repr

structure NodeRecord where
  node : NodeId
deriving DecidableEq, Repr

class Record (ρ : Type) where
  /-- The bytes of a record in a buffer. -/
  width : Nat
  /-- The record in the words of a line. -/
  ofWords : List String → Except LineFault ρ

def nodeOfWord (word : String) : Except LineFault NodeId :=
  match readUInt64 word with
  | .ok node => .ok node
  | .error fault => .error (.nodeId word fault)

instance : Record EdgeRecord where
  width := 16
  ofWords
    | src :: dst :: _ => do return ⟨← nodeOfWord src, ← nodeOfWord dst⟩
    | words => .error (.edgeFields words.length)

instance : Record NodeRecord where
  width := 8
  ofWords
    | node :: _ => do return ⟨← nodeOfWord node⟩
    | [] => .error .noNode

/-- The text, trimmed, holds no words to read. -/
def isIgnored (text : String) : Bool :=
  match text.toList with
  | [] => true
  | c :: _ => c = '#'

inductive Reading (ρ : Type) where
  | ignored
  | record (r : ρ)
  | malformed (fault : LineFault)
deriving DecidableEq, Repr

def Reading.ofLine {ρ : Type} [Record ρ] (text : String) : Reading ρ :=
  let text := trim text
  if isIgnored text then .ignored
  else
    match Record.ofWords (words text) with
    | .ok r => .record r
    | .error fault => .malformed fault

end BipartiteBatch
