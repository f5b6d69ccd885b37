import BipartiteBatch.Input.Reader

/-!
# Inputs that are rewritten while they are read

The bytes of an input are fetched in blocks. If its file gets new bytes between two reads, what is left
of the last block still stands, and after it the new bytes go on from the position that was reached.

* `Line.following` : the bytes after some lines;
* `Line.restOfRewritten` : what is left to read after some lines, the file having been rewritten;
* `LineReader.rewritten` : the reader of such an input.
-/

namespace BipartiteBatch

namespace Line

def blockSize : Nat := 8192

/-- The bytes after the first `n` lines. -/
def following : (n : Nat) → List UInt8 → List UInt8
  | 0, bytes => bytes
  | n + 1, bytes => following n ((bytes.dropWhile (· != 10)).drop 1)

/-- The end of the block that ends at or after a position. -/
def blockEnd (position : Nat) : Nat := (position + blockSize - 1) / blockSize * blockSize

/-- What is left after the first `n` lines of the old bytes, the file having got new ones. -/
def restOfRewritten (n : Nat) (old new : List UInt8) : List UInt8 :=
  let rest := following n old
  let position := old.length - rest.length
  rest.take (blockEnd position - position) ++ new.drop (min (blockEnd position) old.length)

end Line

/-- The reader after the file of its input got new bytes, all lines so far having been readable. A closed
reader stays closed. -/
def LineReader.rewritten (r : LineReader) (old new : ByteArray) : LineReader :=
  { r with
    rest := r.rest.map fun _ =>
      Line.ofBytes (ByteArray.mk (Line.restOfRewritten r.lines old.toList new.toList).toArray) }

end BipartiteBatch
