import BipartiteBatch.Error

/-!
# Lines of an input

An input is a sequence of bytes. Its lines end at line feeds; a last line need not end with one, and an
input that ends with a line feed has no empty line after it. A line whose bytes are not UTF-8 has no
text, but the lines after it may have.

A line stands here without its line feed. A reader of records keeps the line feed, and a reader of a
graph drops a carriage return before it as well; one splitting does for both, since both trim a line
before they look at it (`Reading.ofLine`, `Graph.addLines`), and all that a line may keep of its end are
blanks.

* `Line.ofText` : the lines of a text;
* `Line.ofBytes` : the lines of any bytes.
-/

namespace BipartiteBatch

/-- A line without its line feed, or why it cannot be read. -/
abbrev Line := Except ReadFault String

namespace Line

/-- The pieces that end at the items `isEnd` accepts, and what is left after the last of these. -/
def split {α : Type} (isEnd : α → Bool) (xs : List α) : List (List α) :=
  xs.foldr (fun x lines =>
    if isEnd x then [] :: lines
    else
      match lines with
      | [] => [[x]]
      | line :: lines => (x :: line) :: lines) []

def ofText (s : String) : List Line :=
  (split (· == '\n') s.toList).map fun cs => .ok (String.ofList cs)

def decode (bytes : List UInt8) : Line :=
  match String.fromUTF8? (ByteArray.mk bytes.toArray) with
  | some s => .ok s
  | none => .error .notText

/-- The lines of any bytes. Where all of them are UTF-8, so is each line. -/
def ofBytes (bytes : ByteArray) : List Line :=
  match String.fromUTF8? bytes with
  | some s => ofText s
  | none => (split (· == 10) bytes.toList).map decode

end Line

end BipartiteBatch
