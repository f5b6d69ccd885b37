/-!
# Blanks

The 25 characters with the Unicode property White_Space, and what is read by means of them: a text
without its outer blanks, and the maximal runs without a blank.

* `isBlank` : the property;
* `trim` : the text without blanks at either end;
* `words` : the runs of other characters, in order;
* `splitAt` : the pieces between separators, of which there is always one.
-/

namespace BipartiteBatch.Text

/-- The code points of White_Space, as closed ranges in ascending order. -/
def blankRanges : List (Nat × Nat) :=
  [(0x09, 0x0D), (0x20, 0x20), (0x85, 0x85), (0xA0, 0xA0), (0x1680, 0x1680), (0x2000, 0x200A),
    (0x2028, 0x2029), (0x202F, 0x202F), (0x205F, 0x205F), (0x3000, 0x3000)]

def inRanges (ranges : List (Nat × Nat)) (n : Nat) : Bool :=
  ranges.any fun r => r.1 ≤ n && n ≤ r.2

/-- The character has the property White_Space. -/
def isBlank (c : Char) : Bool := inRanges blankRanges c.toNat

/-- The characters from the first to the last that is no blank. -/
def trimChars (cs : List Char) : List Char :=
  ((cs.dropWhile isBlank).reverse.dropWhile isBlank).reverse

def trim (s : String) : String := String.ofList (trimChars s.toList)

/-- The words of `cs`, the first of which continues the characters of `word`, last one first. -/
def wordsFrom : (word : List Char) → (cs : List Char) → List (List Char)
  | [], [] => []
  | c :: word, [] => [(c :: word).reverse]
  | word, c :: cs =>
    if isBlank c then
      match word with
      | [] => wordsFrom [] cs
      | d :: word => (d :: word).reverse :: wordsFrom [] cs
    else wordsFrom (c :: word) cs

/-- The maximal runs without a blank. -/
def words (s : String) : List String := (wordsFrom [] s.toList).map String.ofList

/-- The pieces of `cs` between the characters that `isEnd` accepts. -/
def splitChars (isEnd : Char → Bool) (cs : List Char) : List (List Char) :=
  cs.foldr (fun c pieces =>
    if isEnd c then [] :: pieces
    else
      match pieces with
      | [] => [[c]]
      | piece :: pieces => (c :: piece) :: pieces) [[]]

def splitAt (isEnd : Char → Bool) (s : String) : List String :=
  (splitChars isEnd s.toList).map String.ofList

/-- The text before and after the first character that `isEnd` accepts. -/
def splitOnce? (isEnd : Char → Bool) (s : String) : Option (String × String) :=
  match s.toList.span fun c => !isEnd c with
  | (_, []) => none
  | (before, _ :: after) => some (String.ofList before, String.ofList after)

end BipartiteBatch.Text
