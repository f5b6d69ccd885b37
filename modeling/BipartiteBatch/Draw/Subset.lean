import BipartiteBatch.Draw.Bounded

/-!
# Drawing distinct positions

`positions length amount` draws `amount` distinct positions below `length`, in random order, by bounded
draws of one word each. A choice that is small beside the list is made by growing it, one position after
the other; any other choice shuffles the first places of all positions.

* `grow` : position `j` is drawn below `j + 1`, and on a repetition `j` itself is taken;
* `shuffle` : place `i` is swapped with a place drawn from `i` on;
* `mix` : the order of a grown choice is made random by swaps from the last place down, where growing
  has not done so already.
-/

namespace BipartiteBatch.Draw

/-- Add the drawn position `t`, or `j` in its place before it if it is there already. -/
def place (chosen : List Nat) (t j : Nat) : List Nat :=
  if chosen.contains t then chosen.insertIdx (chosen.idxOf t) j else chosen ++ [t]

/-- Add the drawn position `t`, or `j` if it is there already. -/
def append (chosen : List Nat) (t j : Nat) : List Nat :=
  chosen ++ [if chosen.contains t then j else t]

/-- Grow a choice by a position for each `j` of `count` numbers from `first` on. -/
def growFrom (add : List Nat → Nat → Nat → List Nat) :
    (count first : Nat) → (chosen : List Nat) → Keystream → List Nat × Keystream
  | 0, _, chosen, s => (chosen, s)
  | count + 1, j, chosen, s =>
    let t := below .word (j + 1) s
    growFrom add count (j + 1) (add chosen t.1 j) t.2

def grow (add : List Nat → Nat → Nat → List Nat) (length amount : Nat) (s : Keystream) :
    List Nat × Keystream :=
  growFrom add amount (length - amount) [] s

/-- Swap each place from `i` down to the second with a place drawn up to it. -/
def mixFrom : (i : Nat) → (a : Array Nat) → Keystream → Array Nat × Keystream
  | 0, a, s => (a, s)
  | i + 1, a, s =>
    let t := below .word (i + 2) s
    mixFrom i (a.swapIfInBounds (i + 1) t.1) t.2

def mix (chosen : List Nat) (s : Keystream) : List Nat × Keystream :=
  let r := mixFrom (chosen.length - 1) chosen.toArray s
  (r.1.toList, r.2)

/-- Swap each of `count` places from `i` on with a place drawn from there on. -/
def shuffleFrom : (count i : Nat) → (a : Array Nat) → Keystream → Array Nat × Keystream
  | 0, _, a, s => (a, s)
  | count + 1, i, a, s =>
    let t := below .word (a.size - i) s
    shuffleFrom count (i + 1) (a.swapIfInBounds i (i + t.1)) t.2

def shuffle (length amount : Nat) (s : Keystream) : List Nat × Keystream :=
  let r := shuffleFrom amount 0 (Array.range length) s
  (r.1.toList.take amount, r.2)

inductive Method where
  | place
  | appendAndMix
  | shuffle
deriving DecidableEq, Repr

/-- The method for a choice: growing while it is small or the list so long that shuffling would cost
more. Longer choices are not inserted into, but mixed at the end.

This is the method of `rand` for an amount below 12, for any amount below 163 from a length below 500000,
and for larger amounts from a length below both 500000 and 270 times the amount. From a length of 500000
on `rand` compares with other bounds, and a large amount from a length beyond its bound it draws by
trial, which is no method here; there the positions differ from those of `rand`, and what is proved of
them (`chosen_positions`) is what `rand` promises of its own. -/
def Method.of (length amount : Nat) : Method :=
  if amount < 12 then .place
  else if 163 ≤ amount ∨ 10 * length < (100 + 16 * amount) * amount then .shuffle
  else if amount < 50 then .place
  else .appendAndMix

/-- Choose `amount` distinct positions below `length`. -/
def positions (length amount : Nat) (s : Keystream) : List Nat × Keystream :=
  match Method.of length amount with
  | .place => grow place length amount s
  | .appendAndMix =>
    let r := grow append length amount s
    mix r.1 r.2
  | .shuffle => shuffle length amount s

end BipartiteBatch.Draw
