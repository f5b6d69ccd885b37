/-!
# The random stream

Every draw comes from one deterministic stream of 32-bit words: blocks of sixteen words, each made from
a key and a block counter by twelve rounds of mixing. The key is expanded from a 64-bit seed.

* `block` : one block of the stream;
* `Keystream.ofSeed` : the stream of a seed, at its start;
* `Keystream.next32`, `Keystream.next64` : the next word, or the next two as one with the lower first.
-/

namespace BipartiteBatch.Draw

/-! ## Blocks -/

abbrev Block := Vector UInt32 16

def rotate (x : UInt32) (k : UInt32) : UInt32 := (x <<< k) ||| (x >>> (32 - k))

def quarterRound (s : Block) (a b c d : Fin 16) : Block :=
  let s := s.set a (s[a] + s[b])
  let s := s.set d (rotate (s[d] ^^^ s[a]) 16)
  let s := s.set c (s[c] + s[d])
  let s := s.set b (rotate (s[b] ^^^ s[c]) 12)
  let s := s.set a (s[a] + s[b])
  let s := s.set d (rotate (s[d] ^^^ s[a]) 8)
  let s := s.set c (s[c] + s[d])
  s.set b (rotate (s[b] ^^^ s[c]) 7)

/-- Mix the columns and then the diagonals of a block. -/
def doubleRound (s : Block) : Block :=
  let s := quarterRound s 0 4 8 12
  let s := quarterRound s 1 5 9 13
  let s := quarterRound s 2 6 10 14
  let s := quarterRound s 3 7 11 15
  let s := quarterRound s 0 5 10 15
  let s := quarterRound s 1 6 11 12
  let s := quarterRound s 2 7 8 13
  quarterRound s 3 4 9 14

/-- The block before mixing: four constants, the key, the counter and an empty nonce. -/
def start (key : Vector UInt32 8) (counter : UInt64) : Block :=
  #v[0x61707865, 0x3320646e, 0x79622d32, 0x6b206574,
    key[0], key[1], key[2], key[3], key[4], key[5], key[6], key[7],
    counter.toUInt32, (counter >>> 32).toUInt32, 0, 0]

/-- A block of the stream: six double rounds, added to the block before mixing. -/
def block (key : Vector UInt32 8) (counter : UInt64) : Block :=
  let s := start key counter
  Vector.zipWith (· + ·) s (Nat.repeat doubleRound 6 s)

/-! ## The stream -/

/-- A position in the stream of a key: the words of `current` from `used` on come next, and then the
block of the counter. -/
structure Keystream where
  key : Vector UInt32 8
  counter : UInt64
  current : Block
  used : Nat

namespace Keystream

/-- The next state of the seed expansion, and the word that it gives. -/
def expand (state : UInt64) : UInt64 × UInt32 :=
  let state := state * 6364136223846793005 + 11634580027462260723
  let x := (((state >>> 18) ^^^ state) >>> 27).toUInt32
  let k := (state >>> 59).toUInt32
  (state, (x >>> k) ||| (x <<< (32 - k)))

def keyOfSeed (seed : UInt64) : Vector UInt32 8 :=
  let a := expand seed
  let b := expand a.1
  let c := expand b.1
  let d := expand c.1
  let e := expand d.1
  let f := expand e.1
  let g := expand f.1
  let h := expand g.1
  #v[a.2, b.2, c.2, d.2, e.2, f.2, g.2, h.2]

def ofSeed (seed : UInt64) : Keystream :=
  let key := keyOfSeed seed
  { key, counter := 1, current := block key 0, used := 0 }

def next32 (s : Keystream) : UInt32 × Keystream :=
  if h : s.used < 16 then (s.current[s.used], { s with used := s.used + 1 })
  else
    let b := block s.key s.counter
    (b[0], { s with counter := s.counter + 1, current := b, used := 1 })

/-- The next two words as one, the lower half first. -/
def next64 (s : Keystream) : UInt64 × Keystream :=
  let low := s.next32
  let high := low.2.next32
  (low.1.toUInt64 ||| (high.1.toUInt64 <<< 32), high.2)

end Keystream

end BipartiteBatch.Draw
