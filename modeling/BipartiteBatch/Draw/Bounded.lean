import BipartiteBatch.Draw.Keystream

/-!
# Bounded draws

A number below `n` is the upper half of the product of `n` and a random word. A word whose product has
a lower half outside the zone is refused and the next one is taken, so that all numbers are equally
likely. Each word is refused with chance below one half. A draw of `rand` goes on until a word is taken;
here it ends after `redraws` refusals in a row, with a zero that `rand` does not give, so `below` is its
draw on every stream without such a run. No statement depends on what follows such a run: of a draw it is
used only that it is below its bound (`below_lt`) and a function of the stream.

* `Width` : draws from one word or from two;
* `below` : a number below a bound;
* `below_lt` : it is;
* `mapDraws` : one random value per item of a list, drawn in order.
-/

namespace BipartiteBatch.Draw

inductive Width where
  | word
  | long
deriving DecidableEq, Repr

def Width.bits : Width → Nat
  | word => 32
  | long => 64

def Width.count : Width → Nat
  | word => 0x100000000
  | long => 0x10000000000000000

def Keystream.next (w : Width) (s : Keystream) : Nat × Keystream :=
  match w with
  | .word => (s.next32.1.toNat, s.next32.2)
  | .long => (s.next64.1.toNat, s.next64.2)

/-- The largest lower half that is not refused: a multiple of `n` fills the words up to it. -/
def zone (w : Width) (n : Nat) : Nat := (n <<< (w.bits - 1 - n.log2)) - 1

/-- How many words a draw may refuse; the chance that all are refused is below 2 to the power of -256. -/
def redraws : Nat := 256

/-- A number below `n` within a number of tries; zero, a value made up to end the draw, if there are no
tries left. What is proved of draws uses of both answers only that they are below `n` (`belowWithin_lt`). -/
def belowWithin (w : Width) (n : Nat) : (tries : Nat) → Keystream → Nat × Keystream
  | 0, s => (0, s)
  | tries + 1, s =>
    let v := s.next w
    let p := v.1 * n
    if p % w.count ≤ zone w n then (p / w.count, v.2) else belowWithin w n tries v.2

def below (w : Width) (n : Nat) (s : Keystream) : Nat × Keystream := belowWithin w n redraws s

/-- One random value per item of a list, drawn in order. -/
def mapDraws {α β : Type} (f : α → Keystream → β × Keystream) (xs : List α) (s : Keystream) :
    List β × Keystream :=
  let r := xs.foldl (fun (acc : List β × Keystream) x =>
    ((f x acc.2).1 :: acc.1, (f x acc.2).2)) ([], s)
  (r.1.reverse, r.2)

theorem Keystream.next_lt (w : Width) (s : Keystream) : (s.next w).1 < w.count := by
  cases w
  · exact s.next32.1.toNat_lt
  · exact s.next64.1.toNat_lt

theorem belowWithin_lt (w : Width) {n : Nat} (h : 0 < n) :
    ∀ (tries : Nat) (s : Keystream), (belowWithin w n tries s).1 < n
  | 0, _ => h
  | tries + 1, s => by
    unfold belowWithin
    simp only
    split
    · have hv := s.next_lt w
      exact Nat.div_lt_of_lt_mul (Nat.mul_lt_mul_of_pos_right hv h)
    · exact belowWithin_lt w h tries _

/-- A bounded draw is below its bound. -/
theorem below_lt (w : Width) {n : Nat} (h : 0 < n) (s : Keystream) : (below w n s).1 < n :=
  belowWithin_lt w h _ s

theorem foldl_mapDraws {α β : Type} (f : α → Keystream → β × Keystream) :
    ∀ (xs : List α) (acc : List β) (s : Keystream),
      xs.foldl (fun (acc : List β × Keystream) x => ((f x acc.2).1 :: acc.1, (f x acc.2).2)) (acc, s)
        = ((mapDraws f xs s).1.reverse ++ acc, (mapDraws f xs s).2)
  | [], acc, s => by simp [mapDraws]
  | x :: xs, acc, s => by
    simp only [mapDraws, List.foldl_cons]
    rw [foldl_mapDraws f xs ((f x s).1 :: acc), foldl_mapDraws f xs [(f x s).1]]
    simp

@[simp] theorem mapDraws_nil {α β : Type} (f : α → Keystream → β × Keystream) (s : Keystream) :
    mapDraws f [] s = ([], s) := rfl

theorem mapDraws_cons {α β : Type} (f : α → Keystream → β × Keystream) (x : α) (xs : List α)
    (s : Keystream) :
    mapDraws f (x :: xs) s
      = ((f x s).1 :: (mapDraws f xs (f x s).2).1, (mapDraws f xs (f x s).2).2) := by
  conv => lhs; unfold mapDraws
  simp only [List.foldl_cons]
  rw [foldl_mapDraws]
  simp

end BipartiteBatch.Draw
