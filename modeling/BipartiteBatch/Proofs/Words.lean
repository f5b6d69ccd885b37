import BipartiteBatch.Input.Record
import BipartiteBatch.Proofs.Pieces
import Mathlib.Data.List.DropRight
import Mathlib.Data.List.TakeWhile

/-!
# The words of a line

The words of a text are its pieces between blanks, without the empty ones. So blanks at its ends make no
difference to its words, and whether it is passed over depends on its first other character alone.

* `Text.wordsFrom_nil_eq` : words as pieces between blanks, `Text.words_trim` : the words of a trimmed text;
* `Text.trim_append`, `Reading.ofLine_append` : what ends a line is trimmed with its blanks;
* `PassedOver`, `isIgnored_trim` : blank texts and comments.
-/

namespace BipartiteBatch

namespace Text

/-! ## Words and blanks -/

/-- The words that continue those characters of a word that were read already. -/
theorem wordsFrom_eq {word cs piece : List Char} {pieces : List (List Char)}
    (h : splitChars isBlank cs = piece :: pieces) :
    wordsFrom word cs = ((word.reverse ++ piece) :: pieces).filter fun cs => !cs.isEmpty := by
  induction cs generalizing word piece pieces with
  | nil =>
    obtain ⟨rfl, rfl⟩ := List.cons.inj (show [[]] = piece :: pieces from h)
    cases word with
    | nil => rfl
    | cons c word => simp [wordsFrom]
  | cons c cs ih =>
    obtain ⟨next, rest, hcs⟩ : ∃ next rest, splitChars isBlank cs = next :: rest :=
      List.exists_cons_of_ne_nil (splitChars_ne_nil cs)
    rw [splitChars_cons, hcs] at h
    by_cases hc : isBlank c = true
    · rw [if_pos hc] at h
      obtain ⟨rfl, rfl⟩ := List.cons.inj h
      cases word with
      | nil => simp [wordsFrom, hc, ih hcs]
      | cons d word => simp [wordsFrom, hc, ih hcs]
    · rw [if_neg hc] at h
      obtain ⟨rfl, rfl⟩ := List.cons.inj h
      have hword : wordsFrom word (c :: cs) = wordsFrom (c :: word) cs := by
        cases word <;> simp [wordsFrom, hc]
      rw [hword, ih hcs, List.reverse_cons, List.append_assoc, List.singleton_append]

theorem wordsFrom_nil_eq (cs : List Char) :
    wordsFrom [] cs = (splitChars isBlank cs).filter fun cs => !cs.isEmpty := by
  obtain ⟨piece, pieces, h⟩ : ∃ piece pieces, splitChars isBlank cs = piece :: pieces :=
    List.exists_cons_of_ne_nil (splitChars_ne_nil cs)
  rw [wordsFrom_eq h, h, List.reverse_nil, List.nil_append]

theorem wordsFrom_blanks {cs : List Char} (h : ∀ c ∈ cs, isBlank c = true) : wordsFrom [] cs = [] := by
  induction cs with
  | nil => rfl
  | cons c cs ih =>
    obtain ⟨hc, hcs⟩ := List.forall_mem_cons.1 h
    simpa [wordsFrom, hc] using ih hcs

theorem wordsFrom_append {c : Char} (hc : isBlank c = true) (cs ds : List Char) :
    wordsFrom [] (cs ++ c :: ds) = wordsFrom [] cs ++ wordsFrom [] ds := by
  rw [wordsFrom_nil_eq, wordsFrom_nil_eq, wordsFrom_nil_eq, splitChars_append hc, List.filter_append]

theorem wordsFrom_append_blanks {cs blanks : List Char} (h : ∀ c ∈ blanks, isBlank c = true) :
    wordsFrom [] (cs ++ blanks) = wordsFrom [] cs := by
  cases blanks with
  | nil => rw [List.append_nil]
  | cons c blanks =>
    obtain ⟨hc, hblanks⟩ := List.forall_mem_cons.1 h
    rw [wordsFrom_append hc, wordsFrom_blanks hblanks, List.append_nil]

theorem wordsFrom_dropWhile (cs : List Char) : wordsFrom [] (cs.dropWhile isBlank) = wordsFrom [] cs := by
  induction cs with
  | nil => rfl
  | cons c cs ih =>
    by_cases hc : isBlank c = true
    · rw [List.dropWhile_cons_of_pos hc, ih]
      simp [wordsFrom, hc]
    · rw [List.dropWhile_cons_of_neg hc]

theorem trimChars_eq (cs : List Char) : trimChars cs = (cs.dropWhile isBlank).rdropWhile isBlank := rfl

theorem trim_append {blanks : String} (h : ∀ c ∈ blanks.toList, isBlank c = true) (s : String) :
    trim (s ++ blanks) = trim s := by
  have hreverse : ∀ c ∈ blanks.toList.reverse, isBlank c = true := fun c hc => h c (List.mem_reverse.1 hc)
  rw [trim, trim, String.toList_append, trimChars_eq, trimChars_eq, List.dropWhile_append]
  split
  · rename_i hall
    rw [List.dropWhile_eq_nil_iff.2 h, List.isEmpty_iff.1 hall]
  · rw [List.rdropWhile, List.reverse_append, List.dropWhile_append_of_pos hreverse, List.rdropWhile]

/-- Blanks at the ends of a text make no difference to its words. -/
theorem words_trim (s : String) : words (trim s) = words s := by
  have hend : wordsFrom [] (trimChars s.toList ++ (s.toList.dropWhile isBlank).rtakeWhile isBlank)
      = wordsFrom [] (trimChars s.toList) :=
    wordsFrom_append_blanks fun c hc => List.mem_rtakeWhile_imp hc
  rw [trimChars_eq, List.rdropWhile_append_rtakeWhile, wordsFrom_dropWhile] at hend
  rw [words, words, trim, String.toList_ofList, trimChars_eq, hend]

end Text

/-! ## Lines without words to read -/

open Text

/-- The text is blank or a comment: its first character that is no blank, if it has one, is `#`. -/
def PassedOver (text : String) : Prop := ∀ c ∈ text.toList.find? fun c => !isBlank c, c = '#'

instance : DecidablePred PassedOver := fun text =>
  match h : text.toList.find? fun c => !isBlank c with
  | none => isTrue (by simp [PassedOver, h])
  | some c => decidable_of_iff (c = '#') (by simp [PassedOver, h])

theorem head?_trimChars (cs : List Char) : (trimChars cs).head? = cs.find? fun c => !isBlank c := by
  rw [trimChars_eq, List.find?_not_eq_head?_dropWhile]
  cases hdrop : cs.dropWhile isBlank with
  | nil => rfl
  | cons c rest =>
    have hc : ¬ isBlank c = true := by
      have hhead := List.find?_not_eq_head?_dropWhile (p := isBlank) (l := cs)
      rw [hdrop, List.head?_cons] at hhead
      simpa using List.find?_some hhead
    -- the first character stays, whatever is cut off at the end
    rw [List.rdropWhile, List.reverse_cons, List.dropWhile_append, List.dropWhile_cons_of_neg hc]
    split
    · rfl
    · rw [List.reverse_append, List.reverse_singleton, List.singleton_append, List.head?_cons,
        List.head?_cons]

/-- A line reads alike with its end, a line feed or a carriage return and a line feed, and without. -/
theorem Reading.ofLine_append {ρ : Type} [Record ρ] {blanks : String}
    (h : ∀ c ∈ blanks.toList, isBlank c = true) (text : String) :
    (Reading.ofLine (text ++ blanks) : Reading ρ) = Reading.ofLine text := by
  rw [Reading.ofLine, Reading.ofLine, trim_append h]

theorem isIgnored_trim {text : String} : isIgnored (trim text) = true ↔ PassedOver text := by
  unfold PassedOver isIgnored
  rw [← head?_trimChars, trim, String.toList_ofList]
  cases trimChars text.toList with
  | nil => simp
  | cons c cs => simp

end BipartiteBatch
