import BipartiteBatch.Text.Blank
import BipartiteBatch.Proofs.Numerals

/-!
# Pieces between separators

A text is cut at separators into pieces, which are trimmed, and the empty ones are dropped. Two texts with a
separator between them have the pieces of the one and then those of the other, so that texts without blanks
and separators are found again between separators.

* `Text.pieces` : the pieces of a text;
* `Text.pieces_append` : the pieces of two texts with a separator between them;
* `Text.pieces_intercalate` : plain texts between separators;
* `Text.splitOnce?_append` : the text before and after the first separator.
-/

namespace BipartiteBatch.Text

variable {isEnd : Char → Bool}

/-! ## Trimming -/

theorem trim_of_forall {s : String} (h : ∀ c ∈ s.toList, isBlank c = false) : trim s = s := by
  have hdrop : ∀ cs : List Char, (∀ c ∈ cs, isBlank c = false) → cs.dropWhile isBlank = cs := by
    intro cs hcs
    cases cs with
    | nil => rfl
    | cons c cs =>
      rw [List.dropWhile_cons_of_neg]
      rw [hcs c List.mem_cons_self]
      exact Bool.false_ne_true
  have hreverse : ∀ c ∈ s.toList.reverse, isBlank c = false := fun c hc => h c (List.mem_reverse.1 hc)
  rw [trim, trimChars, hdrop _ h, hdrop _ hreverse, List.reverse_reverse, String.ofList_toList]

theorem isBlank_of_isDigit {c : Char} (h : c.isDigit = true) : isBlank c = false := by
  simp only [Char.isDigit, Bool.and_eq_true, decide_eq_true_eq] at h
  have hlow : 48 ≤ c.toNat := h.1
  have hhigh : c.toNat ≤ 57 := h.2
  simp only [isBlank, inRanges, blankRanges, List.any_cons, List.any_nil, Bool.or_false,
    Bool.or_eq_false_iff, Bool.and_eq_false_imp, decide_eq_true_eq, decide_eq_false_iff_not]
  omega

/-! ## Cutting -/

theorem splitChars_cons (c : Char) (cs : List Char) : splitChars isEnd (c :: cs)
    = if isEnd c then [] :: splitChars isEnd cs
      else match splitChars isEnd cs with
        | [] => [[c]]
        | piece :: pieces => (c :: piece) :: pieces := rfl

theorem splitChars_ne_nil (cs : List Char) : splitChars isEnd cs ≠ [] := by
  cases cs with
  | nil => exact List.cons_ne_nil _ _
  | cons c cs =>
    rw [splitChars_cons]
    split
    · exact List.cons_ne_nil _ _
    · split
      · exact List.cons_ne_nil _ _
      · exact List.cons_ne_nil _ _

theorem splitChars_append {c : Char} (hc : isEnd c = true) (cs ds : List Char) :
    splitChars isEnd (cs ++ c :: ds) = splitChars isEnd cs ++ splitChars isEnd ds := by
  induction cs with
  | nil => rw [List.nil_append, splitChars_cons, if_pos hc]; rfl
  | cons b cs ih =>
    rw [List.cons_append, splitChars_cons, splitChars_cons, ih]
    by_cases hb : isEnd b = true
    · rw [if_pos hb, if_pos hb, List.cons_append]
    · rw [if_neg hb, if_neg hb]
      match h : splitChars isEnd cs with
      | [] => exact absurd h (splitChars_ne_nil cs)
      | piece :: pieces => rfl

theorem splitChars_of_forall {cs : List Char} (h : ∀ c ∈ cs, isEnd c = false) :
    splitChars isEnd cs = [cs] := by
  induction cs with
  | nil => rfl
  | cons c cs ih =>
    obtain ⟨hc, hcs⟩ := List.forall_mem_cons.1 h
    rw [splitChars_cons, ih hcs, hc]
    rfl

/-- The first separator is found after what has none. -/
theorem splitOnce?_append {c : Char} (hc : isEnd c = true) {s : String} {sep t : String}
    (hsep : sep.toList = [c]) (hs : ∀ d ∈ s.toList, isEnd d = false) :
    splitOnce? isEnd (s ++ sep ++ t) = some (s, t) := by
  have hspan : (s.toList ++ c :: t.toList).span (fun d => !isEnd d) = (s.toList, c :: t.toList) := by
    refine span_append (fun d hd => ?_) ?_
    · rw [hs d hd]
      rfl
    · rintro d ⟨⟩
      rw [hc]
      rfl
  unfold splitOnce?
  rw [String.toList_append, String.toList_append, hsep, List.append_assoc, List.singleton_append, hspan]
  simp only [String.ofList_toList]

/-! ## Pieces -/

/-- The pieces of a text between separators, trimmed, without the empty ones. -/
def pieces (isEnd : Char → Bool) (s : String) : List String :=
  ((splitAt isEnd s).map trim).filter fun piece => !piece.isEmpty

theorem pieces_append {c : Char} (hc : isEnd c = true) {sep : String} (hsep : sep.toList = [c])
    (s t : String) : pieces isEnd (s ++ sep ++ t) = pieces isEnd s ++ pieces isEnd t := by
  unfold pieces splitAt
  rw [String.toList_append, String.toList_append, hsep, List.append_assoc, List.singleton_append,
    splitChars_append hc, List.map_append, List.map_append, List.filter_append]

/-- The text has characters, of which none is a blank or a separator. -/
structure Plain (isEnd : Char → Bool) (s : String) : Prop where
  ne_empty : s ≠ ""
  isBlank_eq : ∀ c ∈ s.toList, isBlank c = false
  isEnd_eq : ∀ c ∈ s.toList, isEnd c = false

theorem Plain.pieces_eq {s : String} (h : Plain isEnd s) : pieces isEnd s = [s] := by
  unfold pieces splitAt
  rw [splitChars_of_forall h.isEnd_eq, List.map_singleton, String.ofList_toList, List.map_singleton,
    trim_of_forall h.isBlank_eq, List.filter_eq_self]
  simpa using h.ne_empty

theorem pieces_empty : pieces isEnd "" = [] := rfl

/-- Plain texts are found again between separators. -/
theorem pieces_intercalate {c : Char} (hc : isEnd c = true) {sep : String} (hsep : sep.toList = [c])
    {texts : List String} (h : ∀ s ∈ texts, Plain isEnd s) :
    pieces isEnd (sep.intercalate texts) = texts := by
  induction texts with
  | nil => rw [String.intercalate_nil, pieces_empty]
  | cons s texts ih =>
    obtain ⟨hs, htexts⟩ := List.forall_mem_cons.1 h
    by_cases hnil : texts = []
    · rw [hnil, String.intercalate_singleton, hs.pieces_eq]
    · rw [String.intercalate_cons_of_ne_nil hnil, pieces_append hc hsep, hs.pieces_eq, ih htexts,
        List.singleton_append]

end BipartiteBatch.Text
