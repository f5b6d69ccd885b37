import BipartiteBatch.Input.Reader
import Mathlib.Data.List.Basic

/-!
# The records left in an input

An input that is text holds a list of records, those of its well-formed lines in order. A call takes
the first of the records that are left and leaves the others, whatever lines stand between them; at the
end of the input there are none.

* `Line.record?` : the record of a line, `recordsOfText` : the records of a text;
* `Line.isMalformed` : a line that should hold a record and does not;
* `LineReader.Pending` : the records that are left in an input;
* `LineReader.pending_ofBytes` : an input of a text begins with all of its records;
* `LineReader.next_of_pending` : a call takes the first ones.
-/

namespace BipartiteBatch

def Line.record? (ρ : Type) [Record ρ] (line : Line) : Option ρ :=
  match line with
  | .error _ => none
  | .ok text =>
    match Reading.ofLine text with
    | .record r => some r
    | .ignored => none
    | .malformed _ => none

/-- The records of the well-formed lines of a text. -/
def recordsOfText (ρ : Type) [Record ρ] (text : String) : List ρ :=
  (Line.ofText text).filterMap (Line.record? ρ)

variable {ρ : Type} [Record ρ]

theorem Line.record?_ok {text : String} {x : ρ} :
    Line.record? ρ (.ok text) = some x ↔ Reading.ofLine text = .record x := by
  unfold Line.record?
  cases h : (Reading.ofLine text : Reading ρ) with
  | ignored => simp [h]
  | malformed fault => simp [h]
  | record r => simp [h]

theorem Line.record?_eq_none {text : String} (h : ∀ x : ρ, Reading.ofLine text ≠ .record x) :
    Line.record? ρ (.ok text) = none := by
  rw [Option.eq_none_iff_forall_ne_some]
  intro x hx
  exact h x (Line.record?_ok.1 hx)

/-- A line with a text that is neither blank nor a comment, and yet no record. -/
def Line.isMalformed (ρ : Type) [Record ρ] (line : Line) : Bool :=
  match line with
  | .error _ => false
  | .ok text => !isIgnored (Text.trim text) && (Line.record? ρ (.ok text)).isNone

theorem Reading.ofLine_eq_ignored {text : String} :
    (Reading.ofLine text : Reading ρ) = .ignored ↔ isIgnored (Text.trim text) = true := by
  unfold Reading.ofLine
  dsimp only
  by_cases hignored : isIgnored (Text.trim text) = true
  · rw [if_pos hignored, iff_true_right hignored]
  · rw [if_neg hignored, iff_false_right hignored]
    cases (Record.ofWords (Text.words (Text.trim text)) : Except LineFault ρ) with
    | ok x => exact nofun
    | error fault => exact nofun

theorem Line.isMalformed_ok {text : String} :
    Line.isMalformed ρ (.ok text) = true ↔ ∃ fault, (Reading.ofLine text : Reading ρ) = .malformed fault := by
  unfold isMalformed
  dsimp only
  rw [Bool.and_eq_true, Bool.not_eq_true', ← Bool.not_eq_true, ← Reading.ofLine_eq_ignored (ρ := ρ),
    Option.isNone_iff_eq_none]
  unfold record?
  cases h : (Reading.ofLine text : Reading ρ) with
  | ignored => simp [h]
  | record x => simp [h]
  | malformed fault => simp [h]

theorem Line.readable_ofText {text : String} : ∀ line ∈ Line.ofText text, ∃ s, line = .ok s := by
  intro line hline
  obtain ⟨cs, -, rfl⟩ := List.mem_map.1 hline
  exact ⟨_, rfl⟩

/-- The lines of the bytes of a text are those of the text. -/
theorem Line.ofBytes_toByteArray (text : String) : Line.ofBytes text.toByteArray = Line.ofText text := by
  have hdecode : String.fromUTF8? text.toByteArray = some text := by
    unfold String.fromUTF8?
    rw [dif_pos text.isValidUTF8]
    rfl
  rw [Line.ofBytes, hdecode]

namespace LineReader

/-- The lines that are left can be read and hold these records. -/
structure Pending (r : LineReader) (records : List ρ) : Prop where
  readable : ∀ lines ∈ r.rest, ∀ line ∈ lines, ∃ text, line = Except.ok text
  records_eq : (r.rest.getD []).filterMap (Line.record? ρ) = records

variable {r : LineReader} {records : List ρ}

theorem pending_ofBytes (text : String) :
    (ofBytes text.toByteArray).Pending (recordsOfText ρ text) where
  readable := by
    rintro _ ⟨⟩
    rw [Line.ofBytes_toByteArray]
    exact Line.readable_ofText
  records_eq := by
    rw [recordsOfText, ← Line.ofBytes_toByteArray]
    rfl

theorem pending_nil_of_closed (h : r.rest = none) : r.Pending ([] : List ρ) where
  readable := by
    rw [h]
    exact nofun
  records_eq := by
    rw [h]
    rfl

theorem close_pending (r : LineReader) : r.close.1.Pending ([] : List ρ) := by
  apply pending_nil_of_closed
  unfold close isOpen
  cases h : r.rest with
  | none => simp [h]
  | some lines => simp

/-! ## Searching -/

/-- A search through lines without records ends with a closed input. -/
theorem seek_ended {lines : List Line} (hreadable : ∀ line ∈ lines, ∃ text, line = Except.ok text)
    (hnone : lines.filterMap (Line.record? ρ) = []) (n skipped : Nat) (events : List Event) :
    ∃ r events', seek n skipped events lines = (Found.ended (ρ := ρ), r, events')
      ∧ r.rest = none := by
  induction lines generalizing n skipped events with
  | nil => exact ⟨_, _, rfl, rfl⟩
  | cons line lines ih =>
    obtain ⟨text, rfl⟩ := hreadable line List.mem_cons_self
    have hrest := ih fun l hl => hreadable l (List.mem_cons_of_mem _ hl)
    unfold seek
    cases hline : (Reading.ofLine text : Reading ρ) with
    | record x =>
      rw [List.filterMap_cons_some (Line.record?_ok.2 hline)] at hnone
      cases hnone
    | ignored =>
      rw [List.filterMap_cons_none (Line.record?_eq_none (by simp [hline]))] at hnone
      exact hrest hnone _ _ _
    | malformed fault =>
      rw [List.filterMap_cons_none (Line.record?_eq_none (by simp [hline]))] at hnone
      exact hrest hnone _ _ _

/-- A search finds the first record and leaves the others. -/
theorem seek_record {lines : List Line} (hreadable : ∀ line ∈ lines, ∃ text, line = Except.ok text)
    {x : ρ} (hsome : lines.filterMap (Line.record? ρ) = x :: records) (n skipped : Nat)
    (events : List Event) : ∃ r events', seek n skipped events lines = (.record x, r, events')
      ∧ r.Pending records := by
  induction lines generalizing n skipped events with
  | nil => cases hsome
  | cons line lines ih =>
    obtain ⟨text, rfl⟩ := hreadable line List.mem_cons_self
    have hlines : ∀ l ∈ lines, ∃ text, l = Except.ok text :=
      fun l hl => hreadable l (List.mem_cons_of_mem _ hl)
    unfold seek
    cases hline : (Reading.ofLine text : Reading ρ) with
    | record y =>
      rw [List.filterMap_cons_some (Line.record?_ok.2 hline)] at hsome
      obtain ⟨rfl, hrecords⟩ := List.cons.inj hsome
      refine ⟨_, _, rfl, ?_, hrecords⟩
      rintro _ ⟨⟩
      exact hlines
    | ignored =>
      rw [List.filterMap_cons_none (Line.record?_eq_none (by simp [hline]))] at hsome
      exact ih hlines hsome _ _ _
    | malformed fault =>
      rw [List.filterMap_cons_none (Line.record?_eq_none (by simp [hline]))] at hsome
      exact ih hlines hsome _ _ _

/-! ## Calls -/

/-- The records taken are the first ones of those that are left. -/
theorem collect_of_pending (h : r.Pending records) (wanted : Nat) (taken : List ρ)
    (events : List Event) : ∃ r' events', collect wanted taken events r
        = ⟨.ok (taken.reverse ++ records.take wanted), r', events'⟩
      ∧ r'.Pending (records.drop wanted) := by
  -- on what is still wanted, whatever was taken before
  induction wanted generalizing r records taken events with
  | zero =>
    refine ⟨r, events.reverse, ?_, h⟩
    unfold collect
    simp
  | succ wanted ih =>
    unfold collect
    cases hrest : r.rest with
    | none =>
      have hrecords : records = [] := by
        rw [← h.records_eq, hrest]
        rfl
      subst hrecords
      exact ⟨r, events.reverse, by simp, h⟩
    | some lines =>
      have hreadable := h.readable lines hrest
      have hlines : lines.filterMap (Line.record? ρ) = records := by
        rw [← h.records_eq, hrest]
        rfl
      cases records with
      | nil =>
        obtain ⟨r', events', hseek, hclosed⟩ := seek_ended hreadable hlines r.lines r.skipped events
        refine ⟨r', events'.reverse, ?_, pending_nil_of_closed hclosed⟩
        simp [hseek]
      | cons x records =>
        obtain ⟨r', events', hseek, hpending⟩ :=
          seek_record hreadable hlines r.lines r.skipped events
        obtain ⟨r'', events'', hcollect, hleft⟩ := ih hpending (x :: taken) events'
        refine ⟨r'', events'', ?_, hleft⟩
        simp [hseek, hcollect]

/-- A call takes as many of the records that are left as it may, and leaves the others. If there are
none, it gives no list. -/
theorem next_of_pending (h : r.Pending records) {count : Nat} (hcount : 0 < count)
    (hfits : fits count (Record.width ρ)) :
    ∃ r' events, next ρ count r = (.ok (if records.isEmpty then none else some (records.take count)),
        r', events)
      ∧ r'.Pending (records.drop count) := by
  obtain ⟨r', events, hcollect, hpending⟩ := collect_of_pending h count [] []
  refine ⟨r', events, ?_, hpending⟩
  unfold next
  rw [if_pos hfits, hcollect]
  cases records with
  | nil => simp
  | cons x records =>
    obtain ⟨n, rfl⟩ : ∃ n, count = n + 1 := ⟨count - 1, by omega⟩
    simp

end LineReader

end BipartiteBatch
