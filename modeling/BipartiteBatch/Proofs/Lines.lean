import BipartiteBatch.Proofs.Input

/-!
# The lines that calls read

Whatever bytes an input has, a call reads some of the lines that are left and leaves the lines after
them. It counts those of them that have a text, and the records it gives are the records they hold. If it
gives none, no record is left, and the input is closed; nothing is read from a closed input.

* `LineReader.left` : the lines that are left, `LineReader.Reads` : what was read between two places;
* `LineReader.Readable` : lines that can be read, `LineReader.Sought`, `LineReader.Stops` : how searching
  goes and where it stops;
* `LineReader.seek_reads`, `LineReader.collect_reads` : what a search and a sequence of searches read;
* `LineReader.next_reads` : what a call reads, `LineReader.next_of_closed` : calls after the end;
* `LineReader.forall_mem_next_events` : the events of a call.
-/

namespace BipartiteBatch

def Found.records {ρ : Type} : Found ρ → List ρ
  | .record x => [x]
  | .ended => []
  | .unreadable _ => []

namespace LineReader

def left (r : LineReader) : List Line := r.rest.getD []

/-- From one place to a later one these lines were read, and those with a text were counted. -/
structure Reads (read : List Line) (r r' : LineReader) : Prop where
  left_eq : read ++ r'.left = r.left
  lines_eq : r'.lines = r.lines + read.countP Except.isOk

theorem Reads.refl (r : LineReader) : Reads [] r r := ⟨rfl, rfl⟩

theorem Reads.trans {read more : List Line} {r r' r'' : LineReader} (h : Reads read r r')
    (h' : Reads more r' r'') : Reads (read ++ more) r r'' where
  left_eq := by rw [List.append_assoc, h'.left_eq, h.left_eq]
  lines_eq := by rw [h'.lines_eq, h.lines_eq, List.countP_append, Nat.add_assoc]

/-- A line with a text is counted, whether or not it holds a record. -/
theorem Reads.cons_ok {read lines : List Line} {r : LineReader} {n skipped skipped' : Nat}
    (text : String) (h : Reads read ⟨some lines, n + 1, skipped'⟩ r) :
    Reads (.ok text :: read) ⟨some (.ok text :: lines), n, skipped⟩ r where
  left_eq := by
    rw [List.cons_append, h.left_eq]
    rfl
  lines_eq := by
    rw [h.lines_eq, List.countP_cons_of_pos rfl]
    dsimp only
    omega

/-! ## Lines that can be read -/

def Readable (r : LineReader) : Prop := ∀ line ∈ r.left, ∃ text, line = Except.ok text

theorem readable_ofBytes (text : String) : (ofBytes text.toByteArray).Readable := by
  intro line hline
  have hall : line ∈ Line.ofText text := by rwa [← Line.ofBytes_toByteArray]
  exact Line.readable_ofText line hall

section Readable
variable {read : List Line} {r r' : LineReader}

theorem Reads.readable (h : Reads read r r') (hreadable : r.Readable) : r'.Readable := by
  intro line hline
  apply hreadable
  rw [← h.left_eq]
  exact List.mem_append_right _ hline

theorem Readable.countP_isOk (h : r.Readable) {rest : List Line} (hleft : read ++ rest = r.left) :
    read.countP Except.isOk = read.length := by
  rw [List.countP_eq_length]
  intro line hline
  obtain ⟨text, rfl⟩ := h line (by rw [← hleft]; exact List.mem_append_left _ hline)
  rfl

/-- Each line that can be read is counted. -/
theorem Reads.lines_eq_length (h : Reads read r r') (hreadable : r.Readable) :
    r'.lines = r.lines + read.length := by
  rw [h.lines_eq, hreadable.countP_isOk h.left_eq]

/-- The lines read are those that are left before and not after. -/
theorem Reads.eq_take (h : Reads read r r') :
    r.left.take (r.left.length - r'.left.length) = read := by
  rw [← h.left_eq, List.length_append, Nat.add_sub_cancel, List.take_left]

variable {ρ : Type} [Record ρ]

theorem Readable.pending (h : r.Readable) : r.Pending (r.left.filterMap (Line.record? ρ)) where
  readable := by
    intro lines hlines line hline
    apply h
    rw [left, Option.mem_def.1 hlines]
    exact hline
  records_eq := rfl

theorem Reads.pending {text : String} (h : Reads read (ofBytes text.toByteArray) r) :
    r.Pending (r.left.filterMap (Line.record? ρ)) :=
  (h.readable (readable_ofBytes text)).pending

end Readable

variable {ρ : Type} [Record ρ]

/-! ## Searching -/

/-- Over these lines a search found this, if anything, and it counted the malformed ones. -/
structure Sought (read : List Line) (r : LineReader) (found : Found ρ) (r' : LineReader) : Prop where
  reads : Reads read r r'
  skipped_eq : r'.skipped = r.skipped + read.countP (Line.isMalformed ρ)
  records_eq : read.filterMap (Line.record? ρ) = found.records
  last : ∀ x, found = .record x → ∃ line, read.getLast? = some line ∧ Line.record? ρ line = some x
  closed : found = .ended → r'.rest = none

theorem Sought.cons {read lines : List Line} {found : Found ρ} {r : LineReader} {text : String}
    {n skipped skipped' : Nat} (hnone : Line.record? ρ (.ok text) = none)
    (hskipped : skipped' = skipped + [Except.ok text].countP (Line.isMalformed ρ))
    (h : Sought read ⟨some lines, n + 1, skipped'⟩ found r) :
    Sought (.ok text :: read) ⟨some (.ok text :: lines), n, skipped⟩ found r where
  reads := h.reads.cons_ok text
  skipped_eq := by
    rw [h.skipped_eq, hskipped, ← List.singleton_append (l := read), List.countP_append, Nat.add_assoc]
  records_eq := by rw [List.filterMap_cons_none hnone, h.records_eq]
  last := by
    intro x hx
    obtain ⟨line, hlast, hline⟩ := h.last x hx
    exact ⟨line, by rw [List.getLast?_cons, hlast]; rfl, hline⟩
  closed := h.closed

/-- A search reads lines without records and then, if it finds one, the line of the record. -/
theorem seek_reads (n skipped : Nat) (events : List Event) (lines : List Line) :
    ∃ read, Sought read ⟨some lines, n, skipped⟩ (seek (ρ := ρ) n skipped events lines).1
      (seek (ρ := ρ) n skipped events lines).2.1 := by
  -- a line without a record is read, and counted if it is malformed, before the search goes on
  induction lines generalizing n skipped events with
  | nil =>
    refine ⟨[], ⟨rfl, rfl⟩, rfl, rfl, ?_, fun _ => rfl⟩
    rintro _ ⟨⟩
  | cons line lines ih =>
    cases line with
    | error fault =>
      refine ⟨[.error fault], ⟨rfl, rfl⟩, rfl, rfl, ?_, ?_⟩
      · rintro _ ⟨⟩
      · rintro ⟨⟩
    | ok text =>
      unfold seek
      cases hline : (Reading.ofLine text : Reading ρ) with
      | record x =>
        have hrecord : Line.record? ρ (.ok text) = some x := Line.record?_ok.2 hline
        have hnot : ¬ Line.isMalformed ρ (.ok text) = true := by simp [Line.isMalformed_ok, hline]
        refine ⟨[.ok text], .cons_ok text (.refl _), ?_, List.filterMap_cons_some hrecord, ?_, ?_⟩
        · rw [List.countP_singleton, if_neg hnot]
          rfl
        · rintro _ ⟨⟩
          exact ⟨_, rfl, hrecord⟩
        · rintro ⟨⟩
      | ignored =>
        obtain ⟨read, hsought⟩ := ih (n + 1) skipped events
        have hnot : ¬ Line.isMalformed ρ (.ok text) = true := by simp [Line.isMalformed_ok, hline]
        refine ⟨.ok text :: read, .cons (Line.record?_eq_none (by simp [hline])) ?_ hsought⟩
        rw [List.countP_singleton, if_neg hnot]
        rfl
      | malformed fault =>
        obtain ⟨read, hsought⟩ := ih (n + 1) (skipped + 1) (.lineSkipped (n + 1) fault :: events)
        refine ⟨.ok text :: read, .cons (Line.record?_eq_none (by simp [hline])) ?_ hsought⟩
        rw [List.countP_singleton, if_pos (Line.isMalformed_ok.2 ⟨fault, hline⟩)]

/-- Reading stopped right after the line of the last record wanted, or at the end of the input with fewer
records than that. -/
def Stops (ρ : Type) [Record ρ] (wanted : Nat) (read : List Line) (r : LineReader) : Prop :=
  (read.filterMap (Line.record? ρ)).length = wanted
      ∧ (∀ line ∈ read.getLast?, ∃ x, Line.record? ρ line = some x)
    ∨ (read.filterMap (Line.record? ρ)).length < wanted ∧ r.rest = none

theorem Stops.append {read more : List Line} {wanted : Nat} {r r' r'' : LineReader} {x : ρ}
    (h : Sought read r (.record x) r') (hstops : Stops ρ wanted more r'') :
    Stops ρ (wanted + 1) (read ++ more) r'' := by
  have hlength : ((read ++ more).filterMap (Line.record? ρ)).length
      = (more.filterMap (Line.record? ρ)).length + 1 := by
    rw [List.filterMap_append, h.records_eq]
    rfl
  unfold Stops
  rw [hlength]
  refine hstops.imp (fun ⟨hcount, hlast⟩ => ⟨congrArg (· + 1) hcount, ?_⟩)
    (fun ⟨hcount, hclosed⟩ => ⟨Nat.succ_lt_succ hcount, hclosed⟩)
  obtain ⟨line, hline, hrecord⟩ := h.last x rfl
  rw [List.getLast?_append, hline]
  cases hmore : more.getLast? with
  | none =>
    rintro _ ⟨⟩
    exact ⟨x, hrecord⟩
  | some last =>
    rintro _ ⟨⟩
    exact hlast last hmore

/-- Repeated searches take the records of the lines they read, until they have as many as are wanted or
the input is closed, and count the malformed lines. -/
theorem collect_reads (wanted : Nat) (taken : List ρ) (events : List Event) (r : LineReader) :
    ∃ read, Reads read r (collect wanted taken events r).reader
      ∧ (collect wanted taken events r).reader.skipped
        = r.skipped + read.countP (Line.isMalformed ρ)
      ∧ ∀ records, (collect wanted taken events r).result = .ok records →
        records = taken.reverse ++ read.filterMap (Line.record? ρ)
          ∧ Stops ρ wanted read (collect wanted taken events r).reader := by
  -- on what is still wanted: each search reads on where the one before it stopped
  induction wanted generalizing taken events r with
  | zero =>
    refine ⟨[], ?_, ?_, ?_⟩
    · unfold collect
      exact .refl r
    · unfold collect
      rfl
    · unfold collect
      rintro _ ⟨⟩
      exact ⟨(List.append_nil _).symm, .inl ⟨rfl, fun _ h => absurd h (Option.not_mem_none _)⟩⟩
  | succ wanted ih =>
    cases hrest : r.rest with
    | none =>
      unfold collect
      rw [hrest]
      refine ⟨[], .refl r, rfl, ?_⟩
      rintro _ ⟨⟩
      exact ⟨(List.append_nil _).symm, .inr ⟨Nat.succ_pos wanted, hrest⟩⟩
    | some lines =>
      obtain ⟨read, hsought⟩ := seek_reads (ρ := ρ) r.lines r.skipped events lines
      have hr : (⟨some lines, r.lines, r.skipped⟩ : LineReader) = r := by rw [← hrest]
      rw [hr] at hsought
      unfold collect
      rw [hrest]
      dsimp only
      generalize seek (ρ := ρ) r.lines r.skipped events lines = sought at hsought
      obtain ⟨found, r', events'⟩ := sought
      have hrecords := hsought.records_eq
      cases found with
      | record x =>
        obtain ⟨more, hmore, hskipped, hresult⟩ := ih (x :: taken) events' r'
        refine ⟨read ++ more, hsought.reads.trans hmore, ?_, fun records h => ?_⟩
        · rw [hskipped, hsought.skipped_eq, List.countP_append, Nat.add_assoc]
        · obtain ⟨hall, hstops⟩ := hresult records h
          refine ⟨?_, .append hsought hstops⟩
          rw [hall, List.filterMap_append, hrecords, List.reverse_cons, List.append_assoc]
          rfl
      | ended =>
        refine ⟨read, hsought.reads, hsought.skipped_eq, ?_⟩
        rintro _ ⟨⟩
        refine ⟨?_, .inr ⟨?_, hsought.closed rfl⟩⟩
        · rw [hrecords]
          exact (List.append_nil _).symm
        · rw [hrecords]
          exact Nat.succ_pos wanted
      | unreadable fault =>
        refine ⟨read, hsought.reads, hsought.skipped_eq, ?_⟩
        rintro _ ⟨⟩

/-! ## Calls -/

/-- What a call gives for what its searches found: no list if there are no records. -/
def Step.outcome (step : Step ρ) : Except Failure (Option (List ρ)) :=
  match step.result with
  | .ok [] => .ok none
  | .ok records => .ok (some records)
  | .error fault => .error (.error (.read fault))

theorem next_of_fits {count : Nat} (h : fits count (Record.width ρ)) (r : LineReader) :
    next ρ count r = ((collect count ([] : List ρ) [] r).outcome,
      (collect count ([] : List ρ) [] r).reader, (collect count ([] : List ρ) [] r).events) := by
  unfold next Step.outcome
  rw [if_pos h]
  dsimp only
  rcases (collect count ([] : List ρ) [] r).result with _ | _ | ⟨x, records⟩
  · rfl
  · rfl
  · rfl

theorem next_of_not_fits {count : Nat} (h : ¬ fits count (Record.width ρ)) (r : LineReader) :
    next ρ count r = (.error (.abort (.capacity count)), r, []) := by
  unfold next
  rw [if_neg h]

omit [Record ρ] in
theorem Step.outcome_eq_some {step : Step ρ} {records : List ρ}
    (h : step.outcome = .ok (some records)) : step.result = .ok records ∧ records ≠ [] := by
  obtain ⟨_ | _ | ⟨x, taken⟩, r, events⟩ := step
  · cases h
  · cases h
  · obtain rfl := Option.some.inj (Except.ok.inj h)
    exact ⟨rfl, List.cons_ne_nil _ _⟩

omit [Record ρ] in
theorem Step.outcome_eq_none {step : Step ρ} (h : step.outcome = .ok none) : step.result = .ok [] := by
  obtain ⟨_ | _ | ⟨x, taken⟩, r, events⟩ := step
  · cases h
  · rfl
  · cases h

theorem next_reads {count : Nat} {r r' : LineReader} {events : List Event}
    {result : Except Failure (Option (List ρ))} (h : next ρ count r = (result, r', events)) :
    ∃ read, Reads read r r'
      ∧ (∀ records, result = .ok (some records) →
        records = read.filterMap (Line.record? ρ) ∧ records ≠ [])
      ∧ (result = .ok none → read.filterMap (Line.record? ρ) = [] ∧ (0 < count → r'.rest = none)) := by
  by_cases hfits : fits count (Record.width ρ)
  · rw [next_of_fits hfits] at h
    cases h
    obtain ⟨read, hreads, -, hresult⟩ := collect_reads count ([] : List ρ) [] r
    refine ⟨read, hreads, fun records h => ?_, fun h => ?_⟩
    · obtain ⟨hrecords, hne⟩ := Step.outcome_eq_some h
      exact ⟨(hresult records hrecords).1, hne⟩
    · obtain ⟨hnone, hstops⟩ := hresult [] (Step.outcome_eq_none h)
      refine ⟨hnone.symm, fun hpos => (hstops.resolve_left fun ⟨hzero, _⟩ => ?_).2⟩
      have hnil : read.filterMap (Line.record? ρ) = [] := hnone.symm
      rw [hnil] at hzero
      exact absurd hzero (Nat.ne_of_lt hpos)
  · rw [next_of_not_fits hfits] at h
    cases h
    exact ⟨[], .refl r, nofun, nofun⟩

/-- A call that gives records has read a line. -/
theorem length_left_of_next {count : Nat} {r r' : LineReader} {events : List Event} {records : List ρ}
    (h : next ρ count r = (.ok (some records), r', events)) : r'.left.length < r.left.length := by
  obtain ⟨read, hreads, hrecords, -⟩ := next_reads h
  obtain ⟨rfl, hsome⟩ := hrecords records rfl
  have hread : read ≠ [] := by
    rintro rfl
    exact hsome rfl
  rw [← hreads.left_eq, List.length_append]
  have hpos := List.length_pos_of_ne_nil hread
  omega

theorem next_of_closed {r : LineReader} (h : r.rest = none) {count : Nat}
    (hfits : fits count (Record.width ρ)) : next ρ count r = (.ok none, r, []) := by
  have hcollect : collect count ([] : List ρ) [] r = ⟨.ok [], r, []⟩ := by
    unfold collect
    rw [h]
    cases count <;> rfl
  rw [next_of_fits hfits, hcollect]
  rfl

theorem fits_of_next_eq_ok {count : Nat} {r r' : LineReader} {events : List Event}
    {records : Option (List ρ)} (h : next ρ count r = (.ok records, r', events)) :
    fits count (Record.width ρ) := by
  by_contra hfits
  rw [next_of_not_fits hfits] at h
  cases h

theorem close_of_closed {r : LineReader} (h : r.rest = none) : r.close = (r, []) := by
  unfold close isOpen
  rw [h]
  rfl

/-! ## Events -/

section Events
variable {P : Event → Prop} (hclosed : ∀ lines skipped, P (.inputClosed lines skipped))
  (hskipped : ∀ line fault, P (.lineSkipped line fault))

include hclosed hskipped

theorem forall_mem_seek_events (n skipped : Nat) {events : List Event} (h : ∀ e ∈ events, P e)
    (lines : List Line) : ∀ e ∈ (seek (ρ := ρ) n skipped events lines).2.2, P e := by
  induction lines generalizing n skipped events with
  | nil => exact List.forall_mem_cons.2 ⟨hclosed n skipped, h⟩
  | cons line lines ih =>
    cases line with
    | error fault => exact h
    | ok text =>
      unfold seek
      cases (Reading.ofLine text : Reading ρ) with
      | record x => exact h
      | ignored => exact ih (n + 1) skipped h
      | malformed fault =>
        exact ih (n + 1) (skipped + 1) (List.forall_mem_cons.2 ⟨hskipped (n + 1) fault, h⟩)

theorem forall_mem_collect_events (wanted : Nat) (taken : List ρ) {events : List Event}
    (h : ∀ e ∈ events, P e) (r : LineReader) :
    ∀ e ∈ (collect wanted taken events r).events, P e := by
  have hreverse : ∀ {events : List Event}, (∀ e ∈ events, P e) → ∀ e ∈ events.reverse, P e :=
    fun h e he => h e (List.mem_reverse.1 he)
  induction wanted generalizing taken events r with
  | zero =>
    unfold collect
    exact hreverse h
  | succ wanted ih =>
    unfold collect
    cases r.rest with
    | none => exact hreverse h
    | some lines =>
      have hseek := forall_mem_seek_events (ρ := ρ) hclosed hskipped r.lines r.skipped h lines
      dsimp only
      generalize seek (ρ := ρ) r.lines r.skipped events lines = sought at hseek
      obtain ⟨found, r', events'⟩ := sought
      cases found with
      | record x => exact ih (x :: taken) hseek r'
      | ended => exact hreverse hseek
      | unreadable fault => exact hreverse hseek

/-- A call tells of malformed lines and of the end of the input, and of nothing else. -/
theorem forall_mem_next_events {count : Nat} {r r' : LineReader} {events : List Event}
    {result : Except Failure (Option (List ρ))} (h : next ρ count r = (result, r', events)) :
    ∀ e ∈ events, P e := by
  by_cases hfits : fits count (Record.width ρ)
  · rw [next_of_fits hfits] at h
    cases h
    exact forall_mem_collect_events hclosed hskipped count [] (List.forall_mem_nil P) r
  · rw [next_of_not_fits hfits] at h
    cases h
    exact nofun

end Events

end LineReader

end BipartiteBatch
