import BipartiteBatch.Proofs.Lines
import Mathlib.Algebra.GroupWithZero.Nat
import Mathlib.Data.List.TakeDrop

/-!
# Calls over a text

A text is read by calls one after the other, each for records of one kind or the other. A call reads the
lines that come next and stops right after the line of the last record it may take, or at the end. So the
lines of all calls are the lines of the text, and where all calls are for one kind their records are those
of the text, however many each call may take.

* `LineReader.Call` : a call, `LineReader.Call.read`, `LineReader.Call.records` : the lines and the records
  that it takes;
* `LineReader.Call.Exact` : a call that takes the next lines as it should, `LineReader.Call.exact` : calls
  over a text do;
* `LineReader.afterCalls`, `LineReader.readBy`, `LineReader.malformedBy` : what calls leave, read and skip;
* `LineReader.recordsBy` : the records of calls for one kind, one batch after the other;
* `LineReader.batches_exact` : the calls over a text.
-/

namespace BipartiteBatch

namespace LineReader

/-! ## Calls -/

/-- A call for records of a kind, and how many it may take. -/
structure Call where
  ρ : Type
  [record : Record ρ]
  count : Nat

attribute [instance] Call.record

namespace Call

/-- The call may take a record, and there is room for as many as it may take. -/
structure Allowed (c : Call) : Prop where
  pos : 0 < c.count
  fits : fits c.count (Record.width c.ρ)

def result (c : Call) (r : LineReader) : Except Failure (Option (List c.ρ)) := (r.next c.ρ c.count).1

def after (c : Call) (r : LineReader) : LineReader := (r.next c.ρ c.count).2.1

/-- The lines that the call reads: those that are left before it and not after it. -/
def read (c : Call) (r : LineReader) : List Line :=
  r.left.take (r.left.length - (c.after r).left.length)

def records (c : Call) (r : LineReader) : List c.ρ := (c.read r).filterMap (Line.record? c.ρ)

/-- A call gives the records of the lines it reads, if there are any. It leaves the lines after them, and
stops as soon as it has all records that it may take. -/
structure Exact (c : Call) (r : LineReader) : Prop where
  left_eq : c.read r ++ (c.after r).left = r.left
  lines_eq : (c.after r).lines = r.lines + (c.read r).length
  skipped_eq : (c.after r).skipped = r.skipped + (c.read r).countP (Line.isMalformed c.ρ)
  result_eq : c.result r = .ok (if (c.records r).isEmpty then none else some (c.records r))
  stops : Stops c.ρ c.count (c.read r) (c.after r)

variable {c : Call} {r : LineReader}

/-- Calls over lines that can be read are exact. -/
theorem exact (hallowed : c.Allowed) (hreadable : r.Readable) : c.Exact r := by
  obtain ⟨read, hreads, hskipped, hresult⟩ := collect_reads c.count ([] : List c.ρ) [] r
  obtain ⟨r', events, hnext, -⟩ :=
    next_of_pending (ρ := c.ρ) hreadable.pending hallowed.pos hallowed.fits
  rw [next_of_fits hallowed.fits] at hnext
  have hafter : c.after r = (collect c.count ([] : List c.ρ) [] r).reader := by
    rw [after, next_of_fits hallowed.fits]
  have hread : c.read r = read := by rw [Call.read, hafter, hreads.eq_take]
  have hgiven : c.result r = (collect c.count ([] : List c.ρ) [] r).outcome := by
    rw [result, next_of_fits hallowed.fits]
  -- the lines can be read, so that the searches have ended with some records
  obtain ⟨records, hrecords⟩ : ∃ records,
      (collect c.count ([] : List c.ρ) [] r).result = .ok records := by
    have houtcome := (Prod.mk.inj hnext).1
    unfold Step.outcome at houtcome
    cases hstep : (collect c.count ([] : List c.ρ) [] r).result with
    | ok records => exact ⟨records, rfl⟩
    | error fault =>
      rw [hstep] at houtcome
      cases houtcome
  obtain ⟨hall, hstops⟩ := hresult records hrecords
  refine ⟨?_, ?_, ?_, ?_, ?_⟩
  · rw [hread, hafter, hreads.left_eq]
  · rw [hread, hafter, hreads.lines_eq_length hreadable]
  · rw [hread, hafter, hskipped]
  · have hrecords' : c.records r = records := by
      rw [Call.records, hread, hall]
      rfl
    rw [hgiven, Step.outcome, hrecords, hrecords']
    cases records with
    | nil => rfl
    | cons x records => rfl
  · rw [hread, hafter]
    exact hstops

theorem Exact.reads (h : c.Exact r) (hreadable : r.Readable) : Reads (c.read r) r (c.after r) where
  left_eq := h.left_eq
  lines_eq := by rw [h.lines_eq, hreadable.countP_isOk h.left_eq]

theorem Exact.result_eq_none (h : c.Exact r) : c.result r = .ok none ↔ c.records r = [] := by
  rw [h.result_eq]
  cases c.records r with
  | nil => exact iff_of_true rfl rfl
  | cons x records => exact iff_of_false nofun nofun

/-- A call without records has closed the input. -/
theorem Exact.closed (h : c.Exact r) (hpos : 0 < c.count) (hnone : c.result r = .ok none) :
    (c.after r).rest = none := by
  refine (h.stops.resolve_left fun ⟨hcount, _⟩ => ?_).2
  rw [show (c.read r).filterMap (Line.record? c.ρ) = [] from h.result_eq_none.1 hnone] at hcount
  exact absurd hcount (Nat.ne_of_lt hpos)

/-- A call gives none if and only if there is no record of its kind in the lines that are left. -/
theorem Exact.result_eq_none_iff_left (h : c.Exact r) (hpos : 0 < c.count) :
    c.result r = .ok none ↔ r.left.filterMap (Line.record? c.ρ) = [] := by
  constructor
  · intro hnone
    have hleft : (c.after r).left = [] := by rw [left, h.closed hpos hnone]; rfl
    have hall := h.left_eq
    rw [hleft, List.append_nil] at hall
    rw [← hall]
    exact h.result_eq_none.1 hnone
  · intro hnone
    rw [← h.left_eq, List.filterMap_append] at hnone
    exact h.result_eq_none.2 (List.append_eq_nil_iff.1 hnone).1

end Call

/-! ## Sequences of calls -/

def afterCalls (calls : List Call) (r : LineReader) : LineReader :=
  calls.foldl (fun r c => c.after r) r

def readBy : List Call → LineReader → List Line
  | [], _ => []
  | c :: calls, r => c.read r ++ readBy calls (c.after r)

/-- How many of these lines were malformed for the call that read them. -/
def malformedBy : List Call → LineReader → Nat
  | [], _ => 0
  | c :: calls, r => (c.read r).countP (Line.isMalformed c.ρ) + malformedBy calls (c.after r)

/-- Calls read one part of the lines after the other. -/
theorem reads_calls {calls : List Call} (hcalls : ∀ c ∈ calls, c.Allowed) {r : LineReader}
    (hreadable : r.Readable) : Reads (readBy calls r) r (afterCalls calls r)
      ∧ (afterCalls calls r).skipped = r.skipped + malformedBy calls r := by
  induction calls generalizing r with
  | nil => exact ⟨.refl r, rfl⟩
  | cons c calls ih =>
    rw [List.forall_mem_cons] at hcalls
    have hexact := Call.exact hcalls.1 hreadable
    have hreads := hexact.reads hreadable
    obtain ⟨hmore, hskipped⟩ := ih hcalls.2 (hreads.readable hreadable)
    refine ⟨hreads.trans hmore, ?_⟩
    show (afterCalls calls (c.after r)).skipped = _
    rw [hskipped, hexact.skipped_eq, malformedBy, Nat.add_assoc]

theorem afterCalls_of_closed {calls : List Call} (hcalls : ∀ c ∈ calls, c.Allowed) {r : LineReader}
    (hclosed : r.rest = none) : afterCalls calls r = r := by
  induction calls with
  | nil => rfl
  | cons c calls ih =>
    rw [List.forall_mem_cons] at hcalls
    have hafter : c.after r = r := by rw [Call.after, next_of_closed hclosed hcalls.1.fits]
    show afterCalls calls (c.after r) = r
    rw [hafter, ih hcalls.2]

theorem Call.result_of_closed {c : Call} (hallowed : c.Allowed) {r : LineReader}
    (hclosed : r.rest = none) : c.result r = .ok none := by
  rw [result, next_of_closed hclosed hallowed.fits]

/-! ## Calls for one kind -/

section OneKind
variable (ρ : Type) [Record ρ]

def given {ρ : Type} : Except Failure (Option (List ρ)) → List ρ
  | .ok (some records) => records
  | _ => []

/-- The records that calls for these numbers of them give, one batch after the other. -/
def recordsBy : (counts : List Nat) → LineReader → List ρ
  | [], _ => []
  | count :: counts, r => given (r.next ρ count).1 ++ recordsBy counts (r.next ρ count).2.1

def callsFor (counts : List Nat) : List Call := counts.map fun count => { ρ, count }

variable {ρ}

/-- Calls for one kind take the first records of those that are left. -/
theorem recordsBy_of_pending {counts : List Nat} (hcounts : ∀ c ∈ callsFor ρ counts, c.Allowed)
    {r : LineReader} {records : List ρ} (h : r.Pending records) :
    recordsBy ρ counts r = records.take counts.sum
      ∧ (afterCalls (callsFor ρ counts) r).Pending (records.drop counts.sum) := by
  induction counts generalizing r records with
  | nil => exact ⟨(List.take_zero (l := records)).symm, h⟩
  | cons count counts ih =>
    obtain ⟨hcount, hcounts⟩ := List.forall_mem_cons.1 hcounts
    obtain ⟨r', events, hnext, hpending⟩ := next_of_pending h hcount.pos hcount.fits
    obtain ⟨hrecords, hleft⟩ := ih hcounts hpending
    have hgiven : given (r.next ρ count).1 = records.take count := by
      rw [show r.next ρ count = _ from hnext]
      cases records with
      | nil => exact List.take_nil.symm
      | cons x records => rfl
    have hafter : (r.next ρ count).2.1 = r' := by rw [show r.next ρ count = _ from hnext]
    rw [List.sum_cons]
    constructor
    · rw [recordsBy, hgiven, hafter, hrecords, List.take_add]
    · show (afterCalls (callsFor ρ counts) (r.next ρ count).2.1).Pending _
      rw [hafter, ← List.drop_drop]
      exact hleft

end OneKind

/-! ## Calls over a text -/

theorem readBy_text (text : String) {calls : List Call} (hcalls : ∀ c ∈ calls, c.Allowed) :
    Reads (readBy calls (ofBytes text.toByteArray)) (ofBytes text.toByteArray)
        (afterCalls calls (ofBytes text.toByteArray))
      ∧ (afterCalls calls (ofBytes text.toByteArray)).Readable
      ∧ (afterCalls calls (ofBytes text.toByteArray)).skipped
        = malformedBy calls (ofBytes text.toByteArray) := by
  have hreadable := readable_ofBytes text
  obtain ⟨hreads, hskipped⟩ := reads_calls hcalls hreadable
  refine ⟨hreads, hreads.readable hreadable, ?_⟩
  rw [hskipped]
  exact Nat.zero_add _

/-- A text is read by calls for records of any kinds. Together they read its lines from the first one on,
and they count those that are malformed for their call. Each further call gives the records of the next
lines and stops right after the last one that it may take, or at the end; it gives none if and only if no
line that is left holds one, and then the input is closed and no later call gives any. Calls for one kind
give the records of the text from the first one on, as many as they may take in all; a further call for it
gives none if and only if they have given all. -/
theorem batches_exact (text : String) :
    (∀ (calls : List Call) (r : LineReader), (∀ c ∈ calls, c.Allowed) →
      r = afterCalls calls (ofBytes text.toByteArray) →
      readBy calls (ofBytes text.toByteArray) ++ r.left = Line.ofText text
      ∧ r.lines = (readBy calls (ofBytes text.toByteArray)).length
      ∧ r.skipped = malformedBy calls (ofBytes text.toByteArray)
      ∧ ∀ c : Call, c.Allowed → c.Exact r
        ∧ (c.result r = .ok none ↔ r.left.filterMap (Line.record? c.ρ) = [])
        ∧ (c.result r = .ok none → ∀ later : List Call, (∀ d ∈ later, d.Allowed) →
          (afterCalls later (c.after r)).rest = none
          ∧ ∀ d : Call, d.Allowed → d.result (afterCalls later (c.after r)) = .ok none))
    ∧ ∀ (ρ : Type) [Record ρ] (counts : List Nat), (∀ c ∈ callsFor ρ counts, c.Allowed) →
      recordsBy ρ counts (ofBytes text.toByteArray) = (recordsOfText ρ text).take counts.sum
      ∧ ∀ count : Nat, Call.Allowed { ρ, count } →
        (Call.result { ρ, count } (afterCalls (callsFor ρ counts) (ofBytes text.toByteArray)) = .ok none
          ↔ recordsBy ρ counts (ofBytes text.toByteArray) = recordsOfText ρ text) := by
  constructor
  · rintro calls r hcalls rfl
    obtain ⟨hreads, hreadable, hskipped⟩ := readBy_text text hcalls
    refine ⟨?_, ?_, hskipped, fun c hallowed => ?_⟩
    · rw [hreads.left_eq, ← Line.ofBytes_toByteArray]
      rfl
    · rw [hreads.lines_eq_length (readable_ofBytes text)]
      exact Nat.zero_add _
    have hexact := Call.exact hallowed hreadable
    refine ⟨hexact, hexact.result_eq_none_iff_left hallowed.pos, fun hnone later hlater => ?_⟩
    -- a call that gives none has closed the input, and later calls leave it closed
    have hclosed := hexact.closed hallowed.pos hnone
    rw [afterCalls_of_closed hlater hclosed]
    exact ⟨hclosed, fun d hd => Call.result_of_closed hd hclosed⟩
  · intro ρ _ counts hcounts
    obtain ⟨htaken, hpending⟩ := recordsBy_of_pending hcounts (pending_ofBytes (ρ := ρ) text)
    refine ⟨htaken, fun count hallowed => ?_⟩
    obtain ⟨r', events, hnext, -⟩ := next_of_pending hpending hallowed.pos hallowed.fits
    rw [htaken, List.take_eq_self_iff, ← List.drop_eq_nil_iff, Call.result,
      show next ρ count _ = _ from hnext]
    cases (recordsOfText ρ text).drop counts.sum with
    | nil => exact iff_of_true rfl rfl
    | cons x records => exact iff_of_false nofun nofun

/-- Edges, nodes and what is neither; the last line has no line feed. -/
def mixedText : String := "1 2\n# c\n\nx\n3 4\n5\n6 7"

/-- One edge, one node past a comment, a blank line and a malformed one, and then all edges. -/
def mixedCalls : List Call := [⟨EdgeRecord, 1⟩, ⟨NodeRecord, 1⟩, ⟨EdgeRecord, 5⟩]

theorem batches_exact_mixedText :
    (afterCalls mixedCalls (ofBytes mixedText.toByteArray)).lines = 7
      ∧ (afterCalls mixedCalls (ofBytes mixedText.toByteArray)).skipped = 2
      ∧ (afterCalls mixedCalls (ofBytes mixedText.toByteArray)).rest = none
      ∧ Call.result ⟨NodeRecord, 4⟩ (afterCalls mixedCalls (ofBytes mixedText.toByteArray)) = .ok none
      ∧ recordsBy NodeRecord [1, 4] (ofBytes mixedText.toByteArray) = [⟨1⟩, ⟨3⟩, ⟨5⟩, ⟨6⟩] := by
  have hinput : ofBytes mixedText.toByteArray
      = ofLines [.ok "1 2", .ok "# c", .ok "", .ok "x", .ok "3 4", .ok "5", .ok "6 7"] := by
    rw [ofBytes, Line.ofBytes_toByteArray]
    rfl
  have hcalls : ∀ c ∈ mixedCalls, c.Allowed := by
    unfold mixedCalls
    simp only [List.forall_mem_cons]
    exact ⟨⟨by decide, by decide⟩, ⟨by decide, by decide⟩, ⟨by decide, by decide⟩, nofun⟩
  have hfour : Call.Allowed ⟨NodeRecord, 4⟩ := ⟨by decide, by decide⟩
  have hcounts : ∀ c ∈ callsFor NodeRecord [1, 4], c.Allowed := by
    unfold callsFor
    simp only [List.map_cons, List.forall_mem_cons]
    exact ⟨⟨by decide, by decide⟩, hfour, nofun⟩
  obtain ⟨hall, hlines, hskipped, hnext⟩ := (batches_exact mixedText).1 mixedCalls _ hcalls rfl
  have hrecords := ((batches_exact mixedText).2 NodeRecord [1, 4] hcounts).1
  have hleft : (afterCalls mixedCalls (ofBytes mixedText.toByteArray)).left = [] := by
    rw [hinput]
    rfl
  have hnone := ((hnext ⟨NodeRecord, 4⟩ hfour).2.1).2 (by rw [hleft]; rfl)
  refine ⟨?_, ?_, ?_, hnone, ?_⟩
  · rw [hlines, hinput]
    rfl
  · rw [hskipped, hinput]
    rfl
  · rw [hinput]
    rfl
  · rw [hrecords]
    rfl

end LineReader

end BipartiteBatch
