import BipartiteBatch.Proofs.Options

/-!
# Options of a text

Each item of a text is an assignment of a value to an option, or is refused, whatever the configuration is.
A text makes the assignments of its items one after the other, up to the first item that is refused. If none
is, each option has the value of its last assignment. So the order matters only between assignments to one
option, a text that is applied twice does what it does once, and texts with a semicolon between them are
applied one after the other.

* `Assignment.ofItem` : the assignment of an item;
* `Config.assigned` : a configuration with assignments, `LastWins` : the values it has;
* `Config.applyItems_cons` : an item is a change in place, `Config.Applies` : how far items are applied;
* `Config.applyItems_append_eq`, `Config.applyItems_swap` : items one part after the other, and exchanged;
* `Config.apply_lastWins` : the options of a text.
-/

namespace BipartiteBatch

open Text

/-! ## Assignments -/

namespace Assignment

def ofItem (item : String) : Except ConfigError Assignment := do
  let (key, given) ← Config.splitItem item
  ofKey key given

variable {item key given : String} {a : Assignment}

theorem ofItem_of_split (h : Config.splitItem item = .ok (key, given)) : ofItem item = ofKey key given := by
  rw [ofItem, h]
  rfl

theorem ofItem_eq_ok : ofItem item = .ok a
    ↔ ∃ given, Config.splitItem item = .ok (a.setting.key, given) ∧ a.setting.read given = .ok a.value := by
  constructor
  · intro h
    obtain ⟨⟨key, given⟩, hsplit, hassigned⟩ := except_bind_eq_ok.1 h
    obtain ⟨rfl, hread⟩ := ofKey_eq_ok.1 hassigned
    exact ⟨given, hsplit, hread⟩
  · rintro ⟨given, hsplit, hread⟩
    rw [ofItem_of_split hsplit, ofKey_eq_ok]
    exact ⟨rfl, hread⟩

theorem key_eq_of_ofItem (h : ofItem item = .ok a) (hsplit : Config.splitItem item = .ok (key, given)) :
    a.setting.key = key := by
  rw [ofItem_of_split hsplit] at h
  exact (ofKey_eq_ok.1 h).1

end Assignment

/-- Items make these assignments, one each. -/
def Assigns (items : List String) (assignments : List Assignment) : Prop :=
  List.Forall₂ (fun item a => Assignment.ofItem item = .ok a) items assignments

theorem Assigns.exists_of_mem {items : List String} {assignments : List Assignment}
    (h : Assigns items assignments) : ∀ item ∈ items, ∃ a, Assignment.ofItem item = .ok a :=
  forall_ok_of_mapM (mapM_eq_ok.2 h)

/-- From one configuration to another, options without an assignment keep their values, and the others get
those of their last assignments. -/
structure LastWins (c d : Config) (assignments : List Assignment) : Prop where
  unchanged : ∀ s, (∀ a ∈ assignments, a.setting ≠ s) → d.value s = c.value s
  last : ∀ before a after, assignments = before ++ a :: after → (∀ b ∈ after, b.setting ≠ a.setting) →
    d.value a.setting = a.value

theorem exists_last_assignment (s : Setting) (assignments : List Assignment) :
    (∀ a ∈ assignments, a.setting ≠ s)
      ∨ ∃ before a after, assignments = before ++ a :: after ∧ a.setting = s ∧ ∀ b ∈ after, b.setting ≠ s := by
  induction assignments with
  | nil => exact .inl nofun
  | cons a assignments ih =>
    obtain hnone | ⟨before, b, after, rfl, hb, hafter⟩ := ih
    · by_cases ha : a.setting = s
      · exact .inr ⟨[], a, assignments, rfl, ha, hnone⟩
      · exact .inl (List.forall_mem_cons.2 ⟨ha, hnone⟩)
    · exact .inr ⟨a :: before, b, after, rfl, hb, hafter⟩

/-- What an option has after its last assignment does not depend on what it had before. -/
theorem LastWins.eq_of_lastWins {c d d' : Config} {assignments : List Assignment} (h : LastWins c d assignments)
    (h' : LastWins d d' assignments) : d' = d := by
  refine Config.ext_value fun s => ?_
  obtain hnone | ⟨before, a, after, hall, rfl, hafter⟩ := exists_last_assignment s assignments
  · exact h'.unchanged s hnone
  · rw [h.last before a after hall hafter, h'.last before a after hall hafter]

namespace Config

def assigned (c : Config) (assignments : List Assignment) : Config :=
  assignments.foldl (fun c a => c.put a.setting a.value) c

theorem value_assigned_of_ne {s : Setting} {assignments : List Assignment}
    (h : ∀ a ∈ assignments, a.setting ≠ s) (c : Config) : (c.assigned assignments).value s = c.value s := by
  induction assignments generalizing c with
  | nil => rfl
  | cons a assignments ih =>
    obtain ⟨ha, hrest⟩ := List.forall_mem_cons.1 h
    exact (ih hrest (c.put a.setting a.value)).trans (value_put_of_ne (Ne.symm ha) c a.value)

theorem lastWins_assigned (c : Config) (assignments : List Assignment) :
    LastWins c (c.assigned assignments) assignments where
  unchanged s h := value_assigned_of_ne h c
  last before a after hall hafter := by
    rw [hall, assigned, List.foldl_append, List.foldl_cons]
    exact (value_assigned_of_ne hafter _).trans (value_put_self _ a.setting a.value)

/-! ## Items -/

namespace Applied

/-- The same was done, the reports apart. -/
structure Agrees (applied applied' : Applied) : Prop where
  result_eq : applied.result = applied'.result
  config_eq : applied.config = applied'.config

theorem Agrees.symm {applied applied' : Applied} (h : applied.Agrees applied') : applied'.Agrees applied :=
  ⟨h.result_eq.symm, h.config_eq.symm⟩

theorem Agrees.trans {applied applied' applied'' : Applied} (h : applied.Agrees applied')
    (h' : applied'.Agrees applied'') : applied.Agrees applied'' :=
  ⟨h.result_eq.trans h'.result_eq, h.config_eq.trans h'.config_eq⟩

theorem andThen_of_ok {first : Applied} (h : first.result = .ok ()) (next : Config → Applied) :
    (first.andThen next).Agrees (next first.config) := by
  unfold andThen
  rw [h]
  exact ⟨rfl, rfl⟩

theorem andThen_assoc (first : Applied) (next later : Config → Applied) :
    (first.andThen next).andThen later = first.andThen fun c => (next c).andThen later := by
  obtain ⟨result, config, events⟩ := first
  cases result with
  | error e => rfl
  | ok _ =>
    unfold andThen
    dsimp only
    obtain ⟨result, config', events'⟩ := next config
    cases result with
    | error e => rfl
    | ok _ => simp only [List.append_assoc]

theorem result_of_andThen {first : Applied} {next : Config → Applied}
    (h : (first.andThen next).result = .ok ()) : first.result = .ok () := by
  unfold andThen at h
  cases hfirst : first.result with
  | ok _ => rfl
  | error e =>
    rw [hfirst] at h
    dsimp only at h
    rw [hfirst] at h
    exact h

end Applied

variable {c : Config} {item : String} {items : List String} {a b : Assignment}

theorem applyItems_cons (c : Config) (item : String) (items : List String) :
    c.applyItems (item :: items) = match splitItem item with
      | .error e => ⟨.error e, c, []⟩
      | .ok (key, given) => (c.attempt key given).andThen fun d => d.applyItems items := by
  rw [applyItems, applyItem]
  cases splitItem item with
  | error e => rfl
  | ok pair => rfl

/-- An item with an assignment makes it, and then the items after it are applied. -/
theorem applyItems_cons_of_ok (h : Assignment.ofItem item = .ok a) (c : Config) (items : List String) :
    (c.applyItems (item :: items)).Agrees ((c.put a.setting a.value).applyItems items) := by
  obtain ⟨⟨key, given⟩, hsplit, hassigned⟩ := except_bind_eq_ok.1 h
  rw [applyItems_cons, hsplit]
  dsimp only at hassigned ⊢
  rw [attempt_eq, hassigned]
  exact Applied.andThen_of_ok rfl _

/-- An item without an assignment is refused and changes nothing. -/
theorem applyItems_cons_of_error {e : ConfigError} (h : Assignment.ofItem item = .error e) (c : Config)
    (items : List String) : c.applyItems (item :: items) = ⟨.error e, c, []⟩ := by
  rw [applyItems_cons]
  rcases except_bind_eq_error.1 h with hsplit | ⟨⟨key, given⟩, hsplit, hassigned⟩
  · rw [hsplit]
  · rw [hsplit]
    dsimp only at hassigned ⊢
    rw [attempt_eq, hassigned]
    rfl

/-- The items up to the first refused one are applied, and no other. -/
inductive Applies (c : Config) : List String → Applied → Prop
  | all {items : List String} {assignments : List Assignment} {applied : Applied}
      (h : Assigns items assignments) (hresult : applied.result = .ok ())
      (hconfig : applied.config = c.assigned assignments) : Applies c items applied
  | stopped {done later : List String} {item : String} {assignments : List Assignment} {e : ConfigError}
      {applied : Applied} (h : Assigns done assignments) (hitem : Assignment.ofItem item = .error e)
      (hresult : applied.result = .error e) (hconfig : applied.config = c.assigned assignments) :
      Applies c (done ++ item :: later) applied

theorem applies_applyItems (c : Config) (items : List String) : c.Applies items (c.applyItems items) := by
  induction items generalizing c with
  | nil => exact .all .nil rfl rfl
  | cons item items ih =>
    cases hitem : Assignment.ofItem item with
    | error e =>
      rw [applyItems_cons_of_error hitem]
      have hnothing : c.Applies ([] ++ item :: items) ⟨.error e, c, []⟩ := .stopped .nil hitem rfl rfl
      exact hnothing
    | ok a =>
      have hstep := applyItems_cons_of_ok hitem c items
      cases ih (c.put a.setting a.value) with
      | all h hresult hconfig =>
        exact .all (.cons hitem h) (hstep.result_eq.trans hresult) (hstep.config_eq.trans hconfig)
      | stopped h hbad hresult hconfig =>
        exact .stopped (.cons hitem h) hbad (hstep.result_eq.trans hresult) (hstep.config_eq.trans hconfig)

/-- If items are applied to the end, each of them makes an assignment. -/
theorem exists_assigns_of_ok (h : (c.applyItems items).result = .ok ()) :
    ∃ assignments, Assigns items assignments ∧ (c.applyItems items).config = c.assigned assignments := by
  cases c.applies_applyItems items with
  | all hall _ hconfig => exact ⟨_, hall, hconfig⟩
  | stopped _ _ hresult _ =>
    rw [hresult] at h
    cases h

theorem applyItems_of_assigns {assignments : List Assignment} (h : Assigns items assignments) (c : Config) :
    (c.applyItems items).result = .ok () ∧ (c.applyItems items).config = c.assigned assignments := by
  induction h generalizing c with
  | nil => exact ⟨rfl, rfl⟩
  | cons hitem _ ih =>
    have hstep := applyItems_cons_of_ok hitem c
    obtain ⟨hresult, hconfig⟩ := ih (c.put _ _)
    exact ⟨(hstep _).result_eq.trans hresult, (hstep _).config_eq.trans hconfig⟩

theorem applyItems_append_eq (c : Config) (first second : List String) :
    c.applyItems (first ++ second) = (c.applyItems first).andThen fun d => d.applyItems second := by
  induction first generalizing c with
  | nil => rfl
  | cons item first ih =>
    rw [List.cons_append, applyItems, applyItems, Applied.andThen_assoc]
    exact congrArg _ (funext fun d => ih d)

/-- Neighboring items that make assignments to different options can be exchanged. -/
theorem applyItems_swap {i j : String} (hi : Assignment.ofItem i = .ok a) (hj : Assignment.ofItem j = .ok b)
    (hne : a.setting ≠ b.setting) {before : List String} (hbefore : (c.applyItems before).result = .ok ())
    (after : List String) :
    (c.applyItems (before ++ j :: i :: after)).Agrees (c.applyItems (before ++ i :: j :: after)) := by
  -- both orders make the two assignments to what the items before them leave
  have htwo {i j : String} {a b : Assignment} (hi : Assignment.ofItem i = .ok a)
      (hj : Assignment.ofItem j = .ok b) (d : Config) : (d.applyItems (i :: j :: after)).Agrees
        (((d.put a.setting a.value).put b.setting b.value).applyItems after) :=
    (applyItems_cons_of_ok hi d _).trans (applyItems_cons_of_ok hj _ after)
  have hfirst (items : List String) : (c.applyItems (before ++ items)).Agrees
      ((c.applyItems before).config.applyItems items) := by
    rw [applyItems_append_eq]
    exact Applied.andThen_of_ok hbefore _
  have hji := (hfirst _).trans (htwo hj hi _)
  rw [put_comm hne.symm] at hji
  exact hji.trans ((hfirst _).trans (htwo hi hj _)).symm

/-! ## Texts -/

/-- Options that are given one by one: a refused value changes nothing and an accepted one only its option,
so that positive numbers stay positive. The items of a text are applied up to the first refused one. If none
is refused, every option has the value of its last assignment or, without one, the value it had; exchanging
neighboring items with different keys, or applying the text once more, changes nothing. A text after a
semicolon is applied to what the text before it has left, unless that was refused. -/
theorem apply_lastWins (c : Config) :
    (∀ key given, c.Atomic key given (c.attempt key given))
    ∧ (c.Positive → ∀ calls, (c.attempts calls).Positive)
    ∧ (∀ text, c.Applies (Config.items text) (c.apply text))
    ∧ (∀ text, (c.apply text).result = .ok () →
      (∃ assignments, Assigns (Config.items text) assignments ∧ LastWins c (c.apply text).config assignments)
      ∧ (∀ (other : String) (before after : List String) (i j k l v w : String),
        Config.items text = before ++ i :: j :: after → Config.items other = before ++ j :: i :: after →
        splitItem i = .ok (k, v) → splitItem j = .ok (l, w) → k ≠ l →
        (c.apply other).Agrees (c.apply text))
      ∧ ((c.apply text).config.apply text).Agrees (c.apply text))
    ∧ ∀ s t, c.apply (s ++ ";" ++ t) = (c.apply s).andThen (fun d => d.apply t)
      ∧ ((c.apply s).result = .ok () → (c.apply (s ++ ";" ++ t)).Agrees ((c.apply s).config.apply t)) := by
  refine ⟨c.attempt_atomic, fun hc => hc.attempts, fun text => c.applies_applyItems _, fun text htext => ?_,
    fun s t => ?_⟩
  · obtain ⟨assignments, hassigns, hconfig⟩ := exists_assigns_of_ok htext
    have hlast : LastWins c (c.apply text).config assignments := by
      rw [apply, hconfig]
      exact c.lastWins_assigned assignments
    refine ⟨⟨assignments, hassigns, hlast⟩, ?_, ?_⟩
    · intro other before after i j k l v w htext' hother hi hj hne
      have hsome := hassigns.exists_of_mem
      rw [htext'] at hsome
      obtain ⟨a, ha⟩ := hsome i (by simp)
      obtain ⟨b, hb⟩ := hsome j (by simp)
      -- different keys are those of different options
      have hsettings : a.setting ≠ b.setting := by
        intro heq
        rw [← Assignment.key_eq_of_ofItem ha hi, ← Assignment.key_eq_of_ofItem hb hj, heq] at hne
        exact hne rfl
      have hbefore : (c.applyItems before).result = .ok () := by
        rw [apply, htext', applyItems_append_eq] at htext
        exact Applied.result_of_andThen htext
      rw [apply, apply, htext', hother]
      exact applyItems_swap ha hb hsettings hbefore after
    · obtain ⟨hresult, hagain⟩ := applyItems_of_assigns hassigns (c.apply text).config
      -- once more, the same assignments are made to a configuration that has them already
      have hstill := (c.apply text).config.lastWins_assigned assignments
      rw [← hagain] at hstill
      exact ⟨hresult.trans htext.symm, hlast.eq_of_lastWins hstill⟩
  · have hboth : c.apply (s ++ ";" ++ t) = (c.apply s).andThen fun d => d.apply t := by
      rw [apply, items_append, applyItems_append_eq]
      rfl
    refine ⟨hboth, fun hs => ?_⟩
    rw [hboth]
    exact Applied.andThen_of_ok hs _

/-- Two options out of order, one of them twice, with blanks around them and an empty item. -/
theorem apply_lastWins_default :
    (apply {} " num_neg = 3;\n batch=8;batch=2").config = { batch := 2, numNeg := 3 }
    ∧ (apply {} "batch=8;num_neg = 3;batch=2").config = { batch := 2, numNeg := 3 }
    ∧ (apply {} ("batch=8" ++ ";" ++ "num_neg=0;batch=2")).config = { batch := 8 }
    ∧ (attempts {} [("batch", "0"), ("num_neighbors", "4,,0"), ("num_neg", "7")]).Positive := by
  have htext : (apply {} " num_neg = 3;\n batch=8;batch=2").result = .ok () := by rfl
  have hconfig : (apply {} " num_neg = 3;\n batch=8;batch=2").config = { batch := 2, numNeg := 3 } := by rfl
  obtain ⟨-, hpositive, -, hok, hboth⟩ := apply_lastWins {}
  have hswap := (hok _ htext).2.1 "batch=8;num_neg = 3;batch=2" [] ["batch=2"] "num_neg = 3" "batch=8" "num_neg"
    "batch" "3" "8" rfl rfl rfl rfl (by decide)
  refine ⟨hconfig, hswap.config_eq.trans hconfig, ?_, hpositive positive_default _⟩
  rw [((hboth "batch=8" "num_neg=0;batch=2").2 rfl).config_eq]
  rfl

end Config

end BipartiteBatch
