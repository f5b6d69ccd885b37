import BipartiteBatch.Proofs.Choices
import Mathlib.Logic.Function.Basic

/-!
# Options one by one

A configuration has a value for each option, and is determined by these values. What is given for an option
is accepted or refused whatever the configuration is. If it is accepted, it becomes the value of this option
and all others keep theirs; if it is refused, all of them do. So numbers that are positive stay positive.

* `Setting.Value`, `Setting.read`, `Setting.Admits` : the values of an option, the one that a text gives,
  and those that are in range;
* `Config.value`, `Config.put` : the value of an option, and a configuration with another one;
* `Assignment`, `Assignment.ofKey` : a value for an option, and the one that a key and a text make;
* `Config.run_assign`, `Config.attempt_eq`, `Config.attempt_atomic` : an option changed in place;
* `Config.attempts`, `Config.Positive.attempts` : options changed one after the other.
-/

namespace BipartiteBatch

/-! ## Values -/

namespace Setting

abbrev Value : Setting → Type
  | batch | numNeg => UInt64
  | isTrain | useNeighFeat => Bool
  | numNeighbors => List UInt64
  | userTag | itemTag => Tag

/-- The value that a text gives for an option. -/
def read : (s : Setting) → String → Except ConfigError s.Value
  | batch, given => readPositive batch given
  | isTrain, given => readFlag isTrain given
  | numNeg, given => readPositive numNeg given
  | numNeighbors, given => readPositives numNeighbors given
  | useNeighFeat, given => readFlag useNeighFeat given
  | userTag, given => readTag userTag given
  | itemTag, given => readTag itemTag given

variable {s : Setting} {given : String}

/-- The value is in range for the option: its numbers are positive where they must be. -/
def Admits : (s : Setting) → s.Value → Prop
  | batch, n | numNeg, n => n ≠ 0
  | numNeighbors, ns => ns.contains 0 = false
  | isTrain, _ | useNeighFeat, _ => True
  | userTag, _ | itemTag, _ => True

theorem readPositive_eq_ok {n : UInt64} :
    s.readPositive given = .ok n ↔ s.readWord given = .ok n ∧ n ≠ 0 := except_unless_eq_ok

theorem readPositives_eq_ok {ns : List UInt64} : s.readPositives given = .ok ns
    ↔ (Text.pieces (· == ',') given).mapM s.readWord = .ok ns ∧ ns.contains 0 = false := by
  rw [← Bool.not_eq_true]
  exact except_unless_eq_ok

theorem admits_of_read {v : s.Value} (h : s.read given = .ok v) : s.Admits v := by
  cases s with
  | batch | numNeg => exact (readPositive_eq_ok.1 h).2
  | numNeighbors => exact (readPositives_eq_ok.1 h).2
  | isTrain | useNeighFeat => trivial
  | userTag | itemTag => trivial

theorem ofKey?_eq_some {key : String} : ofKey? key = some s ↔ s.key = key := by
  constructor
  · intro h
    have hfound : (s.key == key) = true := List.find?_some (p := fun s : Setting => s.key == key) h
    exact eq_of_beq hfound
  · rintro rfl
    exact s.ofKey?_key

end Setting

namespace Config

def value (c : Config) : (s : Setting) → s.Value
  | .batch => c.batch
  | .isTrain => c.isTrain
  | .numNeg => c.numNeg
  | .numNeighbors => c.numNeighbors
  | .useNeighFeat => c.useNeighFeat
  | .userTag => c.userTag
  | .itemTag => c.itemTag

def put (c : Config) : (s : Setting) → s.Value → Config
  | .batch, n => { c with batch := n }
  | .isTrain, flag => { c with isTrain := flag }
  | .numNeg, n => { c with numNeg := n }
  | .numNeighbors, ns => { c with numNeighbors := ns }
  | .useNeighFeat, flag => { c with useNeighFeat := flag }
  | .userTag, tag => { c with userTag := tag }
  | .itemTag, tag => { c with itemTag := tag }

theorem value_put (c : Config) (s : Setting) (v : s.Value) :
    (c.put s v).value = Function.update c.value s v := by
  funext t
  cases s <;> cases t <;> rfl

@[simp]
theorem value_put_self (c : Config) (s : Setting) (v : s.Value) : (c.put s v).value s = v := by
  rw [value_put, Function.update_self]

@[simp]
theorem value_put_of_ne {s t : Setting} (h : t ≠ s) (c : Config) (v : s.Value) :
    (c.put s v).value t = c.value t := by
  rw [value_put, Function.update_of_ne h]

theorem ext_value {c d : Config} (h : ∀ s, c.value s = d.value s) : c = d := by
  obtain ⟨batch, isTrain, numNeg, numNeighbors, useNeighFeat, userTag, itemTag⟩ := c
  obtain rfl : batch = _ := h .batch
  obtain rfl : isTrain = _ := h .isTrain
  obtain rfl : numNeg = _ := h .numNeg
  obtain rfl : numNeighbors = _ := h .numNeighbors
  obtain rfl : useNeighFeat = _ := h .useNeighFeat
  obtain rfl : userTag = _ := h .userTag
  obtain rfl : itemTag = _ := h .itemTag
  rfl

theorem put_comm {s t : Setting} (h : s ≠ t) (c : Config) (v : s.Value) (w : t.Value) :
    (c.put s v).put t w = (c.put t w).put s v := by
  refine ext_value fun u => ?_
  rw [value_put, value_put, value_put, value_put, Function.update_comm h]

/-! ## Assignments -/

end Config

/-- A value for an option. -/
structure Assignment where
  setting : Setting
  value : setting.Value

namespace Assignment

def ofKey (key given : String) : Except ConfigError Assignment :=
  match Setting.ofKey? key with
  | none => .error (.unknownKey key given)
  | some s => (s.read given).map fun v => ⟨s, v⟩

theorem ofKey_eq_ok {key given : String} {a : Assignment} :
    ofKey key given = .ok a ↔ a.setting.key = key ∧ a.setting.read given = .ok a.value := by
  unfold ofKey
  constructor
  · intro h
    cases hkey : Setting.ofKey? key with
    | none =>
      rw [hkey] at h
      cases h
    | some s =>
      rw [hkey] at h
      obtain ⟨v, hread, rfl⟩ := except_map_eq_ok.1 h
      exact ⟨Setting.ofKey?_eq_some.1 hkey, hread⟩
  · rintro ⟨hkey, hread⟩
    rw [Setting.ofKey?_eq_some.2 hkey]
    exact except_map_eq_ok.2 ⟨a.value, hread, rfl⟩

end Assignment

namespace Config

variable {c : Config} {key given : String}

/-! ## Changes in place -/

theorem assign_eq (s : Setting) (given : String) :
    assign s given = (do let v ← s.read given; modify fun c => c.put s v) := by
  cases s <;> rfl

/-- An option is changed in place if its value is accepted, and otherwise nothing is. -/
theorem run_assign (s : Setting) (given : String) (c : Config) :
    (assign s given).run.run c = match s.read given with
      | .ok v => (.ok (), c.put s v)
      | .error e => (.error e, c) := by
  rw [assign_eq]
  cases s.read given with
  | ok v => rfl
  | error e => rfl

theorem attempt_eq (c : Config) (key given : String) :
    c.attempt key given = match Assignment.ofKey key given with
      | .ok a => ⟨.ok (), c.put a.setting a.value, [.settingAccepted key given]⟩
      | .error e => ⟨.error e, c, []⟩ := by
  unfold attempt Assignment.ofKey
  cases Setting.ofKey? key with
  | none => rfl
  | some s =>
    dsimp only
    rw [run_assign]
    cases s.read given with
    | ok v => rfl
    | error e => rfl

/-- A refused value leaves the configuration as it is. An accepted one is the value of the option with the
key, and the other options keep theirs. -/
structure Atomic (c : Config) (key given : String) (applied : Applied) : Prop where
  refused : ∀ e, applied.result = .error e → applied.config = c
  accepted : applied.result = .ok () → ∃ s : Setting, s.key = key
    ∧ s.read given = .ok (applied.config.value s) ∧ ∀ t, t ≠ s → applied.config.value t = c.value t

theorem attempt_atomic (c : Config) (key given : String) : c.Atomic key given (c.attempt key given) := by
  rw [attempt_eq]
  cases hassigned : Assignment.ofKey key given with
  | error e => exact ⟨fun _ _ => rfl, nofun⟩
  | ok a =>
    obtain ⟨hkey, hread⟩ := Assignment.ofKey_eq_ok.1 hassigned
    refine ⟨nofun, fun _ => ⟨a.setting, hkey, ?_, fun t ht => value_put_of_ne ht c a.value⟩⟩
    rw [value_put_self, hread]

/-! ## Positive numbers -/

theorem positive_iff : c.Positive ↔ ∀ s : Setting, s.Admits (c.value s) := by
  constructor
  · intro hc s
    cases s with
    | batch => exact hc.batch
    | numNeg => exact hc.numNeg
    | numNeighbors => exact hc.numNeighbors
    | isTrain | useNeighFeat => trivial
    | userTag | itemTag => trivial
  · intro h
    exact ⟨h .batch, h .numNeg, h .numNeighbors⟩

/-- Values that are accepted keep the numbers positive. -/
theorem Positive.put (hc : c.Positive) {s : Setting} {v : s.Value} (h : s.read given = .ok v) :
    (c.put s v).Positive := by
  rw [positive_iff] at hc ⊢
  intro t
  by_cases ht : t = s
  · subst ht
    rw [value_put_self]
    exact Setting.admits_of_read h
  · rw [value_put_of_ne ht]
    exact hc t

theorem Positive.attempt (hc : c.Positive) (key given : String) : (c.attempt key given).config.Positive := by
  rw [attempt_eq]
  cases hassigned : Assignment.ofKey key given with
  | error e => exact hc
  | ok a => exact hc.put (Assignment.ofKey_eq_ok.1 hassigned).2

/-- The configuration after values were given for keys, one after the other, accepted or refused. -/
def attempts (c : Config) (calls : List (String × String)) : Config :=
  calls.foldl (fun c call => (c.attempt call.1 call.2).config) c

theorem Positive.attempts (hc : c.Positive) (calls : List (String × String)) :
    (c.attempts calls).Positive := by
  induction calls generalizing c with
  | nil => exact hc
  | cons call calls ih => exact ih (hc.attempt call.1 call.2)

end Config

end BipartiteBatch
