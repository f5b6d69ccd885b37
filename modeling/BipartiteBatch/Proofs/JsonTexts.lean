import BipartiteBatch.Json.Codec
import BipartiteBatch.Proofs.Numerals

/-!
# JSON texts read back

A JSON text is the tokens of a value with blanks between them, and the reader gives the value of any such
text. Both layouts are of that kind, so each value is read back from what is written of it.

* `Json.string?_stringChars` : a string is read back;
* `Json.Writes` : the texts of a value;
* `Json.value?_of_writes` : the reader, at the head of a text;
* `Json.LaidOut`, `Json.LaidOut.parse?_eq` : whole texts, `Json.parse?_compact`, `Json.parse?_pretty` : the two
  layouts.
-/

namespace BipartiteBatch.Json

/-! ## Strings -/

theorem unit?_escapedUnit : ∀ n < 0x20,
    unit? '0' '0' (Nat.digitChar (n / 16)) (Nat.digitChar (n % 16)) = some n := by
  decide

/-- A character is written in one of three ways. -/
inductive Escaped (c : Char) : List Char → Prop
  | unit (h : c.toNat < 0x20) : Escaped c (escapedUnit c.toNat)
  | letter {l : Char} (hl : l ≠ 'u') (h : letter? l = some c) : Escaped c ['\\', l]
  | plain (hquote : c ≠ '"') (hbackslash : c ≠ '\\') (h : ¬ c.toNat < 0x20) : Escaped c [c]

theorem escaped_escapedChar (c : Char) : Escaped c (escapedChar c) := by
  have hletter : ∀ {n : Nat} {l : Char}, c.toNat = n → l ≠ 'u' → letter? l = some (Char.ofNat n) →
      Escaped c ['\\', l] := by
    rintro n l rfl hl h
    rw [Char.ofNat_toNat] at h
    exact .letter hl h
  unfold escapedChar
  split
  · next h => exact .letter (by decide) (by rw [h]; rfl)
  · next hquote =>
    split
    · next h => exact .letter (by decide) (by rw [h]; rfl)
    · next hbackslash =>
      split
      · next h => exact .plain hquote hbackslash (Nat.not_lt.2 h)
      · next h =>
        split
        · next h8 => exact hletter h8 (by decide) rfl
        · split
          · next h9 => exact hletter h9 (by decide) rfl
          · split
            · next h10 => exact hletter h10 (by decide) rfl
            · split
              · next h12 => exact hletter h12 (by decide) rfl
              · split
                · next h13 => exact hletter h13 (by decide) rfl
                · exact .unit (Nat.not_le.1 h)

/-- What is written for a character is one part of a string, which stands for the character. -/
theorem Escaped.exists_piece {c : Char} {cs : List Char} (h : Escaped c cs) : ∃ p,
    (∀ rest, pieces? (cs ++ rest) = (pieces? rest).map fun r => (p :: r.1, r.2))
      ∧ ∀ ps, assemble? (p :: ps) = (assemble? ps).map (c :: ·) := by
  cases h with
  | unit h =>
    refine ⟨.unit c.toNat, fun rest => ?_, fun ps => ?_⟩
    · show pieces? ('\\' :: 'u' :: '0' :: '0' :: _ :: _ :: rest) = _
      rw [pieces?, unit?_escapedUnit _ h]
      cases pieces? rest with
      | none => rfl
      | some r => rfl
    · -- a unit that is written is no half of a pair, so that it needs no other one after it
      have hlow : isLow c.toNat = false := by
        simp only [isLow, Bool.and_eq_false_imp, decide_eq_true_eq, decide_eq_false_iff_not]
        omega
      have hhigh : isHigh c.toNat = false := by
        simp only [isHigh, Bool.and_eq_false_imp, decide_eq_true_eq, decide_eq_false_iff_not]
        omega
      match ps with
      | [] => simp only [assemble?, hlow, hhigh, Char.ofNat_toNat]; rfl
      | .char d :: ps => simp only [assemble?, hlow, hhigh, Char.ofNat_toNat]; rfl
      | .unit n :: ps => simp only [assemble?, hlow, hhigh, Char.ofNat_toNat]; rfl
  | @letter l hl h =>
    refine ⟨.char c, fun rest => ?_, fun ps => rfl⟩
    show pieces? ('\\' :: l :: rest) = _
    rw [pieces?, h]
    · cases pieces? rest with
      | none => rfl
      | some r => rfl
    · rintro a b c d cs rfl
      exact fun _ => absurd rfl hl
  | plain hquote hbackslash h =>
    refine ⟨.char c, fun rest => ?_, fun ps => rfl⟩
    show pieces? (c :: rest) = _
    rw [pieces?, if_neg (by simp [hbackslash, h])]
    · cases pieces? rest with
      | none => rfl
      | some r => rfl
    · exact hquote
    · exact fun _ _ _ _ _ h _ => hbackslash h
    · exact fun _ _ h _ => hbackslash h

theorem exists_pieces (cs rest : List Char) : ∃ ps,
    pieces? (cs.flatMap escapedChar ++ '"' :: rest) = some (ps, rest) ∧ assemble? ps = some cs := by
  induction cs with
  | nil => exact ⟨[], rfl, rfl⟩
  | cons c cs ih =>
    obtain ⟨ps, hps, hcs⟩ := ih
    obtain ⟨p, hp, hc⟩ := (escaped_escapedChar c).exists_piece
    refine ⟨p :: ps, ?_, ?_⟩
    · rw [List.flatMap_cons, List.append_assoc, hp, hps]
      rfl
    · rw [hc, hcs]
      rfl

/-- A string is read back, whether it has a text or not. -/
theorem string?_stringChars (s : Option String) (rest : List Char) :
    ∃ cs, stringChars s ++ rest = '"' :: cs ∧ string? cs = some (s, rest) := by
  cases s with
  | none =>
    have hunit : unit? 'd' '8' '0' '0' = some 0xD800 := rfl
    refine ⟨'\\' :: 'u' :: 'd' :: '8' :: '0' :: '0' :: '"' :: rest, rfl, ?_⟩
    have hassemble : assemble? [.unit 0xD800] = none := by decide
    simp [string?, pieces?, hunit, hassemble]
  | some s =>
    refine ⟨s.toList.flatMap escapedChar ++ '"' :: rest, ?_, ?_⟩
    · show '"' :: s.toList.flatMap escapedChar ++ ['"'] ++ rest = _
      rw [List.cons_append, List.cons_append, List.append_assoc, List.singleton_append]
    · obtain ⟨ps, hps, hs⟩ := exists_pieces s.toList rest
      simp only [string?, hps, Option.map_some, hs, String.ofList_toList]

/-! ## Blanks -/

def Blank (cs : List Char) : Prop := ∀ c ∈ cs, isSpace c = true

theorem blank_nil : Blank [] := nofun

/-- What follows is no part of a number. -/
def EndsNumber (rest : List Char) : Prop := ∀ c ∈ rest.head?, isNumberChar c = false

theorem isNumberChar_of_isSpace {c : Char} (h : isSpace c = true) : isNumberChar c = false := by
  simp only [isSpace, Bool.or_eq_true, decide_eq_true_eq] at h
  rcases h with ((rfl | rfl) | rfl) | rfl <;> rfl

theorem endsNumber_append {blanks rest : List Char} (hblanks : Blank blanks) (hrest : EndsNumber rest) :
    EndsNumber (blanks ++ rest) := by
  cases blanks with
  | nil => exact hrest
  | cons c cs =>
    rintro d ⟨⟩
    exact isNumberChar_of_isSpace (hblanks c List.mem_cons_self)

theorem endsNumber_cons {c : Char} {rest : List Char} (h : isNumberChar c = false) :
    EndsNumber (c :: rest) := by
  rintro d ⟨⟩
  exact h

theorem skipSpaces_append {blanks cs : List Char} (hblanks : Blank blanks)
    (hcs : ∀ c ∈ cs.head?, isSpace c = false) : skipSpaces (blanks ++ cs) = cs := by
  rw [skipSpaces, List.dropWhile_append_of_pos hblanks]
  cases cs with
  | nil => rfl
  | cons c cs =>
    rw [List.dropWhile_cons_of_neg]
    rw [hcs c rfl]
    exact Bool.false_ne_true

theorem skipSpaces_blank {blanks : List Char} (h : Blank blanks) : skipSpaces blanks = [] := by
  rw [← List.append_nil blanks]
  exact skipSpaces_append h nofun

theorem skipSpaces_skipSpaces (cs : List Char) : skipSpaces (skipSpaces cs) = skipSpaces cs := by
  induction cs with
  | nil => rfl
  | cons c cs ih =>
    unfold skipSpaces at ih ⊢
    by_cases hc : isSpace c = true
    · rw [List.dropWhile_cons_of_pos hc, ih]
    · rw [List.dropWhile_cons_of_neg hc, List.dropWhile_cons_of_neg hc]

/-! ## The texts of a value -/

mutual

/-- The characters write a value: its tokens, with any blanks between them. -/
inductive Writes : Json → List Char → Prop
  | null : Writes .null "null".toList
  | bool (b : Bool) : Writes (.bool b) (boolChars b)
  | number (n : Json.Number) : Writes (.number n) n.chars
  | string (s : Option String) : Writes (.string s) (stringChars s)
  | noItems {blanks : List Char} (h : Blank blanks) : Writes (.array []) ('[' :: (blanks ++ [']']))
  | array {js : List Json} {cs : List Char} (h : WritesItems js cs) : Writes (.array js) ('[' :: cs)
  | noMembers {blanks : List Char} (h : Blank blanks) : Writes (.object []) ('{' :: (blanks ++ ['}']))
  | object {ms : List (Option String × Json)} {cs : List Char} (h : WritesMembers ms cs) :
    Writes (.object ms) ('{' :: cs)

inductive WritesItems : List Json → List Char → Prop
  | last {j : Json} {before cs after : List Char} (hbefore : Blank before) (h : Writes j cs)
    (hafter : Blank after) : WritesItems [j] (before ++ (cs ++ (after ++ [']'])))
  | more {j : Json} {js : List Json} {before cs after ds : List Char} (hbefore : Blank before)
    (h : Writes j cs) (hafter : Blank after) (hmore : WritesItems js ds) :
    WritesItems (j :: js) (before ++ (cs ++ (after ++ ',' :: ds)))

inductive WritesMembers : List (Option String × Json) → List Char → Prop
  | last {k : Option String} {j : Json} {before middle between cs after : List Char}
    (hbefore : Blank before) (hmiddle : Blank middle) (hbetween : Blank between) (h : Writes j cs)
    (hafter : Blank after) : WritesMembers [(k, j)]
      (before ++ (stringChars k ++ (middle ++ ':' :: (between ++ (cs ++ (after ++ ['}']))))))
  | more {k : Option String} {j : Json} {ms : List (Option String × Json)}
    {before middle between cs after ds : List Char} (hbefore : Blank before) (hmiddle : Blank middle)
    (hbetween : Blank between) (h : Writes j cs) (hafter : Blank after) (hmore : WritesMembers ms ds) :
    WritesMembers ((k, j) :: ms)
      (before ++ (stringChars k ++ (middle ++ ':' :: (between ++ (cs ++ (after ++ ',' :: ds))))))

end

theorem Writes.exists_head {j : Json} {cs : List Char} (h : Writes j cs) :
    ∃ c ds, cs = c :: ds ∧ isSpace c = false ∧ c ≠ ']' := by
  cases h with
  | null => exact ⟨_, _, rfl, rfl, by decide⟩
  | bool b =>
    cases b with
    | true => exact ⟨_, _, rfl, rfl, by decide⟩
    | false => exact ⟨_, _, rfl, rfl, by decide⟩
  | number n =>
    obtain ⟨c, ds, hcs, -⟩ := n.exists_chars_eq_cons
    have hc : isNumberChar c = true := n.isNumberChar_of_mem_chars c (hcs ▸ List.mem_cons_self)
    refine ⟨c, ds, hcs, ?_, ?_⟩
    · by_contra hspace
      rw [isNumberChar_of_isSpace (eq_true_of_ne_false hspace)] at hc
      cases hc
    · rintro rfl
      cases hc
  | string s =>
    obtain ⟨ds, hds, -⟩ := string?_stringChars s []
    rw [List.append_nil] at hds
    exact ⟨_, ds, hds, rfl, by decide⟩
  | noItems _ => exact ⟨_, _, rfl, rfl, by decide⟩
  | array _ => exact ⟨_, _, rfl, rfl, by decide⟩
  | noMembers _ => exact ⟨_, _, rfl, rfl, by decide⟩
  | object _ => exact ⟨_, _, rfl, rfl, by decide⟩

theorem Writes.skipSpaces_append {j : Json} {before cs : List Char} (h : Writes j cs)
    (hbefore : Blank before) (rest : List Char) : skipSpaces (before ++ (cs ++ rest)) = cs ++ rest := by
  obtain ⟨c, ds, rfl, hc, -⟩ := h.exists_head
  refine Json.skipSpaces_append hbefore ?_
  rintro d ⟨⟩
  exact hc

theorem skipSpaces_key {before : List Char} (hbefore : Blank before) (k : Option String)
    (rest : List Char) : ∃ cs, skipSpaces (before ++ (stringChars k ++ rest)) = '"' :: cs
      ∧ string? cs = some (k, rest) := by
  rw [(Writes.string k).skipSpaces_append hbefore]
  exact string?_stringChars k rest

theorem WritesItems.skipSpaces_ne {js : List Json} {cs : List Char} (h : WritesItems js cs)
    (rest ds : List Char) : skipSpaces (cs ++ rest) ≠ ']' :: ds := by
  have hvalue : ∀ {j before cs after}, Blank before → Writes j cs →
      skipSpaces (before ++ (cs ++ after)) ≠ ']' :: ds := by
    intro j before cs after hbefore h
    rw [h.skipSpaces_append hbefore]
    obtain ⟨c, cs, rfl, -, hc⟩ := h.exists_head
    exact fun heq => hc (List.cons.inj heq).1
  cases h with
  | last hbefore h _ =>
    rw [List.append_assoc, List.append_assoc]
    exact hvalue hbefore h
  | more hbefore h _ _ =>
    rw [List.append_assoc, List.append_assoc]
    exact hvalue hbefore h

theorem WritesMembers.skipSpaces_ne {ms : List (Option String × Json)} {cs : List Char}
    (h : WritesMembers ms cs) (rest ds : List Char) : skipSpaces (cs ++ rest) ≠ '}' :: ds := by
  have hkey : ∀ {before after} {k : Option String}, Blank before →
      skipSpaces (before ++ (stringChars k ++ after)) ≠ '}' :: ds := by
    intro before after k hbefore
    obtain ⟨cs, hcs, -⟩ := skipSpaces_key hbefore k after
    rw [hcs]
    exact fun heq => absurd (List.cons.inj heq).1 (by decide)
  cases h with
  | last hbefore _ _ _ _ =>
    rw [List.append_assoc, List.append_assoc]
    exact hkey hbefore
  | more hbefore _ _ _ _ _ =>
    rw [List.append_assoc, List.append_assoc]
    exact hkey hbefore

/-! ## The reader -/

theorem value?_skipSpaces (fuel : Nat) (cs : List Char) : value? fuel (skipSpaces cs) = value? fuel cs := by
  cases fuel with
  | zero => rfl
  | succ fuel => rw [value?, value?, skipSpaces_skipSpaces]

theorem Writes.value?_append {j : Json} {before cs rest : List Char} {fuel : Nat} (h : Writes j cs)
    (hbefore : Blank before) : value? fuel (before ++ (cs ++ rest)) = value? fuel (cs ++ rest) := by
  rw [← value?_skipSpaces, h.skipSpaces_append hbefore]

/-- If a text of a value is read up to its end, then also with blanks around it. -/
theorem Writes.value?_padded {j : Json} {before cs after : List Char} {fuel : Nat} (h : Writes j cs)
    (hvalue : ∀ {rest}, EndsNumber rest → value? fuel (cs ++ rest) = some (j, rest))
    (hbefore : Blank before) (hafter : Blank after) {c : Char} (hc : isNumberChar c = false)
    (rest : List Char) :
    value? fuel (before ++ (cs ++ (after ++ c :: rest))) = some (j, after ++ c :: rest) := by
  rw [h.value?_append hbefore]
  exact hvalue (endsNumber_append hafter (endsNumber_cons hc))

theorem items?_skipSpaces (fuel : Nat) (cs : List Char) : items? fuel (skipSpaces cs) = items? fuel cs := by
  cases fuel with
  | zero => rfl
  | succ fuel => rw [items?, items?, value?_skipSpaces]

theorem members?_skipSpaces (fuel : Nat) (cs : List Char) :
    members? fuel (skipSpaces cs) = members? fuel cs := by
  cases fuel with
  | zero => rfl
  | succ fuel => rw [members?, members?, skipSpaces_skipSpaces]

theorem value?_number (n : Json.Number) {fuel : Nat} {rest : List Char} (hrest : EndsNumber rest) :
    value? (fuel + 1) (n.chars ++ rest) = some (.number n, rest) := by
  have hskip : skipSpaces (n.chars ++ rest) = n.chars ++ rest :=
    (Writes.number n).skipSpaces_append blank_nil rest
  -- no other kind of value begins with a sign or a digit
  have hhead : ∀ {c cs}, n.chars ++ rest = c :: cs → c = '-' ∨ c.isDigit = true := by
    intro c cs h
    obtain ⟨d, ds, hds, hd⟩ := n.exists_chars_eq_cons
    rw [hds] at h
    rwa [← (List.cons.inj h).1]
  rw [value?, hskip]
  split
  · next h => exact absurd (hhead h) (by decide)
  · next h => exact absurd (hhead h) (by decide)
  · next h => exact absurd (hhead h) (by decide)
  · next h => exact absurd (hhead h) (by decide)
  · next h => exact absurd (hhead h) (by decide)
  · next h => exact absurd (hhead h) (by decide)
  · rw [span_append n.isNumberChar_of_mem_chars hrest]
    simp only [n.number?_chars, Option.map_some]

theorem skipSpaces_close {blanks : List Char} (hblanks : Blank blanks) {c : Char}
    (hc : isSpace c = false) (rest : List Char) : skipSpaces (blanks ++ c :: rest) = c :: rest := by
  refine skipSpaces_append hblanks ?_
  rintro d ⟨⟩
  exact hc

section Steps
variable {fuel : Nat} {cs rest : List Char}

theorem value?_bracket (fuel : Nat) (cs : List Char) : value? (fuel + 1) ('[' :: cs)
    = match skipSpaces cs with
      | ']' :: rest => some (.array [], rest)
      | rest => (items? fuel rest).map fun (js, rest) => (.array js, rest) := rfl

theorem value?_brace (fuel : Nat) (cs : List Char) : value? (fuel + 1) ('{' :: cs)
    = match skipSpaces cs with
      | '}' :: rest => some (.object [], rest)
      | rest => (members? fuel rest).map fun (ms, rest) => (.object ms, rest) := rfl

theorem value?_noItems (h : skipSpaces cs = ']' :: rest) :
    value? (fuel + 1) ('[' :: cs) = some (.array [], rest) := by
  rw [value?_bracket, h]
  rfl

theorem value?_items (hcs : ∀ ds, skipSpaces cs ≠ ']' :: ds) {js : List Json}
    (h : items? fuel cs = some (js, rest)) :
    value? (fuel + 1) ('[' :: cs) = some (.array js, rest) := by
  rw [value?_bracket]
  split
  · next heq => exact absurd heq (hcs _)
  · rw [items?_skipSpaces, h]
    rfl

theorem value?_noMembers (h : skipSpaces cs = '}' :: rest) :
    value? (fuel + 1) ('{' :: cs) = some (.object [], rest) := by
  rw [value?_brace, h]
  rfl

theorem value?_members (hcs : ∀ ds, skipSpaces cs ≠ '}' :: ds) {ms : List (Option String × Json)}
    (h : members? fuel cs = some (ms, rest)) :
    value? (fuel + 1) ('{' :: cs) = some (.object ms, rest) := by
  rw [value?_brace]
  split
  · next heq => exact absurd heq (hcs _)
  · rw [members?_skipSpaces, h]
    rfl

variable {j : Json} {after : List Char}

theorem items?_last (h : value? fuel cs = some (j, after)) (hafter : skipSpaces after = ']' :: rest) :
    items? (fuel + 1) cs = some ([j], rest) := by
  simp only [items?, h, Option.bind_eq_bind, Option.bind_some, hafter]
  rfl

theorem items?_more {next : List Char} {js : List Json} (h : value? fuel cs = some (j, after))
    (hafter : skipSpaces after = ',' :: next) (hmore : items? fuel next = some (js, rest)) :
    items? (fuel + 1) cs = some (j :: js, rest) := by
  simp only [items?, h, Option.bind_eq_bind, Option.bind_some, hafter, hmore]
  rfl

variable {k : Option String} {key colon value : List Char}

theorem members?_last (hkey : skipSpaces cs = '"' :: key) (hk : string? key = some (k, colon))
    (hcolon : skipSpaces colon = ':' :: value) (h : value? fuel value = some (j, after))
    (hafter : skipSpaces after = '}' :: rest) : members? (fuel + 1) cs = some ([(k, j)], rest) := by
  simp only [members?, hkey, hk, hcolon, h, Option.bind_eq_bind, Option.bind_some, hafter]
  rfl

theorem members?_more {next : List Char} {ms : List (Option String × Json)}
    (hkey : skipSpaces cs = '"' :: key) (hk : string? key = some (k, colon))
    (hcolon : skipSpaces colon = ':' :: value) (h : value? fuel value = some (j, after))
    (hafter : skipSpaces after = ',' :: next) (hmore : members? fuel next = some (ms, rest)) :
    members? (fuel + 1) cs = some ((k, j) :: ms, rest) := by
  simp only [members?, hkey, hk, hcolon, h, Option.bind_eq_bind, Option.bind_some, hafter, hmore]
  rfl

end Steps

mutual

/-- A text of a value is read up to its end, with as much fuel as it has characters. -/
theorem value?_of_writes {j : Json} {cs : List Char} (h : Writes j cs) {fuel : Nat} {rest : List Char}
    (hfuel : cs.length ≤ fuel) (hrest : EndsNumber rest) : value? fuel (cs ++ rest) = some (j, rest) := by
  -- no text is empty, so there is fuel for its first character
  obtain ⟨fuel, rfl⟩ : ∃ n, fuel = n + 1 := by
    obtain ⟨c, ds, rfl, -⟩ := h.exists_head
    exact ⟨fuel - 1, by simp only [List.length_cons] at hfuel; omega⟩
  cases h with
  | null => rfl
  | bool b =>
    cases b with
    | true => rfl
    | false => rfl
  | number n => exact value?_number n hrest
  | string s =>
    obtain ⟨ds, hds, hs⟩ := string?_stringChars s rest
    rw [hds]
    show (string? ds).map _ = _
    rw [hs]
    rfl
  | noItems hblanks =>
    rw [List.cons_append, List.append_assoc]
    exact value?_noItems (skipSpaces_close hblanks rfl rest)
  | array h =>
    exact value?_items (h.skipSpaces_ne rest) (items?_of_writes h (Nat.le_of_succ_le_succ hfuel) rest)
  | noMembers hblanks =>
    rw [List.cons_append, List.append_assoc]
    exact value?_noMembers (skipSpaces_close hblanks rfl rest)
  | object h =>
    exact value?_members (h.skipSpaces_ne rest)
      (members?_of_writes h (Nat.le_of_succ_le_succ hfuel) rest)

theorem items?_of_writes {js : List Json} {cs : List Char} (h : WritesItems js cs) {fuel : Nat}
    (hfuel : cs.length ≤ fuel) (rest : List Char) : items? fuel (cs ++ rest) = some (js, rest) := by
  cases h with
  | last hbefore h hafter =>
    simp only [List.length_append, List.length_cons] at hfuel
    obtain ⟨fuel, rfl⟩ : ∃ n, fuel = n + 1 := ⟨fuel - 1, by omega⟩
    simp only [List.append_assoc, List.cons_append, List.nil_append]
    exact items?_last (h.value?_padded (value?_of_writes h (by omega)) hbefore hafter rfl rest)
      (skipSpaces_close hafter rfl rest)
  | more hbefore h hafter hmore =>
    simp only [List.length_append, List.length_cons] at hfuel
    obtain ⟨fuel, rfl⟩ : ∃ n, fuel = n + 1 := ⟨fuel - 1, by omega⟩
    simp only [List.append_assoc, List.cons_append]
    exact items?_more (h.value?_padded (value?_of_writes h (by omega)) hbefore hafter rfl _)
      (skipSpaces_close hafter rfl _) (items?_of_writes hmore (by omega) rest)

theorem members?_of_writes {ms : List (Option String × Json)} {cs : List Char}
    (h : WritesMembers ms cs) {fuel : Nat} (hfuel : cs.length ≤ fuel) (rest : List Char) :
    members? fuel (cs ++ rest) = some (ms, rest) := by
  cases h with
  | @last k j before middle between cs after hbefore hmiddle hbetween h hafter =>
    simp only [List.length_append, List.length_cons] at hfuel
    obtain ⟨fuel, rfl⟩ : ∃ n, fuel = n + 1 := ⟨fuel - 1, by omega⟩
    simp only [List.append_assoc, List.cons_append, List.nil_append]
    obtain ⟨key, hkey, hk⟩ := skipSpaces_key hbefore k
      (middle ++ ':' :: (between ++ (cs ++ (after ++ '}' :: rest))))
    exact members?_last hkey hk (skipSpaces_close hmiddle rfl _)
      (h.value?_padded (value?_of_writes h (by omega)) hbetween hafter rfl rest)
      (skipSpaces_close hafter rfl rest)
  | @more k j ms before middle between cs after ds hbefore hmiddle hbetween h hafter hmore =>
    simp only [List.length_append, List.length_cons] at hfuel
    obtain ⟨fuel, rfl⟩ : ∃ n, fuel = n + 1 := ⟨fuel - 1, by omega⟩
    simp only [List.append_assoc, List.cons_append]
    obtain ⟨key, hkey, hk⟩ := skipSpaces_key hbefore k
      (middle ++ ':' :: (between ++ (cs ++ (after ++ ',' :: (ds ++ rest)))))
    exact members?_more hkey hk (skipSpaces_close hmiddle rfl _)
      (h.value?_padded (value?_of_writes h (by omega)) hbetween hafter rfl _)
      (skipSpaces_close hafter rfl _) (members?_of_writes hmore (by omega) rest)

end

/-- The text is one of the value, with any blanks around it. -/
def LaidOut (j : Json) (s : String) : Prop :=
  ∃ before cs after, Blank before ∧ Writes j cs ∧ Blank after ∧ s.toList = before ++ (cs ++ after)

/-- A text of a value is read as the value. -/
theorem LaidOut.parse?_eq {j : Json} {s : String} (h : LaidOut j s) : parse? s = some j := by
  obtain ⟨before, cs, after, hbefore, hwrites, hafter, hs⟩ := h
  have hends : EndsNumber after := by
    rw [← List.append_nil after]
    exact endsNumber_append hafter nofun
  have hfuel : cs.length ≤ 2 * s.toList.length + 2 := by
    rw [hs, List.length_append, List.length_append]
    omega
  unfold parse? ofChars?
  rw [hs, hwrites.value?_append hbefore, ← hs, value?_of_writes hwrites hfuel hends]
  simp [skipSpaces_blank hafter]

/-! ## Layouts -/

theorem blank_newline (depth : Nat) : Blank (newline depth) := by
  intro c hc
  rcases List.mem_cons.1 hc with rfl | hc
  · rfl
  · rw [(List.mem_replicate.1 hc).2]
    rfl

theorem blank_space : Blank [' '] := by
  intro c hc
  rw [List.mem_singleton.1 hc]
  rfl

mutual

/-- The layout without blanks writes the value. -/
theorem writes_chars : (j : Json) → Writes j j.chars
  | .null => .null
  | .bool b => .bool b
  | .number n => .number n
  | .string s => .string s
  | .array [] => .noItems blank_nil
  | .array (j :: js) => .array (writesItems_chars js (writes_chars j))
  | .object [] => .noMembers blank_nil
  | .object ((k, j) :: ms) => .object (by
    have h := writesMembers_chars ms (writes_chars j) k
    rw [← List.append_assoc] at h
    exact h)

theorem writesItems_chars : (js : List Json) → ∀ {j : Json} {cs : List Char}, Writes j cs →
    WritesItems (j :: js) (cs ++ itemChars js)
  | [], _, _, h => .last blank_nil h blank_nil
  | j :: js, _, _, h => .more blank_nil h blank_nil (writesItems_chars js (writes_chars j))

theorem writesMembers_chars : (ms : List (Option String × Json)) → ∀ {j : Json} {cs : List Char},
    Writes j cs → ∀ k, WritesMembers ((k, j) :: ms) (stringChars k ++ (':' :: cs ++ memberChars ms))
  | [], _, _, h, _ => .last blank_nil blank_nil blank_nil h blank_nil
  | (k, j) :: ms, _, _, h, _ => by
    have hmore := writesMembers_chars ms (writes_chars j) k
    rw [← List.append_assoc] at hmore
    exact .more blank_nil blank_nil blank_nil h blank_nil hmore

end

mutual

/-- The layout over lines writes the value, at any depth. -/
theorem writes_prettyChars : (depth : Nat) → (j : Json) → Writes j (j.prettyChars depth)
  | _, .null => .null
  | _, .bool b => .bool b
  | _, .number n => .number n
  | _, .string s => .string s
  | _, .array [] => .noItems blank_nil
  | depth, .array (j :: js) => .array (by
    have h := writesItems_prettyItems depth js (writes_prettyChars (depth + 1) j)
    rw [← List.append_assoc] at h
    exact h)
  | _, .object [] => .noMembers blank_nil
  | depth, .object ((k, j) :: ms) => .object (by
    have h := writesMembers_prettyMembers depth ms (writes_prettyChars (depth + 1) j) k
    rw [← List.append_assoc, ← List.append_assoc] at h
    exact h)

theorem writesItems_prettyItems : (depth : Nat) → (js : List Json) → ∀ {j : Json} {cs : List Char},
    Writes j cs → WritesItems (j :: js) (newline (depth + 1) ++ (cs ++ prettyItems depth js))
  | depth, [], _, _, h => .last (blank_newline _) h (blank_newline depth)
  | depth, j :: js, _, _, h => by
    have hmore := writesItems_prettyItems depth js (writes_prettyChars (depth + 1) j)
    rw [← List.append_assoc] at hmore
    exact .more (blank_newline _) h blank_nil hmore

theorem writesMembers_prettyMembers : (depth : Nat) → (ms : List (Option String × Json)) →
    ∀ {j : Json} {cs : List Char}, Writes j cs → ∀ k, WritesMembers ((k, j) :: ms)
      (newline (depth + 1) ++ (stringChars k ++ (':' :: ' ' :: cs ++ prettyMembers depth ms)))
  | depth, [], _, _, h, _ => .last (blank_newline _) blank_nil blank_space h (blank_newline depth)
  | depth, (k, j) :: ms, _, _, h, _ => by
    have hmore := writesMembers_prettyMembers depth ms (writes_prettyChars (depth + 1) j) k
    rw [← List.append_assoc, ← List.append_assoc] at hmore
    exact .more (blank_newline _) blank_nil blank_space h blank_nil hmore

end

theorem laidOut_compact (j : Json) : LaidOut j j.compact := by
  refine ⟨[], j.chars, [], blank_nil, writes_chars j, blank_nil, ?_⟩
  rw [compact, String.toList_ofList, List.append_nil, List.nil_append]

theorem laidOut_pretty (j : Json) : LaidOut j j.pretty := by
  refine ⟨[], j.prettyChars 0, [], blank_nil, writes_prettyChars 0 j, blank_nil, ?_⟩
  rw [pretty, String.toList_ofList, List.append_nil, List.nil_append]

/-- A value is read back from its layout without blanks. -/
theorem parse?_compact (j : Json) : parse? j.compact = some j := (laidOut_compact j).parse?_eq

theorem parse?_pretty (j : Json) : parse? j.pretty = some j := (laidOut_pretty j).parse?_eq

end BipartiteBatch.Json
