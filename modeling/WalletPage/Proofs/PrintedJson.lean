import WalletPage.Json.Decode
import WalletPage.Json.Printer

/-! Compact JSON is read back as it was printed. The reader takes exactly the
characters of a value off the front of a text, whatever follows them, and finds
no fault on its way. Numbers are restricted to the whole numbers of 64 bits
without sign: only those are written into the store. -/

namespace WalletPage

namespace Reader

/-! ### Strings -/

theorem hexDigit?_digitChar {d : Nat} (h : d < 16) : hexDigit? (Nat.digitChar d) = some d := by
  revert h d
  decide

/-- Reading the escaped form of a character is reading the character. -/
theorem string_escaped (p : Unfinished) (hp : p.lead = none) (c : Char) (cs : List Char) :
    string p .plain (Json.escaped c ++ cs) = string (p.push c) .plain cs := by
  have hclose : p.closeLead = p := by simp [Unfinished.closeLead, hp]
  unfold Json.escaped
  split
  case h_8 hq hb _ _ _ _ _ =>
    split
    · rename_i hc
      have hhigh := hexDigit?_digitChar (d := c.toNat / 16) (by omega)
      have hlow := hexDigit?_digitChar (d := c.toNat % 16) (by omega)
      have hunit : c.toNat / 16 * 16 + c.toNat % 16 = c.toNat := by omega
      have hpush : p.pushUnit c.toNat = p.push c := by
        simp [Unfinished.pushUnit, hp, show ¬ (0xDC00 ≤ c.toNat) by omega,
          show ¬ (0xD800 ≤ c.toNat) by omega]
      have hzero : hexDigit? '0' = some 0 := by decide
      simp [string, hzero, hhigh, hlow, hunit, hpush]
    · rename_i hc
      have hq : c ≠ '"' := hq
      have hb : c ≠ '\\' := hb
      simp [string, hq, hb, hc, hclose]
  all_goals simp [string, shortEscape?, hclose]

theorem string_flatMap (s : List Char) (p : Unfinished) (hp : p.lead = none) (rest : List Char) :
    string p .plain (s.flatMap Json.escaped ++ '"' :: rest) =
      .ok ({ p with chars := s.reverse ++ p.chars }.result, rest) := by
  induction s generalizing p with
  | nil => simp [string, Unfinished.closeLead, hp, Unfinished.result]
  | cons c s ih =>
    rw [List.flatMap_cons, List.append_assoc, string_escaped p hp, ih (p.push c) hp]
    simp [Unfinished.push]

theorem string_literal (s : String) (rest : List Char) :
    string {} .plain (s.toList.flatMap Json.escaped ++ '"' :: rest) = .ok (.ok s, rest) := by
  rw [string_flatMap _ _ rfl]
  simp [Unfinished.result]

/-! ### Numbers -/

/-- What follows a number and cannot belong to it. -/
def EndsNumber (rest : List Char) : Prop :=
  ∀ c ∈ rest.head?, c.isDigit = false ∧ c ≠ '.' ∧ c ≠ 'e' ∧ c ≠ 'E'

/-- The value of a decimal digit. -/
def digitValue (c : Char) : Nat :=
  c.toNat - '0'.toNat

theorem digitRun_append {ds : List Char} (hd : ∀ c ∈ ds, c.isDigit) {rest : List Char}
    (hr : EndsNumber rest) : digitRun (ds ++ rest) = (ds.map digitValue, rest) := by
  induction ds with
  | nil =>
    cases rest with
    | nil => rfl
    | cons c rest => simp [digitRun, (hr c rfl).1]
  | cons c ds ih =>
    have hc : c.isDigit := hd c List.mem_cons_self
    have hrest := ih fun d h => hd d (List.mem_cons_of_mem _ h)
    simp [digitRun, hc, hrest, digitValue]

theorem isDigit_of_mem_natDigits {n : Nat} {c : Char} (h : c ∈ Decimal.natDigits n) : c.isDigit :=
  Nat.isDigit_of_mem_toDigits (by omega) (by omega) h

/-- A digit is no blank and no closing bracket. -/
theorem not_special_of_isDigit {c : Char} (h : c.isDigit) :
    isSpace c = false ∧ c ≠ ']' ∧ c ≠ '\x7d' := by
  have hne (d : Char) (hd : d.isDigit = false) : c ≠ d := by
    rintro rfl
    rw [hd] at h
    exact Bool.false_ne_true h
  refine ⟨?_, hne _ rfl, hne _ rfl⟩
  simp [isSpace, hne ' ' rfl, hne '\n' rfl, hne '\t' rfl, hne '\r' rfl]

theorem ofDigits_natDigits (n : Nat) : ofDigits ((Decimal.natDigits n).map digitValue) = n := by
  have h := Nat.ofDigitChars_ten_toDigits (n := n)
  rw [Nat.ofDigitChars_eq_foldl] at h
  simpa [ofDigits, List.foldl_map, digitValue, Decimal.natDigits, Nat.mul_comm] using h

theorem head_natDigits {n : Nat} (hn : 0 < n) : (Decimal.natDigits n).head? ≠ some '0' := by
  induction n using Nat.strongRecOn with
  | ind n ih =>
    by_cases hlt : n < 10
    · rw [Decimal.natDigits, Nat.toDigits_of_lt_base hlt]
      simp; omega
    · have hprefix := ih (n / 10) (by omega) (by omega)
      rw [Decimal.natDigits] at hprefix ⊢
      rw [Nat.toDigits_of_base_le (by omega) (by omega), List.head?_append]
      cases hd : (Nat.toDigits 10 (n / 10)).head? with
      | none => simp [Nat.toDigits_ne_nil] at hd
      | some d => simpa [hd] using hprefix

/-- Decimal digits have no superfluous zero in front. -/
theorem natDigits_ne_zero_cons (n d : Nat) (ds : List Nat) :
    (Decimal.natDigits n).map digitValue ≠ 0 :: d :: ds := by
  intro h
  rcases Nat.eq_zero_or_pos n with rfl | hn
  · simp [Decimal.natDigits] at h
  · cases hc : Decimal.natDigits n with
    | nil => simp [Decimal.natDigits, Nat.toDigits_ne_nil] at hc
    | cons c cs =>
      have hdigit : c.isDigit := isDigit_of_mem_natDigits (n := n) (by simp [hc])
      rw [Char.isDigit_iff_toNat] at hdigit
      have hzero : digitValue c = 0 := by simp [hc] at h; exact h.1
      have : c = '0' := Char.toNat_inj.mp (by simp [digitValue] at hzero hdigit ⊢; omega)
      exact head_natDigits hn (by simp [hc, this])

theorem number_natDigits {n : Nat} (hn : n < UInt64.size) {rest : List Char}
    (hr : EndsNumber rest) :
    number false (Decimal.natDigits n ++ rest) = (.number (.ok (.int n)), rest) := by
  have hwhole : whole false ((Decimal.natDigits n).map digitValue) = .ok (.int n) := by
    simp [whole, ofDigits_natDigits, hn]
  have hcut (c : Char) (cs : List Char) (h : rest = c :: cs) : c ≠ '.' ∧ c ≠ 'e' ∧ c ≠ 'E' :=
    (hr c (by simp [h])).2
  rw [number, digitRun_append (fun c h => isDigit_of_mem_natDigits h) hr]
  split <;> rename_i h <;> obtain ⟨hds, hrest⟩ := Prod.mk.inj h
  · simp [Decimal.natDigits, Nat.toDigits_ne_nil] at hds
  · exact absurd hds (natDigits_ne_zero_cons _ _ _)
  · exact absurd rfl (hcut _ _ hrest).1
  · exact absurd rfl (hcut _ _ hrest).2.1
  · exact absurd rfl (hcut _ _ hrest).2.2
  · rw [← hds, ← hrest, hwhole]

end Reader

/-! ### Values -/

namespace Json

mutual

/-- Whether every number in a value is a whole number of 64 bits without sign. -/
def Plain : Json → Prop
  | number n => ∃ m : Nat, n = .int m ∧ m < UInt64.size
  | array items => PlainItems items
  | object fields => PlainFields fields
  | _ => True

/-- Whether all items are plain. -/
def PlainItems : List Json → Prop
  | [] => True
  | item :: rest => Plain item ∧ PlainItems rest

/-- Whether the values of all fields are plain. -/
def PlainFields : List (String × Json) → Prop
  | [] => True
  | (_, value) :: rest => Plain value ∧ PlainFields rest

end

mutual

/-- A value as it is met in a text without faults. -/
def draft : Json → Draft
  | null => .null
  | bool b => .bool b
  | number n => .number (.ok n)
  | string s => .string (.ok s)
  | array items => .array (draftItems items) none
  | object fields => .object (draftFields fields) none

/-- The drafts of items. -/
def draftItems : List Json → List Draft
  | [] => []
  | item :: rest => draft item :: draftItems rest

/-- The drafts of fields. -/
def draftFields : List (String × Json) → List (Except Fault String × Draft)
  | [] => []
  | (name, value) :: rest => (.ok name, draft value) :: draftFields rest

end

@[simp] theorem break?_draft (j : Json) : j.draft.break? = none := by
  cases j <;> rfl

/-- Items with a comma before each. -/
def moreItems (items : List Json) : List Char :=
  items.flatMap fun item => ',' :: item.chars

/-- Fields with a comma before each. -/
def moreFields (fields : List (String × Json)) : List Char :=
  fields.flatMap fun (name, value) => ',' :: literal name ++ ':' :: value.chars

theorem itemChars_cons (item : Json) (rest : List Json) :
    itemChars (item :: rest) = item.chars ++ moreItems rest := by
  induction rest generalizing item with
  | nil => simp [itemChars, moreItems]
  | cons next rest ih => simp [itemChars, ih next, moreItems]

theorem fieldChars_cons (name : String) (value : Json) (rest : List (String × Json)) :
    fieldChars ((name, value) :: rest) =
      literal name ++ ':' :: (value.chars ++ moreFields rest) := by
  induction rest generalizing name value with
  | nil => simp [fieldChars, moreFields]
  | cons next rest ih => simp [fieldChars, ih next.1 next.2, moreFields]

theorem moreItems_cons (item : Json) (rest : List Json) :
    moreItems (item :: rest) = ',' :: (item.chars ++ moreItems rest) := rfl

theorem moreFields_cons (name : String) (value : Json) (rest : List (String × Json)) :
    moreFields ((name, value) :: rest) =
      ',' :: (literal name ++ ':' :: (value.chars ++ moreFields rest)) := by
  simp [moreFields]

theorem length_itemChars_le (items : List Json) :
    (itemChars items).length ≤ (moreItems items).length := by
  cases items with
  | nil => simp [itemChars]
  | cons item rest => simp [itemChars_cons, moreItems_cons]

theorem length_fieldChars_le (fields : List (String × Json)) :
    (fieldChars fields).length ≤ (moreFields fields).length := by
  cases fields with
  | nil => simp [fieldChars]
  | cons field rest =>
    obtain ⟨name, value⟩ := field
    rw [fieldChars_cons, moreFields_cons]
    exact Nat.le_succ _

/-- A value starts with a character that starts nothing else. -/
theorem chars_eq_cons {j : Json} (hj : j.Plain) :
    ∃ c cs, j.chars = c :: cs ∧ Reader.isSpace c = false ∧ c ≠ ']' ∧ c ≠ '\x7d' := by
  cases j with
  | null => exact ⟨_, _, rfl, by decide⟩
  | bool b => cases b <;> exact ⟨_, _, rfl, by decide⟩
  | string s => exact ⟨_, _, rfl, by decide⟩
  | array items => exact ⟨_, _, rfl, by decide⟩
  | object fields => exact ⟨_, _, rfl, by decide⟩
  | number n =>
    obtain ⟨m, rfl, -⟩ := hj
    cases hd : Decimal.natDigits m with
    | nil => simp [Decimal.natDigits, Nat.toDigits_ne_nil] at hd
    | cons c cs =>
      have hc : c.isDigit := Reader.isDigit_of_mem_natDigits (n := m) (by simp [hd])
      refine ⟨c, cs, ?_, ?_⟩
      · simpa [chars, Number.text, Decimal.intDigits] using hd
      · exact Reader.not_special_of_isDigit hc

end Json

namespace Reader

open Json

theorem skipSpace_cons {c : Char} (hc : isSpace c = false) (cs : List Char) :
    skipSpace (c :: cs) = c :: cs := by
  simp [skipSpace, hc]

theorem endsNumber_cons {c : Char} (h : c.isDigit = false ∧ c ≠ '.' ∧ c ≠ 'e' ∧ c ≠ 'E')
    (cs : List Char) : EndsNumber (c :: cs) := by
  intro d hd
  obtain rfl : c = d := by simpa using hd
  exact h

theorem nextItem?_close (b : Brackets) (first : Bool) (cs : List Char) :
    nextItem? b first (b.close :: cs) = .ok none := by
  cases b <;> simp [nextItem?, skipSpace, Brackets.close, isSpace]

theorem nextItem?_first (b : Brackets) {c : Char} (hs : isSpace c = false) (hc : c ≠ b.close)
    (cs : List Char) : nextItem? b true (c :: cs) = .ok (some (c :: cs)) := by
  simp [nextItem?, skipSpace_cons hs, hc]

theorem nextItem?_comma (b : Brackets) {c : Char} (hs : isSpace c = false) (hc : c ≠ b.close)
    (cs : List Char) : nextItem? b false (',' :: c :: cs) = .ok (some (c :: cs)) := by
  have hcomma : ',' ≠ b.close := by cases b <;> decide
  simp [nextItem?, skipSpace_cons (c := ',') rfl, skipSpace_cons hs, hc, hcomma]

theorem key_literal (name : String) (rest : List Char) :
    key (Json.literal name ++ ':' :: rest) = .ok (.ok name, .ok rest) := by
  have h := string_literal name (':' :: rest)
  simp only [Json.literal, List.cons_append, List.append_assoc, List.nil_append, key, h]
  rfl

theorem behindClose_close (b : Brackets) (cs : List Char) :
    behindClose (b.close :: cs) = cs := by
  cases b <;> simp [behindClose, skipSpace, Brackets.close, isSpace]

theorem value_digit {c : Char} (hc : c.isDigit) (fuel : Nat) (cs : List Char) :
    value (fuel + 1) (c :: cs) = number false (c :: cs) := by
  have hne (d : Char) (hd : d.isDigit = false) : c ≠ d := by
    rintro rfl
    rw [hd] at hc
    exact Bool.false_ne_true hc
  rw [value, skipSpace_cons (not_special_of_isDigit hc).1]
  split
  case h_9 h =>
    obtain ⟨rfl, rfl⟩ := List.cons.inj h
    rw [if_pos hc]
  all_goals
    rename_i h
    simp only [List.cons.injEq, reduceCtorEq] at h
  all_goals exact absurd h.1 (hne _ rfl)

theorem endsNumber_moreItems (xs : List Json) (rest : List Char) :
    EndsNumber (moreItems xs ++ ']' :: rest) := by
  cases xs <;> exact endsNumber_cons (by decide) _

theorem endsNumber_moreFields (fs : List (String × Json)) (rest : List Char) :
    EndsNumber (moreFields fs ++ '\x7d' :: rest) := by
  cases fs with
  | nil => exact endsNumber_cons (by decide) _
  | cons f fs => rw [moreFields_cons]; exact endsNumber_cons (by decide) _

mutual

/-- A printed value is read as its draft, up to its last character. -/
theorem value_chars (j : Json) (hj : j.Plain) (fuel : Nat) (hf : 2 * j.chars.length ≤ fuel)
    (rest : List Char) (hr : EndsNumber rest) :
    value fuel (j.chars ++ rest) = (j.draft, rest) := by
  obtain ⟨c, cs, hc, -, -, -⟩ := chars_eq_cons hj
  obtain ⟨fuel, rfl⟩ : ∃ f, fuel = f + 1 := ⟨fuel - 1, by rw [hc] at hf; simp at hf; omega⟩
  match j with
  | .null => rfl
  | .bool b => cases b <;> rfl
  | .string s =>
    have h := string_literal s rest
    simp only [chars, literal, List.cons_append, List.append_assoc, List.nil_append]
    simp only [value, skipSpace_cons (c := '"') rfl, h]
    rfl
  | .number n =>
    obtain ⟨m, rfl, hm⟩ := hj
    have hdigits : (Json.number (.int m)).chars = Decimal.natDigits m := rfl
    have hdigit : c.isDigit := by
      rw [hdigits] at hc
      exact isDigit_of_mem_natDigits (n := m) (by simp [hc])
    have h := number_natDigits hm hr
    rw [← hdigits, hc, List.cons_append] at h
    rw [hc, List.cons_append, value_digit hdigit, h]
    rfl
  | .array xs =>
    have h := items_chars xs hj true fuel (by simp [chars] at hf; omega) rest
    simp only [↓reduceIte] at h
    simp only [chars, List.cons_append, List.append_assoc, List.nil_append]
    simp only [value, skipSpace_cons (c := '[') rfl, h]
    rfl
  | .object fs =>
    have h := fields_chars fs hj true fuel (by simp [chars] at hf; omega) rest
    simp only [↓reduceIte] at h
    simp only [chars, List.cons_append, List.append_assoc, List.nil_append]
    simp only [value, skipSpace_cons (c := '\x7b') rfl, h]
    rfl

/-- Printed items are read as their drafts, up to the closing bracket. -/
theorem items_chars (xs : List Json) (hi : PlainItems xs) (first : Bool) (fuel : Nat)
    (hf : 2 * (itemChars xs).length + 2 ≤ fuel) (rest : List Char) :
    items fuel first ((if first then itemChars xs else moreItems xs) ++ ']' :: rest) =
      (draftItems xs, none, rest) := by
  obtain ⟨fuel, rfl⟩ : ∃ f, fuel = f + 1 := ⟨fuel - 1, by omega⟩
  match xs with
  | [] =>
    have hempty : (if first then itemChars [] else moreItems []) = [] := by cases first <;> rfl
    have hnext : nextItem? .square first (']' :: rest) = .ok none := nextItem?_close .square _ _
    rw [hempty, List.nil_append, items, hnext]
    exact congrArg (([], none, ·)) (behindClose_close .square rest)
  | x :: xs =>
    obtain ⟨c, cs, hc, hs, hclose, -⟩ := chars_eq_cons hi.1
    have hnext : nextItem? .square first
        ((if first then itemChars (x :: xs) else moreItems (x :: xs)) ++ ']' :: rest) =
          .ok (some (x.chars ++ (moreItems xs ++ ']' :: rest))) := by
      rw [itemChars_cons, moreItems_cons, hc]
      cases first
      · simpa using nextItem?_comma .square hs hclose (cs ++ (moreItems xs ++ ']' :: rest))
      · simpa using nextItem?_first .square hs hclose (cs ++ (moreItems xs ++ ']' :: rest))
    have hlength := length_itemChars_le xs
    rw [itemChars_cons, List.length_append] at hf
    have hpos : 0 < x.chars.length := by simp [hc]
    have hvalue := value_chars x hi.1 fuel (by omega) _ (endsNumber_moreItems xs rest)
    have hmore := items_chars xs hi.2 false fuel (by omega) rest
    simp only [Bool.false_eq_true, ↓reduceIte] at hmore
    rw [items, hnext]
    simp only [hvalue, break?_draft, hmore]
    rfl

/-- Printed fields are read as their drafts, up to the closing brace. -/
theorem fields_chars (fs : List (String × Json)) (hi : PlainFields fs) (first : Bool)
    (fuel : Nat) (hf : 2 * (fieldChars fs).length + 2 ≤ fuel) (rest : List Char) :
    fields fuel first ((if first then fieldChars fs else moreFields fs) ++ '\x7d' :: rest) =
      (draftFields fs, none, rest) := by
  obtain ⟨fuel, rfl⟩ : ∃ f, fuel = f + 1 := ⟨fuel - 1, by omega⟩
  match fs with
  | [] =>
    have hempty : (if first then fieldChars [] else moreFields []) = [] := by cases first <;> rfl
    have hnext : nextItem? .curly first ('\x7d' :: rest) = .ok none := nextItem?_close .curly _ _
    rw [hempty, List.nil_append, fields, hnext]
    exact congrArg (([], none, ·)) (behindClose_close .curly rest)
  | (name, x) :: fs =>
    have hnext : nextItem? .curly first
        ((if first then fieldChars ((name, x) :: fs) else moreFields ((name, x) :: fs)) ++
          '\x7d' :: rest) =
        .ok (some (literal name ++ ':' :: (x.chars ++ (moreFields fs ++ '\x7d' :: rest)))) := by
      rw [fieldChars_cons, moreFields_cons, literal]
      cases first
      · simpa using nextItem?_comma .curly (c := '"') rfl (by decide) _
      · simpa using nextItem?_first .curly (c := '"') rfl (by decide) _
    have hlength := length_fieldChars_le fs
    rw [fieldChars_cons] at hf
    simp only [literal, List.length_append, List.length_cons] at hf
    have hvalue := value_chars x hi.1 fuel (by omega) _ (endsNumber_moreFields fs rest)
    have hmore := fields_chars fs hi.2 false fuel (by omega) rest
    simp only [Bool.false_eq_true, ↓reduceIte] at hmore
    rw [fields, hnext]
    simp only [key_literal, hvalue, break?_draft, hmore]
    rfl

end

end Reader

/-- Compact JSON is read as its draft, with nothing left behind it. -/
theorem Draft.read_compact {j : Json} (hj : j.Plain) : Draft.read j.compact = (j.draft, []) := by
  have h := Reader.value_chars j hj (Reader.fuelFor j.chars) (by simp [Reader.fuelFor]) []
    (by intro c hc; simp at hc)
  simpa [Draft.read, Json.compact] using h

/-- Compact JSON is decoded as its draft is. -/
theorem Document.decodeText_compact {α : Type} (read : Document → Decoded α) {j : Json}
    (hj : j.Plain) : decodeText read j.compact = read (.text j.draft Draft.depthLimit) := by
  have htext : ofText j.compact = (.text j.draft Draft.depthLimit, []) := by
    rw [ofText, Draft.read_compact hj]
  rw [decodeText, htext]
  exact bind_pure (read (.text j.draft Draft.depthLimit))

end WalletPage
