import Mathlib.Data.List.Forall2
import Mathlib.Data.List.TakeWhile
import WalletPage.Proofs.Conclusions
import WalletPage.Proofs.Mirrors
import WalletPage.Proofs.PageEffects
import WalletPage.Proofs.PayloadGrammar
import WalletPage.Proofs.PrintedJson

/-! Two spellings of one payload. The items of a payload, the parts of a transaction and the page
numbers may each be a value or the text of that value as a string. Nobody can tell which it was:
the payload is read as the same snapshot, or refused with the same complaint, and a view that
shows the snapshot already is not painted again. -/

namespace WalletPage

open Document

/-! ### Page numbers in texts -/

namespace Text

theorem mem_trimmed {c : Char} {cs : List Char} (hc : isBlank c = false) (h : c ∈ cs) :
    c ∈ trimmed cs := by
  have hdrop {l : List Char} (hl : c ∈ l) : c ∈ l.dropWhile isBlank := by
    rw [← List.takeWhile_append_dropWhile (p := isBlank) (l := l), List.mem_append] at hl
    refine hl.resolve_left fun htake => ?_
    rw [List.mem_takeWhile_imp htake] at hc
    contradiction
  exact List.mem_reverse.mpr (hdrop (List.mem_reverse.mpr (hdrop h)))

theorem trimmed_of_forall {cs : List Char} (h : ∀ c ∈ cs, isBlank c = false) :
    trimmed cs = cs := by
  have hdrop {l : List Char} (hl : ∀ c ∈ l, isBlank c = false) : l.dropWhile isBlank = l := by
    cases l with
    | nil => rfl
    | cons c l => rw [List.dropWhile_cons, if_neg (by simp [hl c List.mem_cons_self])]
  rw [trimmed, hdrop h, hdrop fun c hc => h c (List.mem_reverse.mp hc), List.reverse_reverse]

theorem isBlank_of_isDigit {c : Char} (h : c.isDigit) : isBlank c = false := by
  rw [Char.isDigit_iff_toNat] at h
  have hcode : 48 ≤ c.toNat ∧ c.toNat ≤ 57 := h
  simp [isBlank]
  omega

end Text

theorem Reader.isDigit_of_digitRun {cs : List Char} {ds : List Nat}
    (h : digitRun cs = (ds, [])) : ∀ c ∈ cs, c.isDigit := by
  induction cs generalizing ds with
  | nil => exact List.forall_mem_nil _
  | cons c cs ih =>
    rw [digitRun] at h
    split at h
    · rename_i hc
      exact List.forall_mem_cons.mpr ⟨hc, ih (Prod.ext rfl (Prod.mk.inj h).2)⟩
    · cases h

/-- The digits of a number are read as the number, if it fits. -/
theorem naturalOfText?_natDigits (n : Nat) :
    naturalOfText? (Decimal.natDigits n) = if n < UInt64.size then some n else none := by
  have hrun : Reader.digitRun (Decimal.natDigits n) =
      ((Decimal.natDigits n).map Reader.digitValue, []) := by
    have happend : Reader.digitRun (Decimal.natDigits n ++ []) = _ :=
      Reader.digitRun_append (fun c hc => Reader.isDigit_of_mem_natDigits hc) nofun
    rwa [List.append_nil] at happend
  have hvalue := Reader.ofDigits_natDigits n
  cases hdigits : Decimal.natDigits n with
  | nil => simp [Decimal.natDigits, Nat.toDigits_ne_nil] at hdigits
  | cons c cs =>
    -- A digit comes first, so no plus sign is taken away.
    have hplus : c ≠ '+' := by
      rintro rfl
      have hdigit : '+'.isDigit := Reader.isDigit_of_mem_natDigits (n := n) (by simp [hdigits])
      contradiction
    rw [hdigits] at hrun hvalue
    rw [List.map_cons] at hrun hvalue
    unfold naturalOfText?
    extract_lets digits
    have hsame : digits = c :: cs := by
      dsimp only [digits]
      split
      · rename_i heq
        exact absurd (List.cons.inj heq).1 hplus
      · rfl
    rw [hsame, hrun]
    dsimp only
    rw [hvalue]

/-- Whether a character cannot stand in a number, nor around one. -/
def Text.IsMark (c : Char) : Prop :=
  isBlank c = false ∧ c.isDigit = false ∧ c ≠ '+'

instance (c : Char) : Decidable (Text.IsMark c) :=
  inferInstanceAs (Decidable (_ ∧ _))

theorem naturalOfText?_eq_none {c : Char} {cs : List Char} (hmem : c ∈ cs) (hc : Text.IsMark c) :
    naturalOfText? cs = none := by
  obtain ⟨-, hdigit, hplus⟩ := hc
  unfold naturalOfText?
  extract_lets digits
  have hmem : c ∈ digits := by
    dsimp only [digits]
    split
    · exact (List.mem_cons.mp hmem).resolve_left hplus
    · exact hmem
  clear_value digits
  split
  · rename_i hrun
    rw [Reader.isDigit_of_digitRun hrun c hmem] at hdigit
    contradiction
  · rfl

/-- The text of a floating point number is not that of a natural number: it has a decimal point
or an exponent, or else it is `null`. -/
theorem Decimal.Binary64.exists_mark (x : Binary64) : ∃ c ∈ x.text, Text.IsMark c := by
  have hshortest (s : Shortest) : ∃ c ∈ s.text, Text.IsMark c := by
    unfold Shortest.text
    dsimp only
    split
    · refine ⟨'.', ?_, by decide⟩
      unfold positional
      split
      · simp
      · split <;> simp
    · exact ⟨'e', by simp [scientific], by decide⟩
  unfold text
  split
  · extract_lets magnitude
    have hmagnitude : ∃ c ∈ magnitude, Text.IsMark c := by
      dsimp only [magnitude]
      split
      · exact ⟨'.', by simp, by decide⟩
      · exact hshortest _
    split
    · exact ⟨'-', List.mem_cons_self, by decide⟩
    · exact hmagnitude
  · exact ⟨'n', List.mem_cons_self, by decide⟩

namespace PageNumber

/-- A text with a character that no number has stands for no page. -/
theorem ofJson_string_eq_zero {cs : List Char} {c : Char} (hmem : c ∈ cs) (hc : Text.IsMark c) :
    ofJson (.string (String.ofList cs)) = 0 := by
  rw [ofJson, String.toList_ofList, naturalOfText?_eq_none (Text.mem_trimmed hc.1 hmem) hc]
  rfl

theorem ofJson_string_natDigits (n : Nat) :
    ofJson (.string (String.ofList (Decimal.natDigits n))) = ofJson (.number (.int n)) := by
  have htrimmed : Text.trimmed (Decimal.natDigits n) = Decimal.natDigits n :=
    Text.trimmed_of_forall fun c hc => Text.isBlank_of_isDigit (Reader.isDigit_of_mem_natDigits hc)
  have hfits : (0 ≤ (n : Int) ∧ (n : Int) < UInt64.size) ↔ n < UInt64.size :=
    ⟨fun h => Int.ofNat_lt.mp h.2, fun h => ⟨Int.natCast_nonneg n, Int.ofNat_lt.mpr h⟩⟩
  rw [ofJson, ofJson, String.toList_ofList, htrimmed, naturalOfText?_natDigits, Number.natural?]
  simp only [hfits, Int.toNat_natCast]

/-- A page number is read from a number and from the text of any value alike: what is no natural
number of 64 bits stands for no page in either spelling. -/
theorem ofJson_valueText (json : Json) : ofJson (.string json.valueText) = ofJson json := by
  cases json with
  | null => rfl
  | bool b => cases b <;> exact ofJson_string_eq_zero List.mem_cons_self (by decide)
  | string s => rfl
  | array items => exact ofJson_string_eq_zero List.mem_cons_self (c := '[') (by decide)
  | object fields => exact ofJson_string_eq_zero List.mem_cons_self (c := '\x7b') (by decide)
  | number n =>
    cases n with
    -- As a number it is no natural one; as a text it has a mark, even if it is a whole number.
    | real x =>
      obtain ⟨c, hmem, hc⟩ := x.exists_mark
      exact ofJson_string_eq_zero hmem hc
    | int n =>
      cases n with
      | ofNat n => exact ofJson_string_natDigits n
      | negSucc n => exact ofJson_string_eq_zero List.mem_cons_self (c := '-') (by decide)

end PageNumber

/-! ### Respelled payloads -/

namespace Respelling

/-- A value, or its text as a string. -/
inductive Item (json : Json) : Json → Prop
  | same : Item json json
  | text : Item json (.string json.valueText)

/-- A field of a transaction, whose value may be respelled if it is one of the seven parts. -/
inductive LineField : String × Json → String × Json → Prop
  | same (field : String × Json) : LineField field field
  | part {name : String} {json json' : Json} (hname : name ∈ TxLine.parts.map (·.1))
    (hitem : Item json json') : LineField (name, json) (name, json')

/-- A transaction, as an object or as an array. -/
inductive Line : Json → Json → Prop
  | same (json : Json) : Line json json
  | array {items items' : List Json} (hitems : List.Forall₂ Item items items') :
    Line (.array items) (.array items')
  | object {fields fields' : List (String × Json)}
    (hfields : List.Forall₂ LineField fields fields') : Line (.object fields) (.object fields')

/-- A field of a page of transactions: the lines, or one of the two numbers. -/
inductive PageField : String × Json → String × Json → Prop
  | same (field : String × Json) : PageField field field
  | lines {items items' : List Json} (hitems : List.Forall₂ Line items items') :
    PageField ("lines", .array items) ("lines", .array items')
  | number {name : String} {json json' : Json} (hname : name = "total" ∨ name = "current")
    (hitem : Item json json') : PageField (name, json) (name, json')

/-- A payload, of whatever view: an array whose items count by their place, or a page of
transactions. -/
inductive Payload : Json → Json → Prop
  | same (json : Json) : Payload json json
  | array {items items' : List Json} (hitems : List.Forall₂ Item items items') :
    Payload (.array items) (.array items')
  | object {fields fields' : List (String × Json)}
    (hfields : List.Forall₂ PageField fields fields') : Payload (.object fields) (.object fields')

variable {json json' : Json}

theorem Item.valueText (h : Item json json') : json'.valueText = json.valueText := by
  cases h <;> rfl

theorem Item.pageNumber (h : Item json json') :
    PageNumber.ofJson json' = PageNumber.ofJson json := by
  cases h with
  | same => rfl
  | text => exact PageNumber.ofJson_valueText json

end Respelling

/-! ### Records that read them alike -/

namespace Document

variable {σ : Type} {shape : Shape σ}

/-- Whether a field of a record reads two values alike. -/
def RecordField.Confuses (f : RecordField σ) (json json' : Json) : Prop :=
  ∀ r, f.read (.value json') r = f.read (.value json) r

namespace Shape

/-- Whether two fields of objects have one name, and are read alike by the field of that name. -/
def ConfusesFields (shape : Shape σ) (field field' : String × Json) : Prop :=
  field'.1 = field.1 ∧ ∀ f ∈ shape.fields, f.name = field.1 → f.Confuses field.2 field'.2

/-- Objects whose fields are confused one by one are read alike. -/
theorem fromFields_congr {fields fields' : List (String × Json)}
    (h : List.Forall₂ shape.ConfusesFields fields fields') (cut : Option Fault)
    (seen : List String) (r : σ) :
    shape.fromFields (met fields') cut seen r = shape.fromFields (met fields) cut seen r := by
  induction h generalizing seen r with
  | nil => rfl
  | @cons field field' rest rest' hhead _ ih =>
    obtain ⟨name, json⟩ := field
    obtain ⟨name', json'⟩ := field'
    obtain ⟨rfl, hconfuses⟩ : name' = name ∧ _ := hhead
    show shape.fromFields ((.ok name', .value json') :: met rest') cut seen r =
      shape.fromFields ((.ok name', .value json) :: met rest) cut seen r
    cases hfield : shape.field? name' with
    | none =>
      rw [fromFields_unknown hfield, fromFields_unknown hfield]
      exact ih seen r
    | some f =>
      -- Whether the field was seen before depends on its name, which is the same.
      obtain ⟨hmem, hname⟩ := field?_spec hfield
      have hread : f.read (.value json') r = f.read (.value json) r := hconfuses f hmem hname r
      simp only [fromFields, faulty_ok, pure_bind, hfield, hread, ih]

/-- What is left of the items differs at most in the values, which nobody looks at. -/
theorem fromItems_congr {items items' : List Json}
    (h : List.Forall₂ (fun json json' => ∀ f ∈ shape.fields, f.Confuses json json') items items')
    {fields : List (RecordField σ)} (hfields : fields ⊆ shape.fields) (cut : Option Fault) (r : σ) :
    (shape.fromItems fields (items'.map .value) cut r).map (fun x => (x.1, x.2.isEmpty)) =
      (shape.fromItems fields (items.map .value) cut r).map fun x => (x.1, x.2.isEmpty) := by
  induction fields generalizing items items' r with
  | nil => cases h <;> rfl
  | cons f fields ih =>
    obtain ⟨hf, hrest⟩ := List.cons_subset.mp hfields
    cases h with
    | nil => rfl
    | @cons json json' rest rest' hhead htail =>
      rw [List.map_cons, List.map_cons, fromItems, fromItems, hhead f hf r]
      cases f.read (.value json) r with
      | error e => rfl
      | ok r₁ => exact ih htail hrest r₁

end Shape

theorem record_object_congr {fields fields' : List (String × Json)}
    (h : List.Forall₂ shape.ConfusesFields fields fields') :
    record shape (.value (.object fields')) = record shape (.value (.object fields)) :=
  Shape.fromFields_congr h none [] shape.blank

theorem record_array_congr {items items' : List Json}
    (h : List.Forall₂ (fun json json' => ∀ f ∈ shape.fields, f.Confuses json json') items items') :
    record shape (.value (.array items')) = record shape (.value (.array items)) := by
  -- All that is asked about the items behind the last field is whether there are any.
  have hrecord (items : List Json) : record shape (.value (.array items)) =
      ((shape.fromItems shape.fields (items.map .value) none shape.blank).map
        fun x => (x.1, x.2.isEmpty)) >>= fun x =>
          if x.2 then .ok x.1 else .error (.wrongLength items.length .fewerItems) := by
    show (shape.fromItems shape.fields (items.map .value) none shape.blank >>= fun x =>
      closeArray (.value (.array items)) (items.map Document.value).length x.2 none >>=
        fun _ => pure x.1) = _
    rw [List.length_map]
    cases shape.fromItems shape.fields (items.map .value) none shape.blank with
    | error e => rfl
    | ok x =>
      obtain ⟨r, rest⟩ := x
      cases rest <;> rfl
  rw [hrecord, hrecord, Shape.fromItems_congr h (List.Subset.refl _), h.length_eq]

/-- Lists whose items are read alike are read alike. -/
theorem collect_congr {α : Type} {read : Document → Decoded α} {items items' : List Json}
    (h : List.Forall₂ (fun json json' => read (.value json') = read (.value json)) items items')
    (cut : Option Fault) :
    collect read (items'.map .value) cut = collect read (items.map .value) cut := by
  induction h with
  | nil => rfl
  | cons hhead _ ih => rw [List.map_cons, List.map_cons, collect, collect, hhead, ih]

end Document

theorem lenientField_confuses {σ : Type} (name : String) (set : String → σ → σ)
    {json json' : Json} (h : json'.valueText = json.valueText) :
    (lenientField name set).Confuses json json' := by
  intro r
  show Except.ok (set json'.valueText r) = Except.ok (set json.valueText r)
  rw [h]

theorem pageField_confuses {σ : Type} (name : String) (set : PageNumber → σ → σ)
    {json json' : Json} (h : PageNumber.ofJson json' = PageNumber.ofJson json) :
    (pageField name set).Confuses json json' := by
  intro r
  show Except.ok (set (.ofJson json') r) = Except.ok (set (.ofJson json) r)
  rw [h]

namespace Respelling

theorem Line.record_congr {json json' : Json} (h : Line json json') :
    record TxLine.shape (.value json') = record TxLine.shape (.value json) := by
  have hread {f : RecordField TxLine} (hf : f ∈ TxLine.shape.fields) {json json' : Json}
      (hitem : Item json json') : f.Confuses json json' := by
    simp only [TxLine.shape, List.mem_cons, List.not_mem_nil, or_false] at hf
    rcases hf with rfl | rfl | rfl | rfl | rfl | rfl | rfl <;>
      exact lenientField_confuses _ _ hitem.valueText
  cases h with
  | same => rfl
  | array hitems => exact record_array_congr (hitems.imp fun _ _ hitem _ hf => hread hf hitem)
  | object hfields =>
    refine record_object_congr (hfields.imp fun field field' hfield => ?_)
    cases hfield with
    | same => exact ⟨rfl, fun _ _ _ _ => rfl⟩
    | part _ hitem => exact ⟨rfl, fun f hf _ => hread hf hitem⟩

theorem PageField.confusesFields {field field' : String × Json} (h : PageField field field') :
    TxHistoryPage.shape.ConfusesFields field field' := by
  cases h with
  | same => exact ⟨rfl, fun _ _ _ _ => rfl⟩
  | lines hitems =>
    refine ⟨rfl, fun f hf hname => ?_⟩
    simp only [TxHistoryPage.shape, List.mem_cons, List.not_mem_nil, or_false] at hf
    rcases hf with rfl | rfl | rfl
    · intro r
      exact congrArg (Except.map _)
        (collect_congr (hitems.imp fun _ _ hline => hline.record_congr) none)
    · exact absurd hname (by decide : "total" ≠ "lines")
    · exact absurd hname (by decide : "current" ≠ "lines")
  | @number name json json' hname hitem =>
    refine ⟨rfl, fun f hf hf' => ?_⟩
    simp only [TxHistoryPage.shape, List.mem_cons, List.not_mem_nil, or_false] at hf
    rcases hf with rfl | rfl | rfl
    · obtain rfl : "lines" = name := hf'
      exact absurd hname (by decide)
    · exact pageField_confuses _ _ hitem.pageNumber
    · exact pageField_confuses _ _ hitem.pageNumber

theorem Payload.isNothing (h : Payload json json') :
    Snapshot.isNothing json' = Snapshot.isNothing json := by
  cases h with
  | same => rfl
  | array hitems => cases hitems <;> rfl
  | object hfields => cases hfields <;> rfl

theorem Payload.positional (h : Payload json json') (v : View) (least : Nat) :
    Snapshot.positional v least json' = Snapshot.positional v least json := by
  cases h with
  | same => rfl
  | object => rfl
  | @array items items' hitems =>
    have htexts : items'.map Json.valueText = items.map Json.valueText := by
      induction hitems with
      | nil => rfl
      | cons hitem _ ih => rw [List.map_cons, List.map_cons, hitem.valueText, ih]
    rw [Snapshot.positional, Snapshot.positional, htexts, hitems.length_eq]

theorem Payload.ofTxHistory (h : Payload json json') (v : View) :
    Snapshot.ofTxHistory v json' = Snapshot.ofTxHistory v json := by
  cases h with
  | same => rfl
  | array => rfl
  | object hfields =>
    unfold Snapshot.ofTxHistory
    rw [record_object_congr (hfields.imp fun _ _ hfield => hfield.confusesFields)]

/-- A view makes the same of both spellings. -/
theorem Payload.ofPayload (h : Payload json json') (v : View) :
    Snapshot.ofPayload v json' = Snapshot.ofPayload v json := by
  unfold Snapshot.ofPayload
  simp only [h.isNothing, h.positional, h.ofTxHistory]

end Respelling

/-! ### Cycles -/

theorem Snapshot.matchesView_of_ofPayload {v : View} {payload : Json} {s : Snapshot}
    (h : ofPayload v payload = .ok (some s)) : s.matchesView v = true := by
  have hread {result : Except ValidationProblem Snapshot}
      (hresult : (some <$> result) = .ok (some s)) : result = .ok s := by
    cases result <;> cases hresult
    rfl
  unfold ofPayload at h
  split at h
  · cases h
  · cases v with
    | balance | blockHeight | bootstrapperProgress | consensusBuilderProgress =>
      obtain ⟨items, -, -, rfl⟩ := positional_map_ok_iff.mp (hread h)
      rfl
    | txHistory =>
      have hpage : ofTxHistory .txHistory payload = .ok s := hread h
      unfold ofTxHistory at hpage
      split at hpage
      · split at hpage <;> cases hpage
        rfl
      · cases hpage

/-- The answer that a payload is for a view. -/
def View.answer (v : View) (payload : Json) : Fallible (Option Snapshot) :=
  (Snapshot.ofPayload v payload).mapError .validation

/-- Whether a call leaves what the page shows and what the store keeps as they are. -/
def Call.IsHarmless : Call → Prop
  | .read _ _ => True
  | .submitted _ _ => True
  | _ => False

/-- A view that shows a snapshot, and has something in its cache entry, is left alone when the
snapshot comes again. -/
theorem Binder.finish_shown {ρ σ : Type} [Host ρ σ] {b : Binder (Watcher ρ)} {s : Snapshot}
    (hs : s.matchesView b.view = true) (hlast : b.lastRendered = some s) (w : Watched σ)
    (hkept : ((Host.get? b.access.access b.cacheKey).run w.world).1.isSome) :
    ((b.finish (.ok (some s))).run w).1 = (b.showing s, b.shownOutcome s false) ∧
      ∃ new, ((b.finish (.ok (some s))).run w).2.calls = w.calls ++ new ∧
        ∀ c ∈ new, c.IsHarmless := by
  have hfinish : b.finish (.ok (some s)) = (b.accept s : StateM (Watched σ) _) := if_pos hs
  have hcontains : ((Cache.contains b.access b.session b.view).run w).1 = true := hkept
  have hread : ((Cache.contains b.access b.session b.view).run w).2.calls = w.calls ++
    [.read b.cacheKey ((Host.get? b.access.access b.cacheKey).run w.world).1] := rfl
  have haccept : (b.accept s).run w = (b.conclude s false).run
      ((Cache.contains b.access b.session b.view).run w).2 := by
    unfold accept
    rw [if_pos hlast, run_bind, hcontains]
    rfl
  obtain ⟨new, hnew, ⟨hresult, -⟩, hforms⟩ :=
    ((emits_conclude_result b hs false).and (emits_conclude b s false))
      ((Cache.contains b.access b.session b.view).run w).2
  rw [hfinish, haccept]
  refine ⟨hresult, _, by rw [hnew, hread, List.append_assoc], ?_⟩
  refine List.forall_mem_append.mpr ⟨List.forall_mem_singleton.mpr trivial, fun c hc => ?_⟩
  obtain ⟨form, isPresent, rfl⟩ := hforms c hc
  trivial

/-- Nobody can tell two spellings of a payload apart. Whatever the view, both are read as the same
snapshot, as nothing, or refused with the same complaint; and on every page, a view that shows
what they say and has its cache entry is not painted or kept again, whichever comes next. -/
theorem spellings_agree {ρ σ : Type} [Host ρ σ] {payload payload' : Json}
    (h : Respelling.Payload payload payload') (v : View) :
    Snapshot.ofPayload v payload' = Snapshot.ofPayload v payload ∧
      ∀ next ∈ [payload, payload'],
        ∀ (b : Binder (Watcher ρ)) (s : Snapshot) (w : Watched σ), b.view = v →
          Snapshot.ofPayload v payload = .ok (some s) → b.lastRendered = some s →
          ((Host.get? b.access.access b.cacheKey).run w.world).1.isSome →
          Mirrors (σ := σ) unwatchedWith (b.finish (v.answer next))
              (b.unwatched.finish (v.answer next)) ∧
            ((b.finish (v.answer next)).run w).1 = (b.showing s, b.shownOutcome s false) ∧
            ∃ new, ((b.finish (v.answer next)).run w).2.calls = w.calls ++ new ∧
              ∀ c ∈ new, c.IsHarmless := by
  refine ⟨h.ofPayload v, fun next hnext b s w hview hs hlast hkept => ⟨b.finish_mirrors _, ?_⟩⟩
  have hsame : Snapshot.ofPayload v next = Snapshot.ofPayload v payload := by
    rcases List.mem_pair.mp hnext with rfl | rfl
    · rfl
    · exact h.ofPayload v
  have hanswer : v.answer next = .ok (some s) := by
    rw [View.answer, hsame, hs]
    rfl
  subst hview
  rw [hanswer]
  exact Binder.finish_shown (Snapshot.matchesView_of_ofPayload hs) hlast w hkept

/-- A page of transactions with values of many kinds. -/
def valuePage : Json :=
  .object [("current", .number (.int 3)),
    ("lines", .array [.object [("amount", .number (.int (-5))), ("memo", .null)],
      .array [.null, .array [.bool true]]]),
    ("total", .number (.int 18446744073709551615))]

/-- The same page with texts in their places, but for a field that nobody asks for. -/
def textPage : Json :=
  .object [("current", .string "3"),
    ("lines", .array [.object [("amount", .string "-5"), ("memo", .null)],
      .array [.string "", .string "[true]"]]),
    ("total", .string "18446744073709551615")]

/-- The largest total that a number can be is the last page number, in either spelling. -/
def shownPage : Snapshot :=
  .txHistory { lines := [{ amount := "-5" }, { shortId := "[true]" }],
               total := 4294967295, current := 3 }

/-- A binder whose view shows the page. -/
def pageBinder : Binder (Watcher PageAccess) where
  view := .txHistory
  session := .anonymous
  baseUrl := ""
  access := ⟨.only⟩
  lastRendered := some shownPage

/-- A page with an entry for the history in its cache. -/
def pageWithEntry : Watched Page where
  world := { store := Store.empty.put pageBinder.cacheKey shownPage.stored }

/-- A view that shows the page is left alone by it, and by the other spelling. -/
theorem spellings_agree_page :
    Respelling.Payload valuePage textPage ∧
      Snapshot.ofPayload .txHistory textPage = .ok (some shownPage) ∧
      ∀ next ∈ [valuePage, textPage],
        ((pageBinder.finish (View.txHistory.answer next)).run pageWithEntry).1.2 = .unchanged := by
  have hrespelled : Respelling.Payload valuePage textPage := by
    refine .object (.cons (.number (.inr rfl) .text) (.cons (.lines ?_)
      (.cons (.number (.inl rfl) .text) .nil)))
    refine .cons (.object (.cons (.part ?_ .text) (.cons (.same _) .nil)))
      (.cons (.array (.cons .text (.cons .text .nil))) .nil)
    simp [TxLine.parts]
  have hshown : Snapshot.ofPayload .txHistory valuePage = .ok (some shownPage) := rfl
  obtain ⟨hsame, hleft⟩ := spellings_agree (ρ := PageAccess) (σ := Page) hrespelled .txHistory
  refine ⟨hrespelled, hsame.trans hshown, fun next hnext => ?_⟩
  obtain ⟨-, hresult, -⟩ := hleft next hnext pageBinder shownPage pageWithEntry rfl hshown rfl rfl
  rw [hresult]
  rfl

end WalletPage
