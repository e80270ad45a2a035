import Mathlib.Data.List.Basic
import WalletPage.Proofs.StoredSnapshot
import WalletPage.Snapshot.Payload

/-! Which payloads a view can show, and what it shows for them. A record is read
from an object in the order of the object, yet each part of it is what the field
of its own name holds, as no name comes twice. From an array it is read by place. -/

namespace WalletPage

open Document

/-! ### Proper values -/

mutual

/-- Whether each object in the value names each of its fields once. -/
def Json.IsProper : Json → Prop
  | .array items => Json.AllProper items
  | .object fields => (fields.map (·.1)).Nodup ∧ Json.AllFieldsProper fields
  | _ => True

/-- Whether all items are proper. -/
def Json.AllProper : List Json → Prop
  | [] => True
  | item :: rest => item.IsProper ∧ Json.AllProper rest

/-- Whether the values of all fields are proper. -/
def Json.AllFieldsProper : List (String × Json) → Prop
  | [] => True
  | (_, json) :: rest => json.IsProper ∧ Json.AllFieldsProper rest

end

namespace Json

theorem AllProper.isProper {items : List Json} (h : AllProper items) :
    ∀ item ∈ items, item.IsProper := by
  induction items with
  | nil => simp
  | cons item rest ih => simpa using And.intro h.1 (ih h.2)

theorem allFieldsProper_iff {fields : List (String × Json)} :
    AllFieldsProper fields ↔ ∀ field ∈ fields, field.2.IsProper := by
  induction fields with
  | nil => simp [AllFieldsProper]
  | cons field rest ih => simp [AllFieldsProper, ih]

end Json

theorem mem_of_mem_putKey {α : Type} {key : String} {value : α} {entries : List (String × α)}
    {e : String × α} (h : e ∈ putKey key value entries) : e = (key, value) ∨ e ∈ entries := by
  induction entries with
  | nil => exact .inl (List.mem_singleton.mp h)
  | cons head rest ih =>
    rw [putKey] at h
    split at h
    · exact List.mem_cons.mp h
    · split at h
      · exact (List.mem_cons.mp h).imp_right (List.mem_cons_of_mem _)
      · rcases List.mem_cons.mp h with rfl | h
        · exact .inr List.mem_cons_self
        · exact (ih h).imp_right (List.mem_cons_of_mem _)

theorem mem_of_lookup {α : Type} {name : String} {value : α} {entries : List (String × α)}
    (h : entries.lookup name = some value) : (name, value) ∈ entries := by
  obtain ⟨before, after, rfl, -⟩ := List.lookup_eq_some_iff.mp h
  simp

theorem lookup_of_mem {α : Type} {name : String} {value : α} {entries : List (String × α)}
    (hnames : (entries.map (·.1)).Nodup) (h : (name, value) ∈ entries) :
    entries.lookup name = some value := by
  obtain ⟨before, after, rfl⟩ := List.append_of_mem h
  refine List.lookup_eq_some_iff.mpr ⟨before, after, rfl, fun e he => bne_iff_ne.mpr ?_⟩
  rw [List.map_append, List.nodup_append] at hnames
  exact (hnames.2.2 _ (List.mem_map_of_mem he) _ (by simp)).symm

theorem keysSorted_sortKeys {α : Type} (entries : List (String × α)) :
    KeysSorted (sortKeys entries) :=
  List.foldlRecOn entries _ keysSorted_nil fun _ h _ _ => keysSorted_putKey _ _ h

theorem mem_of_mem_sortKeys {α : Type} {entries : List (String × α)} {e : String × α} :
    e ∈ sortKeys entries → e ∈ entries :=
  List.foldlRecOn (motive := fun sorted : List (String × α) => e ∈ sorted → e ∈ entries)
    entries _ (fun h => absurd h List.not_mem_nil) fun _ hsorted _ hentry he =>
      (mem_of_mem_putKey he).elim (fun heq => heq ▸ hentry) hsorted

theorem sortKeys_proper {entries : List (String × Json)} (h : Json.AllFieldsProper entries) :
    (Json.object (sortKeys entries)).IsProper :=
  ⟨(keysSorted_sortKeys entries).nodup, Json.allFieldsProper_iff.mpr fun e he =>
    Json.allFieldsProper_iff.mp h e (mem_of_mem_sortKeys he)⟩

namespace Draft

mutual

/-- What is read from a text is proper: of fields with one name only the last is kept. -/
theorem toJson_proper : ∀ {draft : Draft} {room : Nat} {json : Json},
    draft.toJson room = .ok json → json.IsProper
  | .null, _, _, h => by cases h; trivial
  | .bool _, _, _, h => by cases h; trivial
  | .number n, _, _, h => by
    cases n <;> cases h
    trivial
  | .string s, _, _, h => by
    cases s <;> cases h
    trivial
  | .array items cut, room + 1, json, h => by
    rw [toJson] at h
    cases hitems : itemsToJson items room with
    | error fault => rw [hitems] at h; cases h
    | ok values =>
      cases hcut : closed (cut.map Break.reading) with
      | error fault => rw [hitems, hcut] at h; cases h
      | ok u =>
        rw [hitems, hcut] at h
        cases h
        exact itemsToJson_proper hitems
  | .object fields cut, room + 1, json, h => by
    rw [toJson] at h
    cases hfields : fieldsToJson fields room with
    | error fault => rw [hfields] at h; cases h
    | ok values =>
      cases hcut : closed (cut.map Break.reading) with
      | error fault => rw [hfields, hcut] at h; cases h
      | ok u =>
        rw [hfields, hcut] at h
        cases h
        exact sortKeys_proper (fieldsToJson_proper hfields)

theorem itemsToJson_proper : ∀ {items : List Draft} {room : Nat} {values : List Json},
    itemsToJson items room = .ok values → Json.AllProper values
  | [], _, _, h => by cases h; trivial
  | item :: rest, room, values, h => by
    rw [itemsToJson] at h
    cases hfirst : toJson item room with
    | error fault => rw [hfirst] at h; cases h
    | ok first =>
      cases hothers : itemsToJson rest room with
      | error fault => rw [hfirst, hothers] at h; cases h
      | ok others =>
        rw [hfirst, hothers] at h
        cases h
        exact ⟨toJson_proper hfirst, itemsToJson_proper hothers⟩

theorem fieldsToJson_proper : ∀ {fields : List (Except Fault String × Draft)} {room : Nat}
    {values : List (String × Json)},
    fieldsToJson fields room = .ok values → Json.AllFieldsProper values
  | [], _, _, h => by cases h; trivial
  | (key, field) :: rest, room, values, h => by
    rw [fieldsToJson] at h
    cases key with
    | error fault => cases h
    | ok name =>
      cases hfirst : toJson field room with
      | error fault => rw [hfirst] at h; cases h
      | ok first =>
        cases hothers : fieldsToJson rest room with
        | error fault => rw [hfirst, hothers] at h; cases h
        | ok others =>
          rw [hfirst, hothers] at h
          cases h
          exact ⟨toJson_proper hfirst, fieldsToJson_proper hothers⟩

end

end Draft

/-! ### Records from objects -/

namespace Document.Shape

variable {σ α : Type} {shape : Shape σ}

/-- Whether the field of that name, and no other one, decides that part of a record:
what the field holds and the part stand in the relation `holds`. -/
def Governs (shape : Shape σ) (name : String) (part : σ → α) (holds : Json → α → Prop) : Prop :=
  (∃ f ∈ shape.fields, f.name = name) ∧
    ∀ f ∈ shape.fields, ∀ json r r', f.read (.value json) r = .ok r' →
      if f.name = name then holds json (part r') else part r' = part r

/-- The fields of a finished value, as a reader meets them. -/
def met (fields : List (String × Json)) : List (Except Fault String × Document) :=
  fields.map fun (name, field) => (.ok name, .value field)

theorem fromFields_unknown {name : String} (hfield : shape.field? name = none) (json : Json)
    (rest : List (Except Fault String × Document)) (cut : Option Fault) (seen : List String)
    (r : σ) :
    shape.fromFields ((.ok name, .value json) :: rest) cut seen r =
      shape.fromFields rest cut seen r := by
  rw [fromFields, faulty_ok, pure_bind, hfield]
  rfl

theorem field?_spec {name : String} {f : RecordField σ} (h : shape.field? name = some f) :
    f ∈ shape.fields ∧ f.name = name :=
  ⟨List.mem_of_find?_eq_some h, by simpa using List.find?_some h⟩

theorem exists_read {name : String} {json : Json} {f : RecordField σ}
    {rest : List (Except Fault String × Document)} {cut : Option Fault} {seen : List String}
    {r r' : σ} (hfield : shape.field? name = some f)
    (h : shape.fromFields ((.ok name, .value json) :: rest) cut seen r = .ok r') :
    ∃ r₁, f.read (.value json) r = .ok r₁ ∧
      shape.fromFields rest cut (name :: seen) r₁ = .ok r' := by
  rw [fromFields, faulty_ok, pure_bind, hfield] at h
  dsimp only at h
  split at h
  · cases h
  · cases hread : f.read (.value json) r with
    | error e => rw [hread] at h; cases h
    | ok r₁ => rw [hread] at h; exact ⟨r₁, rfl, h⟩

/-- A part that no field of the object decides stays as it is. -/
theorem Governs.unchanged {name : String} {part : σ → α} {holds : Json → α → Prop}
    (hg : shape.Governs name part holds) {fields : List (String × Json)}
    (hname : name ∉ fields.map (·.1)) {cut : Option Fault} {seen : List String} {r r' : σ}
    (h : shape.fromFields (met fields) cut seen r = .ok r') : part r' = part r := by
  induction fields generalizing seen r with
  | nil =>
    rw [met, List.map_nil, fromFields] at h
    cases hcut : Draft.closed cut with
    | error fault => rw [hcut] at h; cases h
    | ok u =>
      rw [hcut, faulty_ok, pure_bind] at h
      split at h <;> cases h
      rfl
  | cons head rest ih =>
    obtain ⟨key, json⟩ := head
    obtain ⟨hhead, hrest⟩ : ¬ name = key ∧ name ∉ rest.map (·.1) := by simpa using hname
    cases hfield : shape.field? key with
    | none =>
      rw [met, List.map_cons, fromFields_unknown hfield] at h
      exact ih hrest h
    | some f =>
      obtain ⟨hmem, hkey⟩ := field?_spec hfield
      obtain ⟨r₁, hread, h⟩ := exists_read hfield h
      have hpart := hg.2 f hmem json r r₁ hread
      rw [if_neg (by rw [hkey]; exact Ne.symm hhead)] at hpart
      rw [ih hrest h, hpart]

/-- After reading an object, a part is what the field of its name holds. -/
theorem Governs.after {name : String} {part : σ → α} {holds : Json → α → Prop}
    (hg : shape.Governs name part holds) {fields : List (String × Json)}
    (hnames : (fields.map (·.1)).Nodup) {cut : Option Fault} {seen : List String} {r r' : σ}
    (h : shape.fromFields (met fields) cut seen r = .ok r') :
    (fields.lookup name).elim (part r' = part r) (holds · (part r')) := by
  induction fields generalizing seen r with
  | nil => exact hg.unchanged (by simp) h
  | cons head rest ih =>
    obtain ⟨key, json⟩ := head
    obtain ⟨hkey, hrest⟩ := List.nodup_cons.mp hnames
    rw [lookup_cons_eq]
    cases hfield : shape.field? key with
    | none =>
      have hne : name ≠ key := by
        rintro rfl
        obtain ⟨f, hf, hname⟩ := hg.1
        simpa [hname] using List.find?_eq_none.mp hfield f hf
      rw [met, List.map_cons, fromFields_unknown hfield] at h
      rw [if_neg hne]
      exact ih hrest h
    | some f =>
      obtain ⟨hmem, hname⟩ := field?_spec hfield
      obtain ⟨r₁, hread, h⟩ := exists_read hfield h
      have hpart := hg.2 f hmem json r r₁ hread
      rw [hname] at hpart
      by_cases heq : name = key
      · subst heq
        rw [if_pos rfl] at hpart ⊢
        rw [Option.elim_some, hg.unchanged hkey h]
        exact hpart
      · rw [if_neg (Ne.symm heq)] at hpart
        rw [if_neg heq, ← hpart]
        exact ih hrest h

/-- After reading an object, a part that copies its field has the value of the field, or else the
one that it had. -/
theorem Governs.value {name : String} {part : σ → α} {value : Json → α}
    (hg : shape.Governs name part fun json a => a = value json) {fields : List (String × Json)}
    (hnames : (fields.map (·.1)).Nodup) {cut : Option Fault} {seen : List String} {r r' : σ}
    (h : shape.fromFields (met fields) cut seen r = .ok r') :
    part r' = ((fields.lookup name).map value).getD (part r) := by
  have hafter := hg.after hnames h
  cases hlookup : fields.lookup name <;> rw [hlookup] at hafter <;> exact hafter

/-- An object is read if nothing is required and each known field in it can be read. -/
theorem exists_fromFields (hrequired : ∀ f ∈ shape.fields, f.required = false)
    {fields : List (String × Json)} (hnames : (fields.map (·.1)).Nodup) {seen : List String}
    (hseen : ∀ name ∈ fields.map (·.1), name ∉ seen)
    (hread : ∀ name json, (name, json) ∈ fields → ∀ f ∈ shape.fields, f.name = name →
      ∀ r, ∃ r', f.read (.value json) r = .ok r') (r : σ) :
    ∃ r', shape.fromFields (met fields) none seen r = .ok r' := by
  induction fields generalizing seen r with
  | nil =>
    have hmissing : shape.missing? seen = none := by
      rw [missing?, List.find?_eq_none.mpr fun f hf => by simp [hrequired f hf]]
      rfl
    refine ⟨r, ?_⟩
    rw [met, List.map_nil, fromFields, hmissing]
    rfl
  | cons head rest ih =>
    obtain ⟨key, json⟩ := head
    obtain ⟨hkey, hrest⟩ := List.nodup_cons.mp hnames
    have hother name json' (hmem : (name, json') ∈ rest) :=
      hread name json' (List.mem_cons_of_mem _ hmem)
    rw [met, List.map_cons]
    cases hfield : shape.field? key with
    | none =>
      rw [fromFields_unknown hfield]
      exact ih hrest (fun name hname => hseen name (List.mem_cons_of_mem _ hname)) hother r
    | some f =>
      obtain ⟨hmem, hname⟩ := field?_spec hfield
      obtain ⟨r₁, hr₁⟩ := hread key json List.mem_cons_self f hmem hname r
      have hfresh : seen.contains key = false := by simpa using hseen key (by simp)
      rw [fromFields_cons hfield hfresh hr₁]
      refine ih hrest (fun name hin => ?_) hother r₁
      rw [List.mem_cons, not_or]
      exact ⟨fun heq => hkey (heq ▸ hin), hseen name (List.mem_cons_of_mem _ hin)⟩

theorem exists_record (shape : Shape σ) (hrequired : ∀ f ∈ shape.fields, f.required = false)
    {fields : List (String × Json)} (hnames : (fields.map (·.1)).Nodup)
    (hread : ∀ name json, (name, json) ∈ fields → ∀ f ∈ shape.fields, f.name = name →
      ∀ r, ∃ r', f.read (.value json) r = .ok r') :
    ∃ r, record shape (.value (.object fields)) = .ok r :=
  exists_fromFields hrequired hnames (fun _ _ => List.not_mem_nil) hread shape.blank

end Document.Shape

/-! ### Transactions -/

/-- What a transaction may look like: an object, or an array of at most seven items. -/
def Json.IsLine : Json → Prop
  | .object _ => True
  | .array items => items.length ≤ 7
  | _ => False

/-- The part of an object that has that name, or of an array at that place. -/
def Json.part? (name : String) (place : Nat) : Json → Option Json
  | .object fields => fields.lookup name
  | .array items => items[place]?
  | _ => none

/-- The text of that part; empty where it is missing. -/
def Json.partText (json : Json) (name : String) (place : Nat) : String :=
  ((json.part? name place).map Json.valueText).getD ""

/-- The transaction that an object or an array stands for. -/
def TxLine.ofJson (json : Json) : TxLine where
  id := json.partText "transaction_id" 0
  shortId := json.partText "short_transaction_id" 1
  kind := json.partText "type" 2
  amount := json.partText "amount" 3
  fee := json.partText "fee" 4
  time := json.partText "time" 5
  confirmed := json.partText "confirmed" 6

namespace TxLine

/-- The parts of a transaction under the names of their fields. -/
def parts : List (String × (TxLine → String)) :=
  [("transaction_id", id), ("short_transaction_id", shortId), ("type", kind),
    ("amount", amount), ("fee", fee), ("time", time), ("confirmed", confirmed)]

theorem readable : ∀ f ∈ shape.fields, ∀ json r, ∃ r', f.read (.value json) r = .ok r' := by
  simp only [shape, List.forall_mem_cons, List.not_mem_nil, false_implies, implies_true, and_true]
  refine ⟨?_, ?_, ?_, ?_, ?_, ?_, ?_⟩ <;> exact fun json r => ⟨_, rfl⟩

theorem governs : ∀ p ∈ parts, shape.Governs p.1 p.2 fun json text => text = json.valueText := by
  simp only [parts, List.forall_mem_cons, List.not_mem_nil, false_implies, implies_true, and_true]
  refine ⟨?_, ?_, ?_, ?_, ?_, ?_, ?_⟩ <;>
    · refine ⟨by simp [shape, lenientField], ?_⟩
      simp only [shape, List.forall_mem_cons, List.not_mem_nil, false_implies, implies_true,
        and_true]
      refine ⟨?_, ?_, ?_, ?_, ?_, ?_, ?_⟩ <;>
        · rintro json r r' ⟨⟩
          rfl

/-- An object is a transaction whatever its fields hold, each part being the text of its
own field. -/
theorem record_object {fields : List (String × Json)} (hnames : (fields.map (·.1)).Nodup) :
    record shape (.value (.object fields)) = .ok (ofJson (.object fields)) := by
  obtain ⟨line, hline⟩ := Shape.exists_record shape (by simp [shape, lenientField]) hnames
    fun _ json _ f hf _ => readable f hf json
  have hpart (name : String) (place : Nat) (part : TxLine → String)
      (hmem : (name, part) ∈ parts) (hblank : part shape.blank = "") :
      part line = (Json.object fields).partText name place := by
    have hvalue : part line = ((fields.lookup name).map Json.valueText).getD (part shape.blank) :=
      (governs _ hmem).value hnames hline
    rwa [hblank] at hvalue
  have hofJson : line = ofJson (.object fields) := by
    obtain ⟨a, b, c, d, e, f, g⟩ := line
    rw [ofJson, TxLine.mk.injEq]
    refine ⟨hpart _ _ id ?_ rfl, hpart _ _ shortId ?_ rfl, hpart _ _ kind ?_ rfl,
      hpart _ _ amount ?_ rfl, hpart _ _ fee ?_ rfl, hpart _ _ time ?_ rfl,
      hpart _ _ TxLine.confirmed ?_ rfl⟩ <;> simp [parts]
  exact hofJson ▸ hline

/-- An array is a transaction if it is not too long, each part being the text at its place. -/
theorem record_array (items : List Json) (line : TxLine) :
    record shape (.value (.array items)) = .ok line ↔
      items.length ≤ 7 ∧ line = ofJson (.array items) := by
  have hshort {line' : TxLine} (hlen : items.length ≤ 7)
      (h : record shape (.value (.array items)) = .ok line') :
      record shape (.value (.array items)) = .ok line ↔
        items.length ≤ 7 ∧ line = line' := by
    rw [h, Except.ok.injEq]
    exact ⟨fun heq => ⟨hlen, heq.symm⟩, fun heq => heq.2.symm⟩
  match items with
  | [] | [_] | [_, _] | [_, _, _] | [_, _, _, _] | [_, _, _, _, _] | [_, _, _, _, _, _]
  | [_, _, _, _, _, _, _] => exact hshort (by simp) rfl
  | _ :: _ :: _ :: _ :: _ :: _ :: _ :: _ :: _ =>
    constructor
    · rintro ⟨⟩
    · rintro ⟨hlen, -⟩
      simp only [List.length_cons] at hlen
      omega

/-- What is read as a transaction is an object or a short array, and nothing else is. -/
theorem record_ok_iff {json : Json} (hproper : json.IsProper) {line : TxLine} :
    record shape (.value json) = .ok line ↔ json.IsLine ∧ line = ofJson json := by
  cases json with
  | object fields =>
    rw [record_object hproper.1, Except.ok.injEq]
    exact ⟨fun h => ⟨trivial, h.symm⟩, fun h => h.2.symm⟩
  | array items => exact record_array items line
  | null | bool _ | number _ | string _ =>
    constructor
    · rintro ⟨⟩
    · rintro ⟨⟨⟩, -⟩

theorem collect_ok_iff {items : List Json} (hproper : ∀ item ∈ items, item.IsProper)
    (lines : List TxLine) :
    collect (record shape) (items.map .value) none = .ok lines ↔
      (∀ item ∈ items, item.IsLine) ∧ lines = items.map ofJson := by
  induction items generalizing lines with
  | nil =>
    show Except.ok [] = Except.ok lines ↔ _
    simp [eq_comm]
  | cons item rest ih =>
    obtain ⟨hitem, hrest⟩ := List.forall_mem_cons.mp hproper
    rw [List.map_cons, collect, List.forall_mem_cons, List.map_cons]
    constructor
    · intro h
      cases hfirst : record shape (.value item) with
      | error e => rw [hfirst] at h; cases h
      | ok first =>
        cases hothers : collect (record shape) (rest.map .value) none with
        | error e => rw [hfirst, hothers] at h; cases h
        | ok others =>
          obtain ⟨hline, rfl⟩ := (record_ok_iff hitem).mp hfirst
          obtain ⟨hlines, rfl⟩ := (ih hrest _).mp hothers
          rw [hfirst, hothers] at h
          cases h
          exact ⟨⟨hline, hlines⟩, rfl⟩
    · rintro ⟨⟨hline, hlines⟩, rfl⟩
      rw [(record_ok_iff hitem).mpr ⟨hline, rfl⟩, (ih hrest _).mpr ⟨hlines, rfl⟩]
      rfl

end TxLine

/-! ### Pages of transactions -/

/-- The items that stand for the lines of a page: none if the field is missing or `null`,
and those of an array. -/
def Json.lineItems? : Option Json → Option (List Json)
  | none => some []
  | some .null => some []
  | some (.array items) => some items
  | some _ => none

/-- The page that the fields of an object stand for, with those items for its lines. -/
def TxHistoryPage.ofFields (fields : List (String × Json)) (items : List Json) :
    TxHistoryPage where
  lines := items.map TxLine.ofJson
  total := ((fields.lookup "total").map PageNumber.ofJson).getD 0
  current := ((fields.lookup "current").map PageNumber.ofJson).getD 0

namespace TxHistoryPage

/-- Whether a list of lines is read from what the field holds. -/
def Holds (json : Json) (lines : List TxLine) : Prop :=
  listOrNull (record TxLine.shape) (.value json) = .ok lines

/-- What reading one field does to a page. -/
theorem read_cases {f : RecordField TxHistoryPage} (hf : f ∈ shape.fields) {json : Json}
    {r r' : TxHistoryPage} (h : f.read (.value json) r = .ok r') :
    (f.name = "lines" ∧ ∃ lines, Holds json lines ∧ r' = { r with lines := lines }) ∨
      (f.name = "total" ∧ r' = { r with total := PageNumber.ofJson json }) ∨
      (f.name = "current" ∧ r' = { r with current := PageNumber.ofJson json }) := by
  rcases List.mem_cons.mp hf with rfl | hf
  · left
    cases hlines : listOrNull (record TxLine.shape) (.value json) with
    | error e => simp only [hlines] at h; cases h
    | ok lines => simp only [hlines] at h; cases h; exact ⟨rfl, lines, hlines, rfl⟩
  · right
    rcases List.mem_cons.mp hf with rfl | hf
    · cases h
      exact .inl ⟨rfl, rfl⟩
    · cases List.mem_singleton.mp hf
      cases h
      exact .inr ⟨rfl, rfl⟩

theorem governs_lines : shape.Governs "lines" lines Holds := by
  refine ⟨by simp [shape], fun f hf json r r' h => ?_⟩
  rcases read_cases hf h with ⟨hname, lines, hlines, rfl⟩ | ⟨hname, rfl⟩ | ⟨hname, rfl⟩ <;>
    simp [hname]
  exact hlines

theorem governs_total : shape.Governs "total" total fun json n => n = PageNumber.ofJson json := by
  refine ⟨by simp [shape, pageField], fun f hf json r r' h => ?_⟩
  rcases read_cases hf h with ⟨hname, lines, hlines, rfl⟩ | ⟨hname, rfl⟩ | ⟨hname, rfl⟩ <;>
    simp [hname]

theorem governs_current :
    shape.Governs "current" current fun json n => n = PageNumber.ofJson json := by
  refine ⟨by simp [shape, pageField], fun f hf json r r' h => ?_⟩
  rcases read_cases hf h with ⟨hname, lines, hlines, rfl⟩ | ⟨hname, rfl⟩ | ⟨hname, rfl⟩ <;>
    simp [hname]

/-- A field can be read unless it is the one with the lines and they are none. -/
theorem readable {f : RecordField TxHistoryPage} (hf : f ∈ shape.fields) {json : Json}
    (hlines : f.name = "lines" → ∃ lines, Holds json lines) (r : TxHistoryPage) :
    ∃ r', f.read (.value json) r = .ok r' := by
  rcases List.mem_cons.mp hf with rfl | hf
  · obtain ⟨lines, hlines⟩ := hlines rfl
    exact ⟨{ r with lines := lines }, congrArg (Except.map _) hlines⟩
  · rcases List.mem_cons.mp hf with rfl | hf
    · exact ⟨_, rfl⟩
    · cases List.mem_singleton.mp hf
      exact ⟨_, rfl⟩

theorem holds_iff {json : Json} (hproper : json.IsProper) (lines : List TxLine) :
    Holds json lines ↔ ∃ items, Json.lineItems? (some json) = some items ∧
      (∀ item ∈ items, item.IsLine) ∧ lines = items.map TxLine.ofJson := by
  cases json with
  | array items =>
    have hcollect := TxLine.collect_ok_iff (Json.AllProper.isProper hproper) lines
    simpa [Json.lineItems?, Holds, listOrNull, level, levelOfJson] using hcollect
  | null =>
    show Except.ok [] = Except.ok lines ↔ _
    simp [Json.lineItems?, eq_comm]
  | object _ | bool _ | number _ | string _ =>
    constructor
    · rintro ⟨⟩
    · rintro ⟨items, ⟨⟩, -⟩

/-- An object is read as a page if the lines in it can be read, whatever else it holds. -/
theorem record_ok_iff {fields : List (String × Json)}
    (hproper : (Json.object fields).IsProper) (page : TxHistoryPage) :
    record shape (.value (.object fields)) = .ok page ↔
      ∃ items, Json.lineItems? (fields.lookup "lines") = some items ∧
        (∀ item ∈ items, item.IsLine) ∧ page = ofFields fields items := by
  obtain ⟨hnames, hvalues⟩ := hproper
  have hvalues := Json.allFieldsProper_iff.mp hvalues
  have hholds {json : Json} (h : fields.lookup "lines" = some json) :=
    holds_iff (hvalues _ (mem_of_lookup h))
  have hafter {page : TxHistoryPage}
      (hpage : record shape (.value (.object fields)) = .ok page) :
      ∃ items, Json.lineItems? (fields.lookup "lines") = some items ∧
        (∀ item ∈ items, item.IsLine) ∧ page = ofFields fields items := by
    have hlines := governs_lines.after hnames hpage
    have htotal : page.total = ((fields.lookup "total").map PageNumber.ofJson).getD 0 :=
      governs_total.value hnames hpage
    have hcurrent : page.current = ((fields.lookup "current").map PageNumber.ofJson).getD 0 :=
      governs_current.value hnames hpage
    obtain ⟨items, hitems, hall, hmap⟩ :
        ∃ items, Json.lineItems? (fields.lookup "lines") = some items ∧
          (∀ item ∈ items, item.IsLine) ∧ page.lines = items.map TxLine.ofJson := by
      cases h : fields.lookup "lines" with
      | none => rw [h] at hlines; exact ⟨[], rfl, by simp, hlines⟩
      | some json => rw [h] at hlines; exact (hholds h _).mp hlines
    refine ⟨items, hitems, hall, ?_⟩
    rw [ofFields, ← hmap, ← htotal, ← hcurrent]
  constructor
  · exact hafter
  · rintro ⟨items, hitems, hall, rfl⟩
    obtain ⟨page, hpage⟩ := Shape.exists_record shape (by simp [shape, pageField]) hnames
      fun name json hmem f hf hname => readable hf fun hlines => by
        have hlookup := lookup_of_mem hnames (hname.symm.trans hlines ▸ hmem)
        exact ⟨_, (hholds hlookup _).mpr ⟨items, hlookup ▸ hitems, hall, rfl⟩⟩
    obtain ⟨items', hitems', -, rfl⟩ := hafter hpage
    rw [hitems] at hitems'
    cases hitems'
    exact hpage

end TxHistoryPage

/-! ### Payloads -/

/-- Whether the payload of a view has something to show. -/
def View.Accepts : View → Json → Prop
  | .balance, .array items => 5 ≤ items.length
  | .blockHeight, .array items => 3 ≤ items.length
  | .bootstrapperProgress, .array items => 1 ≤ items.length
  | .consensusBuilderProgress, .array items => 1 ≤ items.length
  | .txHistory, .object fields =>
    fields ≠ [] ∧ ∃ items, Json.lineItems? (fields.lookup "lines") = some items ∧
      ∀ item ∈ items, item.IsLine
  | _, _ => False

/-- What a view shows for a payload. Each place that is looked at is inside the array. -/
inductive View.Shows : View → Json → Snapshot → Prop
  | balance {items : List Json} (hlength : 5 ≤ items.length) :
    Shows .balance (.array items) (.balance
      { confirmed := items[0].valueText, unconfirmed := items[1].valueText
        fundA := items[2].valueText, fundB := items[3].valueText
        whaleSize := items[items.length - 1].valueText })
  | blockHeight {items : List Json} (hlength : 3 ≤ items.length) :
    Shows .blockHeight (.array items) (.blockHeight
      { height := items[0].valueText, status := items[1].valueText, color := items[2].valueText })
  | progress {v : View} {items : List Json} (hprogress : v.isProgress)
    (hlength : 1 ≤ items.length) :
    Shows v (.array items) (.progress { percentage := items[0].valueText })
  | txHistory {fields : List (String × Json)} {items : List Json} (hfields : fields ≠ [])
    (hitems : Json.lineItems? (fields.lookup "lines") = some items)
    (hlines : ∀ item ∈ items, item.IsLine) :
    Shows .txHistory (.object fields) (.txHistory (TxHistoryPage.ofFields fields items))

namespace View.Shows

variable {v : View} {payload : Json} {s : Snapshot}

theorem accepts (h : v.Shows payload s) : v.Accepts payload := by
  cases h with
  | balance hlength | blockHeight hlength => exact hlength
  | progress hprogress hlength => cases v <;> first | exact hlength | cases hprogress
  | txHistory hfields hitems hlines => exact ⟨hfields, _, hitems, hlines⟩

theorem matchesView (h : v.Shows payload s) : s.matchesView v := by
  cases h with
  | balance | blockHeight | txHistory => rfl
  | progress hprogress => exact hprogress

theorem of_accepts (h : v.Accepts payload) : ∃ s, v.Shows payload s := by
  cases v <;> cases payload <;> first
    | exact ⟨_, balance h⟩
    | exact ⟨_, blockHeight h⟩
    | exact ⟨_, progress rfl h⟩
    | exact h.2.elim fun _ hitems => ⟨_, txHistory h.1 hitems.1 hitems.2⟩
    | cases h

end View.Shows

namespace Snapshot

theorem isNothing_iff (payload : Json) :
    isNothing payload = true ↔ payload = .null ∨ payload = .array [] ∨ payload = .object [] := by
  cases payload <;> simp [isNothing]

theorem positional_ok_iff (v : View) (least : Nat) (payload : Json) (texts : List String) :
    positional v least payload = .ok texts ↔
      ∃ items, payload = .array items ∧ least ≤ items.length ∧ texts = items.map Json.valueText := by
  cases payload with
  | array items =>
    rw [positional]
    split
    · rename_i hshort
      simp [Nat.not_le.mpr hshort]
    · rename_i hlong
      simp [Nat.not_lt.mp hlong, eq_comm]
  | _ => simp [positional]

theorem positional_error {v : View} {least : Nat} {payload : Json} {e : ValidationProblem}
    (h : positional v least payload = .error e) : ∃ reason, e = malformed v reason := by
  cases payload with
  | array items =>
    rw [positional] at h
    split at h <;> cases h
    exact ⟨_, rfl⟩
  | _ => cases h; exact ⟨_, rfl⟩

theorem positional_map_ok_iff {v : View} {least : Nat} {payload : Json}
    {read : List String → Snapshot} {s : Snapshot} :
    (positional v least payload).map read = .ok s ↔ ∃ items, payload = .array items ∧
      least ≤ items.length ∧ s = read (items.map Json.valueText) := by
  have hiff := positional_ok_iff v least payload
  cases hresult : positional v least payload with
  | error e =>
    simp only [hresult, reduceCtorEq, false_iff, Except.map] at hiff ⊢
    rintro ⟨items, hitems, hlength, -⟩
    exact hiff _ ⟨items, hitems, hlength, rfl⟩
  | ok texts =>
    obtain ⟨items, rfl, hlength, rfl⟩ := (hiff texts).mp hresult
    simp [Except.map, hlength, eq_comm]

theorem positional_map_error {v : View} {least : Nat} {payload : Json}
    {read : List String → Snapshot} {e : ValidationProblem}
    (h : (positional v least payload).map read = .error e) : ∃ reason, e = malformed v reason := by
  cases hresult : positional v least payload with
  | error e' => rw [hresult] at h; cases h; exact positional_error hresult
  | ok texts => rw [hresult] at h; cases h

/-! The places that a snapshot takes its texts from are all there. -/

theorem ofBalance_map {items : List Json} (h : 5 ≤ items.length) :
    ofBalance (items.map Json.valueText) = .balance
      { confirmed := items[0].valueText, unconfirmed := items[1].valueText
        fundA := items[2].valueText, fundB := items[3].valueText
        whaleSize := items[items.length - 1].valueText } := by
  match items, h with
  | a :: b :: c :: d :: e :: rest, _ =>
    simp [ofBalance, List.getLast?_eq_getElem?, -List.map_cons]

theorem ofBlockHeight_map {items : List Json} (h : 3 ≤ items.length) :
    ofBlockHeight (items.map Json.valueText) = .blockHeight
      { height := items[0].valueText, status := items[1].valueText
        color := items[2].valueText } := by
  match items, h with
  | a :: b :: c :: rest, _ => rfl

theorem ofProgress_map {items : List Json} (h : 1 ≤ items.length) :
    ofProgress (items.map Json.valueText) = .progress { percentage := items[0].valueText } := by
  match items, h with
  | a :: rest, _ => rfl

theorem ofTxHistory_ok_iff {v : View} {payload : Json} (hproper : payload.IsProper)
    {s : Snapshot} :
    ofTxHistory v payload = .ok s ↔ ∃ fields items, payload = .object fields ∧
      Json.lineItems? (fields.lookup "lines") = some items ∧ (∀ item ∈ items, item.IsLine) ∧
      s = .txHistory (TxHistoryPage.ofFields fields items) := by
  cases payload with
  | object fields =>
    have hpage := TxHistoryPage.record_ok_iff hproper
    rw [ofTxHistory]
    cases hrecord : record TxHistoryPage.shape (.value (.object fields)) with
    | error e =>
      simp only [hrecord, reduceCtorEq, false_iff] at hpage ⊢
      rintro ⟨_, items, ⟨⟩, hitems, hlines, -⟩
      exact hpage _ ⟨items, hitems, hlines, rfl⟩
    | ok page =>
      obtain ⟨items, hitems, hlines, rfl⟩ := (hpage page).mp hrecord
      simp only [Except.ok.injEq]
      constructor
      · rintro rfl
        exact ⟨fields, items, rfl, hitems, hlines, rfl⟩
      · rintro ⟨_, items', ⟨⟩, hitems', -, rfl⟩
        rw [hitems] at hitems'
        cases hitems'
        rfl
  | _ => simp [ofTxHistory]

theorem ofTxHistory_error {v : View} {payload : Json} {e : ValidationProblem}
    (h : ofTxHistory v payload = .error e) : ∃ reason, e = malformed v reason := by
  cases payload with
  | object fields =>
    rw [ofTxHistory] at h
    split at h <;> cases h
    exact ⟨_, rfl⟩
  | _ => cases h; exact ⟨_, rfl⟩

/-- What a view makes of a payload that says something: what it shows, or a complaint
under its name. -/
theorem ofPayload_something {v : View} {payload : Json} (h : isNothing payload = false) :
    ∃ result : Except ValidationProblem Snapshot, ofPayload v payload = result.map some ∧
      (∀ e, result = .error e → ∃ reason, e = malformed v reason) ∧
      (payload.IsProper → ∀ s, result = .ok s ↔ v.Shows payload s) := by
  have hread : ofPayload v payload = _ := if_neg (by simp [h])
  cases v with
  | balance =>
    refine ⟨_, hread, fun e => positional_map_error, fun _ s => positional_map_ok_iff.trans ?_⟩
    constructor
    · rintro ⟨items, rfl, hlength, rfl⟩
      exact ofBalance_map hlength ▸ .balance hlength
    · rintro (⟨hlength⟩ | _ | ⟨⟨⟩, _⟩)
      exact ⟨_, rfl, hlength, (ofBalance_map hlength).symm⟩
  | blockHeight =>
    refine ⟨_, hread, fun e => positional_map_error, fun _ s => positional_map_ok_iff.trans ?_⟩
    constructor
    · rintro ⟨items, rfl, hlength, rfl⟩
      exact ofBlockHeight_map hlength ▸ .blockHeight hlength
    · rintro (_ | ⟨hlength⟩ | ⟨⟨⟩, _⟩)
      exact ⟨_, rfl, hlength, (ofBlockHeight_map hlength).symm⟩
  | txHistory =>
    refine ⟨_, hread, fun e => ofTxHistory_error,
      fun hproper s => (ofTxHistory_ok_iff hproper).trans ?_⟩
    constructor
    · rintro ⟨fields, items, rfl, hitems, hlines, rfl⟩
      refine .txHistory (fun hempty => ?_) hitems hlines
      simp [isNothing, hempty] at h
    · rintro (_ | _ | ⟨⟨⟩, _⟩ | ⟨_, hitems, hlines⟩)
      exact ⟨_, _, rfl, hitems, hlines, rfl⟩
  | bootstrapperProgress | consensusBuilderProgress =>
    refine ⟨_, hread, fun e => positional_map_error, fun _ s => positional_map_ok_iff.trans ?_⟩
    constructor
    · rintro ⟨items, rfl, hlength, rfl⟩
      exact ofProgress_map hlength ▸ .progress rfl hlength
    · rintro (_ | _ | ⟨_, hlength⟩)
      exact ⟨_, rfl, hlength, (ofProgress_map hlength).symm⟩

theorem ofPayload_nothing {v : View} {payload : Json} (h : isNothing payload = true) :
    ofPayload v payload = .ok none :=
  if_pos h

theorem not_accepts_nothing {v : View} {payload : Json} (h : isNothing payload = true) :
    ¬ v.Accepts payload := by
  rcases (isNothing_iff payload).mp h with rfl | rfl | rfl <;> cases v <;>
    simp [View.Accepts]

/-- The payloads of a view. Nothing is shown exactly for `null`, an empty array and an empty
object; a snapshot exactly for what the view accepts, and then the one that it shows for it,
which is of its kind; and everything else is a malformed snapshot of that view. -/
theorem ofPayload_grammar (v : View) (payload : Json) (hproper : payload.IsProper) :
    (ofPayload v payload = .ok none ↔
      payload = .null ∨ payload = .array [] ∨ payload = .object []) ∧
    ((∃ s, ofPayload v payload = .ok (some s)) ↔ v.Accepts payload) ∧
    (∀ s, ofPayload v payload = .ok (some s) ↔ v.Shows payload s) ∧
    (∀ s, ofPayload v payload = .ok (some s) → s.matchesView v) ∧
    (¬ (payload = .null ∨ payload = .array [] ∨ payload = .object []) → ¬ v.Accepts payload →
      ∃ reason, ofPayload v payload = .error (.malformedSnapshot v.name reason)) := by
  have hshows : ∀ s, ofPayload v payload = .ok (some s) ↔ v.Shows payload s := by
    intro s
    cases h : isNothing payload with
    | true =>
      rw [ofPayload_nothing h]
      exact ⟨fun hno => (by cases hno), fun hs => absurd hs.accepts (not_accepts_nothing h)⟩
    | false =>
      obtain ⟨result, hresult, -, hok⟩ := ofPayload_something (v := v) h
      rw [hresult, ← hok hproper s]
      cases result <;> simp [Except.map]
  refine ⟨?_, ?_, hshows, fun s hs => ((hshows s).mp hs).matchesView, fun hsome haccepts => ?_⟩
  · rw [← isNothing_iff]
    refine ⟨fun hnone => ?_, ofPayload_nothing⟩
    by_contra hno
    obtain ⟨result, hresult, -⟩ := ofPayload_something (v := v) (Bool.not_eq_true _ ▸ hno)
    rw [hresult] at hnone
    cases result <;> cases hnone
  · constructor
    · rintro ⟨s, hs⟩
      exact ((hshows s).mp hs).accepts
    · intro haccepts
      obtain ⟨s, hs⟩ := View.Shows.of_accepts haccepts
      exact ⟨s, (hshows s).mpr hs⟩
  · rw [← isNothing_iff, Bool.not_eq_true] at hsome
    obtain ⟨result, hresult, herror, hok⟩ := ofPayload_something (v := v) hsome
    cases result with
    | ok s => exact absurd ((hok hproper s).mp rfl).accepts haccepts
    | error e =>
      obtain ⟨reason, rfl⟩ := herror e rfl
      exact ⟨reason, hresult⟩

/-- A page with one line as an array and one as an object with a field that nobody asks for. -/
theorem ofPayload_grammar_page :
    ofPayload .txHistory (.object [("current", .string "2"), ("lines", .array
      [.array [.string "a"], .object [("fee", .null), ("memo", .bool true)]])]) =
    .ok (some (.txHistory { lines := [{ id := "a" }, {}], total := 0, current := 2 })) := by
  refine ((ofPayload_grammar .txHistory _ ?_).2.2.1 _).mpr ?_
  · simp [Json.IsProper, Json.AllProper, Json.AllFieldsProper]
  · have hlines : ∀ item ∈ [Json.array [.string "a"],
        .object [("fee", .null), ("memo", .bool true)]], item.IsLine := by simp [Json.IsLine]
    exact .txHistory (List.cons_ne_nil _ _) rfl hlines

end Snapshot

end WalletPage
