import WalletPage.Proofs.PrintedJson
import WalletPage.Snapshot.Stored

/-! A stored snapshot is read back as it was. The records are read from their
own printed form, field by field in the declared order, and the two parts of
the stored form are met in the order in which they were written. -/

namespace WalletPage

open Document

/-! ### Records -/

theorem Balance.record_draft (d : Balance) (room : Nat) :
    record Balance.shape (.text d.toJson.draft (room + 1)) = .ok d := rfl

theorem BlockHeight.record_draft (d : BlockHeight) (room : Nat) :
    record BlockHeight.shape (.text d.toJson.draft (room + 1)) = .ok d := rfl

theorem Progress.record_draft (d : Progress) (room : Nat) :
    record Progress.shape (.text d.toJson.draft (room + 1)) = .ok d := rfl

theorem TxLine.record_draft (d : TxLine) (room : Nat) :
    record TxLine.shape (.text d.toJson.draft (room + 1)) = .ok d := rfl

theorem TxLine.listOrNull_draft (lines : List TxLine) (room : Nat) :
    listOrNull (record TxLine.shape)
      (.text (Json.array (lines.map TxLine.toJson)).draft (room + 2)) = .ok lines := by
  show collect (record TxLine.shape)
    ((Json.draftItems (lines.map TxLine.toJson)).map (.text · (room + 1))) none = .ok lines
  induction lines with
  | nil => rfl
  | cons line rest ih =>
    simp only [List.map_cons, Json.draftItems, collect, TxLine.record_draft, ih]
    rfl

theorem PageNumber.ofNat_toNat (n : PageNumber) : PageNumber.ofNat n.toNat = n := by
  have h := n.toNat_lt
  have hmin : min n.toNat PageNumber.limit = n.toNat := by
    simp [PageNumber.limit, UInt32.size]; omega
  rw [PageNumber.ofNat, hmin]
  simp

theorem PageNumber.lenientPage_draft (n : PageNumber) (room : Nat) :
    lenientPage (.text (Json.number (.int n.toNat)).draft room) = .ok n := by
  have h := n.toNat_lt
  have hnatural : (Number.int n.toNat).natural? = some n.toNat := by
    simp [Number.natural?]; omega
  have hpage : PageNumber.ofJson (.number (.int n.toNat)) = n := by
    rw [PageNumber.ofJson, hnatural]
    exact PageNumber.ofNat_toNat n
  exact congrArg Except.ok hpage

theorem faulty_ok {α : Type} (a : α) : faulty (.ok a) = pure a := rfl

theorem Document.Shape.fromFields_cons {σ : Type} {shape : Shape σ} {name : String}
    {field : RecordField σ} {d : Document} {seen : List String} {r r' : σ}
    (hfield : shape.field? name = some field) (hseen : seen.contains name = false)
    (hread : field.read d r = .ok r') (rest : List (Except Fault String × Document))
    (cut : Option Fault) :
    shape.fromFields ((.ok name, d) :: rest) cut seen r =
      shape.fromFields rest cut (name :: seen) r' := by
  rw [fromFields, faulty_ok, pure_bind, hfield]
  simp only [hseen, hread]
  rfl

theorem pageField_read {σ : Type} (name : String) (set : PageNumber → σ → σ) (n : PageNumber)
    (room : Nat) (r : σ) :
    (pageField name set).read (.text (Json.number (.int n.toNat)).draft room) r =
      .ok (set n r) := by
  simp only [pageField, PageNumber.lenientPage_draft]
  rfl

theorem TxHistoryPage.record_draft (d : TxHistoryPage) (room : Nat) :
    record TxHistoryPage.shape (.text d.toJson.draft (room + 3)) = .ok d := by
  have hlines := TxLine.listOrNull_draft d.lines room
  show TxHistoryPage.shape.fromFields [(.ok "lines", .text _ (room + 2)),
    (.ok "total", .text _ (room + 2)), (.ok "current", .text _ (room + 2))] none [] {} = .ok d
  rw [Shape.fromFields_cons rfl rfl (congrArg (Except.map _) hlines),
    Shape.fromFields_cons rfl rfl (pageField_read ..),
    Shape.fromFields_cons rfl rfl (pageField_read ..)]
  rfl

/-! ### Snapshots -/

theorem plainItems_txLines (lines : List TxLine) :
    Json.PlainItems (lines.map TxLine.toJson) := by
  induction lines with
  | nil => trivial
  | cons line rest ih =>
    refine ⟨?_, ih⟩
    simp [TxLine.toJson, Json.Plain, Json.PlainFields]

namespace Snapshot

theorem plain_toJson (s : Snapshot) : s.toJson.Plain := by
  have hpage (n : PageNumber) : (Json.number (.int n.toNat)).Plain :=
    ⟨n.toNat, rfl, by have := n.toNat_lt; simp [UInt64.size]; omega⟩
  have hdata : s.data.Plain := by
    cases s with
    | balance d => simp [data, Balance.toJson, Json.Plain, Json.PlainFields]
    | blockHeight d => simp [data, BlockHeight.toJson, Json.Plain, Json.PlainFields]
    | progress d => simp [data, Progress.toJson, Json.Plain, Json.PlainFields]
    | txHistory d =>
      exact ⟨plainItems_txLines d.lines, hpage d.total, hpage d.current, trivial⟩
  exact ⟨trivial, hdata, trivial⟩

theorem ofData_draft (s : Snapshot) (room : Nat) :
    ofData s.kind (.text s.data.draft (room + 3)) = .ok s := by
  cases s with
  | balance d => exact congrArg (Except.map balance) (d.record_draft (room + 2))
  | blockHeight d => exact congrArg (Except.map blockHeight) (d.record_draft (room + 2))
  | txHistory d => exact congrArg (Except.map txHistory) (d.record_draft room)
  | progress d => exact congrArg (Except.map progress) (d.record_draft (room + 2))

theorem ofDocument_draft (s : Snapshot) (room : Nat) :
    ofDocument (.text s.toJson.draft (room + 4)) = .ok s := by
  have hkind : choice Kind.names (.text (.string (.ok s.kind.name)) (room + 3)) = .ok s.kind := by
    cases s <;> rfl
  have hdata := ofData_draft s room
  show (choice Kind.names (.text (.string (.ok s.kind.name)) (room + 3)) >>= _) = _
  rw [hkind]
  show (ofData s.kind (.text s.data.draft (room + 3)) >>= _) = _
  rw [hdata]
  rfl

/-- The stored form of a snapshot is decoded to the snapshot. -/
theorem ofStored_stored (s : Snapshot) : ofStored s.stored = .ok s := by
  rw [ofStored, stored, decodeText_compact _ s.plain_toJson]
  exact ofDocument_draft s 123

theorem stored_injective {s t : Snapshot} (h : s.stored = t.stored) : s = t := by
  have hs := ofStored_stored s
  rw [h, ofStored_stored t] at hs
  exact (Except.ok.inj hs).symm

/-- Storing loses nothing: the stored form of any snapshot is read back as the snapshot,
no two snapshots have one stored form, and a snapshot that was read from any text is the
same once it was stored and read again. -/
theorem stored_roundTrip :
    (∀ s, ofStored s.stored = .ok s) ∧ Function.Injective stored ∧
      ∀ text, (ofStored text >>= fun s => ofStored s.stored) = ofStored text := by
  refine ⟨ofStored_stored, fun _ _ => stored_injective, fun text => ?_⟩
  cases ofStored text with
  | error e => rfl
  | ok s =>
    simp only [bind, Except.bind]
    exact ofStored_stored s

end Snapshot

end WalletPage
