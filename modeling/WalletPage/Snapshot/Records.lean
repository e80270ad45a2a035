import WalletPage.Snapshot.Basic
import WalletPage.Json.Decode
import WalletPage.Json.Printer

/-! The records inside snapshots, as JSON documents hold them. The texts of a
transaction may be any JSON value, whose text is taken, and a page number may be
a number or its text. The other records hold strings only. -/

namespace WalletPage

open Document

/-- The largest page number. -/
def PageNumber.limit : Nat :=
  UInt32.size - 1

/-- The page number of a natural number; one that is too large is cut down. -/
def PageNumber.ofNat (n : Nat) : PageNumber :=
  UInt32.ofNat (min n PageNumber.limit)

/-- The digits of a natural number of 64 bits, which a plus sign may precede. -/
def naturalOfText? (cs : List Char) : Option Nat :=
  let digits := match cs with
    | '+' :: rest => rest
    | cs => cs
  match Reader.digitRun digits with
  | (d :: ds, []) =>
    let n := Reader.ofDigits (d :: ds)
    if n < UInt64.size then some n else none
  | _ => none

/-- The page number that a value stands for; zero for what is no such number. -/
def PageNumber.ofJson : Json → PageNumber
  | .number n => .ofNat (n.natural?.getD 0)
  | .string s => .ofNat ((naturalOfText? (Text.trimmed s.toList)).getD 0)
  | _ => 0

/-- The text of any value. -/
def lenientText (d : Document) : Decoded String :=
  d.anything.map Json.valueText

/-- The page number of any value. -/
def lenientPage (d : Document) : Decoded PageNumber :=
  d.anything.map PageNumber.ofJson

/-- A required field that is a string. -/
def stringField {σ : Type} (name : String) (set : String → σ → σ) : RecordField σ where
  name := name
  required := true
  read d record := d.string.map (set · record)

/-- A field that may be missing and whose value is read as a text. -/
def lenientField {σ : Type} (name : String) (set : String → σ → σ) : RecordField σ where
  name := name
  required := false
  read d record := (lenientText d).map (set · record)

/-- A field that may be missing and whose value is read as a page number. -/
def pageField {σ : Type} (name : String) (set : PageNumber → σ → σ) : RecordField σ where
  name := name
  required := false
  read d record := (lenientPage d).map (set · record)

/-- How the funds are read. -/
def Balance.shape : Shape Balance where
  name := "Balance"
  blank := ⟨"", "", "", "", ""⟩
  fields :=
    [stringField "confirmed" fun x r => { r with confirmed := x },
      stringField "unconfirmed" fun x r => { r with unconfirmed := x },
      stringField "fund_a" fun x r => { r with fundA := x },
      stringField "fund_b" fun x r => { r with fundB := x },
      stringField "whale_size" fun x r => { r with whaleSize := x }]

/-- How the height of the chain is read. -/
def BlockHeight.shape : Shape BlockHeight where
  name := "BlockHeight"
  blank := ⟨"", "", ""⟩
  fields :=
    [stringField "height" fun x r => { r with height := x },
      stringField "status" fun x r => { r with status := x },
      stringField "color" fun x r => { r with color := x }]

/-- How progress is read. -/
def Progress.shape : Shape Progress where
  name := "Progress"
  blank := ⟨""⟩
  fields := [stringField "percentage" fun x _ => ⟨x⟩]

/-- How a transaction is read. -/
def TxLine.shape : Shape TxLine where
  name := "TxLine"
  blank := {}
  fields :=
    [lenientField "transaction_id" fun x r => { r with id := x },
      lenientField "short_transaction_id" fun x r => { r with shortId := x },
      lenientField "type" fun x r => { r with kind := x },
      lenientField "amount" fun x r => { r with amount := x },
      lenientField "fee" fun x r => { r with fee := x },
      lenientField "time" fun x r => { r with time := x },
      lenientField "confirmed" fun x r => { r with confirmed := x }]

/-- How a page of transactions is read. -/
def TxHistoryPage.shape : Shape TxHistoryPage where
  name := "TxHistoryPage"
  blank := {}
  fields :=
    [{ name := "lines", required := false
       read := fun d r => (d.listOrNull (record TxLine.shape)).map fun x => { r with lines := x } },
      pageField "total" fun x r => { r with total := x },
      pageField "current" fun x r => { r with current := x }]

/-- The funds as JSON. -/
def Balance.toJson (data : Balance) : Json :=
  .object [("confirmed", .string data.confirmed), ("unconfirmed", .string data.unconfirmed),
    ("fund_a", .string data.fundA), ("fund_b", .string data.fundB),
    ("whale_size", .string data.whaleSize)]

/-- The height of the chain as JSON. -/
def BlockHeight.toJson (data : BlockHeight) : Json :=
  .object [("height", .string data.height), ("status", .string data.status),
    ("color", .string data.color)]

/-- Progress as JSON. -/
def Progress.toJson (data : Progress) : Json :=
  .object [("percentage", .string data.percentage)]

/-- A transaction as JSON. -/
def TxLine.toJson (line : TxLine) : Json :=
  .object [("transaction_id", .string line.id), ("short_transaction_id", .string line.shortId),
    ("type", .string line.kind), ("amount", .string line.amount), ("fee", .string line.fee),
    ("time", .string line.time), ("confirmed", .string line.confirmed)]

/-- A page of transactions as JSON. -/
def TxHistoryPage.toJson (page : TxHistoryPage) : Json :=
  .object [("lines", .array (page.lines.map TxLine.toJson)),
    ("total", .number (.int page.total.toNat)), ("current", .number (.int page.current.toNat))]

end WalletPage
