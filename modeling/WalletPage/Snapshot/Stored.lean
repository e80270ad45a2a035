import WalletPage.Snapshot.Records

/-! The stored form of snapshots: a JSON object that names the kind of snapshot
under `view` and holds its record under `data`. The two may come in either
order, and what else the object holds is ignored. -/

namespace WalletPage

open Document

namespace Snapshot

/-- The kinds of snapshot. -/
inductive Kind where
  | balance
  | blockHeight
  | txHistory
  | progress
deriving DecidableEq, Repr

namespace Kind

/-- The name of a kind. -/
def name : Kind → String
  | balance => "balance"
  | blockHeight => "block_height"
  | txHistory => "tx_history"
  | progress => "progress"

/-- The kinds with their names, in their order. -/
def names : List (String × Kind) :=
  [balance, blockHeight, txHistory, progress].map fun k => (k.name, k)

end Kind

/-- The kind of a snapshot. -/
def kind : Snapshot → Kind
  | balance _ => .balance
  | blockHeight _ => .blockHeight
  | txHistory _ => .txHistory
  | progress _ => .progress

/-- The record of a snapshot as JSON. -/
def data : Snapshot → Json
  | balance data => data.toJson
  | blockHeight data => data.toJson
  | txHistory data => data.toJson
  | progress data => data.toJson

/-- The stored form as JSON. -/
def toJson (s : Snapshot) : Json :=
  .object [("view", .string s.kind.name), ("data", s.data)]

/-- The stored form. -/
def stored (s : Snapshot) : String :=
  s.toJson.compact

/-- Reads the record of a snapshot of a known kind. -/
def ofData (k : Kind) (d : Document) : Decoded Snapshot :=
  match k with
  | .balance => (record Balance.shape d).map .balance
  | .blockHeight => (record BlockHeight.shape d).map .blockHeight
  | .txHistory => (record TxHistoryPage.shape d).map .txHistory
  | .progress => (record Progress.shape d).map .progress

/-- The two keys that count in a stored snapshot. -/
inductive Part where
  | view
  | data
deriving DecidableEq, Repr

/-- The part that a key stands for. -/
def Part.ofKey? (key : String) : Option Part :=
  if key = "view" then some .view else if key = "data" then some .data else none

/-- The key of a part. -/
def Part.key : Part → String
  | view => "view"
  | data => "data"

/-- The fields of an object that are left from a certain place on. -/
abbrev Fields := List (Except Fault String × Document)

/-- The next field that counts, with the fields behind it. -/
def nextPart : Fields → Option Fault → Decoded (Option (Part × Document × Fields))
  | [], cut => do
    faulty (Draft.closed cut)
    return none
  | (key, d) :: rest, cut => do
    match Part.ofKey? (← faulty key) with
    | some part => return some (part, d, rest)
    | none =>
      faulty d.skip
      nextPart rest cut

/-- Neither part may come a second time. -/
def noMoreParts (rest : Fields) (cut : Option Fault) : Decoded Unit := do
  match ← nextPart rest cut with
  | none => return ()
  | some (part, _, _) => throw (.duplicateField part.key)

/-- Reads a stored snapshot from the fields of an object. -/
def ofFields (fields : Fields) (cut : Option Fault) : Decoded Snapshot := do
  match ← nextPart fields cut with
  | none => throw (.missingField Part.view.key)
  | some (.view, tag, rest) =>
    let k ← tag.choice Kind.names
    match ← nextPart rest cut with
    | none => throw (.missingField Part.data.key)
    | some (.view, _, _) => throw (.duplicateField Part.view.key)
    | some (.data, d, rest) =>
      let s ← ofData k d
      noMoreParts rest cut
      return s
  | some (.data, d, rest) =>
    let d ← faulty d.keep
    match ← nextPart rest cut with
    | none => throw (.missingField Part.view.key)
    | some (.data, _, _) => throw (.duplicateField Part.data.key)
    | some (.view, tag, rest) =>
      let k ← tag.choice Kind.names
      let s ← ofData k d
      noMoreParts rest cut
      return s

/-- How a stored snapshot is named in errors. -/
def expected : Expected := .tagged "Snapshot"

/-- Reads a stored snapshot from an array of its kind and its record. -/
def ofItems (d : Document) (items : List Document) (cut : Option Fault) : Decoded Snapshot := do
  match items with
  | [] =>
    faulty (Draft.closed cut)
    throw (.wrongLength 0 expected)
  | [tag] =>
    let _ ← tag.identifier Kind.names
    faulty (Draft.closed cut)
    throw (.wrongLength 1 expected)
  | tag :: content :: rest =>
    let k ← tag.identifier Kind.names
    let s ← ofData k content
    closeArray d items.length rest cut
    return s

/-- Reads a stored snapshot. -/
def ofDocument (d : Document) : Decoded Snapshot :=
  match d.level with
  | .object fields cut => ofFields fields cut
  | .array items cut => ofItems d items cut
  | other => .error (other.unexpected expected)

/-- Reads the stored form. -/
def ofStored (text : String) : Decoded Snapshot :=
  decodeText ofDocument text

end Snapshot

end WalletPage
