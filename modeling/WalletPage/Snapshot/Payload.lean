import WalletPage.Snapshot.Records

/-! Snapshots from the answers of the server. Most views get an array whose
items count by their place; the transaction history gets an object. `null`, an
empty array and an empty object mean that there is nothing to show. -/

namespace WalletPage

open Document

namespace Snapshot

/-- A payload that the view cannot use. -/
def malformed (v : View) (reason : String) : ValidationProblem :=
  .malformedSnapshot v.name reason

/-- Whether a payload says that there is nothing to show. -/
def isNothing : Json → Bool
  | .null => true
  | .array items => items.isEmpty
  | .object fields => fields.isEmpty
  | _ => false

/-- The texts of an array of at least `least` items. -/
def positional (v : View) (least : Nat) : Json → Except ValidationProblem (List String)
  | .array items =>
    if items.length < least then
      .error (malformed v ("expected at least " ++ String.ofList (Decimal.natDigits least) ++
        " fields, got " ++ String.ofList (Decimal.natDigits items.length)))
    else .ok (items.map Json.valueText)
  | _ => .error (malformed v "expected an array")

/-- The funds: four amounts, and the label of the last place. -/
def ofBalance (texts : List String) : Snapshot :=
  .balance ⟨texts.getD 0 "", texts.getD 1 "", texts.getD 2 "", texts.getD 3 "",
    texts.getLastD ""⟩

/-- The height of the chain: three texts. -/
def ofBlockHeight (texts : List String) : Snapshot :=
  .blockHeight ⟨texts.getD 0 "", texts.getD 1 "", texts.getD 2 ""⟩

/-- Progress: one text. -/
def ofProgress (texts : List String) : Snapshot :=
  .progress ⟨texts.getD 0 ""⟩

/-- A page of transactions. -/
def ofTxHistory (v : View) (payload : Json) : Except ValidationProblem Snapshot :=
  match payload with
  | .object _ =>
    match record TxHistoryPage.shape (.value payload) with
    | .ok page => .ok (.txHistory page)
    | .error e => .error (malformed v e.message)
  | _ => .error (malformed v "expected an object")

/-- The snapshot that a view gets from a payload, or nothing. -/
def ofPayload (v : View) (payload : Json) : Except ValidationProblem (Option Snapshot) :=
  if isNothing payload then .ok none
  else some <$> match v with
    | .balance => (positional v 5 payload).map ofBalance
    | .blockHeight => (positional v 3 payload).map ofBlockHeight
    | .bootstrapperProgress => (positional v 1 payload).map ofProgress
    | .consensusBuilderProgress => (positional v 1 payload).map ofProgress
    | .txHistory => ofTxHistory v payload

end Snapshot

/-- Whether an answer says yes: `true`, as a value or a text, alone or first in an array. -/
def isAcknowledged (payload : Json) : Bool :=
  let first := match payload with
    | .array items => items.head?
    | other => some other
  first.any fun value =>
    (Text.trimmed value.valueText.toList).map Char.toLower = ['t', 'r', 'u', 'e']

end WalletPage
