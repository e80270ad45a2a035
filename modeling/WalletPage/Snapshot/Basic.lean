import WalletPage.View.Basic
import WalletPage.Text.Blank

/-! Snapshots: what a view showed at one moment. The two progress views share a
kind of snapshot; every other view has its own. -/

namespace WalletPage

/-- The number of a page; pages start at one. -/
abbrev PageNumber := UInt32

/-- The funds of a wallet. -/
structure Balance where
  confirmed : String
  unconfirmed : String
  fundA : String
  fundB : String
  whaleSize : String
deriving DecidableEq, Repr

/-- The height of the chain, and how far the wallet has followed it. -/
structure BlockHeight where
  height : String
  status : String
  color : String
deriving DecidableEq, Repr

/-- How far a task has come. -/
structure Progress where
  percentage : String
deriving DecidableEq, Repr

/-- One transaction. -/
structure TxLine where
  id : String := ""
  shortId : String := ""
  kind : String := ""
  amount : String := ""
  fee : String := ""
  time : String := ""
  confirmed : String := ""
deriving DecidableEq, Repr

/-- One page of transactions: its lines, the number of pages and which page it is. -/
structure TxHistoryPage where
  lines : List TxLine := []
  total : PageNumber := 0
  current : PageNumber := 0
deriving DecidableEq, Repr

/-- What a view shows. -/
inductive Snapshot where
  | balance (data : Balance)
  | blockHeight (data : BlockHeight)
  | txHistory (data : TxHistoryPage)
  | progress (data : Progress)
deriving DecidableEq, Repr

/-- The status of a wallet that has followed the whole chain. -/
def synchronizedStatus : String := "Synchronized"

/-- The percentage of a task that is done. -/
def completePercentage : String := "100%"

/-- Whether the wallet has followed the whole chain. -/
def BlockHeight.isSynchronized (data : BlockHeight) : Bool :=
  data.status = synchronizedStatus

/-- Whether the task is done. -/
def Progress.isComplete (data : Progress) : Bool :=
  Text.trim data.percentage = completePercentage

namespace Snapshot

/-- Whether the snapshot may be shown by the view. -/
def matchesView (s : Snapshot) (v : View) : Bool :=
  match s with
  | balance _ => v = .balance
  | blockHeight _ => v = .blockHeight
  | txHistory _ => v = .txHistory
  | progress _ => v.isProgress

/-- Whether the view has reached its end. -/
def isTerminal : Snapshot → Bool
  | blockHeight data => data.isSynchronized
  | progress data => data.isComplete
  | balance _ => false
  | txHistory _ => false

end Snapshot

end WalletPage
