import WalletPage.Poll.Config
import WalletPage.View.Basic

/-! How long a view waits between two cycles. -/

namespace WalletPage

/-- How a cycle ended. -/
inductive Outcome where
  | anchorAbsent
  | failed
  | empty
  | unchanged
  | rendered
  | terminal
deriving DecidableEq, Repr

/-- What comes after a cycle. -/
inductive Next where
  | after (delay : Millis)
  | stop
deriving DecidableEq, Repr

/-- The delays that a view keeps to. -/
structure Policy where
  mountRetry : Millis
  successInterval : Millis
  failureRetry : Millis
  progressInterval : Millis
  stopWhenAnchorRemoved : Bool
deriving DecidableEq, Repr

/-- The name of an outcome. -/
def Outcome.name : Outcome → String
  | anchorAbsent => "AnchorAbsent"
  | failed => "Failed"
  | empty => "Empty"
  | unchanged => "Unchanged"
  | rendered => "Rendered"
  | terminal => "Terminal"

/-- Whether the server was reached and its answer could be used. -/
def Outcome.isSuccess : Outcome → Bool
  | anchorAbsent => false
  | failed => false
  | _ => true

/-- All outcomes. -/
def Outcome.all : List Outcome :=
  [anchorAbsent, failed, empty, unchanged, rendered, terminal]

/-- What comes next, as it is shown. -/
def Next.text : Next → String
  | after delay => "After(" ++ delay.text ++ ")"
  | stop => "Stop"

/-- The delays of the settings. -/
def Config.policy (c : Config) : Policy where
  mountRetry := c.mountRetry
  successInterval := c.successInterval
  failureRetry := c.failureRetry
  progressInterval := c.progressInterval
  stopWhenAnchorRemoved := c.stopWhenAnchorRemoved

/-- What comes after a cycle. A view stops when it has lost an anchor that it
had found, or when the progress that it shows is complete. -/
def Policy.next (p : Policy) (v : View) (outcome : Outcome) (anchorSeen : Bool) : Next :=
  match outcome with
  | .anchorAbsent => if anchorSeen && p.stopWhenAnchorRemoved then .stop else .after p.mountRetry
  | .terminal =>
    if v.isProgress then .stop else .after p.successInterval
  | .failed => .after (if v.isProgress then p.progressInterval else p.failureRetry)
  | .empty | .unchanged | .rendered =>
    .after (if v.isProgress then p.progressInterval else p.successInterval)

end WalletPage
