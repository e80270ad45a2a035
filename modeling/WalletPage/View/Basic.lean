import WalletPage.Problem

/-! The views of a wallet page: where each finds its data, which element shows
that it is mounted, and how it behaves. -/

namespace WalletPage

/-- The views that are kept up to date. -/
inductive View where
  | balance
  | blockHeight
  | txHistory
  | bootstrapperProgress
  | consensusBuilderProgress
deriving DecidableEq, Repr

/-- Which elements of the page are meant: the one with an id, or all of a class. -/
inductive Target where
  | id (name : String)
  | byClass (name : String)
deriving DecidableEq, Repr

/-- How an endpoint is asked. -/
inductive Method where
  | get
  | postForm
deriving DecidableEq, Repr

/-- Where a view finds its data. -/
structure Endpoint where
  method : Method
  path : String
deriving DecidableEq, Repr

/-- A target as it is written in messages. -/
def Target.text : Target → String
  | id name => "#" ++ name
  | byClass name => "." ++ name

/-- The path that shuts the server down. -/
def shutdownPath : String := "/shutdownServer"

/-- The path that keeps the server up. -/
def heartbeatPath : String := "/gui/heartbeat"

/-- The path that shows one transaction. -/
def explorerPath : String := "/gui/explorer"

namespace View

/-- All views, in their order. -/
def all : List View :=
  [balance, blockHeight, txHistory, bootstrapperProgress, consensusBuilderProgress]

/-- The name of a view. -/
def name : View → String
  | balance => "balance"
  | blockHeight => "block_height"
  | txHistory => "tx_history"
  | bootstrapperProgress => "bootstrapper_progress"
  | consensusBuilderProgress => "consensus_builder_progress"

/-- The view of that name. -/
def ofName? (text : String) : Option View :=
  all.find? (·.name = text)

/-- The views with their names. -/
def names : List (String × View) :=
  all.map fun v => (v.name, v)

/-- Where the view finds its data. -/
def endpoint : View → Endpoint
  | txHistory => ⟨.postForm, "/api/txHistoryPage"⟩
  | balance => ⟨.postForm, "/gui/balance"⟩
  | blockHeight => ⟨.postForm, "/gui/blockHeight"⟩
  | bootstrapperProgress => ⟨.get, "/gui/bootstrapperProgress"⟩
  | consensusBuilderProgress => ⟨.get, "/gui/consensusBuilderProgress"⟩

/-- The element whose presence means that the view is mounted. -/
def anchor : View → Target
  | balance => .id "balance"
  | blockHeight => .byClass "block_height"
  | txHistory => .id "tx_history_page"
  | bootstrapperProgress => .byClass "bootstrapper-progress"
  | consensusBuilderProgress => .byClass "consensus-builder-progress"

/-- The form that is submitted when the view has reached its end. -/
def transitionForm? : View → Option String
  | blockHeight => some "refreshForm"
  | bootstrapperProgress => some "refreshBootstrapper"
  | consensusBuilderProgress => some "refreshConsensusBuilder"
  | balance => none
  | txHistory => none

/-- Whether the view shows the progress of a task that comes to an end. -/
def isProgress : View → Bool
  | bootstrapperProgress => true
  | consensusBuilderProgress => true
  | _ => false

/-- Whether the view is painted from the cache before its first request. -/
def hydrates : View → Bool
  | txHistory => true
  | _ => false

/-- Whether the view comes in pages. -/
def isPaged : View → Bool
  | txHistory => true
  | _ => false

theorem mem_all (v : View) : v ∈ all := by
  cases v <;> decide

theorem name_injective {v w : View} (h : v.name = w.name) : v = w := by
  revert h
  cases v <;> cases w <;> decide

end View

end WalletPage
