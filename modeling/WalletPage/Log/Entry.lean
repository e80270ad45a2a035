import WalletPage.Log.Level

/-! Log lines. -/

namespace WalletPage

/-- The layer that a log line comes from. -/
inductive Layer where
  | domain
  | application
  | infrastructure
  | presentation
deriving DecidableEq, Repr

/-- The unit of a layer that a log line comes from. -/
structure Component where
  layer : Layer
  unit : String
deriving DecidableEq, Repr

/-- What is logged. -/
structure LogEntry where
  level : LogLevel
  component : Component
  message : String
deriving DecidableEq, Repr

/-- A layer as it stands in a log line. -/
def Layer.label : Layer → String
  | domain => "DOM"
  | application => "APP"
  | infrastructure => "INF"
  | presentation => "PRE"

/-- A component as it stands in a log line. -/
def Component.text (c : Component) : String :=
  c.layer.label ++ ":" ++ c.unit

/-- A time of a clock that counts, as it stands in a log line. -/
def countedTime (n : Nat) : String :=
  String.ofList (Decimal.padded 6 n)

/-- The log line at a time. -/
def LogEntry.line (entry : LogEntry) (time : String) : String :=
  "[" ++ time ++ "] " ++ entry.level.label ++ " " ++ entry.component.text ++ " | " ++
    entry.message

end WalletPage
