import WalletPage.Json.Decode

/-! Levels of log lines, from the chattiest to the gravest. -/

namespace WalletPage

/-- How grave a log line is. -/
inductive LogLevel where
  | trace
  | debug
  | info
  | warn
  | error
deriving DecidableEq, Repr

namespace LogLevel

/-- All levels, the gravest last. -/
def all : List LogLevel := [trace, debug, info, warn, error]

/-- The rank of a level. -/
def rank : LogLevel → Nat
  | trace => 0
  | debug => 1
  | info => 2
  | warn => 3
  | error => 4

/-- How two levels compare. -/
def compare (a b : LogLevel) : Ordering :=
  Ord.compare a.rank b.rank

/-- The name of a level in settings. -/
def name : LogLevel → String
  | trace => "trace"
  | debug => "debug"
  | info => "info"
  | warn => "warn"
  | error => "error"

/-- A level as it stands in a log line. -/
def label : LogLevel → String
  | trace => "TRACE"
  | debug => "DEBUG"
  | info => " INFO"
  | warn => " WARN"
  | error => "ERROR"

/-- The level of a name in any mixture of capital and small letters. -/
def ofName? (text : String) : Option LogLevel :=
  all.find? fun l => text.toList.map Char.toLower = l.name.toList

/-- What is said of a name that no level has. -/
def unknownText : String := "Matching variant not found"

/-- The level in a document, which must hold its exact name. -/
def ofDocument (d : Document) : Decoded LogLevel :=
  d.choice (all.map fun l => (l.name, l))

instance : Inhabited LogLevel := ⟨info⟩

end LogLevel

end WalletPage
