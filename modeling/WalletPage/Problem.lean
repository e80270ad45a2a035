import WalletPage.Decimal.Layout

/-! Everything that can go wrong, by cause, with three wordings: the cause
alone, the cause with its kind, and the whole with the part of the program that
is responsible. -/

namespace WalletPage

/-- Data that breaks a rule. -/
inductive ValidationProblem where
  | malformedSnapshot (view reason : String)
  | invalidSession (reason : String)
  | invalidPage (reason : String)
  | unknownView (name : String)
deriving DecidableEq, Repr

/-- Settings that cannot be used. -/
inductive ConfigurationProblem where
  | invalidParameter (reason : String)
  | unreadable (reason : String)
deriving DecidableEq, Repr

/-- A request without a usable answer. -/
inductive NetworkProblem where
  | requestFailed (reason : String)
  | badStatus (status : Nat) (text : String)
  | invalidBody (reason : String)
deriving DecidableEq, Repr

/-- A store that does not do its work. -/
inductive StorageProblem where
  | unavailable (reason : String)
  | writeFailed (reason : String)
  | serialization (reason : String)
deriving DecidableEq, Repr

/-- A service of the page that fails. -/
inductive ExternalProblem where
  | browserApi (reason : String)
  | seedModule (reason : String)
deriving DecidableEq, Repr

/-- A page that cannot show what it should. -/
inductive UiProblem where
  | elementNotFound (what : String)
  | updateFailed (reason : String)
deriving DecidableEq, Repr

/-- Anything that can go wrong. -/
inductive Problem where
  | validation (problem : ValidationProblem)
  | configuration (problem : ConfigurationProblem)
  | network (problem : NetworkProblem)
  | storage (problem : StorageProblem)
  | external (problem : ExternalProblem)
  | ui (problem : UiProblem)
deriving DecidableEq, Repr

/-- The wording of a problem with data. -/
def ValidationProblem.text : ValidationProblem → String
  | malformedSnapshot view reason => "Malformed " ++ view ++ " snapshot: " ++ reason
  | invalidSession reason => "Invalid session id: " ++ reason
  | invalidPage reason => "Invalid page number: " ++ reason
  | unknownView name => "Unknown view: " ++ name

/-- The wording of a problem with settings. -/
def ConfigurationProblem.text : ConfigurationProblem → String
  | invalidParameter reason => "Invalid parameter: " ++ reason
  | unreadable reason => "Unreadable configuration: " ++ reason

/-- The wording of a problem with a request. -/
def NetworkProblem.text : NetworkProblem → String
  | requestFailed reason => "HTTP request failed: " ++ reason
  | badStatus status text =>
    "HTTP error: " ++ String.ofList (Decimal.natDigits status) ++ " " ++ text
  | invalidBody reason => "Unreadable response body: " ++ reason

/-- The wording of a problem with a store. -/
def StorageProblem.text : StorageProblem → String
  | unavailable reason => "Storage unavailable: " ++ reason
  | writeFailed reason => "Write failed: " ++ reason
  | serialization reason => "Serialization failed: " ++ reason

/-- The wording of a problem with a service of the page. -/
def ExternalProblem.text : ExternalProblem → String
  | browserApi reason => "Browser API error: " ++ reason
  | seedModule reason => "Seed module error: " ++ reason

/-- The wording of a problem with showing something. -/
def UiProblem.text : UiProblem → String
  | elementNotFound what => "Element not found: " ++ what
  | updateFailed reason => "DOM update failed: " ++ reason

namespace Problem

/-- The cause alone. -/
def cause : Problem → String
  | validation p => p.text
  | configuration p => p.text
  | network p => p.text
  | storage p => p.text
  | external p => p.text
  | ui p => p.text

/-- The kind of a problem. -/
def kind : Problem → String
  | validation _ => "Validation"
  | configuration _ => "Configuration"
  | network _ => "Network"
  | storage _ => "Storage"
  | external _ => "External"
  | ui _ => "UI"

/-- The part of the program that is responsible. -/
def part : Problem → String
  | validation _ => "Domain"
  | configuration _ => "Application"
  | network _ => "Infrastructure"
  | storage _ => "Infrastructure"
  | external _ => "Infrastructure"
  | ui _ => "Presentation"

/-- The cause with its kind. -/
def detail (p : Problem) : String :=
  p.kind ++ ": " ++ p.cause

/-- The whole wording. -/
def text (p : Problem) : String :=
  p.part ++ " Error: " ++ p.detail

end Problem

instance : Coe ValidationProblem Problem := ⟨.validation⟩

instance : Coe ConfigurationProblem Problem := ⟨.configuration⟩

instance : Coe NetworkProblem Problem := ⟨.network⟩

instance : Coe StorageProblem Problem := ⟨.storage⟩

instance : Coe ExternalProblem Problem := ⟨.external⟩

instance : Coe UiProblem Problem := ⟨.ui⟩

/-- A result, or what went wrong. -/
abbrev Fallible (α : Type) := Except Problem α

end WalletPage
