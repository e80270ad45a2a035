import WalletPage.Host.Basic
import WalletPage.Json.Basic
import WalletPage.Store.Basic

/-! A browser in memory: its elements, its storage, what servers reply, its clock,
the functions that the page provides, and everything that reached the page. Any
call that may throw can be made to throw. -/

namespace WalletPage

/-- What an element is. -/
inductive ElementKind where
  | block
  | input
  | form
deriving DecidableEq, Repr

/-- An element, by its place among all elements in the order in which they were made. -/
abbrev ElementId := Nat

/-- The body, which is always the first element. -/
def bodyId : ElementId := 0

/-- An element of the document, inside one that was made before it. Its name is
what effects call it, and other elements may go by the same name. -/
structure Element where
  name : String
  kind : ElementKind := .block
  id : Option String := none
  classes : String := ""
  attributes : List (String × String) := []
  value : String := ""
  action : String := ""
  parent : Option ElementId := some bodyId
  html : String := ""
  isAttached : Bool := true
deriving DecidableEq, Repr

/-- The calls that can be made to throw. -/
inductive BrowserCall where
  | setAttribute
  | submit
  | formData
  | append
  | xmlHttpRequest
  | upload
  | openRequest
  | send
  | setItem
  | length
  | key
  | request
deriving DecidableEq, Repr

/-- A value of the page's own language. -/
inductive PageValue where
  | undefined
  | json (value : Json)
deriving Repr

/-- What a function of the page does. -/
inductive PageFunction where
  | returns (value : PageValue)
  | throws (value : PageValue)
deriving Repr

/-- What a server replies to a request. -/
structure HttpReply where
  status : Nat := 200
  text : String := "OK"
  body : String := "null"
  /-- Why the request fails, if it does. -/
  rejection : Option String := none
  isHeld : Bool := false
deriving DecidableEq, Repr

/-- Whether the storage can be used. -/
inductive StorageAccess where
  | granted
  | disabled
  | throws (text : String)
deriving DecidableEq, Repr

/-- What reaches the page. -/
inductive Effect where
  | html (element content : String)
  | className (element content : String)
  | value (element content : String)
  | attribute (name element content : String)
  | submit (element : String)
  | uploadOpened (url : String)
  | uploadSent (form : String)
  | console (method line : String)
  | called (function : String) (arguments : List String)
deriving DecidableEq, Repr

/-- What happens in a browser. -/
inductive BrowserEvent where
  | effect (effect : Effect)
  | requested (method url : String) (fields : Option (List (String × String)))
  | slept (ms : Nat)
  | logged (entry : LogEntry)
deriving DecidableEq, Repr

/-- How an upload comes to its end. -/
inductive UploadEnd where
  | load
  | error
  | abort
deriving DecidableEq, Repr

/-- An upload in flight. -/
structure Upload where
  /-- Whether anyone listens for its progress. -/
  isWatched : Bool := false
  /-- The ends that are still waited for. -/
  awaited : List UploadEnd := []
deriving DecidableEq, Repr

/-- A browser in memory. -/
structure Browser where
  hasWindow : Bool := true
  hasDocument : Bool := true
  hasBody : Bool := true
  elements : List Element := [{ name := "body", parent := none }]
  storageAccess : StorageAccess := .granted
  storage : Store := .empty
  /-- The stores that stand in where the storage could not be used. -/
  memories : List Store := []
  throwing : List (BrowserCall × String) := []
  now : Float := 0
  random : Float := 0
  replies : List (String × List HttpReply) := []
  functions : List (String × PageFunction) := []
  uploads : List Upload := []
  /-- What has happened, the latest last. -/
  events : List BrowserEvent := []

namespace Browser

/-- The browser after one more event. -/
def record (b : Browser) (event : BrowserEvent) : Browser :=
  { b with events := b.events ++ [event] }

/-- The browser after something reached the page. -/
def emit (b : Browser) (effect : Effect) : Browser :=
  b.record (.effect effect)

/-- Logs a message. -/
def log (b : Browser) (level : LogLevel) (component : Component) (message : String) : Browser :=
  b.record (.logged ⟨level, component, message⟩)

/-- What a call throws, if it does. -/
def thrown? (b : Browser) (call : BrowserCall) : Option String :=
  b.throwing.lookup call

/-- Makes a call throw, or work again. -/
def setThrown (b : Browser) (call : BrowserCall) (text : Option String) : Browser :=
  let others := b.throwing.filter (·.1 ≠ call)
  { b with throwing := match text with
      | some text => (call, text) :: others
      | none => others }

/-- A thrown text as messages show it. -/
def shownText (text : String) : String :=
  "JsValue(\"" ++ text ++ "\")"

end Browser

end WalletPage
