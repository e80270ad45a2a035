import WalletPage.Browser.Access
import WalletPage.Browser.Seed
import WalletPage.Browser.Upload
import WalletPage.Run.Service

/-! What a page can call: making the live views of a session, starting and
stopping them, and the calls that need no views. Whatever goes wrong in a call
is logged and thrown as a text. -/

namespace WalletPage

/-- A browser with everything that runs in it. -/
structure Tab where
  run : Run BrowserAccess Browser := { world := {} }
  /-- The views that save notes as the user types. -/
  listening : Option ServiceId := none
  /-- How many promises were made. -/
  promises : Nat := 0

namespace Tab

/-- Changes the browser. -/
def modify (t : Tab) (f : Browser → Browser) : Tab :=
  { t with run := { t.run with world := f t.run.world } }

/-- Logs what went wrong in a call, and makes it the text that is thrown. -/
def report {α : Type} (t : Tab) : Fallible α → Except String α × Tab
  | .ok a => (.ok a, t)
  | .error p => (.error p.text, t.modify (·.log .error Run.callComponent p.text))

/-- Calls something of the run. -/
def callRun {α : Type} (t : Tab)
    (f : Run BrowserAccess Browser → Fallible α × Run BrowserAccess Browser) :
    Except String α × Tab :=
  let (result, run) := f t.run
  { t with run := run }.report result

/-- Calls something of the browser. -/
def callBrowser {α : Type} (t : Tab) (f : Browser → Fallible α × Browser) :
    Except String α × Tab :=
  t.callRun fun r => r.act f

/-- The settings that the page passes along, if it does. -/
def readConfig : Option String → Except ConfigurationProblem Config
  | none => .ok {}
  | some text => Config.ofText text

/-- What new views need: settings, a session and a document, checked in this order. -/
def checkViews (b : Browser) (session config : Option String) : Fallible (Config × SessionId) := do
  let settings ← match readConfig config with
    | .ok c => pure c
    | .error p => throw (p : Problem)
  let id ← match session.filter (!·.isEmpty) with
    | none => pure SessionId.anonymous
    | some text =>
      match SessionId.ofText text with
      | .ok id => pure id
      | .error p => throw (p : Problem)
  b.checkDocument
  return (settings, id)

/-- Makes views, which listen from now on in the place of the old ones. -/
def make (t : Tab) (session config : Option String) : Except String ServiceId × Tab :=
  match t.report (checkViews t.run.world session config) with
  | (.error text, t) => (.error text, t)
  | (.ok (settings, id), t) =>
    let (store, run) := t.run.act Browser.openStore
    let (views, run) := run.addService id settings ⟨settings.baseUrl, store⟩
    (.ok views, { t with run := run, listening := some views })

/-- Lets the views go. They listen no longer, but their tasks go on. -/
def free (t : Tab) : Tab :=
  { t with listening := none }

/-- Starts polling every view. -/
def start (t : Tab) (views : ServiceId) : Except String Unit × Tab :=
  t.callRun fun r => r.start views

/-- Selects a page of the transaction history. -/
def selectPage (t : Tab) (views : ServiceId) (page : PageNumber) : Except String Unit × Tab :=
  t.callRun fun r => r.selectPage views page

/-- Promises to shut the server down, under a number. -/
def shutdown (t : Tab) (views : ServiceId) : Nat × Tab :=
  let run := match t.run.executor.spawn (.shutdown views t.promises .start) with
    | some (_, executor) => { t.run with executor := executor }
    | none => t.run
  (t.promises, { t with run := run, promises := t.promises + 1 })

/-- Stops every task of the views, and counts those that were still going on. -/
def stop (t : Tab) (views : ServiceId) : Nat × Tab :=
  let (count, run) := t.run.stopAll views
  (count, { t with run := run })

/-- Whether the views poll the one of that name. -/
def isPolling (t : Tab) (views : ServiceId) (name : String) : Except String Bool × Tab :=
  t.report (match View.ofName? name with
    | some v => .ok (t.run.isPolling views v)
    | none => .error (ValidationProblem.unknownView name))

/-- The session of the views. -/
def session? (t : Tab) (views : ServiceId) : Option SessionId :=
  (t.run.services[views]?).map (·.session)

/-- Uploads the consensus set. -/
def upload (t : Tab) : Except String Unit × Tab :=
  t.callBrowser fun b =>
    match b.checkDocument with
    | .ok () => b.startUpload
    | .error p => (.error p, b)

/-- A new seed for a wallet. -/
def newSeed (t : Tab) : Except String String × Tab :=
  t.callBrowser (·.newSeed)

/-- The first address of a seed. -/
def addressOf (t : Tab) (seed : String) : Except String String × Tab :=
  t.callBrowser (·.addressOf seed)

/-- The short transaction id of an element that holds a note. -/
def noteId? (e : Element) : Option String :=
  if e.kind = .input ∧ (Text.words e.classes).contains noteClass then
    e.attributes.lookup noteIdAttribute
  else none

/-- An event of an element. As the user types into a note, the views save it. -/
def dispatch (t : Tab) (id : ElementId) (event : String) : Tab :=
  match t.listening, t.run.world.element? id with
  | some views, some e =>
    match noteId? e, event with
    | some shortId, "input" =>
      let (result, run) := t.run.saveNote views shortId e.value
      let t := { t with run := run }
      match result with
      | .ok () => t
      | .error p => t.modify (·.log .warn ⟨.presentation, "Notes"⟩ p.text)
    | _, _ => t
  | _, _ => t

/-- The user sets the value of an element. -/
def typeIn (t : Tab) (id : ElementId) (value : String) : Tab :=
  t.modify (·.modifyElement id fun e => { e with value := value })

end Tab

end WalletPage
