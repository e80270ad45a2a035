import WalletPage.Browser.Basic

/-! The elements of a browser: finding them, changing them, and submitting forms. -/

namespace WalletPage.Browser

/-- The source of the log lines about elements. -/
def elementComponent : Component := ⟨.infrastructure, "BrowserDom"⟩

/-- The white space of markup, which stands between the classes of an element. -/
def isMarkupSpace (c : Char) : Bool :=
  c = ' ' || c = '\t' || c = '\n' || c = '\x0c' || c = '\r'

/-- The classes that a text lists. -/
def classNames (text : String) : List String :=
  Text.tokens isMarkupSpace text

/-- An element with its state. -/
def element? (b : Browser) (id : ElementId) : Option Element :=
  b.elements[id]?

/-- The first element of that name, attached or not. -/
def named? (b : Browser) (name : String) : Option ElementId :=
  b.elements.findIdx? (·.name = name)

/-- The name of an element. -/
def nameOf (b : Browser) (id : ElementId) : String :=
  ((b.element? id).map (·.name)).getD ""

/-- The attached elements of a kind, in the order in which they were made. -/
def attached (b : Browser) (isWanted : Element → Bool) : List ElementId :=
  (b.elements.zipIdx.filter fun (e, _) => e.isAttached && isWanted e).map (·.2)

/-- The first attached element with that id. -/
def elementById? (b : Browser) (id : String) : Option ElementId :=
  if id.isEmpty then none else (b.attached (·.id = some id)).head?

/-- The attached elements that have all classes of a text with at least one. -/
def elementsByClass (b : Browser) (classes : String) : List ElementId :=
  let wanted := classNames classes
  if wanted.isEmpty then []
  else b.attached fun e => wanted.all (classNames e.classes).contains

/-- The elements that a target means. -/
def elementsOf (b : Browser) : Target → List ElementId
  | .id id => (b.elementById? id).toList
  | .byClass classes => b.elementsByClass classes

/-- Changes an element. -/
def modifyElement (b : Browser) (id : ElementId) (f : Element → Element) : Browser :=
  { b with elements := b.elements.modify id f }

/-- Takes an element off the document; what is inside it stays. -/
def detach (b : Browser) (id : ElementId) : Browser :=
  b.modifyElement id fun e => { e with isAttached := false }

/-- The elements inside an element, as far as attached ones lead. An element is
made after the one that it lies in, so one pass in order finds them all. -/
def inside (b : Browser) (outer : ElementId) : List ElementId :=
  b.elements.zipIdx.foldl
    (fun found (e, id) =>
      if e.isAttached && e.parent.any (outer :: found).contains then found ++ [id] else found)
    []

/-- Takes everything inside an element off the document. -/
def detachInside (b : Browser) (outer : ElementId) : Browser :=
  (b.inside outer).foldl detach b

/-- Replaces the content of an element. -/
def setHtml (b : Browser) (id : ElementId) (html : String) : Browser :=
  (((b.detachInside id).modifyElement id fun e => { e with html := html })).emit
    (.html (b.nameOf id) html)

/-- Replaces the classes of an element. -/
def setClassName (b : Browser) (id : ElementId) (classes : String) : Browser :=
  (b.modifyElement id fun e => { e with classes := classes }).emit
    (.className (b.nameOf id) classes)

/-- Sets an attribute of an element. -/
def setAttribute (b : Browser) (id : ElementId) (key value : String) : Browser :=
  (b.modifyElement id fun e => { e with attributes := putKey key value e.attributes }).emit
    (.attribute key (b.nameOf id) value)

/-- Whether an element is of a kind. -/
def isKind (b : Browser) (kind : ElementKind) (id : ElementId) : Bool :=
  (b.element? id).any (·.kind = kind)

/-- Sets the value of an input; other elements get it as an attribute. -/
def setValue (b : Browser) (id : ElementId) (value : String) : Except String Unit × Browser :=
  if b.isKind .input id then
    (.ok (), (b.modifyElement id fun e => { e with value := value }).emit
      (.value (b.nameOf id) value))
  else
    match b.thrown? .setAttribute with
    | some text => (.error text, b)
    | none => (.ok (), b.setAttribute id "value" value)

/-- Changes one element. -/
def applyTo (b : Browser) (id : ElementId) : Change → Except String Unit × Browser
  | .html content => (.ok (), b.setHtml id content)
  | .className content => (.ok (), b.setClassName id content)
  | .value content => b.setValue id content

/-- Changes elements in order, up to one that cannot be changed. -/
def applyToAll (change : Change) : List ElementId → Browser → Except String Unit × Browser
  | [], b => (.ok (), b)
  | id :: rest, b =>
    match b.applyTo id change with
    | (.ok (), b) => applyToAll change rest b
    | (.error text, b) => (.error text, b)

/-- Changes the elements of a target, and counts them. -/
def applyUpdate (b : Browser) (u : Update) : Fallible Nat × Browser :=
  let elements := b.elementsOf u.target
  match applyToAll u.change elements b with
  | (.error text, b) =>
    (.error (UiProblem.updateFailed (u.target.text ++ ": " ++ shownText text)), b)
  | (.ok (), b) =>
    (.ok elements.length,
      if elements.isEmpty then
        b.log .trace elementComponent ("No element matches " ++ u.target.text)
      else b)

/-- The form with that id. -/
def form? (b : Browser) (id : String) : Option Element :=
  ((b.elementById? id).bind b.element?).filter (·.kind = .form)

/-- Submits a form, and tells whether that was possible. -/
def submitForm (b : Browser) (id : String) : Bool × Browser :=
  match b.form? id with
  | none => (false, b)
  | some form =>
    match b.thrown? .submit with
    | some _ => (false, b)
    | none => (true, b.emit (.submit form.name))

/-- Replaces the content of a container, or of the body if it is missing. -/
def replacePage (b : Browser) (container html : String) : Browser :=
  match b.elementById? container with
  | some id => b.setHtml id html
  | none => if b.hasBody then b.setHtml bodyId html else b

/-- What is said when there is no document. -/
def noDocument : Problem :=
  ExternalProblem.browserApi "Document not available"

/-- Checks that there is a document. -/
def checkDocument (b : Browser) : Fallible Unit :=
  if b.hasWindow && b.hasDocument then .ok () else .error noDocument

end WalletPage.Browser
