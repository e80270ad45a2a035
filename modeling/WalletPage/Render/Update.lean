import WalletPage.View.Basic
import WalletPage.Markup.Html

/-! Changes to the elements of a page. -/

namespace WalletPage

/-- What is set on an element: its content, all of its classes, or the value of an input. -/
inductive Change where
  | html (content : String)
  | className (content : String)
  | value (content : String)
deriving DecidableEq, Repr

/-- A change to the elements that a target means. -/
structure Update where
  target : Target
  change : Change
deriving DecidableEq, Repr

/-- What is set by a change. -/
def Change.content : Change → String
  | html content => content
  | className content => content
  | value content => content

namespace Update

/-- Replaces the content by a tree. -/
def html (target : Target) (tree : Markup) : Update :=
  ⟨target, .html tree.html⟩

/-- Replaces the content by a text. -/
def text (target : Target) (content : String) : Update :=
  html target (.text content)

/-- Replaces all classes. -/
def className (target : Target) (classes : String) : Update :=
  ⟨target, .className classes⟩

/-- Sets the value of an input. -/
def value (target : Target) (content : String) : Update :=
  ⟨target, .value content⟩

end Update

end WalletPage
