import WalletPage.Text.Blank

/-! Trees of markup. A view builds a tree from what it shows and writes it once,
so that every text is escaped in one place. -/

namespace WalletPage

/-- An attribute; one without a value is a flag. -/
structure Attribute where
  name : String
  value : Option String
deriving DecidableEq, Repr

/-- A text, a run of trees, or an element. -/
inductive Markup where
  | text (content : String)
  | fragment (children : List Markup)
  | element (tag : String) (attributes : List Attribute) (children : List Markup)
deriving Repr

/-- The tag of an element and its attributes. -/
structure ElementHead where
  tag : String
  attributes : List Attribute
deriving DecidableEq, Repr

/-- The value of the first attribute of that name, if it has one. -/
def ElementHead.attribute? (head : ElementHead) (name : String) : Option String :=
  (head.attributes.find? (·.name = name)).bind (·.value)

/-- Whether the class attribute has that word. -/
def ElementHead.hasClass (head : ElementHead) (word : String) : Bool :=
  (head.attribute? "class").any fun classes => (Text.words classes).contains word

/-- An attribute with a value. -/
def attr (name value : String) : Attribute :=
  ⟨name, some value⟩

/-- A flag, if it is set. -/
def flag (name : String) (isSet : Bool) : List Attribute :=
  if isSet then [⟨name, none⟩] else []

namespace Markup

mutual

/-- The elements of a tree that have a class, each before what is inside it. -/
def findByClass (word : String) : Markup → List ElementHead
  | text _ => []
  | fragment children => findAllByClass word children
  | element tag attributes children =>
    let head : ElementHead := ⟨tag, attributes⟩
    (if head.hasClass word then [head] else []) ++ findAllByClass word children

/-- The elements of several trees that have a class. -/
def findAllByClass (word : String) : List Markup → List ElementHead
  | [] => []
  | tree :: rest => findByClass word tree ++ findAllByClass word rest

end

mutual

/-- Whether two trees are the same. -/
def same : Markup → Markup → Bool
  | text a, text b => a = b
  | fragment as, fragment bs => sameAll as bs
  | element t xs as, element u ys bs => t = u && xs = ys && sameAll as bs
  | _, _ => false

/-- Whether two lists of trees are the same. -/
def sameAll : List Markup → List Markup → Bool
  | [], [] => true
  | a :: as, b :: bs => same a b && sameAll as bs
  | _, _ => false

end

instance : BEq Markup := ⟨same⟩

end Markup

end WalletPage
