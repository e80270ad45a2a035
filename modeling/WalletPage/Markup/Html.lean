import WalletPage.Markup.Basic

/-! The HTML text of a tree. Texts and attribute values are escaped; tags and
attribute names are written as they are. -/

namespace WalletPage.Markup

/-- A character of a text between tags. -/
def escapedInText (c : Char) : List Char :=
  match c with
  | '&' => ['&', 'a', 'm', 'p', ';']
  | '<' => ['&', 'l', 't', ';']
  | '>' => ['&', 'g', 't', ';']
  | c => [c]

/-- A character of an attribute value between double quotes. -/
def escapedInValue (c : Char) : List Char :=
  match c with
  | '"' => ['&', 'q', 'u', 'o', 't', ';']
  | c => escapedInText c

/-- The tags without children and without a closing tag. -/
def voidTags : List String :=
  ["input", "img", "br", "hr", "meta", "link"]

/-- A space and an attribute. -/
def attributeChars (a : Attribute) : List Char :=
  match a.value with
  | none => ' ' :: a.name.toList
  | some value =>
    ' ' :: a.name.toList ++ ['=', '"'] ++ value.toList.flatMap escapedInValue ++ ['"']

/-- The opening tag. -/
def openTag (tag : String) (attributes : List Attribute) : List Char :=
  '<' :: tag.toList ++ attributes.flatMap attributeChars ++ ['>']

/-- The closing tag. -/
def closeTag (tag : String) : List Char :=
  ['<', '/'] ++ tag.toList ++ ['>']

mutual

/-- The characters of a tree. -/
def chars : Markup → List Char
  | text content => content.toList.flatMap escapedInText
  | fragment children => allChars children
  | element tag attributes children =>
    openTag tag attributes ++
      (if voidTags.contains tag then [] else allChars children ++ closeTag tag)

/-- The characters of several trees. -/
def allChars : List Markup → List Char
  | [] => []
  | tree :: rest => chars tree ++ allChars rest

end

/-- The HTML text of a tree. -/
def html (tree : Markup) : String :=
  String.ofList tree.chars

end WalletPage.Markup
