import WalletPage.Json.Basic
import WalletPage.Text.Quoted

/-! The compact text of a JSON value: no blanks, fields in the order in which
the object lists them, and in strings only the quote, the backslash and the
control characters below the space escaped. -/

namespace WalletPage

namespace Json

/-- A character as it stands in a JSON string. -/
def escaped (c : Char) : List Char :=
  match c with
  | '"' => ['\\', '"']
  | '\\' => ['\\', '\\']
  | '\x08' => ['\\', 'b']
  | '\x0c' => ['\\', 'f']
  | '\n' => ['\\', 'n']
  | '\r' => ['\\', 'r']
  | '\t' => ['\\', 't']
  | c =>
    if c.toNat < 0x20 then
      ['\\', 'u', '0', '0', Nat.digitChar (c.toNat / 16), Nat.digitChar (c.toNat % 16)]
    else [c]

/-- A text as a JSON string. -/
def literal (s : String) : List Char :=
  '"' :: s.toList.flatMap escaped ++ ['"']

mutual

/-- The characters of the compact text. -/
def chars : Json → List Char
  | null => ['n', 'u', 'l', 'l']
  | bool true => ['t', 'r', 'u', 'e']
  | bool false => ['f', 'a', 'l', 's', 'e']
  | number n => n.text
  | string s => literal s
  | array items => '[' :: itemChars items ++ [']']
  | object fields => '\x7b' :: fieldChars fields ++ ['\x7d']

/-- The items of an array, with a comma before each but the first. -/
def itemChars : List Json → List Char
  | [] => []
  | [item] => chars item
  | item :: next :: rest => chars item ++ ',' :: itemChars (next :: rest)

/-- The fields of an object, with a comma before each but the first. -/
def fieldChars : List (String × Json) → List Char
  | [] => []
  | [(name, value)] => literal name ++ ':' :: chars value
  | (name, value) :: next :: rest =>
    literal name ++ ':' :: chars value ++ ',' :: fieldChars (next :: rest)

end

/-- The compact text. -/
def compact (value : Json) : String :=
  String.ofList value.chars

/-- The text of a value as it should appear on a page: a string is its own text,
`null` is empty, and everything else is its compact text. -/
def valueText : Json → String
  | null => ""
  | string s => s
  | value => value.compact

end Json

end WalletPage
