import WalletPage.Json.Document
import WalletPage.Text.Quoted

/-! Why a document is not what a decoder wants, and how that is said. -/

namespace WalletPage

open Document

/-- What stands in a document where something else was expected. -/
inductive Found where
  | null
  | bool (b : Bool)
  | number (n : Number)
  | string (s : String)
  | sequence
  | map
deriving DecidableEq, Repr

/-- What a decoder expects. -/
inductive Expected where
  | string
  | boolean
  | natural
  | sequence
  | unit
  | record (name : String)
  | recordOf (name : String) (count : Nat)
  | tagged (name : String)
  | variant
  | stringOrMap
  | singleKey
  | fewerItems
  | items (count : Nat)
deriving DecidableEq, Repr

/-- Why a document cannot be decoded. -/
inductive DecodeError where
  | fault (fault : Fault)
  | wrongType (found : Found) (expected : Expected)
  | wrongValue (found : Found) (expected : Expected)
  | wrongLength (length : Nat) (expected : Expected)
  | missingField (name : String)
  | duplicateField (name : String)
  | unknownVariant (name : String) (known : List String)
deriving DecidableEq, Repr

/-- How a finding is named. -/
def Found.text : Found → String
  | null => "null"
  | bool b => "boolean `" ++ (if b then "true" else "false") ++ "`"
  | number (.int n) => "integer `" ++ String.ofList (Number.int n).text ++ "`"
  | number (.real x) => "floating point `" ++ String.ofList (Number.real x).text ++ "`"
  | string s => "string " ++ Text.quoted s
  | sequence => "sequence"
  | map => "map"

/-- A number with a noun in the singular or the plural. -/
def counted (n : Nat) (one many : String) : String :=
  String.ofList (Decimal.natDigits n) ++ " " ++ (if n = 1 then one else many)

/-- How an expectation is named. -/
def Expected.text : Expected → String
  | string => "a string"
  | boolean => "a boolean"
  | natural => "u64"
  | sequence => "a sequence"
  | unit => "unit"
  | record name => "struct " ++ name
  | recordOf name count => "struct " ++ name ++ " with " ++ counted count "element" "elements"
  | tagged name => "adjacently tagged enum " ++ name
  | variant => "variant identifier"
  | stringOrMap => "string or map"
  | singleKey => "map with a single key"
  | fewerItems => "fewer elements in array"
  | items count => counted count "element" "elements" ++ " in sequence"

/-- A name between backquotes. -/
def backquoted (name : String) : String :=
  "`" ++ name ++ "`"

/-- The wording of a decoding error. -/
def DecodeError.message : DecodeError → String
  | fault f => f.message
  | wrongType found expected => "invalid type: " ++ found.text ++ ", expected " ++ expected.text
  | wrongValue found expected => "invalid value: " ++ found.text ++ ", expected " ++ expected.text
  | wrongLength length expected =>
    "invalid length " ++ String.ofList (Decimal.natDigits length) ++ ", expected " ++ expected.text
  | missingField name => "missing field " ++ backquoted name
  | duplicateField name => "duplicate field " ++ backquoted name
  | unknownVariant name known =>
    "unknown variant " ++ backquoted name ++ ", expected one of " ++
      ", ".intercalate (known.map backquoted)

/-- Whether the text itself is at fault, and not what it says. -/
def DecodeError.isFault : DecodeError → Bool
  | fault _ => true
  | _ => false

/-- The error of a level that is not what was expected. -/
def Document.Level.unexpected (expected : Expected) : Level → DecodeError
  | null => .wrongType .null expected
  | bool b => .wrongType (.bool b) expected
  | number n => .wrongType (.number n) expected
  | string s => .wrongType (.string s) expected
  | array _ _ => .wrongType .sequence expected
  | object _ _ => .wrongType .map expected
  | broken fault => .fault fault
  | scrap fault => .fault fault

end WalletPage
