import WalletPage.Decimal.Layout

/-! JSON values. A number is an integer or a 64-bit floating point number, and
an object is the list of its fields. Objects that come from a text list each
name once, in the order of the names. -/

namespace WalletPage

open Decimal

/-- A JSON number. -/
inductive Number where
  | int (n : Int)
  | real (x : Binary64)
deriving DecidableEq, Repr

/-- A JSON value. -/
inductive Json where
  | null
  | bool (b : Bool)
  | number (n : Number)
  | string (s : String)
  | array (items : List Json)
  | object (fields : List (String × Json))
deriving Repr

instance : Inhabited Json := ⟨.null⟩

/-- The number if it is a whole number of 64 bits without sign. -/
def Number.natural? : Number → Option Nat
  | .int n => if 0 ≤ n ∧ n < UInt64.size then some n.toNat else none
  | .real _ => none

/-- The text of a number. -/
def Number.text : Number → List Char
  | .int n => intDigits n
  | .real x => x.text

/-- The number as a floating point number. -/
def Number.toFloat : Number → Float
  | .int n => Float.ofInt n
  | .real x => x.toFloat

/-- The value of a field. -/
def Json.field? (name : String) : Json → Option Json
  | .object fields => fields.lookup name
  | _ => none

end WalletPage
