import WalletPage.Browser.Basic
import WalletPage.Json.Printer

/-! Seeds and addresses, from functions that the page provides. -/

namespace WalletPage.Browser

/-- A number of the page's own language as messages show it: its shortest digits,
never with an exponent. -/
def plainNumber (n : Number) : List Char :=
  let x := Decimal.Binary64.ofFloat n.toFloat
  let magnitude :=
    if x.significand = 0 then ['0']
    else
      let s := x.shortest
      let ds := Decimal.natDigits s.digits
      let point := (ds.length : Int) + s.exponent
      if (ds.length : Int) ≤ point then ds ++ List.replicate s.exponent.toNat '0'
      else Decimal.positional ds point
  if x.isNegative then '-' :: magnitude else magnitude

/-- A value that is no text, as messages show it. -/
def shownValue : PageValue → String
  | .undefined => "JsValue(undefined)"
  | .json (.number n) => "JsValue(" ++ String.ofList (plainNumber n) ++ ")"
  | .json (.string s) => shownText s
  | .json value => "JsValue(" ++ value.compact ++ ")"

/-- A thrown value: a text speaks for itself. -/
def thrownText : PageValue → String
  | .json (.string s) => s
  | value => shownValue value

/-- Calls a function of the page that should return a text. -/
def callFunction (b : Browser) (name : String) (arguments : List String) :
    Fallible String × Browser :=
  let b := b.emit (.called name arguments)
  let failure (reason : String) : Problem := ExternalProblem.seedModule (name ++ " " ++ reason)
  match (b.functions.lookup name).getD (.returns .undefined) with
  | .throws value => (.error (failure ("threw: " ++ thrownText value)), b)
  | .returns (.json (.string s)) => (.ok s, b)
  | .returns _ => (.error (failure "did not return a string"), b)

/-- A new seed for a wallet. -/
def newSeed (b : Browser) : Fallible String × Browser :=
  b.callFunction "wasmNewWalletSeed" []

/-- The first address of a seed. -/
def addressOf (b : Browser) (seed : String) : Fallible String × Browser :=
  b.callFunction "wasmAddressFromSeed" [seed]

end WalletPage.Browser
