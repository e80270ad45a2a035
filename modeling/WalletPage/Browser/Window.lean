import WalletPage.Browser.Basic
import WalletPage.Json.Decode
import WalletPage.Json.Printer
import WalletPage.Store.KeyValue

/-! The storage of a window, and the store that is made of it. The storage gives its
keys by their places, in an order of its own, and most of its calls may throw a text.
The store keeps every text as a JSON string, and what the storage holds otherwise
cannot be read. -/

namespace WalletPage

/-- What can be done with the storage of a window, and with its log. -/
class Window (σ : Type) where
  item? (key : String) (w : σ) : Option String
  setItem (key raw : String) (w : σ) : Except String σ
  removeItem (key : String) (w : σ) : σ
  length (w : σ) : Except String Nat
  /-- The key at a place; behind the last place there is none. -/
  keyAt? (place : Nat) (w : σ) : Except String (Option String)
  log (entry : LogEntry) (w : σ) : σ

namespace Window

variable {σ : Type} [Window σ]

/-- The source of the log lines about the storage of a window. -/
def component : Component := ⟨.infrastructure, "LocalStorage"⟩

/-- Logs that something has failed. -/
def warn (message : String) (w : σ) : σ :=
  log ⟨.warn, component, message⟩ w

/-- The store that keeps its texts in the storage of a window. -/
def store : KeyValueStore σ where
  get? key := fun w =>
    match item? key w with
    | none => (none, w)
    | some raw =>
      match Document.decodeText Document.string raw with
      | .ok text => (some text, w)
      | .error e => (none, warn ("Reading " ++ key ++ " failed: " ++ e.message) w)
  set key value := fun w =>
    match setItem key (Json.string value).compact w with
    | .ok w => (.ok (), w)
    | .error text => (.error (StorageProblem.writeFailed (key ++ ": " ++ text)), w)
  remove key := fun w => ((), removeItem key w)
  keys := fun w =>
    match length w with
    | .ok count =>
      ((List.range count).filterMap fun place => (keyAt? place w).toOption.join, w)
    | .error text => ([], warn ("Listing keys failed: " ++ Browser.shownText text) w)

end Window

end WalletPage
