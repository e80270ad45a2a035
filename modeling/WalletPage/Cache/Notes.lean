import WalletPage.Host.Basic

/-! Notes on transactions, kept in the store under short transaction ids. They
never leave the page. -/

namespace WalletPage.Notes

variable {ρ σ : Type} [Host ρ σ]

/-- The key of a note. -/
def key (shortId : String) : String :=
  "note-" ++ shortId

/-- The note on a transaction. -/
def get? (access : ρ) (shortId : String) : StateM σ (Option String) :=
  Host.get? access (key shortId)

/-- Sets the note on a transaction; an empty note is none. -/
def set (access : ρ) (shortId text : String) : StateM σ (Fallible Unit) :=
  if text.isEmpty then do
    Host.remove access (key shortId)
    return .ok ()
  else Host.set access (key shortId) text

/-- The notes on several transactions, each with its short id. -/
def forIds (access : ρ) : List String → StateM σ (List (String × String))
  | [] => return []
  | id :: rest => do
    let note ← get? access id
    let notes ← forIds access rest
    return (note.map fun text => (id, text)).toList ++ notes

end WalletPage.Notes
