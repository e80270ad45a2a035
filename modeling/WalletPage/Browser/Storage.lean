import WalletPage.Browser.Window

/-! The stores of a browser: the one that keeps its texts in the storage of the
window, and stores in memory, which take its place where that storage cannot be
used. -/

namespace WalletPage

/-- Which store of a browser is meant. -/
inductive StoreHandle where
  | storage
  | memory (number : Nat)
deriving DecidableEq, Repr

/-- A browser is its window; its storage lists the keys in their order. -/
instance : Window Browser where
  item? key b := b.storage.get? key
  setItem key raw b :=
    match b.thrown? .setItem with
    | some text => .error text
    | none => .ok { b with storage := b.storage.put key raw }
  removeItem key b := { b with storage := b.storage.erase key }
  length b :=
    match b.thrown? .length with
    | some text => .error text
    | none => .ok b.storage.size
  keyAt? place b :=
    match b.thrown? .key with
    | some text => .error text
    | none => .ok b.storage.keys[place]?
  log entry b := b.record (.logged entry)

namespace Browser

/-- Checks that the browser's own storage can be used. -/
def checkStorage (b : Browser) : Fallible Unit :=
  if b.hasWindow then
    match b.storageAccess with
    | .granted => .ok ()
    | .disabled => .error (StorageProblem.unavailable "localStorage is disabled")
    | .throws text => .error (StorageProblem.unavailable (shownText text))
  else .error (ExternalProblem.browserApi "Window not available")

/-- Opens the browser's own storage, or else a store in memory. -/
def openStore (b : Browser) : StoreHandle × Browser :=
  match b.checkStorage with
  | .ok () => (.storage, b)
  | .error p =>
    let b := b.log .warn ⟨.infrastructure, "BrowserStore"⟩
      (p.detail ++ "; cache will not survive a reload")
    (.memory b.memories.length, { b with memories := b.memories ++ [Store.empty] })

/-- The store in memory of that number. -/
def memory (b : Browser) (number : Nat) : Store :=
  b.memories.getD number .empty

/-- Replaces the store in memory of that number. -/
def setMemory (number : Nat) (s : Store) (b : Browser) : Browser :=
  { b with memories := b.memories.set number s }

/-- How a store of a browser is used. -/
def storeOf : StoreHandle → KeyValueStore Browser
  | .storage => Window.store
  | .memory number => KeyValueStore.memory.inside (·.memory number) (setMemory number)

/-- The text under a key of a store. -/
def read (b : Browser) (store : StoreHandle) (key : String) : Option String × Browser :=
  ((storeOf store).get? key).run b

/-- Writes a text to a store. -/
def write (b : Browser) (store : StoreHandle) (key value : String) : Fallible Unit × Browser :=
  ((storeOf store).set key value).run b

/-- Removes what is under a key of a store. -/
def erase (b : Browser) (store : StoreHandle) (key : String) : Browser :=
  (((storeOf store).remove key).run b).2

/-- The keys of a store. -/
def keysOf (b : Browser) (store : StoreHandle) : List String × Browser :=
  (storeOf store).keys.run b

end Browser

end WalletPage
