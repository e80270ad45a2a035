import WalletPage.Problem
import WalletPage.Store.Basic

/-! The ways to use a store of texts that is part of a state. -/

namespace WalletPage

/-- What can be done with a store of texts. -/
structure KeyValueStore (σ : Type) where
  get? (key : String) : StateM σ (Option String)
  set (key value : String) : StateM σ (Fallible Unit)
  remove (key : String) : StateM σ Unit
  keys : StateM σ (List String)

namespace KeyValueStore

/-- A store in memory, which takes every text. -/
def memory : KeyValueStore Store where
  get? key := fun s => (s.get? key, s)
  set key value := fun s => (.ok (), s.put key value)
  remove key := fun s => ((), s.erase key)
  keys := fun s => (s.keys, s)

variable {σ τ : Type}

/-- Does something with a part of a larger state. -/
def zoom {α : Type} (part : σ → τ) (replace : τ → σ → σ) (m : StateM τ α) : StateM σ α :=
  fun s =>
    let (a, t) := m.run (part s)
    (a, replace t s)

/-- A store that is used where it stands in a larger state. -/
def inside (store : KeyValueStore τ) (part : σ → τ) (replace : τ → σ → σ) : KeyValueStore σ where
  get? key := zoom part replace (store.get? key)
  set key value := zoom part replace (store.set key value)
  remove key := zoom part replace (store.remove key)
  keys := zoom part replace store.keys

end KeyValueStore

end WalletPage
