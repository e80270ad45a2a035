import WalletPage.Store.Keyed

/-! Stores of texts under keys, which list their keys in order. -/

namespace WalletPage

/-- Texts under keys, in the order of the keys. -/
structure Store where
  entries : List (String × String) := []
  sorted : KeysSorted entries := by exact keysSorted_nil

namespace Store

/-- The store without entries. -/
def empty : Store := {}

/-- The text under a key. -/
def get? (s : Store) (key : String) : Option String :=
  s.entries.lookup key

/-- Puts a text under a key, in the place of what was there. -/
def put (s : Store) (key value : String) : Store where
  entries := putKey key value s.entries
  sorted := keysSorted_putKey key value s.sorted

/-- Removes what is under a key. -/
def erase (s : Store) (key : String) : Store where
  entries := dropKey key s.entries
  sorted := keysSorted_filter _ s.sorted

/-- The keys, in order. -/
def keys (s : Store) : List String :=
  s.entries.map (·.1)

/-- How many entries there are. -/
def size (s : Store) : Nat :=
  s.entries.length

instance : DecidableEq Store := fun a b =>
  if h : a.entries = b.entries then
    isTrue (by cases a; cases b; simp_all)
  else isFalse fun hab => h (by rw [hab])

@[simp] theorem get?_empty (k : String) : empty.get? k = none := rfl

@[simp] theorem get?_put (s : Store) (key value k : String) :
    (s.put key value).get? k = if k = key then some value else s.get? k :=
  lookup_putKey key value s.entries k

@[simp] theorem get?_erase (s : Store) (key k : String) :
    (s.erase key).get? k = if k = key then none else s.get? k :=
  lookup_dropKey key s.entries k

theorem mem_keys_iff {s : Store} {key : String} : key ∈ s.keys ↔ (s.get? key).isSome = true := by
  rw [keys, get?, List.mem_map, List.lookup_isSome_iff]
  exact exists_congr fun e => and_congr_right fun _ => eq_comm.trans beq_iff_eq.symm

theorem nodup_keys (s : Store) : s.keys.Nodup :=
  s.sorted.nodup

end Store

end WalletPage
