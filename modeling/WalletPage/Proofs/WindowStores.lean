import WalletPage.Browser.Storage
import WalletPage.Proofs.PageEffects
import Mathlib.Data.List.Forall2
import Mathlib.Data.List.Nodup

/-! The store in the storage of a window cannot be told from a store in memory. The storage
holds the JSON of exactly the texts that the memory holds, whatever they are, and each call
keeps it so. What a window does with its storage is taken as its documentation has it, and
nothing is said of the order in which it lists the keys. -/

namespace WalletPage

variable {σ τ : Type}

/-! ### Calls -/

/-- A call of a store. -/
inductive StoreCall where
  | get (key : String)
  | set (key value : String)
  | remove (key : String)
  | keys
deriving DecidableEq, Repr

/-- What a call of a store comes back with. -/
inductive StoreAnswer where
  | found (text : Option String)
  | written (result : Fallible Unit)
  | removed
  | listed (keys : List String)

/-- Whether two answers are the same, or lists of the same keys, each key once. -/
inductive StoreAnswer.Alike : StoreAnswer → StoreAnswer → Prop
  | found (text : Option String) : Alike (.found text) (.found text)
  | written (result : Fallible Unit) : Alike (.written result) (.written result)
  | removed : Alike .removed .removed
  | listed {keys keys' : List String} (hnodup : keys.Nodup) (hnodup' : keys'.Nodup)
      (hmem : ∀ key, key ∈ keys ↔ key ∈ keys') : Alike (.listed keys) (.listed keys')

namespace KeyValueStore

/-- Makes a call. -/
def perform (store : KeyValueStore σ) : StoreCall → StateM σ StoreAnswer
  | .get key => return .found (← store.get? key)
  | .set key value => return .written (← store.set key value)
  | .remove key => do
    store.remove key
    return .removed
  | .keys => return .listed (← store.keys)

section Runs

variable (store : KeyValueStore σ) (s : σ) (key value : String)

theorem perform_get : (store.perform (.get key)).run s =
    (.found ((store.get? key).run s).1, ((store.get? key).run s).2) := rfl

theorem perform_set : (store.perform (.set key value)).run s =
    (.written ((store.set key value).run s).1, ((store.set key value).run s).2) := rfl

theorem perform_remove : (store.perform (.remove key)).run s =
    (.removed, ((store.remove key).run s).2) := rfl

theorem perform_keys : (store.perform .keys).run s =
    (.listed (store.keys.run s).1, (store.keys.run s).2) := rfl

end Runs

/-- Makes calls one after the other. -/
def performAll (store : KeyValueStore σ) : List StoreCall → StateM σ (List StoreAnswer)
  | [] => return []
  | c :: rest => do
    let answer ← store.perform c
    let answers ← store.performAll rest
    return answer :: answers

/-- Whether every call of one store comes back as that of another one does, and keeps their
states related. -/
def Simulates (related : σ → τ → Prop) (store : KeyValueStore σ) (store' : KeyValueStore τ) :
    Prop :=
  ∀ (c : StoreCall) (s : σ) (t : τ), related s t →
    ((store.perform c).run s).1.Alike ((store'.perform c).run t).1 ∧
      related ((store.perform c).run s).2 ((store'.perform c).run t).2

theorem Simulates.performAll {related : σ → τ → Prop} {store : KeyValueStore σ}
    {store' : KeyValueStore τ} (h : Simulates related store store') {s : σ} {t : τ}
    (hst : related s t) (calls : List StoreCall) :
    List.Forall₂ StoreAnswer.Alike ((store.performAll calls).run s).1
      ((store'.performAll calls).run t).1 := by
  induction calls generalizing s t with
  | nil => exact .nil
  | cons c rest ih =>
    obtain ⟨halike, hrelated⟩ := h c s t hst
    exact .cons halike (ih hrelated)

end KeyValueStore

/-! ### The storage of a window -/

/-- A text in the storage of a window is read back as it was. -/
theorem Document.decodeText_string (text : String) :
    decodeText string (Json.string text).compact = .ok text := by
  have hplain : (Json.string text).Plain := trivial
  rw [decodeText_compact string hplain]
  rfl

namespace Window

/-- What is known of the storage of a window in the states in which it works: it takes every
text, holds what was set last under a key until that is removed, and has one place for each
key that it holds. -/
structure IsReliable [Window σ] (works : σ → Prop) : Prop where
  setItem : ∀ {w : σ}, works w → ∀ key raw, ∃ w', Window.setItem key raw w = .ok w' ∧
    works w' ∧ ∀ k, item? k w' = if k = key then some raw else item? k w
  removeItem : ∀ {w : σ}, works w → ∀ key, works (Window.removeItem key w) ∧
    ∀ k, item? k (Window.removeItem key w) = if k = key then none else item? k w
  places : ∀ {w : σ}, works w → ∃ count, length w = .ok count ∧
    (∀ place key, keyAt? place w = .ok (some key) →
      place < count ∧ (item? key w).isSome = true) ∧
    ∀ key, (item? key w).isSome = true → ∃! place, keyAt? place w = .ok (some key)

/-- Whether the storage of a window works and holds the JSON of what a store in memory holds. -/
structure Holds [Window σ] (works : σ → Prop) (w : σ) (s : Store) : Prop where
  works : works w
  item? : ∀ key, item? key w = (s.get? key).map fun text => (Json.string text).compact

variable [Window σ] {works : σ → Prop} {w : σ} {s : Store}

namespace Holds

theorem get? (h : Holds works w s) (key : String) :
    ((store.get? key).run w) = (s.get? key, w) := by
  have hitem := h.item? key
  dsimp only [store, StateT.run]
  rw [hitem]
  cases s.get? key with
  | none => rfl
  | some text =>
    dsimp only [Option.map_some]
    rw [Document.decodeText_string]

theorem set (h : Holds works w s) (hreliable : IsReliable works) (key value : String) :
    ((store.set key value).run w).1 = .ok () ∧
      Holds works ((store.set key value).run w).2 (s.put key value) := by
  obtain ⟨w', hset, hworks, hitem⟩ :=
    hreliable.setItem h.works key (Json.string value).compact
  have hrun : (store.set key value).run w = (.ok (), w') := by
    dsimp only [store, StateT.run]
    rw [hset]
  rw [hrun]
  refine ⟨rfl, hworks, fun k => ?_⟩
  rw [hitem, Store.get?_put, h.item?]
  split <;> rfl

theorem remove (h : Holds works w s) (hreliable : IsReliable works) (key : String) :
    Holds works ((store.remove key).run w).2 (s.erase key) := by
  obtain ⟨hworks, hitem⟩ := hreliable.removeItem h.works key
  refine ⟨hworks, fun k => ?_⟩
  show Window.item? k (Window.removeItem key w) = _
  rw [hitem, Store.get?_erase, h.item?]
  split <;> rfl

/-- The keys at the places of the storage are those in memory, each once. -/
theorem keys (h : Holds works w s) (hreliable : IsReliable works) :
    ∃ keys, store.keys.run w = (keys, w) ∧ keys.Nodup ∧ ∀ key, key ∈ keys ↔ key ∈ s.keys := by
  obtain ⟨count, hlength, hplace, hheld⟩ := hreliable.places h.works
  have hkey {place : Nat} {key : String} :
      (keyAt? place w).toOption.join = some key ↔ keyAt? place w = .ok (some key) := by
    cases keyAt? place w with
    | error e => simp [Except.toOption]
    | ok found => simp [Except.toOption]
  refine ⟨(List.range count).filterMap fun place => (keyAt? place w).toOption.join, ?_, ?_, ?_⟩
  · dsimp only [store, StateT.run]
    rw [hlength]
  · refine List.Nodup.filterMap (fun place place' key hp hp' => ?_) List.nodup_range
    have hat := hkey.mp hp
    exact (hheld key (hplace place key hat).2).unique hat (hkey.mp hp')
  · intro key
    have hsome : (Window.item? key w).isSome = (s.get? key).isSome := by
      rw [h.item? key, Option.isSome_map]
    rw [Store.mem_keys_iff, ← hsome, List.mem_filterMap]
    constructor
    · rintro ⟨place, -, hat⟩
      exact (hplace place key (hkey.mp hat)).2
    · intro hkept
      obtain ⟨place, hat, -⟩ := hheld key hkept
      exact ⟨place, List.mem_range.mpr (hplace place key hat).1, hkey.mpr hat⟩

end Holds

/-- The store in the storage of a window does what a store in memory does. -/
theorem store_simulates (hreliable : IsReliable works) :
    KeyValueStore.Simulates (Holds works) (store (σ := σ)) .memory := by
  intro c w s h
  cases c with
  | get key =>
    rw [KeyValueStore.perform_get, KeyValueStore.perform_get, h.get? key]
    exact ⟨.found _, h⟩
  | set key value =>
    obtain ⟨hok, hheld⟩ := h.set hreliable key value
    rw [KeyValueStore.perform_set, KeyValueStore.perform_set, hok]
    exact ⟨.written _, hheld⟩
  | remove key =>
    rw [KeyValueStore.perform_remove, KeyValueStore.perform_remove]
    exact ⟨.removed, h.remove hreliable key⟩
  | keys =>
    obtain ⟨keys, hrun, hnodup, hmem⟩ := h.keys hreliable
    rw [KeyValueStore.perform_keys, KeyValueStore.perform_keys, hrun]
    exact ⟨.listed hnodup s.nodup_keys hmem, h⟩

theorem holds_empty (hworks : works w) (hempty : ∀ key, Window.item? key w = none) :
    Holds works w .empty :=
  ⟨hworks, fun key => by rw [hempty, Store.get?_empty]; rfl⟩

/-- The store in the storage of a window that works and is empty refines a new store in memory:
whatever calls are made, with whatever keys and texts, each comes back with the same text or the
same result in both, or with the same keys, each key once. -/
theorem store_refines_memory (hreliable : IsReliable works) (hworks : works w)
    (hempty : ∀ key, Window.item? key w = none) (calls : List StoreCall) :
    List.Forall₂ StoreAnswer.Alike ((store.performAll calls).run w).1
      ((KeyValueStore.memory.performAll calls).run .empty).1 :=
  (store_simulates hreliable).performAll (holds_empty hworks hempty) calls

end Window

/-! ### The stores of a browser -/

namespace Browser

/-- Whether no call of the storage throws that a store makes. -/
structure StorageWorks (b : Browser) : Prop where
  setItem : b.thrown? .setItem = none
  length : b.thrown? .length = none
  key : b.thrown? .key = none

theorem setItem_eq {b : Browser} (h : b.StorageWorks) (key raw : String) :
    Window.setItem key raw b = .ok { b with storage := b.storage.put key raw } := by
  dsimp only [Window.setItem]
  rw [h.setItem]

theorem length_eq {b : Browser} (h : b.StorageWorks) :
    Window.length b = .ok b.storage.keys.length := by
  dsimp only [Window.length]
  rw [h.length, Store.keys, List.length_map]
  rfl

theorem keyAt?_eq {b : Browser} (h : b.StorageWorks) (place : Nat) :
    Window.keyAt? place b = .ok b.storage.keys[place]? := by
  dsimp only [Window.keyAt?]
  rw [h.key]

theorem storage_isReliable : Window.IsReliable StorageWorks where
  setItem h key raw :=
    ⟨_, setItem_eq h key raw, ⟨h.setItem, h.length, h.key⟩, Store.get?_put _ key raw⟩
  removeItem h key := ⟨⟨h.setItem, h.length, h.key⟩, Store.get?_erase _ key⟩
  places {b} h := by
    refine ⟨_, length_eq h, fun place key hat => ?_, fun key hkept => ?_⟩
    · rw [keyAt?_eq h, Except.ok.injEq] at hat
      obtain ⟨hplace, -⟩ := List.getElem?_eq_some_iff.mp hat
      exact ⟨hplace, Store.mem_keys_iff.mp (List.mem_of_getElem? hat)⟩
    · obtain ⟨place, hat⟩ := List.mem_iff_getElem?.mp (Store.mem_keys_iff.mpr hkept)
      refine ⟨place, (keyAt?_eq h place).trans (congrArg Except.ok hat), ?_⟩
      intro place' (hat' : Window.keyAt? place' b = .ok (some key))
      rw [keyAt?_eq h, Except.ok.injEq] at hat'
      obtain ⟨hplace, -⟩ := List.getElem?_eq_some_iff.mp hat'
      exact (List.getElem?_inj hplace b.storage.nodup_keys).mp (hat'.trans hat.symm)

end Browser

/-- Calls with an empty key, and with texts that are JSON themselves or cannot stand in it. -/
def quotedCalls : List StoreCall :=
  [.set "b" "\"v\"", .set "" "null\n", .set "a" "1", .get "b", .get "", .remove "a", .get "a",
    .keys]

/-- The storage of a new browser takes those calls as a store in memory does. -/
theorem quotedCalls_alike :
    Window.IsReliable Browser.StorageWorks ∧ Browser.StorageWorks {} ∧
      (∀ key, Window.item? key ({} : Browser) = none) ∧
      List.Forall₂ StoreAnswer.Alike ((Window.store.performAll quotedCalls).run ({} : Browser)).1
        [.written (.ok ()), .written (.ok ()), .written (.ok ()), .found (some "\"v\""),
          .found (some "null\n"), .removed, .found none, .listed ["", "b"]] := by
  have hworks : Browser.StorageWorks {} := ⟨rfl, rfl, rfl⟩
  have hempty : ∀ key, Window.item? key ({} : Browser) = none := fun _ => rfl
  exact ⟨Browser.storage_isReliable, hworks, hempty,
    Window.store_refines_memory Browser.storage_isReliable hworks hempty quotedCalls⟩

namespace KeyValueStore

theorem perform_inside (store : KeyValueStore τ) (part : σ → τ) (replace : τ → σ → σ)
    (c : StoreCall) (s : σ) : ((store.inside part replace).perform c).run s =
      (((store.perform c).run (part s)).1, replace ((store.perform c).run (part s)).2 s) := by
  cases c <;> rfl

theorem memory_alike (c : StoreCall) (s : Store) :
    ((memory.perform c).run s).1.Alike ((memory.perform c).run s).1 := by
  cases c with
  | get key => exact .found _
  | set key value => exact .written _
  | remove key => exact .removed
  | keys => exact .listed s.nodup_keys s.nodup_keys fun _ => Iff.rfl

end KeyValueStore

namespace Browser

theorem memory_simulates (number : Nat) : KeyValueStore.Simulates
    (fun (b : Browser) (s : Store) => number < b.memories.length ∧ b.memory number = s)
    (storeOf (.memory number)) .memory := by
  rintro c b _ ⟨hnumber, rfl⟩
  rw [storeOf, KeyValueStore.perform_inside]
  refine ⟨KeyValueStore.memory_alike c _, ?_, ?_⟩
  · simpa [setMemory] using hnumber
  · simp [setMemory, memory, hnumber]

/-- It makes no difference which store a browser opens: whether its storage can be used or a
store in memory takes its place, every call comes back as that of a new store in memory. -/
theorem opened_alike {b : Browser} (hworks : b.StorageWorks) (hempty : b.storage = .empty)
    (calls : List StoreCall) :
    List.Forall₂ StoreAnswer.Alike
      (((storeOf b.openStore.1).performAll calls).run b.openStore.2).1
      ((KeyValueStore.memory.performAll calls).run .empty).1 := by
  unfold openStore
  split
  · have hitems (key : String) : Window.item? key b = none := by
      show b.storage.get? key = none
      rw [hempty, Store.get?_empty]
    exact (Window.store_simulates storage_isReliable).performAll
      (Window.holds_empty hworks hitems) calls
  · exact (memory_simulates _).performAll ⟨by simp [log, record], by simp [memory, log, record]⟩
      calls

end Browser

end WalletPage
