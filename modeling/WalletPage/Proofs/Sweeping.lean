import WalletPage.Proofs.CacheMap
import WalletPage.Proofs.KeyCodec

/-! What a sweep removes, said of the keys alone: each that holds the marker and is no cache
key. The keys are listed before the first of them is removed, and as each stands in the store
once, the entries that are left are the others, in their order. -/

namespace WalletPage

namespace Cache

/-- Whether a key is one of the cache: a session that is not empty and does not hold the
marker, the marker, and the suffix of a view. -/
def IsProperKey (key : String) : Prop :=
  ∃ (session : String) (v : View), session ≠ "" ∧ ¬ cacheMarker <:+: session.toList ∧
    key = session ++ "_stored" ++ v.cacheSuffix

/-- Whether a key holds the marker and is none of the cache. -/
def IsStray (key : String) : Prop :=
  cacheMarker <:+: key.toList ∧ ¬ IsProperKey key

theorem cacheKey_eq_append (v : View) (session : String) :
    v.cacheKey session = session ++ "_stored" ++ v.cacheSuffix := by
  have hmarker : "_stored".toList = cacheMarker := by decide
  refine String.toList_injective ?_
  rw [View.cacheKey, String.toList_ofList, String.toList_append, String.toList_append, hmarker]

theorem isProperKey_iff {key : String} :
    IsProperKey key ↔ (View.ofCacheKey? key).isSome = true := by
  rw [Option.isSome_iff_exists]
  constructor
  · rintro ⟨session, v, hne, hmarker, rfl⟩
    exact ⟨(session, v), View.ofCacheKey?_eq_some_iff.mpr ⟨⟨hne, hmarker⟩, cacheKey_eq_append v _⟩⟩
  · rintro ⟨⟨session, v⟩, h⟩
    obtain ⟨⟨hne, hmarker⟩, rfl⟩ := View.ofCacheKey?_eq_some_iff.mp h
    exact ⟨session, v, hne, hmarker, cacheKey_eq_append v session⟩

theorem isStale_iff {key : String} : isStale key = true ↔ IsStray key := by
  rw [isStale, Bool.and_eq_true, isSnapshotKey_iff, Option.isNone_iff_eq_none, IsStray,
    isProperKey_iff, Bool.not_eq_true, Option.isSome_eq_false_iff, Option.isNone_iff_eq_none]

instance : DecidablePred IsStray := fun _ => decidable_of_iff _ isStale_iff

theorem entries_foldl_erase (keys : List String) (store : Store) :
    (keys.foldl Store.erase store).entries = store.entries.filter (·.1 ∉ keys) := by
  induction keys generalizing store with
  | nil => exact (List.filter_eq_self.mpr (by simp)).symm
  | cons key rest ih =>
    have herase : (store.erase key).entries = store.entries.filter (·.1 ≠ key) := rfl
    rw [List.foldl_cons, ih, herase, List.filter_filter]
    refine List.filter_congr fun e _ => ?_
    simp [Bool.and_comm]

/-- A sweep leaves the entries whose keys are not stray. -/
theorem entries_swept (store : Store) :
    (swept store).entries = store.entries.filter (¬ IsStray ·.1) := by
  rw [swept, entries_foldl_erase]
  refine List.filter_congr fun e he => ?_
  have hkey : e.1 ∈ store.keys := List.mem_map_of_mem he
  simp [hkey, isStale_iff]

theorem keys_swept (store : Store) : (swept store).keys = store.keys.filter (¬ IsStray ·) := by
  rw [Store.keys, Store.keys, entries_swept, List.filter_map]
  rfl

/-- Where no key is stray there is nothing to sweep, and nothing is said. -/
theorem sweep_run_of_clean (access : PageAccess) {p : Page}
    (h : ∀ key ∈ p.store.keys, ¬ IsStray key) : (sweep access).run p = (0, p) := by
  have hkeys : (Host.keys access).run p = (p.store.keys, p) := rfl
  have hnone : p.store.keys.filter isStale = [] := by
    rw [List.filter_eq_nil_iff]
    exact fun key hkey => mt isStale_iff.mp (h key hkey)
  unfold sweep
  rw [run_bind, hkeys]
  dsimp only
  rw [hnone]
  rfl

end Cache

/-- A sweep is exact, whatever the store holds: it removes the stray keys and no others,
changes no value that is left, counts what it has removed, and leaves nothing to a second
sweep. -/
theorem sweep_exact (access : PageAccess) (p : Page) :
    ((Cache.sweep access).run p).2.store.keys = p.store.keys.filter (¬ Cache.IsStray ·) ∧
      (∀ key, ¬ Cache.IsStray key →
        ((Cache.sweep access).run p).2.store.get? key = p.store.get? key) ∧
      ((Cache.sweep access).run p).1 =
        (p.store.keys.filter (· ∉ ((Cache.sweep access).run p).2.store.keys)).length ∧
      (Cache.sweep access).run ((Cache.sweep access).run p).2 =
        (0, ((Cache.sweep access).run p).2) := by
  obtain ⟨hcount, hswept⟩ := Cache.sweep_run access p
  rw [hswept.store, hcount]
  refine ⟨Cache.keys_swept p.store, fun key hkey => ?_, ?_, ?_⟩
  · rw [Cache.get?_swept, if_neg (mt Cache.isStale_iff.mp hkey)]
  · refine congrArg List.length (List.filter_congr fun key hkey => ?_)
    simp [Cache.keys_swept, hkey, ← Cache.isStale_iff]
  · refine Cache.sweep_run_of_clean access fun key hkey => ?_
    rw [hswept.store, Cache.keys_swept, List.mem_filter] at hkey
    simpa using hkey.2

/-- A key with two markers is stray, and so is one without a session. -/
example : Cache.IsStray "a_stored_storedBalance" ∧ Cache.IsStray "_storedBalance" := by decide

end WalletPage
