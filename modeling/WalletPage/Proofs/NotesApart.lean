import WalletPage.Proofs.CacheMap

/-! Notes and the cache in one store. Short transaction ids are whatever the server sends,
so the key of a note may be one that the cache takes for its own: it is swept, or it is the
key of a session. Which short ids these are is decided by the id alone; all other notes and
the cache leave each other alone. -/

namespace WalletPage

namespace Text

/-- A text is cut behind a beginning in which no marker begins. -/
theorem cut?_append_left {m : Char} {ms start : List Char} (hstart : m ∉ start)
    (cs : List Char) :
    cut? (m :: ms) (start ++ cs) =
      (cut? (m :: ms) cs).map fun sides => (start ++ sides.1, sides.2) := by
  induction start with
  | nil => simp
  | cons c rest ih =>
    obtain ⟨hc, hrest⟩ := not_or.mp (mt List.mem_cons.mpr hstart)
    have hbehind : behind? (m :: ms) (c :: (rest ++ cs)) = none := by rw [behind?, if_neg hc]
    rw [List.cons_append, cut?, hbehind]
    dsimp only
    rw [ih hrest, Option.map_map]
    rfl

end Text

theorem SessionId.isAccepted_iff {session : SessionId} : session.IsAccepted ↔
    session.text.toList ≠ [] ∧ ∀ c ∈ session.text.toList, c ≠ '_' ∧ Text.isBlank c = false := by
  have hany : (session.text.toList.any fun c => c = '_' || Text.isBlank c) = false ↔
      ∀ c ∈ session.text.toList, c ≠ '_' ∧ Text.isBlank c = false := by
    simp [List.any_eq_false]
  refine ⟨fun h => ⟨h.ne_nil, hany.mp ?_⟩, fun ⟨hne, hchars⟩ => ?_⟩
  · rw [Bool.eq_false_iff]
    intro htrue
    unfold IsAccepted ofText at h
    rw [if_pos htrue] at h
    split at h <;> contradiction
  · have hempty : session.text.isEmpty = false := by
      rw [Bool.eq_false_iff, ne_eq, String.isEmpty_iff, ← String.toList_eq_nil_iff]
      exact hne
    unfold IsAccepted ofText
    rw [hany.mpr hchars, hempty]
    rfl

namespace Notes

/-- Whether the cache reaches the note on a transaction: behind the first marker in the
short id stands no view, or what stands before it may stand in a session. -/
def isExposed (shortId : String) : Bool :=
  match Text.cut? cacheMarker shortId.toList with
  | none => false
  | some (before, after) =>
    (View.all.find? (·.cacheSuffix.toList = after)).isNone ||
      before.all fun c => c ≠ '_' && !Text.isBlank c

/-- What the key of a note begins with. -/
def keyStart : List Char :=
  ['n', 'o', 't', 'e', '-']

theorem toList_key (shortId : String) : (key shortId).toList = keyStart ++ shortId.toList :=
  String.toList_append

theorem cut?_key (shortId : String) : Text.cut? cacheMarker (key shortId).toList =
    (Text.cut? cacheMarker shortId.toList).map fun sides => (keyStart ++ sides.1, sides.2) := by
  rw [toList_key]
  exact Text.cut?_append_left (by decide) _

/-- The key of an accepted session is cut behind the session. -/
theorem cut?_cacheKey {session : SessionId} (h : session.IsAccepted) (v : View) :
    Text.cut? cacheMarker (v.cacheKey session.text).toList =
      some (session.text.toList, v.cacheSuffix.toList) := by
  rw [View.cacheKey, String.toList_ofList]
  exact Text.cut?_append (by decide) (Text.occursIn_eq_false h.not_mem) _

theorem isStale_key (shortId : String) : Cache.isStale (key shortId) =
    match Text.cut? cacheMarker shortId.toList with
    | none => false
    | some (_, after) => (View.all.find? (·.cacheSuffix.toList = after)).isNone := by
  unfold Cache.isStale isSnapshotKey Text.occursIn View.ofCacheKey?
  rw [cut?_key]
  cases Text.cut? cacheMarker shortId.toList with
  | none => rfl
  | some sides => exact (Bool.true_and _).trans Option.isNone_map

/-- The key of a note is that of an accepted session for some view, if it is cut before a
view and what comes before is fit for a session. -/
theorem key_eq_cacheKey_iff (shortId : String) :
    (∃ (session : SessionId) (v : View), session.IsAccepted ∧
        key shortId = v.cacheKey session.text) ↔
      ∃ (before : List Char) (v : View),
        Text.cut? cacheMarker shortId.toList = some (before, v.cacheSuffix.toList) ∧
        ∀ c ∈ before, c ≠ '_' ∧ Text.isBlank c = false := by
  constructor
  · rintro ⟨session, v, haccepted, hkey⟩
    have hcut := cut?_cacheKey haccepted v
    rw [← hkey, cut?_key, Option.map_eq_some_iff] at hcut
    obtain ⟨⟨before, after⟩, hcut, hsides⟩ := hcut
    obtain ⟨hsession, hsuffix⟩ := Prod.mk.inj hsides
    refine ⟨before, v, hsuffix ▸ hcut, fun c hc => ?_⟩
    refine (SessionId.isAccepted_iff.mp haccepted).2 c ?_
    rw [← hsession]
    exact List.mem_append_right _ hc
  · rintro ⟨before, v, hcut, hchars⟩
    have hstart : ∀ c ∈ keyStart, c ≠ '_' ∧ Text.isBlank c = false := by
      simp [keyStart, Text.isBlank]
    have htext : (SessionId.mk (String.ofList (keyStart ++ before))).text.toList =
      keyStart ++ before := String.toList_ofList
    refine ⟨⟨String.ofList (keyStart ++ before)⟩, v, SessionId.isAccepted_iff.mpr ⟨?_, ?_⟩, ?_⟩
    · rw [htext]
      exact List.cons_ne_nil _ _
    · rw [htext]
      exact fun c hc => (List.mem_append.mp hc).elim (hstart c) (hchars c)
    · refine String.toList_injective ?_
      rw [toList_key, Text.append_of_cut? hcut, View.cacheKey, String.toList_ofList, htext]
      simp only [List.append_assoc]

/-- The cache reaches a note whose key is stale, or the key of an accepted session. -/
theorem isExposed_iff (shortId : String) : isExposed shortId = true ↔
    Cache.isStale (key shortId) = true ∨ ∃ (session : SessionId) (v : View),
      session.IsAccepted ∧ key shortId = v.cacheKey session.text := by
  rw [isStale_key, key_eq_cacheKey_iff]
  unfold isExposed
  cases Text.cut? cacheMarker shortId.toList with
  | none => simp
  | some sides =>
    obtain ⟨before, after⟩ := sides
    have hfit : (before.all fun c => c ≠ '_' && !Text.isBlank c) = true ↔
        ∀ c ∈ before, c ≠ '_' ∧ Text.isBlank c = false := by
      simp [List.all_eq_true]
    dsimp only
    rw [Bool.or_eq_true, hfit]
    cases hfind : View.all.find? (·.cacheSuffix.toList = after) with
    | none => simp
    | some v =>
      have hv : v.cacheSuffix.toList = after := by simpa using List.find?_some hfind
      refine or_congr_right ⟨fun hchars => ⟨before, v, by rw [hv], hchars⟩, ?_⟩
      rintro ⟨_, _, hsides, hchars⟩
      exact (Prod.mk.inj (Option.some.inj hsides)).1 ▸ hchars

/-! ### Setting and reading notes -/

theorem get?_run (access : PageAccess) (shortId : String) (p : Page) :
    (get? access shortId).run p = (p.store.get? (key shortId), p) := rfl

/-- A note that is set leaves all of the store but its own entry. -/
theorem get?_store_set (access : PageAccess) (shortId text : String) (p : Page) {k : String}
    (hk : k ≠ key shortId) :
    ((set access shortId text).run p).2.store.get? k = p.store.get? k := by
  unfold set
  split
  · show (p.store.erase (key shortId)).get? k = _
    rw [Store.get?_erase, if_neg hk]
  · show (p.write (key shortId) text).2.store.get? k = _
    unfold Page.write
    split
    · rfl
    · rw [Store.get?_put, if_neg hk]

end Notes

namespace CacheCall

/-- Whether the session of a call is an accepted one. -/
def IsAccepted : CacheCall → Prop
  | put session _ _ _ => session.IsAccepted
  | get session _ => session.IsAccepted
  | contains session _ => session.IsAccepted
  | sweep => True

/-- A call of the cache leaves an entry alone that is neither stale nor that of an accepted
session. -/
theorem get?_perform {k : String} (hstale : Cache.isStale k = false)
    (hkey : ∀ (session : SessionId) (v : View), session.IsAccepted → k ≠ v.cacheKey session.text)
    {c : CacheCall} (hc : c.IsAccepted) (p : Page) :
    (c.perform.run p).2.store.get? k = p.store.get? k := by
  cases c with
  | put session v s isStoreFull =>
    have hkeep := Cache.keep_cases .only session v s { p with isStoreFull }
    show ((Cache.keep PageAccess.only session v s).run { p with isStoreFull }).2.store.get? k = _
    split at hkeep
    · rw [hkeep.2, Store.get?_put, if_neg (hkey session v hc)]
    · obtain ⟨e, he⟩ := hkeep
      rw [he]
  | get session v =>
    have hstore : ((get session v).perform.run p).2.store = Cache.tidied p.store session v :=
      (Cache.load_run .only session v p).2.store
    rw [hstore]
    unfold Cache.tidied
    split
    · rfl
    · rw [Store.get?_erase, if_neg (hkey session v hc)]
  | contains session v => rfl
  | sweep =>
    have hstore : (sweep.perform.run p).2.store = Cache.swept p.store :=
      (Cache.sweep_run .only p).2.store
    rw [hstore, Cache.get?_swept, hstale]
    rfl

theorem get?_performAll {k : String} (hstale : Cache.isStale k = false)
    (hkey : ∀ (session : SessionId) (v : View), session.IsAccepted → k ≠ v.cacheKey session.text)
    {calls : List CacheCall} (hcalls : ∀ c ∈ calls, c.IsAccepted) (p : Page) :
    ((performAll calls).run p).2.store.get? k = p.store.get? k := by
  induction calls generalizing p with
  | nil => rfl
  | cons c rest ih =>
    obtain ⟨hc, hrest⟩ := List.forall_mem_cons.mp hcalls
    rw [performAll, run_bind, run_bind, run_pure]
    exact (ih hrest _).trans (get?_perform hstale hkey hc p)

end CacheCall

/-- The note on a transaction and the cache leave each other alone, whatever the store holds:
no calls of the cache change the note, and setting the note changes nothing that the cache
finds. -/
def Notes.Independent (shortId : String) : Prop :=
  (∀ (p : Page) (calls : List CacheCall), (∀ c ∈ calls, c.IsAccepted) →
    ((Notes.get? PageAccess.only shortId).run ((CacheCall.performAll calls).run p).2).1 =
      ((Notes.get? PageAccess.only shortId).run p).1) ∧
  ∀ (p : Page) (text : String) (session : SessionId) (v : View), session.IsAccepted →
    ((Cache.load PageAccess.only session v).run
        ((Notes.set PageAccess.only shortId text).run p).2).1 =
      ((Cache.load PageAccess.only session v).run p).1

/-- A page that holds nothing but the note on a transaction. -/
def Notes.page (shortId : String) : Page where
  store := Store.empty.put (Notes.key shortId) "x"

/-- A note that the cache reaches is lost in a sweep, or when it is read as a snapshot. -/
theorem Notes.lost_of_isExposed {shortId : String} (h : isExposed shortId = true) :
    ∃ c : CacheCall, c.IsAccepted ∧
      (c.perform.run (page shortId)).2.store.get? (key shortId) = none := by
  rcases (isExposed_iff shortId).mp h with hstale | ⟨session, v, haccepted, hkey⟩
  · refine ⟨.sweep, trivial, ?_⟩
    have hstore := (Cache.sweep_run .only (page shortId)).2.store
    show ((Cache.sweep PageAccess.only).run (page shortId)).2.store.get? _ = none
    rw [hstore, Cache.get?_swept, if_pos hstale]
  · refine ⟨.get session v, haccepted, ?_⟩
    have hstore := (Cache.load_run .only session v (page shortId)).2.store
    have hunfound : Cache.found (page shortId).store session v = none := by
      obtain ⟨e, he⟩ : ∃ e, Snapshot.ofStored "x" = .error e := ⟨_, rfl⟩
      simp [Cache.found, page, ← hkey, he]
    show ((Cache.load PageAccess.only session v).run (page shortId)).2.store.get? _ = none
    rw [hstore, Cache.tidied, hunfound, ← hkey]
    simp

/-- Notes and the cache are independent exactly for the short ids that are not exposed. -/
theorem notes_independent_iff (shortId : String) :
    Notes.Independent shortId ↔ Notes.isExposed shortId = false := by
  constructor
  · rintro ⟨hnote, -⟩
    rw [← Bool.not_eq_true]
    intro hexposed
    obtain ⟨c, hc, hlost⟩ := Notes.lost_of_isExposed hexposed
    have hkept : (c.perform.run (Notes.page shortId)).2.store.get? (Notes.key shortId) =
        (Notes.page shortId).store.get? (Notes.key shortId) :=
      hnote (Notes.page shortId) [c] (by simpa)
    rw [hlost] at hkept
    simp [Notes.page] at hkept
  · intro hhidden
    rw [← Bool.not_eq_true, Notes.isExposed_iff, not_or] at hhidden
    obtain ⟨hstale, hkey⟩ := hhidden
    have hkey (session : SessionId) (v : View) (h : session.IsAccepted) :
      Notes.key shortId ≠ v.cacheKey session.text := fun heq => hkey ⟨session, v, h, heq⟩
    refine ⟨fun p calls hcalls => ?_, fun p text session v h => ?_⟩
    · rw [Notes.get?_run, Notes.get?_run]
      exact CacheCall.get?_performAll (Bool.not_eq_true _ ▸ hstale) hkey hcalls p
    · rw [(Cache.load_run _ _ _ _).1, (Cache.load_run _ _ _ _).1]
      exact Cache.found_congr (Notes.get?_store_set .only shortId text p (hkey session v h).symm)

/-- The note on a transaction whose short id ends in the marker is lost in a sweep. -/
theorem note_lost_in_sweep :
    ¬ Notes.Independent "ab_stored" ∧
      ((Notes.get? PageAccess.only "ab_stored").run
        ((Notes.set PageAccess.only "ab_stored" "rent").run {}).2).1 = some "rent" ∧
      ((Notes.get? PageAccess.only "ab_stored").run ((Cache.sweep PageAccess.only).run
        ((Notes.set PageAccess.only "ab_stored" "rent").run {}).2).2).1 = none := by
  refine ⟨fun h => ?_, rfl, rfl⟩
  have hexposed := (notes_independent_iff "ab_stored").mp h
  revert hexposed
  decide

end WalletPage
