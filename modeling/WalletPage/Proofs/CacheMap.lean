import WalletPage.Proofs.CacheKeys
import WalletPage.Proofs.PageEffects

/-! The cache as a map from sessions and views to snapshots. Of the calls of the cache
only a successful `put` changes what is found, and that only for its own session and
view: `get` and the sweep remove nothing that would have been found. -/

namespace WalletPage

namespace Cache

/-! ### What is found -/

theorem found_congr {store store' : Store} {session : SessionId} {v : View}
    (h : store'.get? (v.cacheKey session.text) = store.get? (v.cacheKey session.text)) :
    found store' session v = found store session v := by
  rw [found, found, h]

theorem cacheKey_eq_iff {session other : SessionId} {v w : View} :
    v.cacheKey session.text = w.cacheKey other.text ↔ other = session ∧ w = v := by
  constructor
  · intro h
    obtain ⟨htext, hview⟩ := View.cacheKey_injective h
    exact ⟨congrArg SessionId.mk htext.symm, hview.symm⟩
  · rintro ⟨rfl, rfl⟩
    rfl

theorem found_put_of_ne (store : Store) {session other : SessionId} {v w : View}
    (h : ¬ (other = session ∧ w = v)) (value : String) :
    found (store.put (w.cacheKey other.text) value) session v = found store session v :=
  found_congr (by rw [Store.get?_put, if_neg (mt cacheKey_eq_iff.mp h)])

/-- What is dropped when an entry is read would not have been found. -/
theorem found_tidied_other (store : Store) (session other : SessionId) (v w : View) :
    found (tidied store other w) session v = found store session v := by
  by_cases h : other = session ∧ w = v
  · obtain ⟨rfl, rfl⟩ := h
    exact found_tidied store other w
  · unfold tidied
    split
    · rfl
    · exact found_congr (by rw [Store.get?_erase, if_neg (mt cacheKey_eq_iff.mp h)])

/-- After an entry was read there is one exactly if it was found. -/
theorem get?_tidied_isSome (store : Store) (session : SessionId) (v : View) :
    ((tidied store session v).get? (v.cacheKey session.text)).isSome =
      (found store session v).isSome := by
  unfold tidied
  cases hfound : found store session v with
  | none => simp
  | some s =>
    simp only [Option.isSome_some, if_true]
    cases hget : store.get? (v.cacheKey session.text) with
    | none => simp [found, hget] at hfound
    | some raw => rfl

/-! ### Sweeping -/

theorem get?_foldl_erase (keys : List String) (store : Store) (key : String) :
    (keys.foldl Store.erase store).get? key = if key ∈ keys then none else store.get? key := by
  induction keys generalizing store with
  | nil => rfl
  | cons k keys ih =>
    rw [List.foldl_cons, ih, Store.get?_erase]
    by_cases hk : key = k
    · simp [hk]
    · simp [hk]

theorem removeAll_run (access : PageAccess) (keys : List String) (p : Page) :
    p.Became [] (keys.foldl Store.erase p.store) ((removeAll access keys).run p).2 := by
  induction keys generalizing p with
  | nil => exact .refl p
  | cons key keys ih =>
    have hremove : (Host.remove access key).run p =
      ((), { p with store := p.store.erase key }) := rfl
    rw [removeAll, run_bind, hremove]
    exact (Page.Became.stored p _).trans (ih _)

/-- The store without its stale entries. -/
def swept (store : Store) : Store :=
  (store.keys.filter isStale).foldl Store.erase store

theorem get?_swept (store : Store) (key : String) :
    (swept store).get? key = if isStale key then none else store.get? key := by
  rw [swept, get?_foldl_erase]
  cases hstale : isStale key with
  | false => simp [hstale]
  | true =>
    by_cases hkey : key ∈ store.keys
    · simp [hkey, hstale]
    · have hnone : store.get? key = none := by
        rwa [Store.mem_keys_iff, Bool.not_eq_true, Option.isSome_eq_false_iff,
          Option.isNone_iff_eq_none] at hkey
      simp [hkey, hnone]

theorem sweep_run (access : PageAccess) (p : Page) :
    ((sweep access).run p).1 = (p.store.keys.filter isStale).length ∧
      p.Became [] (swept p.store) ((sweep access).run p).2 := by
  have hkeys : (Host.keys access).run p = (p.store.keys, p) := rfl
  have hremoved := removeAll_run access (p.store.keys.filter isStale) p
  unfold sweep
  rw [run_bind, hkeys]
  dsimp only
  rw [run_bind]
  split
  · refine ⟨rfl, ?_⟩
    have hsaid := hremoved.trans (Page.Became.logged _ ⟨.info, component,
      "Swept " ++ String.ofList (Decimal.natDigits (p.store.keys.filter isStale).length) ++
        " stale cache entries"⟩)
    rwa [hremoved.store] at hsaid
  · exact ⟨rfl, hremoved⟩

theorem found_swept {session : SessionId} (h : session.IsAccepted) (store : Store) (v : View) :
    found (swept store) session v = found store session v :=
  found_congr (by rw [get?_swept, View.isStale_cacheKey h]; rfl)

end Cache

namespace Cache

/-- A snapshot is kept if it belongs to the view and the store takes it; otherwise nothing
happens at all. -/
theorem keep_cases (access : PageAccess) (session : SessionId) (v : View) (s : Snapshot)
    (p : Page) :
    if s.matchesView v = true ∧ p.isStoreFull = false then
      ((keep access session v s).run p).1 = .ok () ∧
        ((keep access session v s).run p).2.store =
          p.store.put (v.cacheKey session.text) s.stored
    else ∃ e, (keep access session v s).run p = (.error e, p) := by
  by_cases hs : s.matchesView v = true
  · have hkeep := keep_run access session hs p
    cases hfull : p.isStoreFull with
    | true =>
      rw [hfull] at hkeep
      simpa [hs] using hkeep
    | false =>
      rw [hfull] at hkeep
      rw [if_pos ⟨hs, rfl⟩]
      exact ⟨hkeep.1, hkeep.2.store⟩
  · rw [if_neg fun h => hs h.1]
    unfold keep
    rw [if_neg hs]
    exact ⟨_, rfl⟩

end Cache

/-! ### Calls -/

/-- A call of the cache; when a snapshot is put, the store may refuse it. -/
inductive CacheCall where
  | put (session : SessionId) (v : View) (s : Snapshot) (isStoreFull : Bool)
  | get (session : SessionId) (v : View)
  | contains (session : SessionId) (v : View)
  | sweep
deriving Repr

/-- What a call comes back with. -/
inductive CacheAnswer where
  | put (result : Fallible Unit)
  | get (found : Option Snapshot)
  | contains (isKept : Bool)
  | swept (count : Nat)

namespace CacheCall

/-- Makes a call. -/
def perform : CacheCall → StateM Page CacheAnswer
  | put session v s isStoreFull => do
    modify ({ · with isStoreFull := isStoreFull })
    return .put (← Cache.keep PageAccess.only session v s)
  | get session v => return .get (← Cache.load PageAccess.only session v)
  | contains session v => return .contains (← Cache.contains PageAccess.only session v)
  | sweep => return .swept (← Cache.sweep PageAccess.only)

/-- Makes calls one after the other, and gives each with its answer. -/
def performAll : List CacheCall → StateM Page (List (CacheCall × CacheAnswer))
  | [] => return []
  | c :: rest => do
    let answer ← c.perform
    let history ← performAll rest
    return (c, answer) :: history

/-- The snapshot that a call has put for a view of a session. -/
def written? (session : SessionId) (v : View) : CacheCall × CacheAnswer → Option Snapshot
  | (put other w s _, .put (.ok ())) => if other = session ∧ w = v then some s else none
  | _ => none

/-- The snapshot that was last put for a view of a session. -/
def lastWritten? (session : SessionId) (v : View) (history : List (CacheCall × CacheAnswer)) :
    Option Snapshot :=
  (history.filterMap (written? session v)).getLast?

theorem lastWritten?_cons (session : SessionId) (v : View) (entry : CacheCall × CacheAnswer)
    (history : List (CacheCall × CacheAnswer)) :
    lastWritten? session v (entry :: history) =
      (lastWritten? session v history).or (written? session v entry) := by
  unfold lastWritten?
  cases h : written? session v entry with
  | none => rw [List.filterMap_cons_none h, Option.or_none]
  | some s =>
    rw [List.filterMap_cons_some h, List.getLast?_cons]
    cases (history.filterMap (written? session v)).getLast? <;> rfl

/-- What a call does to what is found for a view of a session. -/
theorem found_perform {session : SessionId} (h : session.IsAccepted) (v : View) (p : Page)
    (c : CacheCall) :
    Cache.found (c.perform.run p).2.store session v =
      (written? session v (c, (c.perform.run p).1)).or (Cache.found p.store session v) := by
  cases c with
  | put other w s isStoreFull =>
    have hrun : ((put other w s isStoreFull).perform.run p) =
        let kept := (Cache.keep PageAccess.only other w s).run
          { p with isStoreFull := isStoreFull }
        (.put kept.1, kept.2) := rfl
    have hkeep := Cache.keep_cases .only other w s { p with isStoreFull := isStoreFull }
    rw [hrun]
    split at hkeep
    · rename_i hcan
      obtain ⟨hok, hstore⟩ := hkeep
      simp only [hok, hstore, written?]
      split
      · rename_i hpair
        obtain ⟨rfl, rfl⟩ := hpair
        exact Cache.found_put _ _ hcan.1
      · rename_i hpair
        exact Cache.found_put_of_ne _ hpair _
    · obtain ⟨e, he⟩ := hkeep
      rw [he]
      rfl
  | get other w =>
    have hstore : ((get other w).perform.run p).2.store = Cache.tidied p.store other w :=
      (Cache.load_run .only other w p).2.store
    rw [hstore]
    exact Cache.found_tidied_other p.store session other v w
  | contains other w => rfl
  | sweep =>
    have hstore : (sweep.perform.run p).2.store = Cache.swept p.store :=
      (Cache.sweep_run .only p).2.store
    rw [hstore]
    exact Cache.found_swept h p.store v

theorem found_performAll {session : SessionId} (h : session.IsAccepted) (v : View) (p : Page)
    (calls : List CacheCall) :
    Cache.found ((performAll calls).run p).2.store session v =
      (lastWritten? session v ((performAll calls).run p).1).or
        (Cache.found p.store session v) := by
  induction calls generalizing p with
  | nil => rfl
  | cons c rest ih =>
    rw [performAll, run_bind, run_bind, run_pure, lastWritten?_cons, Option.or_assoc,
      ← found_perform h v p c]
    exact ih _

end CacheCall

/-- The cache is a map. Whatever the store held at first, and whatever calls are made for
whatever sessions and views, with writes refused at any of them: what is found for a view
of an accepted session is what was last put for just that pair, or else what was found
before. A `put` succeeds exactly for a snapshot of the view that the store takes, and does
nothing otherwise; and after a `get` there is an entry exactly if it was found. -/
theorem load_eq_lastWritten (p : Page) (calls : List CacheCall) (session : SessionId)
    (h : session.IsAccepted) (v : View) :
    ((Cache.load PageAccess.only session v).run ((CacheCall.performAll calls).run p).2).1 =
        (CacheCall.lastWritten? session v ((CacheCall.performAll calls).run p).1).or
          ((Cache.load PageAccess.only session v).run p).1 ∧
      (∀ (q : Page) (other : SessionId) (w : View) (s : Snapshot),
        if s.matchesView w = true ∧ q.isStoreFull = false then
          ((Cache.keep PageAccess.only other w s).run q).1 = .ok ()
        else ∃ e, (Cache.keep PageAccess.only other w s).run q = (.error e, q)) ∧
      ∀ (q : Page) (other : SessionId) (w : View),
        ((Cache.contains PageAccess.only other w).run
            ((Cache.load PageAccess.only other w).run q).2).1 =
          ((Cache.load PageAccess.only other w).run q).1.isSome := by
  refine ⟨?_, fun q other w s => ?_, fun q other w => ?_⟩
  · rw [(Cache.load_run _ _ _ _).1, (Cache.load_run _ _ _ _).1]
    exact CacheCall.found_performAll h v p calls
  · have hkeep := Cache.keep_cases .only other w s q
    split at hkeep
    · rename_i hcan
      rw [if_pos hcan]
      exact hkeep.1
    · rename_i hcan
      rw [if_neg hcan]
      exact hkeep
  · obtain ⟨hfound, hloaded⟩ := Cache.load_run .only other w q
    rw [Cache.contains_run, hfound, hloaded.store]
    exact Cache.get?_tidied_isSome q.store other w

/-- A store with an entry that is no snapshot and one that is stale. -/
def untidyPage : Page where
  store := (Store.empty.put (View.balance.cacheKey SessionId.anonymous.text) "?").put
    "anonymous_storedHeight" "7"

/-- A height is put, then others that the store refuses, that belong to another session or
to another view; then entries are read and swept. -/
def heightCalls : List CacheCall :=
  [.put .anonymous .blockHeight (.blockHeight ⟨"1", "", ""⟩) false,
    .put .anonymous .blockHeight (.blockHeight ⟨"2", "", ""⟩) true,
    .put ⟨"s1"⟩ .blockHeight (.blockHeight ⟨"3", "", ""⟩) false,
    .put .anonymous .blockHeight (.progress ⟨"4%"⟩) false,
    .get .anonymous .balance, .sweep]

/-- Only the first of those calls counts for the height of the session. -/
theorem load_after_heightCalls :
    SessionId.anonymous.IsAccepted ∧
      ((Cache.load PageAccess.only .anonymous .blockHeight).run
        ((CacheCall.performAll heightCalls).run untidyPage).2).1 =
          some (.blockHeight ⟨"1", "", ""⟩) := by
  have hlast : CacheCall.lastWritten? .anonymous .blockHeight
      ((CacheCall.performAll heightCalls).run untidyPage).1 =
        some (.blockHeight ⟨"1", "", ""⟩) := rfl
  have hload := (load_eq_lastWritten untidyPage heightCalls .anonymous
    SessionId.isAccepted_anonymous .blockHeight).1
  rw [hlast] at hload
  exact ⟨SessionId.isAccepted_anonymous, hload⟩

end WalletPage
