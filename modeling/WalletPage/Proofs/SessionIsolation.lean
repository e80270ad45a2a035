import WalletPage.Proofs.CacheMap
import WalletPage.Proofs.CycleEffects
import WalletPage.Proofs.PageFrames

/-! The sessions of one page. A service writes only under the cache keys of its own session;
what it removes has such a key, or is a stale entry, which no accepted session owns. So the
entries of all other sessions stay what they are, whatever text they hold. -/

namespace WalletPage

variable {ρ σ : Type}

/-- Whether a call writes only under the cache keys of a session, and removes nothing but
such an entry or a stale one. -/
def Call.StaysIn (session : SessionId) : Call → Prop
  | wrote key _ _ => ∃ v : View, key = v.cacheKey session.text
  | removed key => (∃ v : View, key = v.cacheKey session.text) ∨ Cache.isStale key = true
  | _ => True

/-- Whether an occurrence is no note, and leaves the cache entries of a session alone if it is
a change that others make. -/
def Occurrence.Spares (session : SessionId) : Occurrence Page → Prop
  | saveNote _ _ => False
  | act (.change f) => ∀ (p : Page) (v : View),
    (f p).store.get? (v.cacheKey session.text) = p.store.get? (v.cacheKey session.text)
  | _ => True

/-! ### The calls of a service -/

namespace Watched

variable {session : SessionId} {before : List Call}

/-- Whether all calls from a point on stay in a session. -/
def StayIn (session : SessionId) (before : List Call) (w : Watched σ) : Prop :=
  ∃ new, w.calls = before ++ new ∧ ∀ c ∈ new, c.StaysIn session

theorem keeps_quiet {α : Type} (m : StateM σ α) : Keeps (quiet m) (StayIn session before) :=
  fun _ hw => hw

theorem keeps_noted {α : Type} (m : StateM σ α) {call : α → Call}
    (hcall : ∀ a, (call a).StaysIn session) : Keeps (noted m call) (StayIn session before) := by
  rintro w ⟨new, hcalls, hnew⟩
  refine ⟨new ++ [call (m.run w.world).1], ?_, fun c hc => ?_⟩
  · show w.calls ++ _ = _
    rw [hcalls, List.append_assoc]
  · rcases List.mem_append.mp hc with hc | hc
    · exact hnew c hc
    · rw [List.mem_singleton.mp hc]
      exact hcall _

theorem stayIn_withstands [Host ρ σ] (session : SessionId) (before : List Call) :
    Withstands (Watcher ρ) session (StayIn (σ := σ) session before) where
  get? _ _ := keeps_noted _ fun _ => trivial
  set _ v _ := keeps_noted _ fun _ => ⟨v, rfl⟩
  removeOwn _ v := keeps_noted _ fun _ => .inl ⟨v, rfl⟩
  removeStale _ _ hstale := keeps_noted _ fun _ => .inr hstale
  keys _ := keeps_quiet _
  anchorPresent _ _ := keeps_quiet _
  apply _ _ := keeps_noted _ fun _ => trivial
  submitForm _ _ := keeps_noted _ fun _ => trivial
  replacePage _ _ _ := keeps_noted _ fun _ => trivial
  cacheBuster _ := keeps_quiet _
  fetch _ _ := keeps_noted _ fun _ => trivial
  shutdown _ := keeps_noted _ fun _ => trivial
  heartbeat _ := keeps_noted _ fun _ => trivial
  sleep _ _ := keeps_noted _ fun _ => trivial
  log _ _ := keeps_quiet _

end Watched

/-! ### The entries of other sessions -/

/-- Whether a page has an entry, or none, under a key. -/
def Page.Has (key : String) (value : Option String) (p : Page) : Prop :=
  p.store.get? key = value

theorem Page.keeps_of_store {α : Type} {m : StateM Page α} {key : String}
    {value : Option String} (hm : ∀ p, (m.run p).2.store.get? key = p.store.get? key) :
    Keeps m (Page.Has key value) :=
  fun p hp => (hm p).trans hp

theorem View.cacheKey_ne {session other : SessionId} (hne : other ≠ session) (v w : View) :
    v.cacheKey other.text ≠ w.cacheKey session.text :=
  fun heq => hne (Cache.cacheKey_eq_iff.mp heq).1.symm

/-- An entry that is neither stale nor one of the session's own withstands its service. -/
theorem Page.entry_withstands {session : SessionId} {key : String}
    (hstale : Cache.isStale key = false) (hkey : ∀ v : View, key ≠ v.cacheKey session.text)
    (value : Option String) : Withstands PageAccess session (Page.Has key value) where
  get? _ _ := keeps_of_store fun _ => rfl
  set x w text := keeps_of_store fun p => by
    show (p.write (w.cacheKey session.text) text).2.store.get? _ = _
    unfold Page.write
    split
    · rfl
    · rw [Store.get?_put, if_neg (hkey w)]
  removeOwn x w := keeps_of_store fun p => by
    show (p.store.erase (w.cacheKey session.text)).get? _ = _
    rw [Store.get?_erase, if_neg (hkey w)]
  removeStale x other hother := keeps_of_store fun p => by
    have hne : key ≠ other := by
      rintro rfl
      rw [hstale] at hother
      contradiction
    show (p.store.erase other).get? _ = _
    rw [Store.get?_erase, if_neg hne]
  keys _ := keeps_of_store fun _ => rfl
  anchorPresent _ _ := keeps_of_store fun _ => rfl
  apply _ u := keeps_of_store fun p => by
    show (p.applyUpdate u).2.store.get? _ = _
    unfold Page.applyUpdate
    split
    · rfl
    · split <;> rfl
  submitForm _ form := keeps_of_store fun p => by
    show (if p.forms.contains form then (true, p.record (.submitted form))
      else (false, p)).2.store.get? _ = _
    split <;> rfl
  replacePage _ _ _ := keeps_of_store fun _ => rfl
  cacheBuster _ := keeps_of_store fun _ => rfl
  fetch x request := keeps_of_store fun p => by
    rw [(Binder.fetch_run x request p).2.store]
  shutdown _ := keeps_of_store fun _ => rfl
  heartbeat _ := keeps_of_store fun _ => rfl
  sleep _ _ := keeps_of_store fun _ => rfl
  log _ _ := keeps_of_store fun _ => rfl

/-- The entry of another session withstands a service, if the session is an accepted one. -/
theorem Page.has_withstands {session other : SessionId} (hother : other.IsAccepted)
    (hne : other ≠ session) (v : View) (value : Option String) :
    Withstands PageAccess session (Page.Has (v.cacheKey other.text) value) :=
  entry_withstands (View.isStale_cacheKey hother v) (View.cacheKey_ne hne v) value

/-! ### Whole runs -/

/-- An occurrence that is no note keeps what withstands the service, if a change that others
make does so. -/
theorem Withstands.within [Host ρ σ] {session : SessionId} {P : σ → Prop}
    (h : Withstands ρ session P) {o : Occurrence σ} (hnote : ∀ id text, o ≠ .saveNote id text)
    (hchange : ∀ f, o = .act (.change f) → ∀ w, P w → P (f w)) :
    o.Within ρ fun w w' => P w → P w' := by
  cases o with
  | act a =>
    intro f ha w hw
    exact hchange f (congrArg Occurrence.act ha) w hw
  | saveNote id text => exact absurd rfl (hnote id text)
  | askShutdown => exact fun x w hw => h.shutdown x w hw
  | endShutdown => exact fun x container html w hw => h.replacePage x container html w hw

/-- A service makes no call that leaves its session, unless a note is saved. -/
theorem Run.calls_stayIn [Host ρ σ] (world : σ) (session : SessionId) (config : Config)
    (access : ρ) (before : List (Occurrence σ)) {later : List (Occurrence σ)}
    (hlater : ∀ o ∈ later, ∀ id text, o ≠ .saveNote id text) :
    ∃ new, (Run.watchedThrough world session config access (before ++ later)).world.calls =
        (Run.watchedThrough world session config access before).world.calls ++ new ∧
      ∀ c ∈ new, c.StaysIn session := by
  have hbefore := Run.opened_inOrder (⟨world, []⟩ : Watched σ) session config (Watcher.mk access)
  obtain ⟨s, horder, hkin⟩ := Run.through_inOrder hbefore (before.map Occurrence.watched)
  have hstay : Watched.StayIn session
      (Run.watchedThrough world session config access before).world.calls
      ((Run.watchedThrough world session config access before).through
        (later.map Occurrence.watched)).world := by
    refine (Watched.stayIn_withstands (ρ := ρ) session _).through horder hkin.session
      (fun o ho => ?_) ⟨[], (List.append_nil _).symm, List.forall_mem_nil _⟩
    obtain ⟨o', ho', rfl⟩ := List.mem_map.mp ho
    refine (Watched.stayIn_withstands session _).within (fun id text heq => ?_) fun f heq w hw => ?_
    · cases o' <;> cases heq
      exact hlater _ ho' id text rfl
    · cases o' with
      | act a =>
        cases a <;> cases heq
        exact hw
      | _ => contradiction
  unfold Run.watchedThrough
  rw [List.map_append, Run.through_append]
  exact hstay

/-- The sessions of a page are isolated. Whatever occurs to the service of one, the cache
entries of another accepted session stay what they are, for every view; and the service
writes under no key but the cache keys of its own session. -/
theorem sessions_isolated (page : Page) (session other : SessionId) (config : Config)
    (hother : other.IsAccepted) (hne : other ≠ session) (before later : List (Occurrence Page))
    (hlater : ∀ o ∈ later, o.Spares other) :
    (∀ v : View,
      ((Run.opened page session config PageAccess.only).through
          (before ++ later)).world.store.get? (v.cacheKey other.text) =
        ((Run.opened page session config PageAccess.only).through
          before).world.store.get? (v.cacheKey other.text)) ∧
      (Run.watchedThrough page session config PageAccess.only (before ++ later)).unwatched =
        (Run.opened page session config PageAccess.only).through (before ++ later) ∧
      ∃ new,
        (Run.watchedThrough page session config PageAccess.only (before ++ later)).world.calls =
          (Run.watchedThrough page session config PageAccess.only before).world.calls ++ new ∧
        ∀ c ∈ new, c.StaysIn session := by
  have hnote : ∀ o ∈ later, ∀ id text, o ≠ .saveNote id text := by
    rintro o ho id text rfl
    exact hlater _ ho
  refine ⟨fun v => ?_, Run.watchedThrough_unwatched .., Run.calls_stayIn _ _ _ _ before hnote⟩
  have hopened := Run.opened_inOrder page session config PageAccess.only
  obtain ⟨s, horder, hkin⟩ := Run.through_inOrder hopened before
  rw [Run.through_append]
  refine (Page.has_withstands hother hne v _).through horder hkin.session (fun o ho => ?_) rfl
  refine (Page.has_withstands hother hne v _).within (hnote o ho) ?_
  rintro f rfl p hp
  exact (hlater _ ho p v).trans hp

/-- A page with an entry of a session whose id goes on with the marker's letters. -/
def neighbourPage : Page where
  store := Store.empty.put (View.balance.cacheKey "abstored") "x"

/-- The start of a service, its tasks, and its shutdown leave that entry alone. -/
theorem neighbour_left_alone :
    ((Run.opened neighbourPage ⟨"ab"⟩ {} PageAccess.only).through [.act .start, .act .run,
      .askShutdown, .endShutdown (.ok true)]).world.store.get?
        (View.balance.cacheKey "abstored") = some "x" := by
  refine ((sessions_isolated neighbourPage ⟨"ab"⟩ ⟨"abstored"⟩ {} rfl (by decide) []
    [.act .start, .act .run, .askShutdown, .endShutdown (.ok true)] ?_).1 .balance).trans ?_
  · simp [Occurrence.Spares]
  · show (Store.empty.put _ _).get? _ = _
    rw [Store.get?_put, if_pos rfl]

end WalletPage
