import WalletPage.Proofs.CacheMap
import WalletPage.Proofs.Paintings
import WalletPage.Proofs.RenderOnChange

/-! A page that is loaded anew shows what the page before it has shown last. As long as
nobody else writes the entry of a binder and the store takes what it writes, the entry is
what the binder painted last; so the next binder paints just that before it asks, and an
answer that repeats it changes nothing. -/

namespace WalletPage

/-- Whether a snapshot comes of it for that view: the server is asked and answers with one. -/
def Doing.Fetches (v : View) : Doing → Prop
  | .hydrate .. | .ask .. => False
  | .cycle o _ _ => (o.start.mounted.lookup v.anchor).isSome ∧ ∃ s, o.answer = .ok (some s)

namespace Binder

/-! ### Writing alone -/

/-- While that happens to a binder nobody else writes its entry, and the store takes the
answer if all of it is painted. -/
def WritesAlone (b : Binder PageAccess) (p : Page) : Doing → Prop
  | .hydrate _ store | .ask _ store => store.get? b.key = p.store.get? b.key
  | .cycle o store later =>
    store.get? b.key = p.store.get? b.key ∧
      match b.asking o store p with
      | ((_, .ended _), _) => True
      | ((b', .asked _), q) =>
        later.get? b.key = q.store.get? b.key ∧
          (o.finish.isStoreFull = true →
            ∀ x ∈ b'.response (q.found o.finish later) o.answer, x.isWhole = false)

/-- Over a whole run nobody else writes the entry of a binder, and no write fails. -/
def AllAlone (b : Binder PageAccess) (p : Page) : List Doing → Prop
  | [] => True
  | d :: rest => b.WritesAlone p d ∧ (b.after p d).binder.AllAlone (b.after p d).page rest

theorem allAlone_append (b : Binder PageAccess) (p : Page) (ds es : List Doing) :
    b.AllAlone p (ds ++ es) ↔
      b.AllAlone p ds ∧ (b.afterAll p ds).binder.AllAlone (b.afterAll p ds).page es := by
  induction ds generalizing b p with
  | nil => exact ⟨fun h => ⟨trivial, h⟩, And.right⟩
  | cons d rest ih =>
    rw [List.cons_append, AllAlone, ih, ← and_assoc]
    rfl

/-! ### What is painted last is kept -/

/-- A binder goes on remembering a snapshot and having it in the store. -/
structure Holds (b : Binder PageAccess) (store : Store) (s : Snapshot) : Prop where
  last : b.lastRendered = some s
  found : Cache.found store b.session b.view = some s

theorem Remembers.congr {b : Binder PageAccess} {store store' : Store} (h : b.Remembers store)
    (hsame : store'.get? b.key = store.get? b.key) : b.Remembers store' :=
  fun s hs => (Cache.found_congr hsame).trans (h s hs)

theorem Remembers.holds {b : Binder PageAccess} {store : Store} {s : Snapshot}
    (h : b.Remembers store) (hs : b.lastRendered = some s) : b.Holds store s :=
  ⟨hs, h s hs⟩

theorem Holds.remembers {b : Binder PageAccess} {store : Store} {s : Snapshot}
    (h : b.Holds store s) : b.Remembers store := by
  intro t ht
  rw [← Option.some.inj (h.last.symm.trans ht)]
  exact h.found

theorem Hydrated.remembers {b b' : Binder PageAccess} {p : Page} {ds : List Event} {store : Store}
    (h : b.Hydrated p b' ds store) (hb : b.Remembers p.store) :
    b'.Remembers store ∧ (b.lastRendered.isSome → b'.lastRendered = b.lastRendered) := by
  cases h with
  | skipped => exact ⟨hb, fun _ => rfl⟩
  | missing =>
    refine ⟨fun s hs => ?_, fun _ => rfl⟩
    rw [Cache.found_tidied]
    exact hb s hs
  | refused => exact ⟨hb, fun _ => rfl⟩
  | @painted s _ hfound =>
    refine ⟨fun t ht => ?_, fun hlast => ?_⟩
    · rw [← Option.some.inj ht]
      exact hfound
    · obtain ⟨t, ht⟩ := Option.isSome_iff_exists.mp hlast
      rw [ht, ← hb t ht, hfound]

theorem Started.remembers {b b' : Binder PageAccess} {p : Page} {page : Option PageNumber}
    {begun : Begun} {ds : List Event} {store : Store} (h : b.Started p page b' begun ds store)
    (hb : b.Remembers p.store) :
    b'.Remembers store ∧ (b.lastRendered.isSome → b'.lastRendered = b.lastRendered) := by
  cases h with
  | absent => exact ⟨hb, fun _ => rfl⟩
  | known => exact ⟨hb, fun _ => rfl⟩
  | found _ _ _ hydrated => exact hydrated.remembers hb

theorem Finished.remembers {b b' : Binder PageAccess} {p : Page}
    {answer : Fallible (Option Snapshot)} {outcome : Outcome} {ds : List Event} {store : Store}
    (h : b.Finished p answer b' outcome ds store) (hb : b.Remembers p.store)
    (hroom : p.isStoreFull = true → ∀ x ∈ b.response p answer, x.isWhole = false) :
    b'.Remembers store := by
  cases h with
  | failed | empty | foreign | refused => exact hb
  | unchanged _ hshows =>
    intro t ht
    exact hb t (hshows.1.trans ht)
  | @rendered s hview hnew hpaint =>
    cases hfull : p.isStoreFull with
    | false =>
      have hkept : b.kept p s = p.store.put b.key s.stored := by simp [kept, hfull]
      rw [hkept]
      exact remembers_put hview
    | true =>
      have hwhole := hroom hfull (b.painting p s) (by simp [response, hview, hnew])
      rw [isWhole_painting.mpr hpaint] at hwhole
      contradiction

/-- Without a snapshot in the answer the binder and the store stay as they are. -/
theorem Finished.idle {b b' : Binder PageAccess} {p : Page}
    {answer : Fallible (Option Snapshot)} {outcome : Outcome} {ds : List Event} {store : Store}
    (h : b.Finished p answer b' outcome ds store) (hnone : ∀ s, answer ≠ .ok (some s)) :
    b' = b ∧ store = p.store := by
  cases h with
  | failed | empty => exact ⟨rfl, rfl⟩
  | foreign | unchanged | refused | rendered => exact absurd rfl (hnone _)

/-- The first half of a cycle that asks found its anchor. -/
theorem Started.mounted {b b' : Binder PageAccess} {p : Page} {page : Option PageNumber}
    {begun : Begun} {ds : List Event} {store : Store} (h : b.Started p page b' begun ds store)
    {reply : Reply (Fallible (Option Snapshot))} (hasked : begun = .asked reply) :
    (p.count? b.view.anchor).isSome := by
  cases h with
  | absent => contradiction
  | known hmounted | found hmounted => exact hmounted

/-- What a binder paints last it has in its entry, whatever happens; and without a snapshot
from the server it stays with what it has. -/
theorem after_remembers {b : Binder PageAccess} {p : Page} {d : Doing}
    (hb : b.Remembers p.store) (halone : b.WritesAlone p d) :
    (b.after p d).binder.Remembers (b.after p d).page.store ∧
      (¬ d.Fetches b.view → b.lastRendered.isSome →
        (b.after p d).binder.lastRendered = b.lastRendered) := by
  cases d with
  | hydrate x store =>
    obtain ⟨ds, left, hydrated, hbecame⟩ := b.hydrate_run (p.found x store)
    obtain ⟨hremembers, hlast⟩ := hydrated.remembers (hb.congr halone)
    rw [← hbecame.store] at hremembers
    exact ⟨hremembers, fun _ => hlast⟩
  | ask o store =>
    obtain ⟨ds, left, hstarted, hbecame⟩ := b.begin_run o.page (p.awaiting b.view o store)
    obtain ⟨hremembers, hlast⟩ := hstarted.remembers (hb.congr halone)
    rw [← hbecame.store] at hremembers
    exact ⟨hremembers, fun _ => hlast⟩
  | cycle o store later =>
    obtain ⟨hstore, hanswer⟩ := halone
    obtain ⟨ds, left, hstarted, hbecame⟩ := b.begin_run o.page (p.awaiting b.view o store)
    have hkin := (b.begin_accounts o.page (p.awaiting b.view o store)).kin
    obtain ⟨hremembers, hlast⟩ := hstarted.remembers (hb.congr hstore)
    rw [← hbecame.store] at hremembers
    show (b.round o store later p).binder.Remembers (b.round o store later p).page.store ∧
      (_ → _ → (b.round o store later p).binder.lastRendered = _)
    cases hasked : b.asking o store p with
    | mk first q =>
      obtain ⟨b', begun⟩ := first
      have hrun : (b.begin o.page).run (p.awaiting b.view o store) = ((b', begun), q) := hasked
      rw [hrun] at hstarted hremembers hlast hkin
      cases begun with
      | ended outcome =>
        rw [round, hasked]
        exact ⟨hremembers, fun _ => hlast⟩
      | asked reply =>
        rw [hasked] at hanswer
        obtain ⟨hlater, hroom⟩ := hanswer
        rw [(round_of_asked hasked later).1]
        obtain ⟨es, left', hfinished, hended⟩ :=
          b'.finish_run o.answer (q.found o.finish later)
        have hkey : b'.key = b.key := hkin.key
        have hb' : b'.Remembers later := hremembers.congr (hkey ▸ hlater)
        refine ⟨hended.store ▸ hfinished.remembers hb' hroom, fun hfetches hsome => ?_⟩
        have hidle := hfinished.idle fun s hs => hfetches ⟨hstarted.mounted rfl, s, hs⟩
        exact (congrArg Binder.lastRendered hidle.1).trans (hlast hsome)

/-- After a run in which only the binder wrote its entry, the entry is what it painted last. -/
theorem afterAll_remembers {b : Binder PageAccess} {p : Page} {ds : List Doing}
    (hb : b.Remembers p.store) (halone : b.AllAlone p ds) :
    (b.afterAll p ds).binder.Remembers (b.afterAll p ds).page.store := by
  induction ds generalizing b p with
  | nil => exact hb
  | cons d rest ih => exact ih (after_remembers hb halone.1).1 halone.2

/-- A binder stays with what it has painted as long as no snapshot comes. -/
theorem afterAll_holds {b : Binder PageAccess} {p : Page} {ds : List Doing} {s : Snapshot}
    (hb : b.Holds p.store s) (halone : b.AllAlone p ds) (hquiet : ∀ d ∈ ds, ¬ d.Fetches b.view) :
    (b.afterAll p ds).binder.Holds (b.afterAll p ds).page.store s := by
  induction ds generalizing b p with
  | nil => exact hb
  | cons d rest ih =>
    obtain ⟨hremembers, hlast⟩ := after_remembers hb.remembers halone.1
    have hview : (b.after p d).binder.view = b.view := (b.after_accounts p d).kin.view
    have hsame := hlast (hquiet d List.mem_cons_self) (by rw [hb.last]; rfl)
    exact ih (hremembers.holds (hsame.trans hb.last)) halone.2
      fun e he => hview ▸ hquiet e (List.mem_cons_of_mem d he)

/-! ### The next binder -/

/-- A binder that has not painted from the cache is what it was. -/
theorem hydrate_unchanged (b : Binder PageAccess) : Yields (σ := Page) b.hydrate fun x =>
    x.2 = false → x.1 = b := by
  unfold hydrate
  split
  · refine (Yields.any _).bind fun present _ => ?_
    split
    · refine (Yields.any _).bind fun found _ => ?_
      cases found with
      | none => exact .pure fun _ => rfl
      | some cached =>
        refine (Yields.any _).bind fun result _ => ?_
        cases result with
        | ok count => exact (Yields.any _).bind fun _ _ => .pure nofun
        | error p => exact (Yields.any _).bind fun _ _ => .pure fun _ => rfl
    · exact .pure fun _ => rfl
  · exact .pure fun _ => rfl

/-- A binder whose elements are all there paints the snapshot that it finds, and does
nothing else to the page. -/
theorem hydrate_serve {b : Binder PageAccess} {x : Surroundings} {q : Page} {s : Snapshot}
    (hview : b.view.hydrates = true) (hserve : x.Serve b.view) (hq : q = q.within x)
    (hfound : Cache.found q.store b.session b.view = some s) :
    (b.hydrate.run q).1.1 = { b with anchorSeen := true, lastRendered := some s } ∧
      q.Became ((b.rendering q.store q.cacheBuster s).map .updated) q.store
        (b.hydrate.run q).2 := by
  have hanchor : (q.count? b.view.anchor).isSome := by rw [hq]; exact hserve.anchor
  have hmatches := Cache.matchesView_of_found hfound
  obtain ⟨ds, store, hydrated, hbecame⟩ := b.hydrate_run q
  generalize (b.hydrate.run q).1.1 = b' at hydrated ⊢
  cases hydrated with
  | skipped h =>
    rcases h with h | h
    · simp [h] at hview
    · simp [h] at hanchor
  | missing _ hnone => simp [hnone] at hfound
  | @refused t ht hpaint =>
    obtain rfl : t = s := Option.some.inj (ht.symm.trans hfound)
    exact absurd (serve_canPaint hserve hq hmatches) hpaint
  | @painted t _ ht =>
    obtain rfl : t = s := Option.some.inj (ht.symm.trans hfound)
    rw [List.filter_eq_self.mpr (rendering_meets hserve.mounts hq hmatches)] at hbecame
    exact ⟨rfl, hbecame⟩

/-- An answer that repeats what a binder holds changes nothing, where there is no form to
submit. -/
theorem finish_holds {b : Binder PageAccess} {q : Page} {s : Snapshot} (hb : b.Holds q.store s)
    (hform : b.view.transitionForm? = none) :
    ((b.finish (.ok (some s))).run q).1 = (b, .unchanged) ∧
      q.Became [] q.store ((b.finish (.ok (some s))).run q).2 := by
  have hfires : b.fires s = false := by simp [fires, hform]
  have hshows : b.Shows q.store s := (hb.remembers.shows_iff s).mpr hb.last
  have hshown : b.shown s = b := by simp [shown, hfires, ← hb.last]
  have hsuccess : b.success s .unchanged = .unchanged := by simp [success, hfires]
  have hsubmissions : b.submissions q s = [] := by simp [submissions, hfires]
  obtain ⟨ds, store, hfinished, hbecame⟩ := b.finish_run (.ok (some s)) q
  generalize (b.finish (.ok (some s))).run q = finished at hfinished hbecame ⊢
  obtain ⟨⟨b', outcome⟩, r⟩ := finished
  cases hfinished with
  | foreign hview => simp [Cache.matchesView_of_found hb.found] at hview
  | refused _ hnew => exact absurd hshows hnew
  | rendered _ hnew => exact absurd hshows hnew
  | unchanged =>
    rw [hsubmissions] at hbecame
    exact ⟨Prod.ext hshown hsuccess, hbecame⟩

/-- A cycle leaves all as it was: the server was asked, and nothing else was done. -/
structure LeavesAll (b : Binder PageAccess) (p : Page) (o : Occasion) (store later : Store) :
    Prop where
  outcome : (b.round o store later p).outcome = .unchanged
  deeds : (b.round o store later p).page.deeds = p.deeds ++ [.requested (b.request o.page)]
  left : (b.round o store later p).page.store = later
  lastRendered : (b.round o store later p).binder.lastRendered = b.lastRendered

/-- A cycle whose answer repeats what a binder holds leaves all as it was. -/
theorem round_holds {b : Binder PageAccess} {p : Page} {o : Occasion} {store later : Store}
    {s : Snapshot} (hb : b.Holds p.store s) (hform : b.view.transitionForm? = none)
    (halone : b.WritesAlone p (.cycle o store later))
    (hmounted : (o.start.mounted.lookup b.view.anchor).isSome) (hanswer : o.answer = .ok (some s)) :
    b.LeavesAll p o store later := by
  obtain ⟨hstore, hwrites⟩ := halone
  have hanchor : ((p.awaiting b.view o store).count? b.view.anchor).isSome := hmounted
  obtain ⟨b', reply, q, hasked, -⟩ := asking_mounted hmounted store p
  obtain ⟨ds, left, hstarted, hbecame⟩ := b.begin_run o.page (p.awaiting b.view o store)
  have hrun : (b.begin o.page).run (p.awaiting b.view o store) = ((b', .asked reply), q) := hasked
  rw [hrun] at hstarted hbecame
  rw [hasked] at hwrites
  have hround := (round_of_asked hasked later).1
  rw [hanswer] at hround
  generalize Begun.asked reply = begun at hstarted
  cases hstarted with
  | absent hnone => simp [hnone] at hanchor
  | found _ _ hnone => simp [hb.last] at hnone
  | known _ _ =>
    have hqstore : q.store = store := hbecame.store
    have hlater : later.get? b.key = p.store.get? b.key := by rw [hwrites.1, hqstore, hstore]
    have hheld : { b with anchorSeen := true }.Holds later s :=
      ⟨hb.last, (Cache.found_congr hlater).trans hb.found⟩
    have hasking : q.deeds = p.deeds ++ [.requested (b.request o.page)] := hbecame.deeds
    obtain ⟨hvalue, hended⟩ := finish_holds (q := q.found o.finish later) hheld hform
    rw [hvalue] at hround
    refine ⟨by rw [hround], ?_, by rw [hround]; exact hended.store, by rw [hround]⟩
    rw [hround, hended.deeds, List.append_nil]
    exact hasking

/-- A new binder takes up a snapshot where it stands in the cache: it paints the snapshot
without asking, and the first answer leaves all as it was if it repeats the snapshot. -/
structure TakesUp (b : Binder PageAccess) (q : Page) (s : Snapshot) : Prop where
  hydrated : (b.hydrate.run q).1 = ({ b with anchorSeen := true, lastRendered := some s }, true)
  deeds : (b.hydrate.run q).2.deeds =
    q.deeds ++ (b.rendering q.store q.cacheBuster s).map .updated
  store : (b.hydrate.run q).2.store = q.store
  repeated : ∀ (es : List Doing) (o : Occasion) (store later : Store),
    (b.hydrate.run q).1.1.AllAlone (b.hydrate.run q).2 (es ++ [.cycle o store later]) →
    (∀ d ∈ es, ¬ d.Fetches b.view) →
    (o.start.mounted.lookup b.view.anchor).isSome → o.answer = .ok (some s) →
    ((b.hydrate.run q).1.1.afterAll (b.hydrate.run q).2 es).binder.LeavesAll
      ((b.hydrate.run q).1.1.afterAll (b.hydrate.run q).2 es).page o store later

theorem hydrate_takesUp {b : Binder PageAccess} {x : Surroundings} {q : Page} {s : Snapshot}
    (hnew : b.lastRendered = none) (hview : b.view.hydrates = true)
    (hform : b.view.transitionForm? = none) (hserve : x.Serve b.view) (hq : q = q.within x)
    (hfound : Cache.found q.store b.session b.view = some s) : b.TakesUp q s := by
  obtain ⟨hbinder, hbecame⟩ := hydrate_serve hview hserve hq hfound
  have htold : (b.hydrate.run q).1.2 = true := by
    refine Bool.of_not_eq_false fun hfalse => ?_
    have hlast := congrArg lastRendered (hbinder.symm.trans (b.hydrate_unchanged q hfalse))
    rw [hnew] at hlast
    contradiction
  refine ⟨Prod.ext hbinder htold, hbecame.deeds, hbecame.store, ?_⟩
  intro es o store later halone hquiet hmounted hanswer
  rw [allAlone_append] at halone
  have hholds : (b.hydrate.run q).1.1.Holds (b.hydrate.run q).2.store s := by
    rw [hbinder, hbecame.store]
    exact ⟨rfl, hfound⟩
  have hsame : (b.hydrate.run q).1.1.view = b.view := by rw [hbinder]
  have hlater := ((b.hydrate.run q).1.1.afterAll_accounts (b.hydrate.run q).2 es).kin.view
  rw [hsame] at hlater
  exact round_holds (afterAll_holds hholds halone.1 (hsame ▸ hquiet)) (hlater ▸ hform)
    halone.2.1 (hlater ▸ hmounted) hanswer

end Binder

/-- A page that is loaded anew shows what the page before it has shown last. A binder of the
history has run in any way, nobody else wrote its entry and no write of it failed. Then a new
binder of the session takes its last snapshot up on any page with the elements of the view,
over the same store with whatever notes it has by then, be it swept or not. -/
theorem reload_takesUp {session : SessionId} (haccepted : session.IsAccepted) (baseUrl : String)
    (p : Page) (ds : List Doing)
    (halone : (Binder.fresh .txHistory session baseUrl).AllAlone p ds) {s : Snapshot}
    (hlast : ((Binder.fresh .txHistory session baseUrl).afterAll p ds).binder.lastRendered = some s)
    (newUrl : String) (q : Page) {x : Surroundings} (hserve : x.Serve .txHistory) (store : Store)
    (hstore : store.get? (View.txHistory.cacheKey session.text) =
      ((Binder.fresh .txHistory session baseUrl).afterAll p ds).page.store.get?
        (View.txHistory.cacheKey session.text)) :
    (Binder.fresh .txHistory session newUrl).TakesUp (q.found x store) s ∧
      (Binder.fresh .txHistory session newUrl).TakesUp
        ((Cache.sweep PageAccess.only).run (q.found x store)).2 s := by
  have hkin := ((Binder.fresh .txHistory session baseUrl).afterAll_accounts p ds).kin
  have hnew : (Binder.fresh .txHistory session baseUrl).Remembers p.store := nofun
  have hkept := Binder.afterAll_remembers hnew halone s hlast
  rw [hkin.session, hkin.view] at hkept
  have hfound : Cache.found store session .txHistory = some s :=
    (Cache.found_congr hstore).trans hkept
  have hswept := (Cache.sweep_run .only (q.found x store)).2
  constructor
  · exact Binder.hydrate_takesUp rfl rfl rfl hserve rfl hfound
  · refine Binder.hydrate_takesUp rfl rfl rfl hserve ?_ ?_
    · rw [hswept.same]
      rfl
    · rw [hswept.store]
      exact (Cache.found_swept haccepted store .txHistory).trans hfound

/-- A history is fetched and painted. -/
def fetchedHistory : List Doing :=
  [.cycle (.steady .txHistory (.ok (some (historyOf 2))) false) Store.empty Store.empty]

theorem fetchedHistory_alone :
    (Binder.fresh .txHistory .anonymous "").AllAlone {} fetchedHistory :=
  ⟨⟨rfl, rfl, nofun⟩, trivial⟩

/-- After a reload under another address the history is there before the server answers. -/
theorem fetchedHistory_takenUp :
    (Binder.fresh .txHistory .anonymous "").AllAlone {} fetchedHistory ∧
      (Binder.fresh .txHistory .anonymous "/wallet").TakesUp
        (({} : Page).found (Occasion.steady .txHistory (.ok none) false).start
          ((Binder.fresh .txHistory .anonymous "").afterAll {} fetchedHistory).page.store)
        (historyOf 2) :=
  ⟨fetchedHistory_alone,
    (reload_takesUp SessionId.isAccepted_anonymous "" {} fetchedHistory fetchedHistory_alone rfl
      "/wallet" {} (Occasion.steady_serves .txHistory (.ok none) false).start _ rfl).1⟩

end WalletPage
