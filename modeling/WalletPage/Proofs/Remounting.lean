import WalletPage.Proofs.Paintings

/-! Views that are mounted again. Whether an answer is painted depends on what the binder
has painted before and on whether the cache has an entry, and on nothing that became of the
elements in between: a view whose elements are new and blank is left blank while the server
repeats the snapshot that was painted last. -/

namespace WalletPage

namespace Binder

/-- What a binder that has painted before paints of an answer, where its view is served. -/
theorem paintings_served {b : Binder PageAccess} {o : Occasion} {s : Snapshot}
    (hserves : o.Serves b.view) (haccepted : o.accepted? b.view = some s)
    (hlast : b.lastRendered.isSome) (store later : Store) (p : Page) :
    b.paintings o store later p =
      if b.Shows later s then [] else [⟨s, b.rendering later o.finish.cacheBuster s, true⟩] := by
  have hview := o.matchesView_of_accepted haccepted
  have hopening : b.opening (p.awaiting b.view o store) = [] := by
    obtain ⟨t, ht⟩ := Option.isSome_iff_exists.mp hlast
    simp [opening, ht]
  obtain ⟨b', reply, q, hasked, hbegun⟩ := asking_mounted hserves.start.anchor store p
  rw [hopening] at hbegun
  have hkin : b.Kin b' := hbegun.kin
  have hshows : b'.Shows later s ↔ b.Shows later s := by
    rw [Shows, Shows, hkin.key, hbegun.lastRendered]
    rfl
  have hserve : o.finish.Serve b'.view := hkin.view ▸ hserves.finish
  have hview' : s.matchesView b'.view = true := hkin.view ▸ hview
  have hwhole := painting_whole (serve_canPaint hserve (p := q.found o.finish later) rfl hview')
  rw [serve_filter hserve rfl hview'] at hwhole
  have hpainting : b'.painting (q.found o.finish later) s =
      ⟨s, b.rendering later o.finish.cacheBuster s, true⟩ :=
    hwhole.trans (congrArg (Painting.mk s · true) (hkin.rendering ..))
  rw [(round_of_asked hasked later).2, hopening, o.answer_of_accepted haccepted,
    List.nil_append, response, hpainting]
  simp only [hview', true_and, ite_not]
  exact if_congr hshows rfl rfl

end Binder

/-- Once a view was painted, a later cycle that finds all its elements and accepts a snapshot
applies the changes of that snapshot, with one exception: the snapshot is the one that was
painted last and the cache has an entry for the view. What has become of the elements since
the last painting makes no difference, be it that a cycle found no anchor or that a painting
reached no element. -/
theorem updates_after_remounting (v : View) (session : SessionId) (baseUrl : String) (p : Page)
    (ds : List Doing) (o : Occasion) (store later : Store) (s : Snapshot)
    (hserves : o.Serves v) (haccepted : o.accepted? v = some s) (start : Done)
    (hstart : (Binder.fresh v session baseUrl).afterAll p ds = start)
    (hpainted : (lastWhole? start.paintings).isSome) :
    (start.binder.round o store later start.page).page.updates =
      start.page.updates ++
        if lastWhole? start.paintings = some s ∧
            (later.get? (v.cacheKey session.text)).isSome then []
        else (Binder.fresh v session baseUrl).rendering later o.finish.cacheBuster s := by
  have hlast := Binder.fresh_lastRendered v session baseUrl p ds
  have hkin := ((Binder.fresh v session baseUrl).afterAll_accounts p ds).kin
  rw [hstart] at hlast hkin
  have hcycle := (start.binder.cycle_accounts o store later start.page).updates
  have hview : v = start.binder.view := hkin.view.symm
  have hpaintings := start.binder.paintings_served (hview ▸ hserves) (hview ▸ haccepted)
    (hlast ▸ hpainted) store later start.page
  have hshows : start.binder.Shows later s ↔ lastWhole? start.paintings = some s ∧
      (later.get? (v.cacheKey session.text)).isSome := by
    rw [Binder.Shows, hlast, hkin.key]
    rfl
  rw [hpaintings, hkin.rendering] at hcycle
  refine hcycle.trans (congrArg (start.page.updates ++ ·) ?_)
  by_cases h : start.binder.Shows later s
  · rw [if_pos h, if_pos (hshows.mp h)]
    rfl
  · rw [if_neg h, if_neg (mt hshows.mpr h)]
    simp

/-- An occasion on which nothing is mounted. -/
def Occasion.unmounted : Occasion where
  start := { mounted := [] }
  answer := .ok none
  finish := { mounted := [] }

/-- The height that the server repeats. -/
def repeatedHeight : Snapshot :=
  .blockHeight ⟨"1", "Scanning", "yellow"⟩

/-- An occasion on which all elements of the height are mounted and the server repeats it. -/
def repeatedHeightCycle : Occasion :=
  .steady .blockHeight (.ok (some repeatedHeight)) false

/-- The store with that height. -/
def repeatedHeightStore : Store :=
  Store.empty.put (View.blockHeight.cacheKey SessionId.anonymous.text) repeatedHeight.stored

/-- A height is painted and kept, and then its elements are gone. -/
def unmountedRun : Done :=
  (Binder.fresh .blockHeight .anonymous "").afterAll {}
    [.cycle repeatedHeightCycle .empty .empty,
      .cycle .unmounted repeatedHeightStore repeatedHeightStore]

/-- The elements are there again, and the same height is not painted on them. -/
theorem blank_after_remounting :
    repeatedHeightCycle.Serves .blockHeight ∧
      repeatedHeightCycle.accepted? .blockHeight = some repeatedHeight ∧
      (lastWhole? unmountedRun.paintings).isSome ∧
      (unmountedRun.binder.round repeatedHeightCycle repeatedHeightStore repeatedHeightStore
        unmountedRun.page).page.updates = unmountedRun.page.updates := by
  have hserves : repeatedHeightCycle.Serves .blockHeight := Occasion.steady_serves ..
  have hlast : lastWhole? unmountedRun.paintings = some repeatedHeight := rfl
  have hpainted : (lastWhole? unmountedRun.paintings).isSome := by rw [hlast]; rfl
  have hentry : (repeatedHeightStore.get?
      (View.blockHeight.cacheKey SessionId.anonymous.text)).isSome := by
    simp [repeatedHeightStore]
  have hupdates := updates_after_remounting .blockHeight .anonymous "" {} _ repeatedHeightCycle
    repeatedHeightStore repeatedHeightStore repeatedHeight hserves rfl unmountedRun rfl hpainted
  rw [if_pos ⟨hlast, hentry⟩, List.append_nil] at hupdates
  exact ⟨hserves, rfl, hpainted, hupdates⟩

end WalletPage
