import WalletPage.Proofs.BinderRuns
import Mathlib.Data.List.Destutter

/-! A view is painted when what it shows changes, and only then. Over a whole run of
one binder the painted snapshots are the accepted answers, the cached snapshot first,
without those that repeat the one before; the cache follows the page. -/

namespace WalletPage

/-- The snapshots of a list that differ from the one before, the first one from `last`. -/
def news (last : Option Snapshot) : List Snapshot → List Snapshot
  | [] => []
  | s :: rest => if last = some s then news last rest else s :: news (some s) rest

theorem destutter'_eq_news (a : Snapshot) (l : List Snapshot) :
    l.destutter' (· ≠ ·) a = a :: news (some a) l := by
  induction l generalizing a with
  | nil => rfl
  | cons s rest ih =>
    by_cases h : a = s
    · rw [List.destutter'_cons_neg rest (not_not.mpr h), ih, news, if_pos (congrArg some h)]
    · rw [List.destutter'_cons_pos rest h, ih, news, if_neg (mt Option.some.inj h)]

theorem destutter_append_eq_news (first : Option Snapshot) (l : List Snapshot) :
    (first.toList ++ l).destutter (· ≠ ·) = first.toList ++ news first l := by
  cases first with
  | some a => exact destutter'_eq_news a l
  | none =>
    cases l with
    | nil => rfl
    | cons s rest => exact destutter'_eq_news s rest

namespace Binder

/-- A cycle paints `cached` before it asks and `fetched` of its answer, and nothing else;
`fetched` is all that it writes, and an accepted answer is in the cache afterwards. -/
structure CyclePaints (b : Binder PageAccess) (o : Occasion) (p : Page)
    (cached fetched : Option Snapshot) : Prop where
  updates : (b.cycle o p).page.updates = p.updates ++
    (b.paints p.store o.start.cacheBuster cached ++
      b.paints (b.consulted p.store) o.finish.cacheBuster fetched)
  store : (b.cycle o p).page.store = match fetched with
    | none => b.consulted p.store
    | some s => (b.consulted p.store).put b.key s.stored
  recalled : ∀ s, cached = some s → Cache.found p.store b.session b.view = some s
  answered : ∀ s, fetched = some s → o.accepted? b.view = some s
  kept : ∀ s, o.accepted? b.view = some s →
    ((Cache.load b.access b.session b.view).run (b.cycle o p).page).1 = some s

/-- `b.Paints p os painted`: cycles on those occasions paint those snapshots, one after
the other. -/
inductive Paints : Binder PageAccess → Page → List Occasion → List Snapshot → Prop
  | nil (b : Binder PageAccess) (p : Page) : Paints b p [] []
  | cons {b : Binder PageAccess} {p : Page} {o : Occasion} {os : List Occasion}
    {cached fetched : Option Snapshot} {rest : List Snapshot}
    (hcycle : b.CyclePaints o p cached fetched)
    (hrest : Paints (b.cycle o p).binder (b.cycle o p).page os rest) :
    Paints b p (o :: os) (cached.toList ++ (fetched.toList ++ rest))

/-- The invariant of a run: what the binder has painted last is in the cache. -/
def Remembers (b : Binder PageAccess) (store : Store) : Prop :=
  ∀ s, b.lastRendered = some s → Cache.found store b.session b.view = some s

theorem recalled_of_cached {b : Binder PageAccess} {store : Store} {s : Snapshot}
    (h : b.cached store = some s) : Cache.found store b.session b.view = some s := by
  unfold cached at h
  split at h
  · exact h
  · contradiction

theorem Remembers.aware {b : Binder PageAccess} {store : Store} (h : b.Remembers store) :
    (b.aware store).Remembers (b.consulted store) := by
  intro s hs
  have hfound : Cache.found (b.consulted store) b.session b.view =
      Cache.found store b.session b.view := by
    unfold consulted
    split
    · exact Cache.found_tidied store b.session b.view
    · rfl
  refine hfound.trans ?_
  rcases Option.or_eq_some_iff.mp hs with hlast | ⟨_, hcached⟩
  · exact h s hlast
  · exact recalled_of_cached hcached

theorem Remembers.shows_iff {b : Binder PageAccess} {store : Store} (h : b.Remembers store)
    (s : Snapshot) : b.Shows store s ↔ b.lastRendered = some s := by
  refine ⟨And.left, fun hlast => ⟨hlast, ?_⟩⟩
  have hfound := h s hlast
  unfold Cache.found at hfound
  cases hget : store.get? b.key with
  | none =>
    rw [key] at hget
    simp [hget] at hfound
  | some raw => rfl

theorem remembers_put {b : Binder PageAccess} {store : Store} {s : Snapshot}
    (hs : s.matchesView b.view = true) : (b.shown s).Remembers (store.put b.key s.stored) := by
  intro t ht
  obtain rfl : s = t := Option.some.inj ht
  exact Cache.found_put store b.session hs

/-- What one cycle paints, and that the invariant is kept. -/
theorem cycle_news {b : Binder PageAccess} {o : Occasion} {p : Page} (hserves : o.Serves b.view)
    (hroom : o.finish.isStoreFull = false) (hb : b.Remembers p.store) (later : List Snapshot) :
    ∃ fetched, b.CyclePaints o p (b.cached p.store) fetched ∧
      (b.cycle o p).binder.Remembers (b.cycle o p).page.store ∧
      news (b.aware p.store).lastRendered ((o.accepted? b.view).toList ++ later) =
        fetched.toList ++ news (b.cycle o p).binder.lastRendered later ∧
      (b.cycle o p).binder.looksUp = false ∧ (b.cycle o p).binder.view = b.view := by
  obtain ⟨fetched, hcycle, hupdates⟩ := b.cycle_serves p hserves
  have haware := hb.aware
  have hlooksUp : (b.aware p.store).looksUp = false := by simp [looksUp, aware]
  refine ⟨fetched, ?_⟩
  generalize hstore : (b.cycle o p).page.store = store at hcycle ⊢
  generalize hbinder : (b.cycle o p).binder = b' at hcycle ⊢
  generalize (b.cycle o p).outcome = outcome at hcycle
  cases hcycle with
  | idle hanswer _ =>
    rw [hanswer]
    refine ⟨⟨hupdates, hstore, fun _ => recalled_of_cached, by simp, ?_⟩, haware, rfl, hlooksUp,
      rfl⟩
    simp [hanswer]
  | @unchanged s hanswer hshows =>
    have hlast := (haware.shows_iff s).mp hshows
    have hfound := haware s hlast
    refine ⟨⟨hupdates, hstore, fun _ => recalled_of_cached, by simp, ?_⟩, ?_, ?_, hlooksUp, rfl⟩
    · intro t ht
      rw [(Cache.load_run _ _ _ _).1, hstore, ← ht, hanswer]
      exact hfound
    · intro t ht
      obtain rfl : s = t := Option.some.inj ht
      exact hfound
    · rw [hanswer]
      simp only [Option.toList_some, List.singleton_append, news, hlast, if_true]
      rfl
  | @rendered s hanswer hnew =>
    have hview : s.matchesView b.view = true := o.matchesView_of_accepted hanswer
    have hremembers : ((b.aware p.store).shown s).Remembers
      ((b.consulted p.store).put b.key s.stored) := remembers_put hview
    rw [if_neg (by simp [hroom])] at hstore ⊢
    refine ⟨⟨hupdates, hstore, fun _ => recalled_of_cached, ?_, ?_⟩, hremembers, ?_, hlooksUp, rfl⟩
    · intro t ht
      rw [hanswer, ht]
    · intro t ht
      rw [(Cache.load_run _ _ _ _).1, hstore]
      exact hremembers t (hanswer.symm.trans ht)
    · rw [haware.shows_iff] at hnew
      rw [hanswer]
      simp only [Option.toList_some, List.singleton_append, news, if_neg hnew]
      rfl

/-- The snapshots that a binder paints on those occasions. -/
def due (b : Binder PageAccess) (store : Store) : List Occasion → List Snapshot
  | [] => []
  | os => (b.cached store).toList ++
    news (b.aware store).lastRendered (os.filterMap (·.accepted? b.view))

theorem due_of_seen {b : Binder PageAccess} {store : Store} (h : b.looksUp = false)
    (os : List Occasion) :
    b.due store os = news b.lastRendered (os.filterMap (·.accepted? b.view)) := by
  have hcached : b.cached store = none := by simp [cached, h]
  cases os with
  | nil => rfl
  | cons o os =>
    rw [due, hcached, aware, hcached, Option.or_none]
    · rfl
    · exact List.cons_ne_nil o os

theorem paints_due {v : View} (os : List Occasion) :
    ∀ {b : Binder PageAccess} {p : Page}, b.view = v → b.Remembers p.store →
      (∀ o ∈ os, o.Serves v ∧ o.finish.isStoreFull = false) →
      b.Paints p os (b.due p.store os) := by
  induction os with
  | nil => exact fun _ _ _ => .nil _ _
  | cons o os ih =>
    rintro b p rfl hb hos
    obtain ⟨hserves, hroom⟩ := hos o List.mem_cons_self
    obtain ⟨fetched, hpaints, hremembers, hnews, hseen, hview⟩ :=
      cycle_news hserves hroom hb (os.filterMap (·.accepted? b.view))
    have hrest := ih hview hremembers fun o ho => hos o (List.mem_cons_of_mem _ ho)
    rw [due_of_seen hseen, hview] at hrest
    have haccepted : (o :: os).filterMap (·.accepted? b.view) =
        (o.accepted? b.view).toList ++ os.filterMap (·.accepted? b.view) := by
      cases h : o.accepted? b.view <;> simp [h]
    have hdue : b.due p.store (o :: os) = (b.cached p.store).toList ++ (fetched.toList ++
        news (b.cycle o p).binder.lastRendered (os.filterMap (·.accepted? b.view))) := by
      rw [due, haccepted, hnews]
      nofun
    rw [hdue]
    exact .cons hpaints hrest

end Binder

/-- The snapshot that the first of some cycles finds in the cache, for a view that hydrates. -/
def recalled (v : View) (session : SessionId) (store : Store) : List Occasion → Option Snapshot
  | [] => none
  | _ :: _ => if v.hydrates then Cache.found store session v else none

/-- In any cycles of a new binder whose view is served throughout, with no write refused,
the painted snapshots are the cached one, if the view hydrates, and the accepted answers,
without those that repeat the one before. -/
theorem paints_destutter (v : View) (session : SessionId) (baseUrl : String) (p : Page)
    (os : List Occasion) (hserves : ∀ o ∈ os, o.Serves v ∧ o.finish.isStoreFull = false) :
    (Binder.fresh v session baseUrl).Paints p os
      (((recalled v session p.store os).toList ++ os.filterMap (·.accepted? v)).destutter
        (· ≠ ·)) := by
  have hremembers : (Binder.fresh v session baseUrl).Remembers p.store := nofun
  have hpaints := Binder.paints_due os rfl hremembers hserves
  rw [destutter_append_eq_news]
  cases os with
  | nil => exact hpaints
  | cons o os =>
    have hcached : (Binder.fresh v session baseUrl).cached p.store =
        recalled v session p.store (o :: os) := by
      simp [Binder.cached, Binder.looksUp, Binder.fresh, recalled]
    have haware : ((Binder.fresh v session baseUrl).aware p.store).lastRendered =
        recalled v session p.store (o :: os) := hcached
    rw [Binder.due, hcached, haware] at hpaints
    · exact hpaints
    · exact List.cons_ne_nil o os

/-- The first page of a history of so many pages. -/
def historyOf (total : PageNumber) : Snapshot :=
  .txHistory { total := total }

/-- A store with a history of one page. -/
def historyStore : Store :=
  Store.empty.put (View.txHistory.cacheKey SessionId.anonymous.text) (historyOf 1).stored

/-- The history of one page again, nothing, and a history of two pages. -/
def historyAnswers : List Occasion :=
  [.ok (some (historyOf 1)), .ok none, .ok (some (historyOf 2))].map
    (Occasion.steady .txHistory · false)

/-- A history in the cache is painted at once; of the answers only a new one is painted. -/
theorem paints_recalled_first :
    (∀ o ∈ historyAnswers, o.Serves .txHistory ∧ o.finish.isStoreFull = false) ∧
      (Binder.fresh .txHistory .anonymous "").Paints { store := historyStore } historyAnswers
        [historyOf 1, historyOf 2] := by
  have hserves : ∀ o ∈ historyAnswers, o.Serves .txHistory ∧ o.finish.isStoreFull = false := by
    intro o ho
    obtain ⟨answer, -, rfl⟩ := List.mem_map.mp ho
    exact ⟨Occasion.steady_serves .txHistory answer false, rfl⟩
  have hrecalled : recalled .txHistory .anonymous historyStore historyAnswers =
      some (historyOf 1) := by
    have hhydrates : View.txHistory.hydrates = true := rfl
    rw [historyAnswers, List.map_cons, recalled, if_pos hhydrates, historyStore,
      Cache.found_put _ _ rfl]
  have hanswers : historyAnswers.filterMap (·.accepted? .txHistory) =
      [historyOf 1, historyOf 2] := rfl
  have hdestutter : [historyOf 1, historyOf 1, historyOf 2].destutter (· ≠ ·) =
      [historyOf 1, historyOf 2] := by decide
  have hpaints := paints_destutter .txHistory .anonymous "" { store := historyStore }
    historyAnswers hserves
  rw [hrecalled, hanswers, Option.toList_some, List.singleton_append, hdestutter] at hpaints
  exact ⟨hserves, hpaints⟩

end WalletPage
