import WalletPage.Proofs.BinderRuns
import Mathlib.Data.List.Induction

/-! When the cache lags behind the page. A write that is refused leaves the older entry
where it was, and the binder does not write again while the server repeats its answer:
it asks whether there is an entry, not what the entry is. -/

namespace WalletPage

namespace Binder

/-- Whether the cache has an entry for the view that is not what was painted last. -/
def Lags (b : Binder PageAccess) (store : Store) : Prop :=
  ∃ s, b.lastRendered = some s ∧ (store.get? b.key).isSome ∧
    Cache.found store b.session b.view ≠ some s

/-- Whether a cycle paints its answer. -/
def Renders (b : Binder PageAccess) (o : Occasion) (store : Store) : Prop :=
  ∃ s, o.accepted? b.view = some s ∧ ¬ (b.aware store).Shows (b.consulted store) s

/-- Whether a cycle paints its answer while the store refuses to replace another entry. -/
def Misses (b : Binder PageAccess) (o : Occasion) (store : Store) : Prop :=
  ∃ s, o.accepted? b.view = some s ∧ ¬ (b.aware store).Shows (b.consulted store) s ∧
    o.finish.isStoreFull = true ∧ ((b.consulted store).get? b.key).isSome ∧
    Cache.found (b.consulted store) b.session b.view ≠ some s

theorem aware_eq {b : Binder PageAccess} (h : b.looksUp = false) (store : Store) :
    b.aware store = { b with anchorSeen := true } ∧ b.consulted store = store := by
  have hcached : b.cached store = none := by simp [cached, h]
  refine ⟨?_, by simp [consulted, h]⟩
  rw [aware, hcached, Option.or_none]

theorem lastRendered_of_looksUp {b : Binder PageAccess} (h : b.looksUp = true) :
    b.lastRendered = none := by
  simp only [looksUp, Bool.and_eq_true, Option.isNone_iff_eq_none] at h
  exact h.2.2

/-- Looking for a snapshot in the cache leaves no lag where there was none, and none goes. -/
theorem aware_lags (b : Binder PageAccess) (store : Store) :
    (b.aware store).Lags (b.consulted store) ↔ b.Lags store := by
  cases h : b.looksUp with
  | false =>
    obtain ⟨haware, hconsulted⟩ := aware_eq h store
    rw [haware, hconsulted]
    rfl
  | true =>
    have hlast := lastRendered_of_looksUp h
    constructor
    · rintro ⟨s, hs, _, hfound⟩
      refine absurd ?_ hfound
      have hcached : b.cached store = some s := by simpa [aware, hlast] using hs
      simp only [cached, h, if_true] at hcached
      have htidied := Cache.found_tidied store b.session b.view
      simp only [consulted, h, if_true]
      exact htidied.trans hcached
    · rintro ⟨s, hs, _⟩
      simp [hlast] at hs

/-- A lag begins with a write that is missed, and ends with the next painting. -/
theorem cycle_lags {b : Binder PageAccess} {o : Occasion} {p : Page} (hserves : o.Serves b.view) :
    (b.cycle o p).binder.Lags (b.cycle o p).page.store ↔
      b.Misses o p.store ∨ ¬ b.Renders o p.store ∧ b.Lags p.store := by
  obtain ⟨fetched, hcycle, -⟩ := b.cycle_serves p hserves
  generalize (b.cycle o p).page.store = store at hcycle ⊢
  generalize (b.cycle o p).binder = b' at hcycle ⊢
  generalize (b.cycle o p).outcome = outcome at hcycle
  rw [← aware_lags b p.store]
  cases hcycle with
  | idle hanswer _ =>
    simp [Misses, Renders, hanswer]
  | @unchanged s hanswer hshows =>
    have hlags : ((b.aware p.store).shown s).Lags (b.consulted p.store) ↔
        (b.aware p.store).Lags (b.consulted p.store) := by
      simp only [Lags, hshows.1]
      rfl
    simp [Misses, Renders, hanswer, hshows, hlags]
  | @rendered s hanswer hnew =>
    have hrenders : b.Renders o p.store := ⟨s, hanswer, hnew⟩
    have hview := o.matchesView_of_accepted hanswer
    cases hfull : o.finish.isStoreFull with
    | true =>
      have hlags : ((b.aware p.store).shown s).Lags (b.consulted p.store) ↔
          ((b.consulted p.store).get? b.key).isSome ∧
            Cache.found (b.consulted p.store) b.session b.view ≠ some s := by
        simp only [Lags, shown, Option.some.injEq, exists_eq_left']
        rfl
      rw [if_pos rfl, hlags]
      simp [Misses, hanswer, hnew, hfull, hrenders]
    | false =>
      have hfound := Cache.found_put (b.consulted p.store) b.session hview
      have hcaught : ¬ ((b.aware p.store).shown s).Lags
          ((b.consulted p.store).put b.key s.stored) := by
        rintro ⟨t, ht, _, hne⟩
        obtain rfl : s = t := Option.some.inj ht
        exact hne hfound
      rw [if_neg Bool.false_ne_true]
      simp [Misses, hanswer, hfull, hrenders, hcaught]

theorem cycles_append (b : Binder PageAccess) (p : Page) (xs ys : List Occasion) :
    b.cycles p (xs ++ ys) = (b.cycles p xs).1.cycles (b.cycles p xs).2 ys := by
  induction xs generalizing b p with
  | nil => rfl
  | cons o xs ih => exact ih _ _

theorem cycle_binder {b : Binder PageAccess} {o : Occasion} {p : Page}
    (hserves : o.Serves b.view) :
    (b.cycle o p).binder.view = b.view ∧ (b.cycle o p).binder.session = b.session := by
  obtain ⟨fetched, hcycle, -⟩ := b.cycle_serves p hserves
  generalize (b.cycle o p).page.store = store at hcycle
  generalize (b.cycle o p).binder = b' at hcycle ⊢
  generalize (b.cycle o p).outcome = outcome at hcycle
  cases hcycle <;> exact ⟨rfl, rfl⟩

theorem cycles_binder (os : List Occasion) {b : Binder PageAccess} {p : Page}
    (hserves : ∀ o ∈ os, o.Serves b.view) :
    (b.cycles p os).1.view = b.view ∧ (b.cycles p os).1.session = b.session := by
  induction os generalizing b p with
  | nil => exact ⟨rfl, rfl⟩
  | cons o os ih =>
    obtain ⟨hview, hsession⟩ := cycle_binder (p := p) (hserves o List.mem_cons_self)
    have hrest := ih (b := (b.cycle o p).binder) (p := (b.cycle o p).page)
      fun x hx => hview ▸ hserves x (List.mem_cons_of_mem _ hx)
    rwa [hview, hsession] at hrest

theorem getElem?_concat {os : List Occasion} {o x : Occasion} {i : Nat}
    (h : (os ++ [o])[i]? = some x) : os[i]? = some x ∨ i = os.length ∧ x = o := by
  obtain ⟨hi, hx⟩ := List.getElem?_eq_some_iff.mp h
  rw [List.length_append, List.length_singleton] at hi
  rcases Nat.lt_succ_iff_lt_or_eq.mp hi with hlt | rfl
  · exact .inl (by rwa [List.getElem?_append_left hlt] at h)
  · exact .inr ⟨rfl, by simpa using hx.symm⟩

/-- Whether the last of some cycles that painted its answer missed. -/
def LastMissed (b : Binder PageAccess) (p : Page) (os : List Occasion) : Prop :=
  ∃ i o, os[i]? = some o ∧
    (b.cycles p (os.take i)).1.Misses o (b.cycles p (os.take i)).2.store ∧
    ∀ j x, i < j → os[j]? = some x →
      ¬ (b.cycles p (os.take j)).1.Renders x (b.cycles p (os.take j)).2.store

theorem cycles_lags {b : Binder PageAccess} {p : Page} (hb : ¬ b.Lags p.store)
    (os : List Occasion) (hserves : ∀ o ∈ os, o.Serves b.view) :
    (b.cycles p os).1.Lags (b.cycles p os).2.store ↔ b.LastMissed p os := by
  unfold LastMissed
  induction os using List.reverseRecOn with
  | nil => simpa [cycles] using hb
  | append_singleton os o ih =>
    have hos := fun x hx => hserves x (List.mem_append_left _ hx)
    have ho := hserves o (List.mem_append_right _ (List.mem_singleton_self o))
    have hstep := cycle_lags (b := (b.cycles p os).1) (o := o) (p := (b.cycles p os).2)
      ((cycles_binder os hos).1 ▸ ho)
    have htake {i : Nat} (hi : i ≤ os.length) : (os ++ [o]).take i = os.take i :=
      List.take_append_of_le_length hi
    rw [cycles_append]
    refine hstep.trans ?_
    rw [ih hos]
    constructor
    · rintro (hmiss | ⟨hquiet, i, x, hx, hmiss, hlater⟩)
      · refine ⟨os.length, o, List.getElem?_concat_length, ?_, fun j x hj hx => ?_⟩
        · rwa [List.take_left]
        · obtain ⟨hlt, -⟩ := List.getElem?_eq_some_iff.mp hx
          rw [List.length_append, List.length_singleton] at hlt
          omega
      · have hi := (List.getElem?_eq_some_iff.mp hx).1
        refine ⟨i, x, ?_, ?_, fun j y hj hy => ?_⟩
        · rwa [List.getElem?_append_left hi]
        · rwa [htake hi.le]
        · rcases getElem?_concat hy with hy | ⟨rfl, rfl⟩
          · rw [htake (List.getElem?_eq_some_iff.mp hy).1.le]
            exact hlater j y hj hy
          · rwa [List.take_left]
    · rintro ⟨i, x, hx, hmiss, hlater⟩
      rcases getElem?_concat hx with hx | ⟨rfl, rfl⟩
      · have hi := (List.getElem?_eq_some_iff.mp hx).1
        refine .inr ⟨?_, i, x, hx, htake hi.le ▸ hmiss, fun j y hj hy => ?_⟩
        · have hlast := hlater os.length o hi List.getElem?_concat_length
          rwa [List.take_left] at hlast
        · have hj' := (List.getElem?_eq_some_iff.mp hy).1
          have hlast := hlater j y hj (by rwa [List.getElem?_append_left hj'])
          rwa [htake hj'.le] at hlast
      · rw [List.take_left] at hmiss
        exact .inl hmiss

/-- After a cycle that shows its answer and could write, the cache holds what was painted
last, unless the cache lagged and the answer was what had been painted before. -/
theorem cycle_catches_up {b : Binder PageAccess} {o : Occasion} {p : Page}
    (hserves : o.Serves b.view) (hroom : o.finish.isStoreFull = false)
    (hshown : (b.cycle o p).outcome ≠ .failed ∧ (b.cycle o p).outcome ≠ .empty) :
    Cache.found (b.cycle o p).page.store b.session b.view = (b.cycle o p).binder.lastRendered ↔
      ¬ (b.Lags p.store ∧ o.accepted? b.view = b.lastRendered) := by
  obtain ⟨fetched, hcycle, -⟩ := b.cycle_serves p hserves
  generalize (b.cycle o p).page.store = store at hcycle ⊢
  generalize (b.cycle o p).binder = b' at hcycle ⊢
  generalize (b.cycle o p).outcome = outcome at hcycle hshown
  cases hcycle with
  | idle _ houtcome => exact absurd houtcome (not_or.mpr hshown)
  | @unchanged s hanswer hshows =>
    show Cache.found (b.consulted p.store) b.session b.view = some s ↔ _
    cases h : b.looksUp with
    | false =>
      obtain ⟨haware, hconsulted⟩ := aware_eq h p.store
      rw [haware, hconsulted] at hshows
      have hlast : b.lastRendered = some s := hshows.1
      have hentry : (p.store.get? b.key).isSome := hshows.2
      rw [hconsulted, hanswer, hlast]
      simp only [Lags, hlast, hentry, Option.some.injEq, exists_eq_left', true_and, and_true,
        ne_eq, not_not]
    | true =>
      have hnone := lastRendered_of_looksUp h
      have hcached : b.cached p.store = some s := by simpa [aware, hnone] using hshows.1
      simp only [cached, h, if_true] at hcached
      simp only [consulted, h, if_true, hanswer, hnone]
      simpa using (Cache.found_tidied p.store b.session b.view).trans hcached
  | @rendered s hanswer hnew =>
    have hview := o.matchesView_of_accepted hanswer
    have hfound := Cache.found_put (b.consulted p.store) b.session hview
    rw [if_neg (by simp [hroom])]
    refine iff_of_true hfound ?_
    rintro ⟨⟨t, hlast, hentry, -⟩, hrepeated⟩
    have hlooksUp : b.looksUp = false := by simp [looksUp, hlast]
    obtain ⟨haware, hconsulted⟩ := aware_eq hlooksUp p.store
    rw [haware, hconsulted] at hnew
    exact hnew ⟨hrepeated.symm.trans hanswer, hentry⟩

end Binder

/-- After a cycle that shows its answer and could write, the cache holds what was painted
last, with one exception: the server repeats the answer of the last painting, and that
painting was not written because the store refused to replace another entry. -/
theorem load_eq_lastRendered_iff (v : View) (session : SessionId) (baseUrl : String) (p : Page)
    (os : List Occasion) (o : Occasion) (hserves : ∀ x ∈ os ++ [o], x.Serves v)
    (hroom : o.finish.isStoreFull = false) (b : Binder PageAccess) (q : Page)
    (hrun : (Binder.fresh v session baseUrl).cycles p os = (b, q))
    (hshown : (b.cycle o q).outcome ∈ [.unchanged, .rendered, .terminal]) :
    ((Cache.load b.access session v).run (b.cycle o q).page).1 = (b.cycle o q).binder.lastRendered ↔
      ¬ (o.accepted? v = b.lastRendered ∧
        (Binder.fresh v session baseUrl).LastMissed p os) := by
  have hos := fun x hx => hserves x (List.mem_append_left _ hx)
  have ho := hserves o (List.mem_append_right _ (List.mem_singleton_self o))
  have hlags := Binder.cycles_lags (b := Binder.fresh v session baseUrl) (p := p) nofun os hos
  have hbinder := Binder.cycles_binder (p := p) os (b := Binder.fresh v session baseUrl) hos
  rw [hrun] at hlags hbinder
  obtain ⟨rfl, rfl⟩ : b.view = v ∧ b.session = session := hbinder
  rw [(Cache.load_run _ _ _ _).1, and_comm, ← hlags]
  refine Binder.cycle_catches_up ho hroom ⟨?_, ?_⟩ <;> rintro h <;> rw [h] at hshown <;>
    simp at hshown

/-- The height of a chain that is not synchronized. -/
def atHeight (height : String) : Snapshot :=
  .blockHeight ⟨height, "", ""⟩

/-- A cycle that is answered with a height. -/
def heightCycle (height : String) (isStoreFull : Bool) : Occasion :=
  .steady .blockHeight (.ok (some (atHeight height))) isStoreFull

/-- The binder and the page once "1" was written, and "2" painted while the store was full. -/
def refusedRun : Binder PageAccess × Page :=
  (Binder.fresh .blockHeight .anonymous "").cycles {} [heightCycle "1" false, heightCycle "2" true]

theorem heightRun_misses :
    ((Binder.fresh .blockHeight .anonymous "").cycles {} [heightCycle "1" false]).1.Misses
      (heightCycle "2" true)
      ((Binder.fresh .blockHeight .anonymous "").cycles {} [heightCycle "1" false]).2.store := by
  have hbinder : ((Binder.fresh .blockHeight .anonymous "").cycles {} [heightCycle "1" false]).1 =
      { Binder.fresh .blockHeight .anonymous "" with
        anchorSeen := true, lastRendered := some (atHeight "1") } := rfl
  have hstore : ((Binder.fresh .blockHeight .anonymous "").cycles {}
      [heightCycle "1" false]).2.store = Store.empty.put
        (View.blockHeight.cacheKey SessionId.anonymous.text) (atHeight "1").stored := rfl
  have hother : some (atHeight "1") ≠ some (atHeight "2") := by decide
  rw [hbinder, hstore, Binder.Misses, (Binder.aware_eq rfl _).1, (Binder.aware_eq rfl _).2]
  refine ⟨atHeight "2", rfl, fun hshows => hother hshows.1, rfl, rfl, ?_⟩
  rw [show (Binder.fresh .blockHeight .anonymous "").view = View.blockHeight from rfl,
    show (Binder.fresh .blockHeight .anonymous "").session = SessionId.anonymous from rfl,
    Cache.found_put (v := .blockHeight) (s := atHeight "1") Store.empty .anonymous rfl]
  exact hother

/-- The server repeats the height "2", the store could be written, and the cache stays at "1". -/
theorem load_behind_lastRendered :
    (∀ x ∈ [heightCycle "1" false, heightCycle "2" true] ++ [heightCycle "2" false],
        x.Serves .blockHeight) ∧
      (heightCycle "2" false).finish.isStoreFull = false ∧
      (refusedRun.1.cycle (heightCycle "2" false) refusedRun.2).outcome = .unchanged ∧
      (refusedRun.1.cycle (heightCycle "2" false) refusedRun.2).binder.lastRendered =
        some (atHeight "2") ∧
      ((Cache.load refusedRun.1.access .anonymous .blockHeight).run
          (refusedRun.1.cycle (heightCycle "2" false) refusedRun.2).page).1 ≠
        some (atHeight "2") := by
  have hserves : ∀ x ∈ [heightCycle "1" false, heightCycle "2" true] ++ [heightCycle "2" false],
      x.Serves .blockHeight := by
    simp only [List.cons_append, List.nil_append, List.forall_mem_cons]
    refine ⟨?_, ?_, ?_, fun x hx => absurd hx List.not_mem_nil⟩ <;>
      exact Occasion.steady_serves ..
  have houtcome : (refusedRun.1.cycle (heightCycle "2" false) refusedRun.2).outcome = .unchanged :=
    rfl
  have hlast : (refusedRun.1.cycle (heightCycle "2" false) refusedRun.2).binder.lastRendered =
      some (atHeight "2") := rfl
  have hshown : (refusedRun.1.cycle (heightCycle "2" false) refusedRun.2).outcome ∈
      [Outcome.unchanged, .rendered, .terminal] := houtcome ▸ List.mem_cons_self
  have hmissed : (Binder.fresh .blockHeight .anonymous "").LastMissed {}
      [heightCycle "1" false, heightCycle "2" true] := by
    refine ⟨1, heightCycle "2" true, rfl, ?_, fun j x hj hx => ?_⟩
    · exact heightRun_misses
    · have hlength := (List.getElem?_eq_some_iff.mp hx).1
      simp only [List.length_cons, List.length_nil] at hlength
      omega
  refine ⟨hserves, rfl, houtcome, hlast, ?_⟩
  rw [← hlast]
  exact fun hload => (load_eq_lastRendered_iff .blockHeight .anonymous "" {} _ _ hserves rfl
    refusedRun.1 refusedRun.2 rfl hshown).mp hload ⟨rfl, hmissed⟩

end WalletPage
