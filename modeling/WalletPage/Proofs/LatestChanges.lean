import WalletPage.Proofs.Paintings
import Mathlib.Data.List.Nodup

/-! What the elements of a view show last. All snapshots of a view make their changes in the
same places and in the same order, so what counts of a painting that was cut short is how far
it came. A binder compares an answer with the last whole painting: it takes a snapshot that
comes back for shown although another one was painted over a part of it. -/

namespace WalletPage

/-! ### Places -/

/-- What a change sets of an element. -/
inductive Aspect where
  | content
  | classes
  | value
deriving DecidableEq, Repr

/-- What a change sets. -/
def Change.aspect : Change → Aspect
  | .html _ => .content
  | .className _ => .classes
  | .value _ => .value

/-- Where a change is made. -/
structure Place where
  target : Target
  aspect : Aspect
deriving DecidableEq, Repr

/-- The place of a change. -/
def Update.place (u : Update) : Place :=
  ⟨u.target, u.change.aspect⟩

/-- The places that a view paints, in their order. -/
def View.places : View → List Place
  | .balance => [⟨.byClass "confirmed", .content⟩, ⟨.byClass "unconfirmed", .content⟩,
      ⟨.byClass "spf_funds", .content⟩, ⟨.byClass "spf_b_funds", .content⟩,
      ⟨.id "whale_size", .content⟩, ⟨.id "whale_size_button", .value⟩]
  | .blockHeight => [⟨.byClass "block_height", .content⟩, ⟨.byClass "status", .content⟩,
      ⟨.byClass "status", .classes⟩]
  | .txHistory => [⟨txHistoryLines, .content⟩, ⟨txHistoryPageCount, .content⟩,
      ⟨txHistoryPages, .content⟩]
  | v => [⟨v.anchor, .content⟩]

theorem View.places_nodup (v : View) : v.places.Nodup := by
  cases v <;> decide

/-- Every snapshot of a view makes one change in each place of it, in their order. -/
theorem Snapshot.map_place_updates {s : Snapshot} {v : View} (hs : s.matchesView v = true)
    (ctx : RenderContext) : (s.updates v ctx).map (·.place) = v.places := by
  cases s with
  | balance data =>
    obtain rfl : v = .balance := by simpa [matchesView] using hs
    rfl
  | blockHeight data =>
    obtain rfl : v = .blockHeight := by simpa [matchesView] using hs
    rfl
  | txHistory page =>
    obtain rfl : v = .txHistory := by simpa [matchesView] using hs
    rfl
  | progress data =>
    cases v with
    | bootstrapperProgress | consensusBuilderProgress => rfl
    | balance | blockHeight | txHistory => contradiction

/-! ### How far a painting comes -/

namespace Painting

/-- Whether a painting has made a change in a place. -/
def reaches (x : Painting) (place : Place) : Bool :=
  place ∈ x.changes.map (·.place)

/-- Whether the changes of a painting are the beginning of those of the view, and all of
them if nothing failed. -/
structure Fits (x : Painting) (v : View) : Prop where
  places : x.changes.map (·.place) <+: v.places
  whole (h : x.isWhole = true) : x.changes.map (·.place) = v.places

/-- A painting reaches the places that it comes as far as. -/
theorem Fits.reaches_iff {x : Painting} {v : View} (h : x.Fits v) {i : ℕ}
    (hi : i < v.places.length) : x.reaches v.places[i] = true ↔ i < x.changes.length := by
  have htake := List.prefix_iff_eq_take.mp h.places
  rw [List.length_map] at htake
  rw [reaches, decide_eq_true_eq, htake, List.mem_take_iff_getElem]
  constructor
  · rintro ⟨j, hj, hplace⟩
    rw [v.places_nodup.getElem_inj_iff] at hplace
    omega
  · exact fun hx => ⟨i, by omega, rfl⟩

/-- A painting in which nothing failed has reached all places. -/
theorem Fits.reaches_of_whole {x : Painting} {v : View} (h : x.Fits v)
    (hwhole : x.isWhole = true) {place : Place} (hplace : place ∈ v.places) :
    x.reaches place = true := by
  rw [reaches, decide_eq_true_eq, h.whole hwhole]
  exact hplace

theorem Fits.length_le {x : Painting} {v : View} (h : x.Fits v) :
    x.changes.length ≤ v.places.length := by
  simpa using h.places.length_le

end Painting

/-- Whether a snapshot is what the view shows in all its places: the last change in each was
painted for it. -/
def Snapshot.IsLatest (s : Snapshot) (v : View) (paintings : List Painting) : Prop :=
  ∀ place ∈ v.places, lastOf? (·.reaches place) paintings = some s

/-- Whether a painting of another snapshot came further than all paintings of the snapshot
after it. -/
def Snapshot.IsOutdone (s : Snapshot) (paintings : List Painting) : Prop :=
  ∃ before x after, paintings = before ++ x :: after ∧ x.snapshot ≠ s ∧ x.changes ≠ [] ∧
    ∀ y ∈ after, y.snapshot = s → y.changes.length < x.changes.length

/-- Once a snapshot was painted to the end, the view shows it in all its places exactly if no
painting of another snapshot has outdone it. -/
theorem Snapshot.isLatest_iff {s : Snapshot} {v : View} {paintings : List Painting}
    (hfits : ∀ x ∈ paintings, x.Fits v) (hwhole : ∃ x ∈ paintings, x.isWhole = true) :
    s.IsLatest v paintings ↔ ¬ s.IsOutdone paintings := by
  constructor
  · rintro hlatest ⟨before, x, after, rfl, hother, hne, hafter⟩
    have hxfits := hfits x (by simp)
    have hpos := List.length_pos_iff.mpr hne
    -- the last place that `x` has reached
    have hi : x.changes.length - 1 < v.places.length := by
      have := hxfits.length_le
      omega
    have hreaches := (hxfits.reaches_iff hi).mpr (by omega)
    have hplace := hlatest _ (List.getElem_mem hi)
    rw [lastOf?_split hreaches] at hplace
    rcases Option.or_eq_some_iff.mp hplace with hlast | ⟨-, hx⟩
    · obtain ⟨y, hy, hyreaches, hys⟩ := mem_of_lastOf? hlast
      have hyfits := hfits y (by simp [hy])
      have hyfar := (hyfits.reaches_iff hi).mp hyreaches
      have := hafter y hy hys
      omega
    · exact hother (Option.some.inj hx)
  · intro houtdone place hplace
    obtain ⟨i, hi, rfl⟩ := List.getElem_of_mem hplace
    obtain ⟨w, hw, hwwhole⟩ := hwhole
    have hwreaches := (hfits w hw).reaches_of_whole hwwhole (List.getElem_mem hi)
    obtain ⟨before, x, after, rfl, hreaches, hafter, hlast⟩ :=
      @exists_lastOf? (·.reaches v.places[i]) _ ⟨w, hw, hwreaches⟩
    rw [hlast, Option.some.injEq]
    by_contra hother
    have hfar := ((hfits x (by simp)).reaches_iff hi).mp hreaches
    refine houtdone ⟨before, x, after, rfl, hother, ?_, fun y hy _ => ?_⟩
    · exact List.length_pos_iff.mp (by omega)
    · have hyfits := hfits y (by simp [hy])
      have hynear := mt (hyfits.reaches_iff hi).mpr (by simp [hafter y hy])
      omega

/-- A snapshot is shown in all places when the last painting is of it and nothing failed. -/
theorem Snapshot.isLatest_concat {x : Painting} {v : View} (h : x.Fits v)
    (hwhole : x.isWhole = true) (paintings : List Painting) :
    x.snapshot.IsLatest v (paintings ++ [x]) := by
  intro place hplace
  rw [lastOf?_split (h.reaches_of_whole hwhole hplace)]
  rfl

/-! ### Paintings where the elements are mounted -/

/-- Whether the elements of a view are mounted whenever the binder finds the page. Any target
may fail at any time. -/
def Doing.Mounts (v : View) : Doing → Prop
  | .hydrate x _ => x.Mounts v
  | .ask o _ => o.start.Mounts v
  | .cycle o _ _ => o.start.Mounts v ∧ o.finish.Mounts v

namespace Binder

theorem painting_fits {b : Binder PageAccess} {x : Surroundings} {p : Page} {s : Snapshot}
    (hmounts : x.Mounts b.view) (hp : p = p.within x) (hs : s.matchesView b.view = true) :
    (b.painting p s).Fits b.view := by
  have hmeets := rendering_meets hmounts hp hs
  have hplaces : (b.rendering p.store p.cacheBuster s).map (·.place) = b.view.places :=
    Snapshot.map_place_updates hs _
  constructor
  · rw [← hplaces]
    refine List.IsPrefix.map _ ?_
    rw [painting, Page.applied, List.filter_eq_self.mpr]
    · exact List.takeWhile_prefix _
    · exact fun u hu => hmeets u ((List.takeWhile_prefix _).subset hu)
  · intro hwhole
    rw [painting_whole (isWhole_painting.mp hwhole), ← hplaces, List.filter_eq_self.mpr hmeets]

theorem recollection_fits {b : Binder PageAccess} {x : Surroundings} {p : Page}
    (hmounts : x.Mounts b.view) (hp : p = p.within x) :
    ∀ y ∈ b.recollection p, y.Fits b.view := by
  intro y hy
  unfold recollection at hy
  split at hy
  · obtain ⟨s, hs, rfl⟩ := List.mem_map.mp hy
    exact painting_fits hmounts hp (Cache.matchesView_of_found (Option.mem_toList.mp hs))
  · exact absurd hy List.not_mem_nil

theorem opening_fits {b : Binder PageAccess} {x : Surroundings} {p : Page}
    (hmounts : x.Mounts b.view) (hp : p = p.within x) :
    ∀ y ∈ b.opening p, y.Fits b.view := by
  intro y hy
  unfold opening at hy
  split at hy
  · exact recollection_fits hmounts hp y hy
  · exact absurd hy List.not_mem_nil

theorem response_fits {b : Binder PageAccess} {x : Surroundings} {p : Page}
    (hmounts : x.Mounts b.view) (hp : p = p.within x) (answer : Fallible (Option Snapshot)) :
    ∀ y ∈ b.response p answer, y.Fits b.view := by
  intro y hy
  unfold response at hy
  split at hy
  · split at hy
    · rename_i s hs
      rw [List.mem_singleton.mp hy]
      exact painting_fits hmounts hp hs.1
    · exact absurd hy List.not_mem_nil
  · exact absurd hy List.not_mem_nil

/-- Whatever happens to a binder, each painting makes a beginning of the changes of its view. -/
theorem after_fits {b : Binder PageAccess} {d : Doing} (hmounts : d.Mounts b.view) (p : Page) :
    ∀ y ∈ (b.after p d).paintings, y.Fits b.view := by
  cases d with
  | hydrate x store => exact recollection_fits hmounts rfl
  | ask o store => exact opening_fits hmounts rfl
  | cycle o store later =>
    obtain ⟨hstart, hfinish⟩ := hmounts
    obtain ⟨b', reply, q, hasked, hbegun⟩ := asking_mounted hstart.anchor store p
    have hview : b'.view = b.view := hbegun.kin.view
    intro y hy
    rw [after, (round_of_asked hasked later).2] at hy
    rcases List.mem_append.mp hy with hy | hy
    · exact opening_fits hstart rfl y hy
    · rw [← hview] at hfinish ⊢
      exact response_fits hfinish rfl _ y hy

theorem afterAll_fits {b : Binder PageAccess} {ds : List Doing}
    (hmounts : ∀ d ∈ ds, d.Mounts b.view) (p : Page) :
    ∀ y ∈ (b.afterAll p ds).paintings, y.Fits b.view := by
  induction ds generalizing b p with
  | nil => exact fun y hy => absurd hy List.not_mem_nil
  | cons d rest ih =>
    obtain ⟨hd, hrest⟩ := List.forall_mem_cons.mp hmounts
    have hview : (b.after p d).binder.view = b.view := (b.after_accounts p d).kin.view
    intro y hy
    rcases List.mem_append.mp hy with hy | hy
    · exact after_fits hd p y hy
    · rw [← hview] at hrest ⊢
      exact ih hrest _ y hy

/-! ### Cycles that succeed -/

/-- A cycle that succeeds with a snapshot remembers it; one that was no repetition has painted
it to the end. -/
theorem round_success {b : Binder PageAccess} {o : Occasion} {s : Snapshot}
    (hmounted : (o.start.mounted.lookup b.view.anchor).isSome)
    (haccepted : o.accepted? b.view = some s) (store later : Store) (p : Page)
    (houtcome : (b.round o store later p).outcome ∈ [.unchanged, .rendered, .terminal]) :
    (b.round o store later p).binder.lastRendered = some s ∧
      ((b.round o store later p).outcome = .rendered →
        ∃ before x, b.paintings o store later p = before ++ [x] ∧ x.snapshot = s ∧
          x.isWhole = true) := by
  obtain ⟨b', reply, q, hasked, -⟩ := asking_mounted hmounted store p
  obtain ⟨hround, hpaintings⟩ := round_of_asked hasked later
  obtain ⟨ds, store', hfinished, -⟩ := b'.finish_run o.answer (q.found o.finish later)
  rw [hround] at houtcome ⊢
  rw [hpaintings]
  dsimp only at houtcome ⊢
  generalize ((b'.finish o.answer).run (q.found o.finish later)).1 = ended at *
  obtain ⟨b'', outcome⟩ := ended
  dsimp only at *
  rw [o.answer_of_accepted haccepted] at hfinished ⊢
  cases hfinished with
  | foreign _ => simp at houtcome
  | unchanged _ _ =>
    refine ⟨rfl, fun hrendered => ?_⟩
    unfold success at hrendered
    split at hrendered <;> contradiction
  | refused _ _ _ => simp at houtcome
  | rendered hview hnew hpaint =>
    have hresponse : b'.response (q.found o.finish later) (.ok (some s)) =
        [b'.painting (q.found o.finish later) s] := if_pos ⟨hview, hnew⟩
    rw [hresponse]
    exact ⟨rfl, fun _ => ⟨_, _, rfl, rfl, isWhole_painting.mpr hpaint⟩⟩

end Binder

/-- Let the elements of a view stay mounted while any targets fail in any cycles. After a cycle
that succeeds with a snapshot, the view shows that snapshot in all its places exactly if no
painting of another snapshot has come further than all paintings of the snapshot after it. A
cycle that has painted its answer leaves it so in any case. -/
theorem isLatest_fetched_iff (v : View) (session : SessionId) (baseUrl : String) (p : Page)
    (ds : List Doing) (hds : ∀ d ∈ ds, d.Mounts v) (o : Occasion) (store later : Store)
    (ho : (Doing.cycle o store later).Mounts v) (s : Snapshot)
    (haccepted : o.accepted? v = some s) (start done : Done)
    (hstart : (Binder.fresh v session baseUrl).afterAll p ds = start)
    (hdone : (Binder.fresh v session baseUrl).afterAll p (ds ++ [.cycle o store later]) = done)
    (houtcome : (start.binder.round o store later start.page).outcome ∈
      [.unchanged, .rendered, .terminal]) :
    done.page.updates = p.updates ++ done.paintings.flatMap (·.changes) ∧
      (s.IsLatest v done.paintings ↔ ¬ s.IsOutdone done.paintings) ∧
      ((start.binder.round o store later start.page).outcome = .rendered →
        s.IsLatest v done.paintings) := by
  have hview : start.binder.view = v := by
    rw [← hstart]
    exact ((Binder.fresh v session baseUrl).afterAll_accounts p ds).kin.view
  have haccounts := (Binder.fresh v session baseUrl).afterAll_accounts p
    (ds ++ [.cycle o store later])
  have hmounts : ∀ d ∈ ds ++ [Doing.cycle o store later], d.Mounts v := by
    simpa only [List.forall_mem_append, List.forall_mem_singleton] using ⟨hds, ho⟩
  have hfits : ∀ x ∈ done.paintings, x.Fits v :=
    hdone ▸ Binder.afterAll_fits (b := Binder.fresh v session baseUrl) hmounts p
  have hlast := Binder.fresh_lastRendered v session baseUrl p (ds ++ [.cycle o store later])
  have hrun := (Binder.fresh v session baseUrl).afterAll_concat p ds (.cycle o store later)
  rw [hstart, hdone] at hrun
  rw [hdone] at haccounts hlast
  obtain ⟨hshown, hrendered⟩ := Binder.round_success (hview ▸ ho.1.anchor) (hview ▸ haccepted)
    store later start.page houtcome
  have hbinder : done.binder = (start.binder.round o store later start.page).binder := by
    rw [hrun]
    rfl
  rw [hbinder, hshown] at hlast
  obtain ⟨x, hx, hwhole, -⟩ := mem_of_lastOf? hlast.symm
  have hiff := s.isLatest_iff hfits ⟨x, hx, hwhole⟩
  refine ⟨haccounts.updates, hiff, fun h => ?_⟩
  obtain ⟨before, y, hpaintings, rfl, hywhole⟩ := hrendered h
  have hsplit : done.paintings = (start.paintings ++ before) ++ [y] := by
    rw [hrun, List.append_assoc, ← hpaintings]
    rfl
  rw [hsplit]
  exact Snapshot.isLatest_concat (hfits y (by simp [hsplit])) hywhole _

/-- A height of a chain that is being scanned. -/
def scannedHeight (height : String) : Snapshot :=
  .blockHeight ⟨height, "Scanning", "yellow"⟩

/-- A cycle that is answered with such a height. -/
def scannedHeightCycle (height : String) (failing : Option Target) : Occasion where
  start := { mounted := (Page.elementsOf .blockHeight).map (·, 1) }
  answer := .ok (some (scannedHeight height))
  finish := { mounted := (Page.elementsOf .blockHeight).map (·, 1), failing := failing }

/-- The store with the first of the heights. -/
def firstHeightStore : Store :=
  Store.empty.put (View.blockHeight.cacheKey SessionId.anonymous.text) (scannedHeight "1").stored

/-- The height "1" is painted, and then "2" up to the status, which fails. -/
def failedStatusCycles : List Doing :=
  [.cycle (scannedHeightCycle "1" none) .empty .empty,
    .cycle (scannedHeightCycle "2" (some (.byClass "status"))) firstHeightStore firstHeightStore]

/-- The height "1" comes back. -/
def returningCycle : Doing :=
  .cycle (scannedHeightCycle "1" none) firstHeightStore firstHeightStore

/-- What is there after the failure. -/
def failedStatusRun : Done :=
  (Binder.fresh .blockHeight .anonymous "").afterAll {} failedStatusCycles

/-- What is there after the height "1" has come back. -/
def returningRun : Done :=
  (Binder.fresh .blockHeight .anonymous "").afterAll {} (failedStatusCycles ++ [returningCycle])

theorem scannedHeightCycle_mounts (height : String) (failing : Option Target)
    (store later : Store) :
    (Doing.cycle (scannedHeightCycle height failing) store later).Mounts .blockHeight := by
  have hmounted : ∀ t ∈ Page.elementsOf .blockHeight,
      0 < (((Page.elementsOf .blockHeight).map (·, 1)).lookup t).getD 0 := by
    decide
  exact ⟨hmounted, hmounted⟩

theorem returningRun_outdone : (scannedHeight "1").IsOutdone returningRun.paintings := by
  have hpaintings : ∃ x y, returningRun.paintings = [x, y] ∧ y.snapshot = scannedHeight "2" ∧
      y.changes ≠ [] := ⟨_, _, rfl, rfl, by decide⟩
  obtain ⟨x, y, hxy, hsnapshot, hchanges⟩ := hpaintings
  refine ⟨[x], y, [], hxy, ?_, hchanges, fun z hz => absurd hz List.not_mem_nil⟩
  rw [hsnapshot]
  decide

/-- The cycle with the returning height ends unchanged, and the page still shows the "2". -/
theorem mixed_after_unchanged :
    (∀ d ∈ failedStatusCycles, d.Mounts .blockHeight) ∧ returningCycle.Mounts .blockHeight ∧
      (scannedHeightCycle "1" none).accepted? .blockHeight = some (scannedHeight "1") ∧
      (failedStatusRun.binder.round (scannedHeightCycle "1" none) firstHeightStore
        firstHeightStore failedStatusRun.page).outcome = .unchanged ∧
      ¬ (scannedHeight "1").IsLatest .blockHeight returningRun.paintings := by
  have hds : ∀ d ∈ failedStatusCycles, d.Mounts .blockHeight := by
    simp only [failedStatusCycles, List.forall_mem_cons]
    exact ⟨scannedHeightCycle_mounts .., scannedHeightCycle_mounts ..,
      fun d hd => absurd hd List.not_mem_nil⟩
  have houtcome : (failedStatusRun.binder.round (scannedHeightCycle "1" none) firstHeightStore
      firstHeightStore failedStatusRun.page).outcome = .unchanged := rfl
  have hiff := (isLatest_fetched_iff .blockHeight .anonymous "" {} failedStatusCycles hds
    (scannedHeightCycle "1" none) firstHeightStore firstHeightStore
    (scannedHeightCycle_mounts ..) (scannedHeight "1") rfl failedStatusRun returningRun rfl rfl
    (houtcome ▸ List.mem_cons_self)).2.1
  exact ⟨hds, scannedHeightCycle_mounts .., rfl, houtcome,
    fun h => hiff.mp h returningRun_outdone⟩

end WalletPage
