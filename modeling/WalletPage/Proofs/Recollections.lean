import WalletPage.Proofs.Conclusions
import WalletPage.Proofs.PageEffects

/-! Attempts to paint from the cache, on a page under watch. An attempt reads the entry of its
view, and all that it changes comes from that entry, one change after the other up to one that
is refused. A cycle makes such an attempt before it asks, as long as nothing is known of its
view. -/

namespace WalletPage

variable {ρ σ : Type}

/-- An attempt shows the snapshot that the cache holds, if no change is refused. -/
theorem Recollection.eq_some {session : SessionId} {v : View} {raw : String} {calls : List Call}
    {shown : Option Snapshot} (h : Recollection session v (some raw) calls shown) {s : Snapshot}
    (hs : s.DecodedFrom raw v) (htaken : calls.any Call.isRefusal = false) : shown = some s := by
  cases h with
  | spoilt hraw => exact absurd hs (hraw s)
  | @tried _ s' ctx reads taken isWhole hs' hreads _ happlies =>
    rw [List.any_cons, List.any_append, any_isRefusal_of_reads hreads,
      happlies.any_isRefusal] at htaken
    obtain rfl : isWhole = true := by simpa [Call.isRefusal] using htaken
    rw [if_pos rfl, hs.unique hs']

/-! ### What is emitted -/

namespace Binder

/-- A binder after an attempt to paint from the cache. -/
def recalling (b : Binder ρ) (shown : Option Snapshot) : Binder ρ :=
  { b with anchorSeen := b.anchorSeen || shown.isSome, lastRendered := shown.or b.lastRendered }

@[simp] theorem recalling_none (b : Binder ρ) : b.recalling none = b := by
  simp [recalling]

variable [Host ρ σ]

/-- `b.Recollects w calls shown`: with those calls a binder attempts to paint from the cache of
the page `w`, if its view is of that kind and mounted. -/
inductive Recollects (b : Binder (Watcher ρ)) (w : σ) : List Call → Option Snapshot → Prop
  | leaves (h : b.view.hydrates = false ∨
      ((Host.anchorPresent b.access.access b.view.anchor).run w).1 = false) :
    Recollects b w [] none
  | tries {found : Option String} {calls : List Call} {shown : Option Snapshot}
    (hview : b.view.hydrates = true)
    (hfound : ((Host.get? b.access.access b.cacheKey).run
      ((Host.anchorPresent b.access.access b.view.anchor).run w).2).1 = found)
    (h : Recollection b.session b.view found calls shown) : Recollects b w calls shown

/-- `b.Prepares w calls shown`: with those calls a binder that has found its view mounted on the
page `w` gets ready to ask. It attempts to paint from the cache if it knows nothing yet. -/
inductive Prepares (b : Binder (Watcher ρ)) (w : σ) : List Call → Option Snapshot → Prop
  | knows (h : b.anchorSeen = true ∨ b.lastRendered ≠ none) : Prepares b w [] none
  | recalls {calls : List Call} {shown : Option Snapshot} (hseen : b.anchorSeen = false)
    (hlast : b.lastRendered = none)
    (h : b.Recollects ((Host.anchorPresent b.access.access b.view.anchor).run w).2 calls shown) :
    Prepares b w calls shown

end Binder

variable [Host ρ σ]

/-- Looking for an anchor is not recorded. -/
theorem run_anchorPresent (access : Watcher ρ) (target : Target) (w : Watched σ) :
    (Host.anchorPresent access target).run w =
      (((Host.anchorPresent access.access target).run w.world).1,
        ⟨((Host.anchorPresent access.access target).run w.world).2, w.calls⟩) :=
  rfl

/-- What is loaded is what the cache holds; an entry that is no snapshot of the view is dropped. -/
theorem load_calls (access : Watcher ρ) (session : SessionId) (v : View) (w : Watched σ)
    {found : Option String}
    (hfound : ((Host.get? access.access (v.cacheKey session.text)).run w.world).1 = found) :
    ∃ more, ((Cache.load access session v).run w).2.calls =
        w.calls ++ .read (v.cacheKey session.text) found :: more ∧
      match ((Cache.load access session v).run w).1 with
      | some s => more = [] ∧ ∃ raw, found = some raw ∧ s.DecodedFrom raw v
      | none =>
        Recollection session v found (.read (v.cacheKey session.text) found :: more) none := by
  have hget : (Host.get? access (v.cacheKey session.text)).run w = (found,
      ⟨((Host.get? access.access (v.cacheKey session.text)).run w.world).2,
        w.calls ++ [.read (v.cacheKey session.text) found]⟩) := by
    rw [← hfound]
    rfl
  unfold Cache.load Cache.drop
  rw [run_bind, hget]
  dsimp only
  cases found with
  | none => exact ⟨[], rfl, .absent⟩
  | some raw =>
    dsimp only
    cases hraw : Snapshot.ofStored raw with
    | error e =>
      exact ⟨_, List.append_assoc _ _ _, .spoilt fun s hs => nomatch hraw.symm.trans hs.1⟩
    | ok s =>
      dsimp only
      split
      · exact ⟨[], rfl, rfl, raw, rfl, hraw, ‹_›⟩
      · rename_i hview
        refine ⟨_, List.append_assoc _ _ _, .spoilt fun s' hs => ?_⟩
        obtain rfl : s = s' := Except.ok.inj (hraw.symm.trans hs.1)
        exact hview hs.2

namespace Binder

theorem hydrate_recollects (b : Binder (Watcher ρ)) (w : Watched σ) :
    ∃ new shown, (b.hydrate.run w).2.calls = w.calls ++ new ∧
      (b.hydrate.run w).1.1 = b.recalling shown ∧ b.Recollects w.world new shown := by
  unfold hydrate
  cases hview : b.view.hydrates with
  | false => exact ⟨[], none, (List.append_nil _).symm, b.recalling_none.symm, .leaves (.inl hview)⟩
  | true =>
    rw [if_pos rfl, run_bind, run_anchorPresent]
    dsimp only
    cases hpresent : ((Host.anchorPresent b.access.access b.view.anchor).run w.world).1 with
    | false =>
      exact ⟨[], none, (List.append_nil _).symm, b.recalling_none.symm, .leaves (.inr hpresent)⟩
    | true =>
      obtain ⟨found, hget⟩ : ∃ found, ((Host.get? b.access.access b.cacheKey).run
          ((Host.anchorPresent b.access.access b.view.anchor).run w.world).2).1 = found := ⟨_, rfl⟩
      obtain ⟨more, hcalls, hfound⟩ := load_calls b.access b.session b.view
        ⟨((Host.anchorPresent b.access.access b.view.anchor).run w.world).2, w.calls⟩ hget
      rw [if_pos rfl, run_bind]
      generalize (Cache.load b.access b.session b.view).run _ = loaded at hcalls hfound
      obtain ⟨found?, w₁⟩ := loaded
      cases found? with
      | none => exact ⟨_, none, hcalls, b.recalling_none.symm, .tries hview hget hfound⟩
      | some cached =>
        obtain ⟨rfl, raw, rfl, hs⟩ := hfound
        obtain ⟨new, hnew, reads, ctx, taken, rfl, hreads, hctx, happlies⟩ :=
          emits_paint b cached w₁
        dsimp only at hcalls ⊢
        rw [run_bind]
        generalize (b.paint cached).run w₁ = painted at hnew happlies
        obtain ⟨result, w₂⟩ := painted
        dsimp only at hnew happlies
        rw [hcalls, List.append_assoc] at hnew
        cases result with
        | ok count =>
          refine ⟨_, some cached, hnew, ?_, .tries hview hget (.tried hs hreads hctx happlies)⟩
          rw [recalling, Option.isSome_some, Bool.or_true, Option.some_or]
          rfl
        | error p =>
          exact ⟨_, none, hnew, b.recalling_none.symm,
            .tries hview hget (.tried hs hreads hctx happlies)⟩

/-- The first half of a cycle leaves a view alone that is not mounted. Otherwise it gets ready, and
then it asks. -/
theorem begin_prepares (b : Binder (Watcher ρ)) (page : Option PageNumber) (w : Watched σ) :
    ∃ new, ((b.begin page).run w).2.calls = w.calls ++ new ∧
      match ((b.begin page).run w).1.2 with
      | .ended _ => new = [] ∧ ((b.begin page).run w).1.1 = b
      | .asked reply => ∃ first shown, new = first ++ [.asked (b.request page) reply] ∧
          ((b.begin page).run w).1.1 = { b.recalling shown with anchorSeen := true } ∧
          b.Prepares w.world first shown := by
  unfold begin
  rw [run_bind, run_anchorPresent]
  dsimp only
  cases hpresent : ((Host.anchorPresent b.access.access b.view.anchor).run w.world).1 with
  | false =>
    rw [if_neg Bool.false_ne_true, run_bind]
    exact ⟨[], (List.append_nil _).symm, rfl, rfl⟩
  | true =>
    rw [if_pos rfl]
    cases hnew : !b.anchorSeen && b.lastRendered.isNone with
    | true =>
      rw [if_pos rfl, run_bind]
      rw [Bool.and_eq_true, Bool.not_eq_true', Option.isNone_iff_eq_none] at hnew
      obtain ⟨first, shown, hcalls, hb, hrecollects⟩ := b.hydrate_recollects
        ⟨((Host.anchorPresent b.access.access b.view.anchor).run w.world).2, w.calls⟩
      generalize b.hydrate.run _ = hydrated at hcalls hb ⊢
      obtain ⟨⟨b₁, painted⟩, w₁⟩ := hydrated
      dsimp only at hcalls hb
      subst hb
      refine ⟨_, ?_, first, shown, rfl, rfl, .recalls hnew.1 hnew.2 hrecollects⟩
      rw [← List.append_assoc, ← hcalls]
      rfl
    | false =>
      rw [if_neg Bool.false_ne_true, pure_bind, run_bind]
      rw [Bool.and_eq_false_iff, Bool.not_eq_false', ← Bool.not_eq_true,
        Option.isNone_iff_eq_none] at hnew
      exact ⟨_, rfl, [], none, rfl, by rw [recalling_none]; rfl, .knows hnew⟩

/-- A cycle that asks has got ready before. -/
theorem asked_prepares {b b' : Binder (Watcher ρ)} {page : Option PageNumber} {w w' : Watched σ}
    {reply : Reply (Fallible (Option Snapshot))}
    (hbegin : (b.begin page).run w = ((b', .asked reply), w')) :
    ∃ first shown, w'.calls = w.calls ++ (first ++ [.asked (b.request page) reply]) ∧
      b' = { b.recalling shown with anchorSeen := true } ∧ b.Prepares w.world first shown := by
  obtain ⟨new, hcalls, hbegun⟩ := b.begin_prepares page w
  rw [hbegin] at hcalls hbegun
  obtain ⟨first, shown, rfl, hb, hprepares⟩ := hbegun
  exact ⟨first, shown, hcalls, hb, hprepares⟩

/-- A binder that knows nothing yet attempts to paint what the cache holds, if its view is of
that kind and looking for the anchor finds it and changes nothing. -/
theorem Prepares.recollection {b : Binder (Watcher ρ)} {w : σ} {calls : List Call}
    {shown : Option Snapshot} (h : b.Prepares w calls shown) (hseen : b.anchorSeen = false)
    (hlast : b.lastRendered = none) (hview : b.view.hydrates = true)
    (hlook : (Host.anchorPresent b.access.access b.view.anchor).run w = (true, w)) :
    Recollection b.session b.view ((Host.get? b.access.access b.cacheKey).run w).1 calls shown := by
  cases h with
  | knows h =>
    rcases h with hknown | hknown
    · exact absurd (hseen.symm.trans hknown) Bool.false_ne_true
    · exact absurd hlast hknown
  | recalls _ _ h =>
    rw [hlook] at h
    cases h with
    | leaves h =>
      rcases h with hother | habsent
      · exact absurd (hother.symm.trans hview) Bool.false_ne_true
      · rw [hlook] at habsent
        contradiction
    | tries _ hfound h =>
      rw [hlook] at hfound
      rwa [hfound]

/-! ### What is painted and dropped -/

variable {b : Binder (Watcher ρ)} {w : σ} {calls : List Call} {shown : Option Snapshot}

theorem Recollects.recalls (h : b.Recollects w calls shown) : ∀ c ∈ calls, b.Recalls calls c := by
  cases h with
  | leaves => exact List.forall_mem_nil _
  | tries _ _ h => exact h.recalls

theorem Prepares.opens (h : b.Prepares w calls shown) :
    b.Opens { b.recalling shown with anchorSeen := true } calls := by
  have hstraight : b.Opens { b.recalling none with anchorSeen := true } [] := by
    rw [recalling_none]
    exact .straight
  cases h with
  | knows => exact hstraight
  | recalls hseen hlast h =>
    cases h with
    | leaves => exact hstraight
    | tries hview _ h =>
      have hshown : ({ b.recalling shown with anchorSeen := true } : Binder (Watcher ρ)) =
          { b with anchorSeen := true, lastRendered := shown } := by
        rw [recalling, hlast, Option.or_none]
      rw [hshown]
      exact .recalls hseen hlast hview h

end Binder

/-- The first half of a cycle leaves a view alone that is not mounted, and asks otherwise. -/
theorem emits_begin (b : Binder (Watcher ρ)) (page : Option PageNumber) :
    Emits (σ := σ) (b.begin page) fun x new =>
      match x.2 with
      | .ended _ => new = [] ∧ x.1 = b
      | .asked reply => ∃ first, new = first ++ [.asked (b.request page) reply] ∧
          b.Opens x.1 first := by
  intro w
  obtain ⟨new, hcalls, hbegun⟩ := b.begin_prepares page w
  refine ⟨new, hcalls, ?_⟩
  generalize ((b.begin page).run w).1 = x at hbegun ⊢
  obtain ⟨b', begun⟩ := x
  cases begun with
  | ended outcome => exact hbegun
  | asked reply =>
    obtain ⟨first, shown, hnew, rfl, hprepares⟩ := hbegun
    exact ⟨first, hnew, hprepares.opens⟩

end WalletPage
