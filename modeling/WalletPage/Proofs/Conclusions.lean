import WalletPage.Proofs.Watched

/-! How a cycle comes to its end on a page under watch. What an answer leads to depends on
the binder, on the answer, and on one thing more: whether a change of the page was refused.
The transition form is submitted with the first snapshot that ends its view, and never
again. -/

namespace WalletPage

variable {ρ σ : Type}

/-- Whether a call is a change of the page that was refused. -/
def Call.isRefusal : Call → Bool
  | .applied _ (.error _) => true
  | _ => false

/-- The form that a call submits. -/
def Call.form? : Call → Option String
  | .submitted form _ => some form
  | _ => none

/-- The forms that are submitted in some calls, in order. -/
def formsOf (calls : List Call) : List String :=
  calls.filterMap Call.form?

theorem formsOf_append (calls more : List Call) :
    formsOf (calls ++ more) = formsOf calls ++ formsOf more :=
  List.filterMap_append

theorem formsOf_eq_nil {calls : List Call} (h : ∀ c ∈ calls, c.form? = none) :
    formsOf calls = [] :=
  List.filterMap_eq_nil_iff.mpr h

/-- A view that a snapshot ends has a transition form. -/
theorem Snapshot.transitionForm?_isSome {s : Snapshot} {v : View} (hs : s.matchesView v = true)
    (hend : s.isTerminal = true) : v.transitionForm?.isSome = true := by
  cases s with
  | balance => contradiction
  | txHistory => contradiction
  | blockHeight =>
    obtain rfl : v = .blockHeight := of_decide_eq_true hs
    rfl
  | progress =>
    have hprogress : v.isProgress = true := hs
    revert hprogress
    cases v <;> decide

namespace Binder

/-- Whether a snapshot makes a binder submit the form of its view. -/
def transits (b : Binder ρ) (s : Snapshot) : Bool :=
  s.isTerminal && !b.transitioned

/-- The forms that a binder submits with a snapshot. -/
def formsFor (b : Binder ρ) (s : Snapshot) : List String :=
  if b.transits s then b.view.transitionForm?.toList else []

/-- A binder whose view shows a snapshot. -/
def showing (b : Binder ρ) (s : Snapshot) : Binder ρ :=
  { b with lastRendered := some s, transitioned := b.transitioned || s.isTerminal }

/-- How a cycle ends whose snapshot is shown. -/
def shownOutcome (b : Binder ρ) (s : Snapshot) (changed : Bool) : Outcome :=
  if b.transits s then .terminal else if changed then .rendered else .unchanged

/-- `b.Concludes answer b' outcome calls`: with that answer a cycle ends with `outcome`, after
some calls, and leaves `b'`. -/
inductive Concludes (b : Binder ρ) :
    Fallible (Option Snapshot) → Binder ρ → Outcome → List Call → Prop
  | failed (e : Problem) : Concludes b (.error e) b .failed []
  | empty : Concludes b (.ok none) b .empty []
  | foreign {s : Snapshot} (hs : s.matchesView b.view = false) :
    Concludes b (.ok (some s)) b .failed []
  | refused {s : Snapshot} {calls : List Call} (hs : s.matchesView b.view = true)
    (hrefused : calls.any Call.isRefusal = true) (hforms : formsOf calls = []) :
    Concludes b (.ok (some s)) b .failed calls
  | shown {s : Snapshot} {calls : List Call} (changed : Bool) (hs : s.matchesView b.view = true)
    (htaken : calls.any Call.isRefusal = false) (hforms : formsOf calls = b.formsFor s) :
    Concludes b (.ok (some s)) (b.showing s) (b.shownOutcome s changed) calls

end Binder

/-! ### Calls without a form -/

/-- Two things that are said of the same calls. -/
theorem Emits.and {α : Type} {m : StateM (Watched σ) α} {P Q : α → List Call → Prop}
    (hm : Emits m P) (hm' : Emits m Q) : Emits m fun a new => P a new ∧ Q a new := by
  intro w
  obtain ⟨new, hnew, hp⟩ := hm w
  obtain ⟨new', hnew', hq⟩ := hm' w
  obtain rfl : new = new' := List.append_cancel_left (hnew.symm.trans hnew')
  exact ⟨new, hnew, hp, hq⟩

/-- Changes are made to the end if and only if none is refused. -/
theorem Applies.any_isRefusal {us : List Update} {calls : List Call} {isWhole : Bool}
    (h : Applies us calls isWhole) : calls.any Call.isRefusal = !isWhole := by
  induction h with
  | done => rfl
  | taken count _ ih => exact ih
  | refused p => rfl

theorem any_isRefusal_of_reads {calls : List Call}
    (h : ∀ c ∈ calls, ∃ key found, c = .read key found) : calls.any Call.isRefusal = false := by
  rw [List.any_eq_false]
  intro c hc
  obtain ⟨key, found, rfl⟩ := h c hc
  exact Bool.false_ne_true

variable [Host ρ σ]

/-- A painting submits nothing, and fails if and only if one of its changes is refused. -/
theorem emits_paint_result (b : Binder (Watcher ρ)) (s : Snapshot) :
    Emits (σ := σ) (b.paint s) fun result new =>
      new.any Call.isRefusal = !result.isOk ∧ formsOf new = [] := by
  refine (emits_paint b s).mono fun result new hnew => ?_
  obtain ⟨reads, ctx, taken, rfl, hreads, -, happlies⟩ := hnew
  refine ⟨?_, formsOf_eq_nil fun c hc => ?_⟩
  · rw [List.any_append, any_isRefusal_of_reads hreads, happlies.any_isRefusal, Bool.false_or]
  · rcases List.mem_append.mp hc with hc | hc
    · obtain ⟨key, found, rfl⟩ := hreads c hc
      rfl
    · obtain ⟨u, -, result, rfl⟩ := happlies.eq_applied c hc
      rfl

theorem emits_keepPainted_result (b : Binder (Watcher ρ)) (s : Snapshot) :
    Emits (σ := σ) (b.keepPainted s) fun _ new =>
      new.any Call.isRefusal = false ∧ formsOf new = [] := by
  refine (emits_keepPainted b s).mono fun _ new hnew => ⟨?_, formsOf_eq_nil fun c hc => ?_⟩
  · rw [List.any_eq_false]
    intro c hc
    obtain ⟨-, result, rfl⟩ := hnew c hc
    exact Bool.false_ne_true
  · obtain ⟨-, result, rfl⟩ := hnew c hc
    rfl

/-! ### The end of a cycle -/

theorem emits_fireTransition_result (b : Binder (Watcher ρ)) {form : String}
    (hform : b.view.transitionForm? = some form) :
    Emits (σ := σ) b.fireTransition fun x new =>
      x = ({ b with transitioned := true }, !b.transitioned) ∧
        new.any Call.isRefusal = false ∧
        formsOf new = if b.transitioned then [] else [form] := by
  unfold Binder.fireTransition
  rw [hform]
  dsimp only
  cases hfired : b.transitioned with
  | true => exact .pure ⟨Prod.ext (by rw [← hfired]) rfl, rfl, rfl⟩
  | false =>
    rw [if_neg Bool.false_ne_true]
    refine Emits.bind (P := fun present new => new = [.submitted form present])
      (Emits.noted fun _ => rfl) fun present first hfirst => ?_
    subst hfirst
    split
    · exact Emits.silent (emits_tell _ _ _) fun _ => .pure ⟨rfl, rfl, rfl⟩
    · exact Emits.silent (emits_tell _ _ _) fun _ => .pure ⟨rfl, rfl, rfl⟩

theorem emits_conclude_result (b : Binder (Watcher ρ)) {s : Snapshot}
    (hs : s.matchesView b.view = true) (changed : Bool) :
    Emits (σ := σ) (b.conclude s changed) fun x new =>
      x = (b.showing s, b.shownOutcome s changed) ∧ new.any Call.isRefusal = false ∧
        formsOf new = b.formsFor s := by
  unfold Binder.conclude
  dsimp only
  cases hend : s.isTerminal with
  | false =>
    have hshowing : b.showing s = { b with lastRendered := some s } := by
      rw [Binder.showing, hend, Bool.or_false]
    have htransits : b.transits s = false := by rw [Binder.transits, hend, Bool.false_and]
    rw [if_neg Bool.false_ne_true, pure_bind]
    refine .pure ⟨?_, rfl, ?_⟩
    · rw [hshowing, Binder.shownOutcome, htransits]
    · rw [Binder.formsFor, htransits]
      rfl
  | true =>
    obtain ⟨form, hform⟩ := Option.isSome_iff_exists.mp (s.transitionForm?_isSome hs hend)
    have hshowing : b.showing s = { b with lastRendered := some s, transitioned := true } := by
      rw [Binder.showing, hend, Bool.or_true]
    have htransits : b.transits s = !b.transitioned := by
      rw [Binder.transits, hend, Bool.true_and]
    rw [if_pos rfl]
    refine (emits_fireTransition_result { b with lastRendered := some s } hform).bind
      fun x first hfirst => .pure ?_
    obtain ⟨rfl, htaken, hforms⟩ := hfirst
    rw [List.append_nil]
    refine ⟨?_, htaken, ?_⟩
    · rw [hshowing, Binder.shownOutcome, htransits]
    · rw [hforms, Binder.formsFor, htransits, hform]
      cases b.transitioned <;> rfl

/-- A snapshot of the view is shown, unless a change that it takes is refused. -/
theorem accept_concludes (b : Binder (Watcher ρ)) {s : Snapshot}
    (hs : s.matchesView b.view = true) :
    Emits (σ := σ) (b.accept s) fun x new => b.Concludes (.ok (some s)) x.1 x.2 new := by
  have hconclude (changed : Bool) (first : List Call) (htaken : first.any Call.isRefusal = false)
      (hforms : formsOf first = []) :
      Emits (σ := σ) (b.conclude s changed) fun x more =>
        b.Concludes (.ok (some s)) x.1 x.2 (first ++ more) := by
    refine (emits_conclude_result b hs changed).mono fun x more hmore => ?_
    obtain ⟨rfl, hdone, hmore⟩ := hmore
    refine .shown changed hs ?_ ?_
    · rw [List.any_append, htaken, hdone, Bool.false_or]
    · rw [formsOf_append, hforms, hmore, List.nil_append]
  unfold Binder.accept
  extract_lets rest
  have hrest (isKept : Bool) (first : List Call) (htaken : first.any Call.isRefusal = false)
      (hforms : formsOf first = []) : Emits (σ := σ) (rest isKept) fun x more =>
        b.Concludes (.ok (some s)) x.1 x.2 (first ++ more) := by
    dsimp only [rest]
    split
    · exact hconclude false first htaken hforms
    · refine (emits_paint_result b s).bind fun result second hsecond => ?_
      obtain ⟨hrefused, hpainted⟩ := hsecond
      have hbefore : formsOf (first ++ second) = [] := by
        rw [formsOf_append, hforms, hpainted, List.nil_append]
      cases result with
      | error p =>
        refine Emits.silent (emits_tell _ _ _) fun _ => .pure ?_
        rw [List.append_nil]
        refine .refused hs ?_ hbefore
        rw [List.any_append, hrefused]
        exact Bool.or_true _
      | ok count =>
        have hfine : (first ++ second).any Call.isRefusal = false := by
          rw [List.any_append, htaken, hrefused]
          rfl
        refine Emits.silent (emits_tell _ _ _) fun _ => ?_
        refine (emits_keepPainted_result b s).bind fun _ third hthird => ?_
        refine (hconclude true (first ++ second ++ third) ?_ ?_).mono fun x more hmore => ?_
        · rw [List.any_append, hfine, hthird.1, Bool.false_or]
        · rw [formsOf_append, hbefore, hthird.2, List.nil_append]
        · rwa [List.append_assoc, List.append_assoc] at hmore
  split
  · refine Emits.bind (P := fun _ new => new.any Call.isRefusal = false ∧ formsOf new = []) ?_
      fun isKept first hfirst => hrest isKept first hfirst.1 hfirst.2
    exact Emits.bind (P := fun found new => new = [.read b.cacheKey found])
      (Emits.noted fun _ => rfl) fun found first hfirst => .pure (by subst hfirst; exact ⟨rfl, rfl⟩)
  · rw [pure_bind]
    exact hrest false [] rfl rfl

/-- What comes of an answer. -/
theorem finish_concludes (b : Binder (Watcher ρ)) (answer : Fallible (Option Snapshot)) :
    Emits (σ := σ) (b.finish answer) fun x new => b.Concludes answer x.1 x.2 new := by
  unfold Binder.finish
  split
  · exact Emits.silent (emits_tell _ _ _) fun _ => .pure (.failed _)
  · exact .pure .empty
  · rename_i s
    split
    · exact accept_concludes b ‹_›
    · exact Emits.silent (emits_tell _ _ _) fun _ => .pure (.foreign (Bool.not_eq_true _ ▸ ‹_›))

end WalletPage
