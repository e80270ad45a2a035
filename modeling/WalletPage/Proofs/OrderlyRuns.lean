import WalletPage.Proofs.OrderlyTurns
import WalletPage.Proofs.ServiceRuns

/-! Every move keeps the invariant, and so does every act: all that can be reached from a
new service is in order. -/

namespace WalletPage

variable {ρ σ : Type}

namespace Orderly

variable {s : Service ρ} {binders : List (Shared ρ)} {e e' : Executor (Body ρ)}
  {turn : Option TaskId} {id : TaskId} {body : Body ρ}

theorem abort (h : Orderly s binders e turn) (id : TaskId) :
    Orderly s binders (e.abort id) turn := by
  have hbefore {t : TaskId} {body : Body ρ} {ab : Bool}
      (ht : (e.abort id).live? t = some (body, ab)) : ∃ ab', e.live? t = some (body, ab') := by
    rw [Executor.live?_abort] at ht
    split at ht
    · rw [Option.map_eq_some_iff] at ht
      obtain ⟨⟨body', ab'⟩, hold, heq⟩ := ht
      cases heq
      exact ⟨ab', hold⟩
    · exact ⟨ab, ht⟩
  refine ⟨h.known, h.own, ?_, ?_, ?_, ?_⟩
  · intro t body ab ht
    obtain ⟨ab', hold⟩ := hbefore ht
    exact h.within t body ab' hold
  · intro b x hx t
    rw [h.holder b x hx]
    constructor
    · rintro ⟨body, ab, ht, hholds⟩
      obtain ⟨ab', hnew⟩ := Executor.live?_abort_of_live? ht id
      exact ⟨body, ab', hnew, hholds⟩
    · rintro ⟨body, ab, ht, hholds⟩
      obtain ⟨ab', hold⟩ := hbefore ht
      exact ⟨body, ab', hold, hholds⟩
  · intro t body ht hturn
    obtain ⟨ab, hold⟩ := hbefore ht
    by_cases hti : t = id
    · subst hti
      exact Executor.awaits_abort_self hold
    · rw [Executor.live?_abort, if_neg hti] at ht
      exact (h.doomed t body ht hturn).abort id
  · intro t b policy phase ht
    rw [Executor.live?_abort] at ht
    split at ht
    · cases hold : e.live? t <;> simp [hold] at ht
    · exact h.registered t b policy phase ht

theorem lookup_withBinder {v : View} (hnew : s.binders.lookup v = none) (b : BinderId)
    (w : View) : (s.withBinder v b).binders.lookup w =
      if w = v then some b else s.binders.lookup w :=
  lookup_concat hnew b w

/-- A new binder that nobody holds. -/
theorem bind (h : Orderly s binders e turn) {v : View} {x : Shared ρ}
    (hnew : s.binders.lookup v = none) (hview : x.binder.view = v)
    (hown : x.binder.session = s.session ∧ x.binder.access = s.access ∧
      x.selection = s.selection) (hlock : x.lock.holder = none) :
    Orderly (s.withBinder v binders.length) (binders ++ [x]) e turn := by
  have hat {b : BinderId} {y : Shared ρ} (hy : (binders ++ [x])[b]? = some y) :
      binders[b]? = some y ∨ b = binders.length ∧ y = x := by
    grind
  refine ⟨fun w b => ?_, fun y hy => ?_, fun t body ab ht => ?_, fun b y hy t => ?_, h.doomed,
    fun t b policy phase ht => ?_⟩
  · rw [lookup_withBinder hnew]
    by_cases hw : w = v
    · rw [if_pos hw, hw, Option.some.injEq]
      constructor
      · rintro rfl
        exact ⟨x, List.getElem?_concat_length, hview⟩
      · rintro ⟨y, hy, hyv⟩
        rcases hat hy with hy | ⟨hb, -⟩
        · have hknown := (h.known v b).mpr ⟨y, hy, hyv⟩
          rw [hnew] at hknown
          contradiction
        · exact hb.symm
    · rw [if_neg hw, h.known]
      constructor
      · rintro ⟨y, hy, hyw⟩
        have hlt := (List.getElem?_eq_some_iff.mp hy).1
        exact ⟨y, by rw [List.getElem?_append_left hlt, hy], hyw⟩
      · rintro ⟨y, hy, hyw⟩
        rcases hat hy with hy | ⟨-, rfl⟩
        · exact ⟨y, hy, hyw⟩
        · exact absurd (hyw.symm.trans hview) hw
  · rcases List.mem_append.mp hy with hy | hy
    · exact h.own y hy
    · rw [List.mem_singleton.mp hy]
      exact hown
  · have hold := h.within t body ab ht
    rw [List.length_append, List.length_singleton]
    cases body with
    | poll b policy phase => exact Nat.lt_succ_of_lt hold
    | heartbeat => trivial
    | shutdown => exact hold
  · rcases hat hy with hy | ⟨rfl, rfl⟩
    · exact h.holder b y hy t
    · rw [hlock]
      refine iff_of_false (by simp) ?_
      rintro ⟨body, ab, ht, hholds⟩
      -- A body polls a binder that was there before.
      have hold := h.within t body ab ht
      cases body with
      | poll b policy phase => exact Nat.lt_irrefl _ (hholds.1 ▸ hold)
      | heartbeat => exact hholds
      | shutdown => exact hholds
  · obtain ⟨w, hw, htask⟩ := h.registered t b policy phase ht
    refine ⟨w, ?_, htask⟩
    have hwv : w ≠ v := by
      rintro rfl
      rw [hnew] at hw
      contradiction
    rw [lookup_withBinder hnew, if_neg hwv, hw]

/-- Entries of tasks that do not go on may be struck out. -/
theorem strike (h : Orderly s binders e turn) {registry : Registry}
    (hstruck : ∀ key, registry.task? key = s.registry.task? key ∨ registry.task? key = none ∧
      ∀ t, s.registry.task? key = some t → ∀ body, e.live? t ≠ some (body, false)) :
    Orderly { s with registry } binders e turn := by
  refine ⟨h.known, h.own, h.within, h.holder, h.doomed, fun t b policy phase ht => ?_⟩
  obtain ⟨v, hv, htask⟩ := h.registered t b policy phase ht
  refine ⟨v, hv, ?_⟩
  rcases hstruck (.view v s.session) with hsame | ⟨-, hhalted⟩
  · exact hsame.trans htask
  · exact absurd ht (hhalted t htask _)

/-- A new task takes the place of one that does not go on. -/
theorem spawn (h : Orderly s binders e turn) {key : TaskKey} {registry : Registry}
    (hbody : s.Begins key body)
    (hhalted : ∀ t, s.registry.task? key = some t → ∀ body, e.live? t ≠ some (body, false))
    (hspawn : e.spawn body = some (id, e'))
    (hregistry : ∀ k, registry.task? k = if k = key then some id else s.registry.task? k) :
    Orderly { s with registry } binders e' turn := by
  have hlive (t : TaskId) := Executor.live?_spawn hspawn t
  obtain ⟨hready, hfresh, hid, -⟩ := Executor.spawn_ready_fresh hspawn
  have hnone : e.live? id = none := by
    rw [hid, Executor.live?, List.getElem?_eq_none (Nat.le_refl _)]
  have hnot (b : BinderId) : ¬ body.HoldsAt b := by
    cases hbody <;> simp [Body.HoldsAt, Phase.Holds]
  refine ⟨h.known, h.own, fun t new ab ht => ?_, fun b x hx t => ?_, fun t new ht hturn => ?_,
    fun t b policy phase ht => ?_⟩
  · rw [hlive] at ht
    split at ht
    · cases ht
      cases hbody with
      | poll hb =>
        obtain ⟨x, hx, -⟩ := (h.known _ _).mp hb
        exact (List.getElem?_eq_some_iff.mp hx).1
      | heartbeat => trivial
    · exact h.within t new ab ht
  · rw [h.holder b x hx]
    by_cases hti : t = id
    · subst hti
      have hself : e'.live? t = some (body, false) := by rw [hlive, if_pos rfl]
      rw [Executor.holdsAt_iff hself]
      exact iff_of_false (Executor.not_holdsAt hnone b) (hnot b)
    · exact (Executor.holdsAt_congr (by rw [hlive, if_neg hti]) b).symm
  · rw [hlive] at ht
    split at ht
    · cases ht
    · refine (h.doomed t new ht hturn).imp ?_ ?_
      · rw [hready]
        exact fun hmem => hmem
      · rw [hfresh]
        exact List.mem_append_left _
  · rw [hlive] at ht
    split at ht
    · rename_i hti
      cases ht
      cases hbody with
      | poll hb => exact ⟨_, hb, by rw [hregistry, if_pos rfl, hti]⟩
    · obtain ⟨v, hv, htask⟩ := h.registered t b policy phase ht
      refine ⟨v, hv, ?_⟩
      have hkey : TaskKey.view v s.session ≠ key := by
        rintro rfl
        exact hhalted t htask _ ht
      rw [hregistry, if_neg hkey, htask]

end Orderly

namespace Body

variable (body : Body ρ)

theorem alike_awakened : body.Alike (Run.awakened body) := by
  cases body with
  | poll b policy phase => cases phase <;> simp [Run.awakened, Alike, Phase.Holds]
  | heartbeat access interval phase => cases phase <;> trivial
  | shutdown => trivial

theorem alike_answered : body.Alike (Run.answered body) := by
  cases body with
  | poll b policy phase => cases phase <;> simp [Run.answered, Alike, Phase.Holds]
  | heartbeat access interval phase => cases phase <;> trivial
  | shutdown service promise phase => cases phase <;> trivial

end Body

namespace Run

variable {r r' : Run ρ σ} {s : Service ρ} {outside : σ → σ → Prop}

theorem enroll_inOrder (h : r.InOrder s none) :
    Run.InOrder { r with executor := r.executor.enroll } s none := by
  refine ⟨h.services, h.orderly.rouse (fun _ => rfl) fun t ht => .inl ?_⟩
  rcases ht with ht | ht
  · exact List.mem_append_left _ ht
  · exact List.mem_append_right _ ht

theorem resume_inOrder (h : r.InOrder s none) {change : Body ρ → Body ρ}
    (hchange : change = awakened ∨ change = answered) (id : TaskId) :
    (resume change r id).InOrder s none := by
  unfold resume
  cases hid : r.executor.live? id with
  | none => exact h
  | some task =>
    obtain ⟨body, ab⟩ := task
    have halike : body.Alike (change body) := by
      rcases hchange with rfl | rfl
      · exact body.alike_awakened
      · exact body.alike_answered
    refine ⟨h.services, h.orderly.replace hid halike (fun t => ?_) fun t ht => ?_⟩
    · show ((r.executor.setBody id (change body)).wake id).live? t = _
      rw [Executor.live?_wake, Executor.live?_setBody hid]
    · exact (ht.setBody id (change body)).wake id

variable [Host ρ σ]

/-- A move keeps the invariant. -/
theorem Move.inOrder (hmove : Move outside r r') (h : r.InOrder s none) :
    ∃ s', r'.InOrder s' none ∧ s.Kin s' := by
  have hsame {s₁ : Service ρ} (hs : r.services = [s₁]) : s₁ = s :=
    List.singleton_inj.mp (hs.symm.trans h.services)
  cases hmove with
  | turn hnext => exact ⟨s, next?_inOrder h hnext, .refl s⟩
  | enroll => exact ⟨s, enroll_inOrder h, .refl s⟩
  | resume hchange id => exact ⟨s, resume_inOrder h hchange id, .refl s⟩
  | forget => exact ⟨s, ⟨h.services, h.orderly⟩, .refl s⟩
  | change => exact ⟨s, ⟨h.services, h.orderly⟩, .refl s⟩
  | log => exact ⟨s, ⟨h.services, h.orderly⟩, .refl s⟩
  | sweep => exact ⟨s, ⟨h.services, h.orderly⟩, .refl s⟩
  | abort id => exact ⟨s, ⟨h.services, h.orderly.abort id⟩, .refl s⟩
  | @bind s v hs hnew =>
    obtain rfl := hsame hs
    rw [binderFor_new hs hnew]
    have hkin := ((s.newBinder v).hydrate_yields r.world).1
    exact ⟨_, ⟨rfl, h.orderly.bind hnew hkin.view ⟨hkin.session, hkin.access, rfl⟩ rfl⟩,
      ⟨rfl, rfl, rfl, rfl⟩⟩
  | strike hs hstruck =>
    obtain rfl := hsame hs
    exact ⟨_, ⟨rfl, h.orderly.strike hstruck⟩, ⟨rfl, rfl, rfl, rfl⟩⟩
  | spawn hs hbody hhalted hspawn hregistry =>
    obtain rfl := hsame hs
    exact ⟨_, ⟨rfl, h.orderly.spawn hbody hhalted hspawn hregistry⟩, ⟨rfl, rfl, rfl, rfl⟩⟩

/-- What every move keeps in a run that is in order, and every selection of a page. -/
theorem Invariant.of_inOrder {Q : Run ρ σ → Service ρ → Prop}
    (hmove : ∀ r r' s s', r.InOrder s none → Move outside r r' → r'.InOrder s' none → s.Kin s' →
      Q r s → Q r' s')
    (hselect : ∀ r s page, Q r s → Q (r.turnedTo s page) s) :
    Invariant outside fun r => ∃ s, r.InOrder s none ∧ Q r s where
  one _ := fun ⟨s, h, _⟩ => ⟨s, h.services⟩
  move r r' := fun ⟨s, h, hq⟩ hstep => by
    obtain ⟨s', h', hkin⟩ := hstep.inOrder h
    exact ⟨s', h', hmove r r' s s' h hstep h' hkin hq⟩
  select r s page := fun ⟨s₁, h, hq⟩ hs _ => by
    obtain rfl := List.singleton_inj.mp (hs.symm.trans h.services)
    exact ⟨s, ⟨h.services, h.orderly⟩, hselect r s page hq⟩

/-- The run of a service stays in order, and its service one of the same kind. -/
theorem inOrder_invariant (outside : σ → σ → Prop) (s : Service ρ) :
    Invariant outside fun r => ∃ s', r.InOrder s' none ∧ s.Kin s' :=
  .of_inOrder (fun _ _ _ _ _ _ _ hkin hs => hs.trans hkin) fun _ _ _ hs => hs

/-- A new run has no tasks. -/
theorem live?_opened (world : σ) (session : SessionId) (config : Config) (access : ρ)
    (t : TaskId) : (opened world session config access).executor.live? t = none := rfl

theorem opened_inOrder (world : σ) (session : SessionId) (config : Config) (access : ρ) :
    (opened world session config access).InOrder
      { session, config, access, selection := 0 } none := by
  have hnone (b : BinderId) (x : Shared ρ) : (opened world session config access).binders[b]? ≠
      some x := by
    show ([] : List (Shared ρ))[b]? ≠ some x
    simp
  refine ⟨rfl, fun v b => ?_, List.forall_mem_nil _, fun t body ab ht => ?_,
    fun b x hx => absurd hx (hnone b x), fun t body ht => ?_, fun t b policy phase ht => ?_⟩
  · refine iff_of_false (by simp) ?_
    rintro ⟨x, hx, -⟩
    exact hnone b x hx
  · rw [live?_opened] at ht
    contradiction
  · rw [live?_opened] at ht
    contradiction
  · rw [live?_opened] at ht
    contradiction

end Run

/-- Whatever happens to a service, its run stays in order. -/
theorem Run.after_inOrder [Host ρ σ] {r : Run ρ σ} {s : Service ρ} (h : r.InOrder s none)
    (acts : List (Act σ)) : ∃ s', (r.after acts).InOrder s' none ∧ s.Kin s' :=
  (Run.inOrder_invariant _ s).after (fun act _ => act.within_any) ⟨s, h, .refl s⟩

end WalletPage
