import WalletPage.Proofs.AnyHost
import WalletPage.Proofs.Turns
import WalletPage.Run.Service

/-! The invariant of a service and its tasks. Each view has one binder; the lock of a
binder is held by the one task that is between its probe and the end of its cycle; a task
that was stopped has a turn coming, which disposes of it; and a task that goes on is the
one that the registry has for its view. -/

namespace WalletPage

variable {ρ σ : Type}

/-- Whether a body is in the middle of a cycle of a binder. -/
def Body.HoldsAt : Body ρ → BinderId → Prop
  | .poll b _ phase, c => b = c ∧ phase.Holds
  | _, _ => False

/-- Whether a task is in the middle of a cycle of a binder. -/
def Executor.HoldsAt (e : Executor (Body ρ)) (t : TaskId) (b : BinderId) : Prop :=
  ∃ body isAborted, e.live? t = some (body, isAborted) ∧ body.HoldsAt b

/-- Whether a body polls one of so many binders, or is the heartbeat. -/
def Body.Within (n : Nat) : Body ρ → Prop
  | .poll b _ _ => b < n
  | .heartbeat .. => True
  | .shutdown .. => False

/-- Whether a body is as far in its cycle as another one of the same task. -/
def Body.Alike : Body ρ → Body ρ → Prop
  | .poll b policy phase, .poll b' policy' phase' =>
    b' = b ∧ policy' = policy ∧ (phase'.Holds ↔ phase.Holds)
  | .heartbeat .., .heartbeat .. => True
  | .shutdown .., .shutdown .. => True
  | _, _ => False

namespace Body

variable {body body' : Body ρ}

theorem Alike.within (h : body.Alike body') {n : Nat} (hn : body.Within n) : body'.Within n := by
  cases body <;> cases body' <;> simp_all [Alike, Within]

theorem Alike.holdsAt_iff (h : body.Alike body') (b : BinderId) :
    body'.HoldsAt b ↔ body.HoldsAt b := by
  cases body <;> cases body' <;> simp_all [Alike, HoldsAt]

theorem Alike.eq_poll {b : BinderId} {policy : Policy} {phase : Phase _}
    (h : body.Alike (.poll b policy phase)) : ∃ phase', body = .poll b policy phase' := by
  cases body with
  | poll b' policy' phase' => exact ⟨phase', by rw [h.1, h.2.1]⟩
  | heartbeat => exact h.elim
  | shutdown => exact h.elim

end Body

namespace Executor

variable {e e' : Executor (Body ρ)} {t : TaskId}

theorem holdsAt_iff {body : Body ρ} {isAborted : Bool} (h : e.live? t = some (body, isAborted))
    (b : BinderId) : e.HoldsAt t b ↔ body.HoldsAt b := by
  constructor
  · rintro ⟨body', ab, ht, hholds⟩
    rw [h] at ht
    cases ht
    exact hholds
  · intro hholds
    exact ⟨body, isAborted, h, hholds⟩

theorem not_holdsAt (h : e.live? t = none) (b : BinderId) : ¬ e.HoldsAt t b := by
  rintro ⟨body, ab, ht, -⟩
  rw [h] at ht
  contradiction

theorem holdsAt_congr (h : e'.live? t = e.live? t) (b : BinderId) :
    e'.HoldsAt t b ↔ e.HoldsAt t b := by
  simp only [HoldsAt, h]

end Executor

/-- The invariant. `turn` is the task whose turn it is, which is no longer queued for one. -/
structure Orderly (s : Service ρ) (binders : List (Shared ρ)) (e : Executor (Body ρ))
    (turn : Option TaskId) : Prop where
  known : ∀ v b, s.binders.lookup v = some b ↔ ∃ x, binders[b]? = some x ∧ x.binder.view = v
  own : ∀ x ∈ binders, x.binder.session = s.session ∧ x.binder.access = s.access ∧
    x.selection = s.selection
  within : ∀ t body isAborted, e.live? t = some (body, isAborted) → body.Within binders.length
  holder : ∀ b x, binders[b]? = some x → ∀ t, x.lock.holder = some t ↔ e.HoldsAt t b
  doomed : ∀ t body, e.live? t = some (body, true) → turn ≠ some t → e.Awaits t
  registered : ∀ t b policy phase, e.live? t = some (.poll b policy phase, false) →
    ∃ v, s.binders.lookup v = some b ∧ s.registry.task? (.view v s.session) = some t

namespace Orderly

variable {s : Service ρ} {binders : List (Shared ρ)} {e e' : Executor (Body ρ)}
  {turn : Option TaskId} {id : TaskId} {body : Body ρ} {isAborted : Bool}

/-- The binder that a service knows for a view is one of that view. -/
theorem view_of_lookup (h : Orderly s binders e turn) {v : View} {b : BinderId} {x : Shared ρ}
    (hb : s.binders.lookup v = some b) (hx : binders[b]? = some x) : x.binder.view = v := by
  obtain ⟨y, hy, hview⟩ := (h.known v b).mp hb
  obtain rfl : x = y := Option.some.inj (hx.symm.trans hy)
  exact hview

/-- A task that goes on is the one that the registry has for the view of its binder. -/
theorem registered_view (h : Orderly s binders e turn) {t : TaskId} {b : BinderId}
    {policy : Policy} {phase : Phase _} (ht : e.live? t = some (.poll b policy phase, false))
    {x : Shared ρ} (hx : binders[b]? = some x) :
    s.registry.task? (.view x.binder.view s.session) = some t := by
  obtain ⟨v, hv, htask⟩ := h.registered t b policy phase ht
  rwa [h.view_of_lookup hv hx]

/-- A task at its turn that was not stopped needs no excuse. -/
theorem settle (h : Orderly s binders e (some id)) (hid : ∀ body, e.live? id ≠ some (body, true)) :
    Orderly s binders e none := by
  refine { h with doomed := fun t body ht _ => h.doomed t body ht ?_ }
  intro hturn
  cases hturn
  exact hid body ht

/-- Only the turns have changed, and none is lost. -/
theorem rouse (h : Orderly s binders e turn) (hlive : ∀ t, e'.live? t = e.live? t)
    (hawaits : ∀ t, e.Awaits t → e'.Awaits t) : Orderly s binders e' turn := by
  refine ⟨h.known, h.own, ?_, ?_, ?_, ?_⟩
  · intro t body isAborted ht
    exact h.within t body isAborted (hlive t ▸ ht)
  · intro b x hx t
    rw [h.holder b x hx, Executor.holdsAt_congr (hlive t)]
  · intro t body ht hturn
    exact hawaits t (h.doomed t body (hlive t ▸ ht) hturn)
  · intro t b policy phase ht
    exact h.registered t b policy phase (hlive t ▸ ht)

/-- One task has changed, and is as far as it was. -/
theorem replace {body' : Body ρ} (h : Orderly s binders e turn)
    (hid : e.live? id = some (body, isAborted)) (halike : body.Alike body')
    (hlive : ∀ t, e'.live? t = if t = id then some (body', isAborted) else e.live? t)
    (hawaits : ∀ t, e.Awaits t → e'.Awaits t) : Orderly s binders e' turn := by
  have hbefore {t : TaskId} {new : Body ρ} {ab : Bool} (ht : e'.live? t = some (new, ab)) :
      ∃ old, e.live? t = some (old, ab) ∧ old.Alike new := by
    rw [hlive] at ht
    split at ht
    · rename_i hti
      cases ht
      exact ⟨body, hti ▸ hid, halike⟩
    · refine ⟨new, ht, ?_⟩
      cases new <;> simp [Body.Alike]
  have hself : e'.live? id = some (body', isAborted) := by rw [hlive, if_pos rfl]
  refine ⟨h.known, h.own, ?_, ?_, ?_, ?_⟩
  · intro t new ab ht
    obtain ⟨old, hold, hsame⟩ := hbefore ht
    exact hsame.within (h.within t old ab hold)
  · intro b x hx t
    rw [h.holder b x hx]
    by_cases hti : t = id
    · rw [hti, Executor.holdsAt_iff hid, Executor.holdsAt_iff hself, halike.holdsAt_iff]
    · exact (Executor.holdsAt_congr (by rw [hlive, if_neg hti]) b).symm
  · intro t new ht hturn
    obtain ⟨old, hold, -⟩ := hbefore ht
    exact hawaits t (h.doomed t old hold hturn)
  · intro t b policy phase ht
    obtain ⟨old, hold, hsame⟩ := hbefore ht
    obtain ⟨phase', rfl⟩ := hsame.eq_poll
    exact h.registered t b policy phase' hold

/-- A task that holds nothing is gone. -/
theorem drop (h : Orderly s binders e (some id)) (hid : ∀ b, ¬ e.HoldsAt id b)
    (hlive : ∀ t, e'.live? t = if t = id then none else e.live? t)
    (hawaits : ∀ t, e.Awaits t → e'.Awaits t) : Orderly s binders e' none := by
  have hbefore {t : TaskId} {x : Body ρ × Bool} (ht : e'.live? t = some x) :
      t ≠ id ∧ e.live? t = some x := by
    rw [hlive] at ht
    split at ht
    · contradiction
    · exact ⟨‹_›, ht⟩
  refine ⟨h.known, h.own, ?_, ?_, ?_, ?_⟩
  · intro t body ab ht
    exact h.within t body ab (hbefore ht).2
  · intro b x hx t
    rw [h.holder b x hx]
    by_cases hti : t = id
    · have hgone : e'.live? t = none := by rw [hlive, if_pos hti]
      exact iff_of_false (hti ▸ hid b) (Executor.not_holdsAt hgone b)
    · exact (Executor.holdsAt_congr (by rw [hlive, if_neg hti]) b).symm
  · intro t body ht _
    obtain ⟨hne, ht⟩ := hbefore ht
    exact hawaits t (h.doomed t body ht fun hturn => hne (Option.some.inj hturn).symm)
  · intro t b policy phase ht
    exact h.registered t b policy phase (hbefore ht).2

/-- A task at its turn has changed its binder: the task is gone, or it goes on as it was
spawned, and the lock is held by whoever is in a cycle then. -/
theorem move {b : BinderId} {x x' : Shared ρ} {policy : Policy} {phase : Phase _}
    (h : Orderly s binders e (some id)) (hx : binders[b]? = some x)
    (hid : e.live? id = some (.poll b policy phase, isAborted))
    (hkin : x.binder.Kin x'.binder) (hselection : x'.selection = x.selection)
    (hother : ∀ t, t ≠ id → e'.live? t = e.live? t)
    (hself : e'.live? id = none ∨
      isAborted = false ∧ ∃ phase', e'.live? id = some (.poll b policy phase', false))
    (hholder : ∀ t, x'.lock.holder = some t ↔ e'.HoldsAt t b)
    (hawaits : ∀ t, e.Awaits t → e'.Awaits t) :
    Orderly s (binders.set b x') e' none := by
  obtain ⟨hlt, -⟩ := List.getElem?_eq_some_iff.mp hx
  have hset (c : BinderId) : (binders.set b x')[c]? = if b = c then some x' else binders[c]? := by
    rw [List.getElem?_set, if_pos hlt]
  have hnow {body : Body ρ} {ab : Bool} (ht : e'.live? id = some (body, ab)) :
      isAborted = false ∧ ab = false ∧ ∃ phase', body = .poll b policy phase' := by
    rcases hself with hnone | ⟨hgoes, phase', hself⟩
    · rw [hnone] at ht
      contradiction
    · rw [hself] at ht
      cases ht
      exact ⟨hgoes, rfl, phase', rfl⟩
  refine ⟨?_, ?_, ?_, ?_, ?_, ?_⟩
  · intro v c
    rw [h.known, hset]
    by_cases hc : b = c
    · subst hc
      simp [hx, hkin.view]
    · rw [if_neg hc]
  · intro y hy
    rcases List.mem_or_eq_of_mem_set hy with hy | rfl
    · exact h.own y hy
    · have hown := h.own x (List.mem_of_getElem? hx)
      rwa [hkin.session, hkin.access, hselection]
  · intro t body ab ht
    rw [List.length_set]
    by_cases hti : t = id
    · obtain ⟨-, -, phase', rfl⟩ := hnow (hti ▸ ht)
      exact hlt
    · exact h.within t body ab (hother t hti ▸ ht)
  · intro c y hy t
    rw [hset] at hy
    by_cases hc : b = c
    · rw [if_pos hc] at hy
      cases hy
      exact hc ▸ hholder t
    · rw [if_neg hc] at hy
      rw [h.holder c y hy]
      by_cases hti : t = id
      · -- The task at its turn polls `b`, before and after.
        subst hti
        rw [Executor.holdsAt_iff hid]
        refine iff_of_false (fun hholds => hc hholds.1) ?_
        rintro ⟨body, ab, ht, hholds⟩
        obtain ⟨-, -, phase', rfl⟩ := hnow ht
        exact hc hholds.1
      · exact (Executor.holdsAt_congr (hother t hti) c).symm
  · intro t body ht _
    have hti : t ≠ id := by
      rintro rfl
      obtain ⟨-, hgoes, -⟩ := hnow ht
      contradiction
    have hdoomed := h.doomed t body (hother t hti ▸ ht)
    exact hawaits t (hdoomed fun hturn => hti (Option.some.inj hturn).symm)
  · intro t c policy' phase' ht
    by_cases hti : t = id
    · subst hti
      obtain ⟨hgoes, -, phase'', heq⟩ := hnow ht
      cases heq
      exact h.registered t b policy phase (hgoes ▸ hid)
    · exact h.registered t c policy' phase' (hother t hti ▸ ht)

/-- A task that holds a lock, or finds it free, is the only one that can hold it. -/
theorem alone {b : BinderId} {x : Shared ρ} {policy : Policy} {phase : Phase _}
    (h : Orderly s binders e turn) (hx : binders[b]? = some x)
    (hid : e.live? id = some (.poll b policy phase, isAborted))
    (hphase : phase.Holds ∨ x.lock.holder = none) {t : TaskId} (hti : t ≠ id) :
    ¬ e.HoldsAt t b := by
  rw [← h.holder b x hx]
  intro hholder
  rcases hphase with hphase | hfree
  · have hself := (h.holder b x hx id).mpr ⟨_, _, hid, rfl, hphase⟩
    exact hti (Option.some.inj (hholder.symm.trans hself))
  · rw [hfree] at hholder
    contradiction

/-- What remains of a task at its turn that does not hold its lock. -/
theorem not_holdsAt_self {b : BinderId} {policy : Policy}
    (hself : e'.live? id = none ∨ isAborted = false ∧ ∃ phase', ¬ phase'.Holds ∧
      e'.live? id = some (.poll b policy phase', false)) : ¬ e'.HoldsAt id b := by
  rcases hself with hnone | ⟨-, phase', hphase', hself⟩
  · exact Executor.not_holdsAt hnone b
  · rw [Executor.holdsAt_iff hself]
    exact fun hholds => hphase' hholds.2

/-- The holder of a lock that a task at its turn leaves as it is. -/
theorem keep {b : BinderId} {x x' : Shared ρ} {policy : Policy} {phase : Phase _}
    (h : Orderly s binders e (some id)) (hx : binders[b]? = some x)
    (hid : e.live? id = some (.poll b policy phase, isAborted)) (hphase : ¬ phase.Holds)
    (hbinder : x'.binder = x.binder) (hselection : x'.selection = x.selection)
    (hlock : x'.lock.holder = x.lock.holder) (hother : ∀ t, t ≠ id → e'.live? t = e.live? t)
    (hself : e'.live? id = none ∨ isAborted = false ∧ ∃ phase', ¬ phase'.Holds ∧
      e'.live? id = some (.poll b policy phase', false))
    (hawaits : ∀ t, e.Awaits t → e'.Awaits t) :
    Orderly s (binders.set b x') e' none := by
  have hkin : x.binder.Kin x'.binder := hbinder ▸ .refl x.binder
  have hbefore : ¬ e.HoldsAt id b := by
    rw [Executor.holdsAt_iff hid]
    exact fun hholds => hphase hholds.2
  refine h.move hx hid hkin hselection hother ?_ (fun t => ?_) hawaits
  · exact hself.imp_right (And.imp_right (Exists.imp fun _ => And.right))
  · rw [hlock, h.holder b x hx]
    by_cases hti : t = id
    · subst hti
      exact iff_of_false hbefore (not_holdsAt_self hself)
    · exact (Executor.holdsAt_congr (hother t hti) b).symm

/-- A task that holds the lock at its turn, or finds it free, lets it go. -/
theorem letGo {b : BinderId} {x x' : Shared ρ} {policy : Policy} {phase : Phase _}
    (h : Orderly s binders e (some id)) (hx : binders[b]? = some x)
    (hid : e.live? id = some (.poll b policy phase, isAborted))
    (hphase : phase.Holds ∨ x.lock.holder = none)
    (hkin : x.binder.Kin x'.binder) (hselection : x'.selection = x.selection)
    (hlock : x'.lock.holder = none) (hother : ∀ t, t ≠ id → e'.live? t = e.live? t)
    (hself : e'.live? id = none ∨ isAborted = false ∧ ∃ phase', ¬ phase'.Holds ∧
      e'.live? id = some (.poll b policy phase', false))
    (hawaits : ∀ t, e.Awaits t → e'.Awaits t) :
    Orderly s (binders.set b x') e' none := by
  refine h.move hx hid hkin hselection hother ?_ (fun t => ?_) hawaits
  · exact hself.imp_right (And.imp_right (Exists.imp fun _ => And.right))
  · rw [hlock]
    refine iff_of_false (by simp) ?_
    by_cases hti : t = id
    · subst hti
      exact not_holdsAt_self hself
    · rw [Executor.holdsAt_congr (hother t hti)]
      exact h.alone hx hid hphase hti

/-- A task that finds the lock free at its turn takes it. -/
theorem take {b : BinderId} {x x' : Shared ρ} {policy : Policy} {phase phase' : Phase _}
    (h : Orderly s binders e (some id)) (hx : binders[b]? = some x)
    (hid : e.live? id = some (.poll b policy phase, false)) (hfree : x.lock.holder = none)
    (hkin : x.binder.Kin x'.binder) (hselection : x'.selection = x.selection)
    (hlock : x'.lock.holder = some id) (hother : ∀ t, t ≠ id → e'.live? t = e.live? t)
    (hself : e'.live? id = some (.poll b policy phase', false)) (hphase : phase'.Holds)
    (hawaits : ∀ t, e.Awaits t → e'.Awaits t) :
    Orderly s (binders.set b x') e' none := by
  refine h.move hx hid hkin hselection hother (.inr ⟨rfl, phase', hself⟩) (fun t => ?_) hawaits
  rw [hlock]
  by_cases hti : t = id
  · subst hti
    rw [Executor.holdsAt_iff hself]
    exact iff_of_true rfl ⟨rfl, hphase⟩
  · rw [Executor.holdsAt_congr (hother t hti)]
    exact iff_of_false (fun hid' => hti (Option.some.inj hid').symm)
      (h.alone hx hid (.inr hfree) hti)

end Orderly

end WalletPage
