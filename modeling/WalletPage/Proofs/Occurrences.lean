import WalletPage.Cache.Notes
import WalletPage.Proofs.OrderlyRuns
import WalletPage.Proofs.Unwatched

/-! Runs of one service whose user writes notes and shuts the server down. A shutdown has two
halves, the request and what follows from the answer, and anything can happen between
them. -/

namespace WalletPage

variable {ρ σ : Type}

/-- What can happen to a service and its page, the calls of the user included. -/
inductive Occurrence (σ : Type) where
  | act (a : Act σ)
  | saveNote (shortId text : String)
  /-- The server is asked to shut down. -/
  | askShutdown
  /-- The answer to a shutdown has come. -/
  | endShutdown (answer : Fallible Bool)

/-- Asks the server of a service to shut down. -/
def Run.askShutdown [Host ρ σ] (r : Run ρ σ) (id : ServiceId) : Run ρ σ :=
  match r.services[id]? with
  | some s => (r.act (Host.shutdown s.access)).2
  | none => r

/-- A run after an occurrence. -/
def Occurrence.step [Host ρ σ] (r : Run ρ σ) : Occurrence σ → Run ρ σ
  | act a => a.step r
  | saveNote shortId text => (r.saveNote 0 shortId text).2
  | askShutdown => r.askShutdown 0
  | endShutdown answer => (r.finishShutdown 0 answer).2

/-- A run after some occurrences. -/
def Run.through [Host ρ σ] (r : Run ρ σ) (occurrences : List (Occurrence σ)) : Run ρ σ :=
  occurrences.foldl Occurrence.step r

variable [Host ρ σ] {r : Run ρ σ} {s : Service ρ} {outside : σ → σ → Prop}

theorem Run.through_append (r : Run ρ σ) (before later : List (Occurrence σ)) :
    r.through (before ++ later) = (r.through before).through later :=
  List.foldl_append

/-- A shutdown is a request, and what follows from the answer if the answer is there. -/
theorem Run.shutdown_through (r : Run ρ σ) : ∃ answers : List (Fallible Bool),
    (r.shutdown 0).2 = r.through (.askShutdown :: answers.map .endShutdown) := by
  unfold shutdown
  show ∃ answers : List (Fallible Bool), _ = (r.askShutdown 0).through (answers.map .endShutdown)
  unfold askShutdown
  cases r.services[0]? with
  | none => exact ⟨[], rfl⟩
  | some s =>
    dsimp only
    cases r.act (Host.shutdown s.access) with
    | mk reply r' =>
      cases reply with
      | ready answer => exact ⟨[answer], rfl⟩
      | held key answer => exact ⟨[], rfl⟩

/-! ### What occurrences keep -/

variable (ρ) in
/-- Whether an occurrence does no more with the page than others may. The service's own
acts are not meant. -/
def Occurrence.Within (outside : σ → σ → Prop) : Occurrence σ → Prop
  | act a => a.Within outside
  | saveNote shortId text =>
    ∀ (access : ρ) (w : σ), outside w ((Notes.set access shortId text).run w).2
  | askShutdown => ∀ (access : ρ) (w : σ), outside w ((Host.shutdown access).run w).2
  | endShutdown _ => ∀ (access : ρ) (container html : String) (w : σ),
    outside w ((Host.replacePage access container html).run w).2

theorem Occurrence.within_any (o : Occurrence σ) : o.Within ρ fun _ _ => True := by
  cases o with
  | act a => exact a.within_any
  | saveNote => exact fun _ _ => trivial
  | askShutdown => exact fun _ _ => trivial
  | endShutdown => exact fun _ _ _ _ => trivial

theorem Occurrence.Within.mono {o : Occurrence σ} {outside' : σ → σ → Prop}
    (h : o.Within ρ outside) (hmono : ∀ w w', outside w w' → outside' w w') :
    o.Within ρ outside' := by
  cases o with
  | act a => exact fun f hf w => hmono _ _ (h f hf w)
  | saveNote => exact fun access w => hmono _ _ (h access w)
  | askShutdown => exact fun access w => hmono _ _ (h access w)
  | endShutdown => exact fun access container html w => hmono _ _ (h access container html w)

theorem Run.finishShutdown_moves (hs : r.services = [s])
    (hreplace : ∀ (container html : String) (w : σ),
      outside w ((Host.replacePage s.access container html).run w).2)
    (answer : Fallible Bool) : Moves outside r (r.finishShutdown 0 answer).2 := by
  unfold finishShutdown
  rw [hs]
  dsimp only [List.getElem?_cons_zero]
  cases answer with
  | error p => exact .refl
  | ok agreed =>
    cases agreed with
    | false => exact .single (.log r _ _)
    | true =>
      have hstopped : Moves outside r (r.stopAll 0).2 := stopAll_moves hs
      have hreplaced := Move.change (r.stopAll 0).2 (hreplace contentContainer
        (shutdownNotice s.config.baseUrl).html _)
      exact (hstopped.tail hreplaced).tail (.log _ s.access _)

namespace Run.Invariant

variable {P : Run ρ σ → Prop} (hP : Invariant outside P)

include hP

/-- What every move keeps is kept by every occurrence. -/
theorem occur {o : Occurrence σ} (ho : o.Within ρ outside) (h : P r) : P (o.step r) := by
  obtain ⟨s, hs⟩ := hP.one r h
  cases o with
  | act a => exact hP.step ho h
  | saveNote shortId text =>
    show P (r.saveNote 0 shortId text).2
    unfold saveNote
    rw [first_service hs]
    exact hP.move _ _ h (.change r (ho s.access r.world))
  | askShutdown =>
    show P (r.askShutdown 0)
    unfold askShutdown
    rw [first_service hs]
    exact hP.move _ _ h (.change r (ho s.access r.world))
  | endShutdown answer => exact hP.moves (finishShutdown_moves hs (ho s.access) answer) h

theorem through {occurrences : List (Occurrence σ)}
    (hwithin : ∀ o ∈ occurrences, o.Within ρ outside) (h : P r) : P (r.through occurrences) := by
  induction occurrences generalizing r with
  | nil => exact h
  | cons o rest ih =>
    rw [List.forall_mem_cons] at hwithin
    exact ih hwithin.2 (hP.occur hwithin.1 h)

end Run.Invariant

/-- Whatever occurs, the run of a service stays in order. -/
theorem Run.through_inOrder (h : r.InOrder s none) (occurrences : List (Occurrence σ)) :
    ∃ s', (r.through occurrences).InOrder s' none ∧ s.Kin s' :=
  (Run.inOrder_invariant _ s).through (fun o _ => o.within_any) ⟨s, h, .refl s⟩

/-! ### Under watch -/

/-- The same occurrence on the page under watch. -/
def Occurrence.watched : Occurrence σ → Occurrence (Watched σ)
  | act a => .act a.watched
  | saveNote shortId text => .saveNote shortId text
  | askShutdown => .askShutdown
  | endShutdown answer => .endShutdown answer

theorem Run.saveNote_unwatched (r : Run (Watcher ρ) (Watched σ)) (id : ServiceId)
    (shortId text : String) :
    r.unwatched.saveNote id shortId text = unwatchedAfter (r.saveNote id shortId text) := by
  have hset (access : Watcher ρ) :
      Mirrors (fun x => x) (Notes.set access shortId text)
        (Notes.set access.access shortId text) := by
    unfold Notes.set
    split
    · exact (Mirrors.noted _ _).next fun _ => .pure rfl
    · exact .noted _ _
  unfold saveNote
  rw [unwatched_service]
  cases r.services[id]? with
  | none => rfl
  | some s => exact act_unwatched r (hset s.access)

theorem Run.askShutdown_unwatched (r : Run (Watcher ρ) (Watched σ)) (id : ServiceId) :
    (r.askShutdown id).unwatched = r.unwatched.askShutdown id := by
  unfold askShutdown
  rw [unwatched_service]
  cases r.services[id]? with
  | none => rfl
  | some s =>
    have hact := act_unwatched r (m := Host.shutdown s.access) (.noted _ _)
    exact (congrArg Prod.snd hact).symm

/-- An occurrence in a run under watch is the same occurrence in the run itself. -/
theorem Occurrence.step_unwatched (r : Run (Watcher ρ) (Watched σ)) (o : Occurrence σ) :
    (o.watched.step r).unwatched = o.step r.unwatched := by
  cases o with
  | act a => exact a.step_unwatched r
  | saveNote shortId text => exact (congrArg Prod.snd (r.saveNote_unwatched 0 shortId text)).symm
  | askShutdown => exact r.askShutdown_unwatched 0
  | endShutdown answer => exact (congrArg Prod.snd (r.finishShutdown_unwatched 0 answer)).symm

theorem Run.through_unwatched (occurrences : List (Occurrence σ))
    (r : Run (Watcher ρ) (Watched σ)) :
    (r.through (occurrences.map Occurrence.watched)).unwatched =
      r.unwatched.through occurrences := by
  induction occurrences generalizing r with
  | nil => rfl
  | cons o rest ih =>
    have hrest := ih (o.watched.step r)
    rw [o.step_unwatched r] at hrest
    exact hrest

/-- Whether a call is one that a user has made: it writes or removes a note, or shuts the server
down. -/
def Call.IsUsers : Call → Prop
  | wrote _ _ _ => True
  | removed _ => True
  | replaced _ _ => True
  | askedShutdown _ => True
  | _ => False

/-- Others make calls of a kind. -/
def Run.heard (p : Call → Prop) (w w' : Watched σ) : Prop :=
  ∃ new, w'.calls = w.calls ++ new ∧ ∀ c ∈ new, p c

theorem Notes.emits_set (access : Watcher ρ) (shortId text : String) :
    Emits (σ := σ) (Notes.set access shortId text) fun _ new => ∀ c ∈ new, c.IsUsers := by
  unfold Notes.set
  split
  · refine Emits.all (.noted fun _ => List.forall_mem_singleton.mpr trivial) fun _ => ?_
    exact .pure (List.forall_mem_nil _)
  · exact .noted fun _ => List.forall_mem_singleton.mpr trivial

/-- What is done with a service makes no other calls than those of its tasks. -/
theorem Act.watched_heard (act : Act σ) (p : Call → Prop) : act.watched.Within (Run.heard p) := by
  intro f hf w
  cases act <;> cases hf
  exact ⟨[], (List.append_nil _).symm, List.forall_mem_nil _⟩

/-- What occurs to a service makes no other calls than those of its tasks and its user. -/
theorem Occurrence.watched_within (o : Occurrence σ) :
    o.watched.Within (Watcher ρ) (Run.heard Call.IsUsers) := by
  cases o with
  | act a => exact a.watched_heard _
  | saveNote shortId text => exact fun access w => Notes.emits_set access shortId text w
  | askShutdown => exact fun _ _ => ⟨_, rfl, List.forall_mem_singleton.mpr trivial⟩
  | endShutdown => exact fun _ _ _ _ => ⟨_, rfl, List.forall_mem_singleton.mpr trivial⟩

/-- A new service after some occurrences, with a page that was under watch from the start. -/
def Run.watchedThrough (world : σ) (session : SessionId) (config : Config) (access : ρ)
    (occurrences : List (Occurrence σ)) : Run (Watcher ρ) (Watched σ) :=
  (Run.opened ⟨world, []⟩ session config (Watcher.mk access)).through
    (occurrences.map Occurrence.watched)

theorem Run.watchedThrough_unwatched (world : σ) (session : SessionId) (config : Config)
    (access : ρ) (occurrences : List (Occurrence σ)) :
    (Run.watchedThrough world session config access occurrences).unwatched =
      (Run.opened world session config access).through occurrences :=
  Run.through_unwatched occurrences _

end WalletPage
