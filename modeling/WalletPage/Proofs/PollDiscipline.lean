import WalletPage.Proofs.SoloTask
import WalletPage.Proofs.TransitionLatch
import WalletPage.Proofs.Visits

/-! A task that polls a new binder keeps to the discipline, however the page, the server and the
timer behave meanwhile. Its history is told by a diary: which cycles it has closed, and for which
answer it waits. -/

namespace WalletPage

variable {ρ σ : Type}

/-! ### Cycles as visits -/

/-- The visit of a cycle that has come to its end. -/
def Closing.visit (c : Closing) : Visit :=
  match c.answer with
  | none => .absent
  | some answer => .answered answer (c.calls.any Call.isRefusal)

theorem Closing.visit_ne_asking (c : Closing) : c.visit ≠ .asking := by
  unfold visit
  split <;> nofun

theorem Closing.finds_visit (c : Closing) : c.visit.finds = c.answer.isSome := by
  unfold visit
  cases c.answer <;> rfl

theorem Closing.beats_visit (c : Closing) :
    c.visit.beats = c.answer.toList.map fun _ => Beat.request := by
  unfold visit
  cases c.answer <;> rfl

/-- Once the anchor is there, it does not matter whether it was found before. -/
theorem Visit.next?_of_finds {policy : Policy} {v : View} {visit : Visit}
    (h : visit.finds = true) (seen seen' : Bool) :
    visit.next? policy v seen = visit.next? policy v seen' := by
  cases visit with
  | absent => contradiction
  | asking => rfl
  | answered => rfl

theorem Closing.completes_visit (c : Closing) : c.visit.completes c.view = c.completes := by
  unfold visit completes
  rcases c.answer with - | (- | (- | s)) <;> rfl

namespace Binder

variable {policy : Policy} {task : TaskId} {b b' : Binder (Watcher ρ)} {c : Closing}
  {calls : List Call}

theorem shownOutcome_ne_failed (b : Binder ρ) (s : Snapshot) (changed : Bool) :
    b.shownOutcome s changed ≠ .failed := by
  unfold shownOutcome
  cases b.transits s <;> cases changed <;> simp

/-- A cycle fails if the question, the view of the snapshot, or its painting fails. -/
theorem Concludes.failed_iff {answer : Fallible (Option Snapshot)} {outcome : Outcome}
    (h : b.Concludes answer b' outcome calls) :
    outcome = .failed ↔
      (Visit.answered answer (calls.any Call.isRefusal)).fails b.view = true := by
  cases h with
  | failed => simp [Visit.fails]
  | empty => simp [Visit.fails]
  | foreign hs => simp [Visit.fails, hs]
  | refused hs hrefused => simp [Visit.fails, hrefused]
  | @shown s _ changed hs htaken =>
    simp [Visit.fails, hs, htaken, b.shownOutcome_ne_failed s changed]

/-- What comes after a cycle is what comes after its visit, unless progress was completed
before. -/
theorem Closes.next?_visit (h : b.Closes policy task c calls b')
    (hlatch : b.view.isProgress = true → b.transitioned = false) :
    c.visit.next? policy b.view b.anchorSeen = some c.next := by
  have hcompletes := h.terminal_iff.1
  rw [← c.completes_visit, h.marks.1] at hcompletes
  cases h with
  | givesUp hnext => rw [hnext]; rfl
  | concludes hconcludes huses hnext =>
    have hfails := hconcludes.failed_iff
    rw [hnext, policy.next_of_found b.view hconcludes.ne_anchorAbsent]
    simp only [hfails, hcompletes]
    cases hprogress : b.view.isProgress with
    | true => simp [Visit.next?, Closing.visit, hprogress, hlatch hprogress]
    | false => simp [Visit.next?, Closing.visit, hprogress]

/-- A view whose task goes on after a cycle is not complete, if it shows progress. -/
theorem Closes.latch (h : b.Closes policy task c calls b')
    (hlatch : b.view.isProgress = true → b.transitioned = false) (hgoes : c.next ≠ .stop)
    (hprogress : b.view.isProgress = true) : b'.transitioned = false := by
  have hfirst := hlatch hprogress
  obtain ⟨hview, -, htransitioned⟩ := h.marks
  rw [htransitioned, hfirst, Bool.false_or]
  by_contra hcompletes
  rw [Bool.not_eq_false] at hcompletes
  apply hgoes
  have hterminal : c.outcome = .terminal := h.terminal_iff.1.mpr ⟨hcompletes, hfirst⟩
  rw [h.next_eq, hview, policy.next_of_found b.view (h.ne_anchorAbsent hcompletes),
    if_pos hprogress, if_pos hterminal]

end Binder

/-! ### The diary of a task -/

/-- What one task has done: the cycles that it has closed, and the answer that it waits for. -/
structure Diary where
  cycles : List Closing := []
  awaited? : Option (Fallible (Option Snapshot)) := none

namespace Diary

/-- What has happened to a view. The task looks for the anchor at each visit, and closes each
cycle before it begins another one. -/
def events (d : Diary) (v : View) : List PollEvent :=
  d.cycles.flatMap (fun c => [.looked 0 v c.answer.isSome, .closed c]) ++
    d.awaited?.toList.map fun _ => .looked 0 v true

/-- What the task has met. -/
def visits (d : Diary) : List Visit :=
  d.cycles.map Closing.visit ++ d.awaited?.toList.map fun _ => .asking

/-- What the server has answered. -/
def answers (d : Diary) : List (Fallible (Option Snapshot)) :=
  d.cycles.filterMap Closing.answer ++ d.awaited?.toList

end Diary

/-- The beats that a stage is owed: its end, once it has come. -/
def Stage.ending (s : Stage ρ) : List Beat :=
  if s.phase?.isSome then [] else [.stop]

/-- `s.Follows policy v d events calls`: the diary tells how a task has come to a stage, with
those events and calls. -/
structure Stage.Follows (policy : Policy) (v : View) (s : Stage ρ) (d : Diary)
    (events : List PollEvent) (calls : List Call) : Prop where
  view : s.binder.view = v
  views : ∀ c ∈ d.cycles, c.view = v
  awaited : d.awaited? = s.phase?.bind Phase.answer?
  events : events = d.events v
  answers : answersOf calls = d.answers
  beats : beatsOf calls ++ s.ending = discipline policy v false (d.cycles.map Closing.visit) ++
    d.awaited?.toList.map fun _ => .request
  seen : s.binder.anchorSeen = d.visits.any Visit.finds
  latch : s.binder.view.isProgress = true → s.phase?.isSome = true → s.binder.transitioned = false

section

variable {policy : Policy} {v : View} {b b' : Binder (Watcher ρ)} {d : Diary}
  {phase phase' : Phase (Fallible (Option Snapshot))} {events : List PollEvent}
  {calls first new : List Call} {c : Closing}

theorem Phase.answer?_of_seeks {α : Type} {phase : Phase α} (h : phase.Seeks) :
    phase.answer? = none := by
  cases phase <;> first | rfl | exact h.elim

/-- Painting from the cache asks nothing, and takes no time. -/
theorem Binder.Recalls.beat? {c : Call} (h : b.Recalls first c) :
    c.beat? = none ∧ c.answer? = none := by
  cases h <;> exact ⟨rfl, rfl⟩

/-- Using an answer asks nothing, and takes no time. -/
theorem Binder.Uses.beat? {answer : Fallible (Option Snapshot)} {c : Call}
    (h : b.Uses answer first c) : c.beat? = none ∧ c.answer? = none := by
  cases h <;> exact ⟨rfl, rfl⟩

/-- At the end of a cycle there is one beat, for what comes next. -/
theorem Binder.Closes.beats {task : TaskId} (h : b.Closes policy task c calls b') :
    beatsOf calls ++ Stage.ending ⟨b', c.next.phase?⟩ = [c.next.beat] ∧ answersOf calls = [] := by
  have hused : beatsOf c.calls = [] ∧ answersOf c.calls = [] := by
    cases h with
    | givesUp => exact ⟨rfl, rfl⟩
    | concludes _ huses =>
      exact ⟨beatsOf_eq_nil fun c hc => (huses c hc).beat?.1,
        answersOf_eq_nil fun c hc => (huses c hc).beat?.2⟩
  rw [h.calls_eq, beatsOf_append, answersOf_append, hused.1, hused.2]
  cases c.next <;> exact ⟨rfl, rfl⟩

/-- The first stage, of a new binder. -/
theorem Stage.Follows.start (x : Solo (Watcher ρ) (Watched σ)) :
    Stage.Follows x.policy x.view ⟨x.binder, some .start⟩ {} [] [] where
  view := rfl
  views := List.forall_mem_nil _
  awaited := rfl
  events := rfl
  answers := rfl
  beats := rfl
  seen := rfl
  latch _ _ := rfl

/-- The end of a sleep, or an answer that is released, does not count. -/
theorem Stage.Follows.resume (h : Stage.Follows policy v ⟨b, some phase⟩ d events calls)
    (hanswer : phase'.answer? = phase.answer?) :
    Stage.Follows policy v ⟨b, some phase'⟩ d events calls :=
  ⟨h.view, h.views, h.awaited.trans hanswer.symm, h.events, h.answers, h.beats, h.seen, h.latch⟩

/-- A task asks. -/
theorem Stage.Follows.asks (h : Stage.Follows policy v ⟨b, some phase⟩ d events calls)
    (hphase : phase.answer? = none) (hopens : b.Opens b' first) (request : Request)
    (reply : Reply (Fallible (Option Snapshot))) (hphase' : phase'.answer? = some reply.answer) :
    Stage.Follows policy v ⟨b', some phase'⟩ { d with awaited? := some reply.answer }
      (events ++ [.looked 0 b.view true]) (calls ++ (first ++ [.asked request reply])) := by
  obtain ⟨shown, rfl⟩ := hopens.binder
  have hview : b.view = v := h.view
  have hnothing : d.awaited? = none := h.awaited.trans hphase
  have hbeats : beatsOf first = [] := beatsOf_eq_nil fun c hc => (hopens.calls c hc).beat?.1
  have hanswers : answersOf first = [] := answersOf_eq_nil fun c hc => (hopens.calls c hc).beat?.2
  obtain ⟨-, hviews, -, hevents, hanswered, hbeaten, -, hlatch⟩ := h
  refine ⟨hview, hviews, hphase'.symm, ?_, ?_, ?_, ?_, fun hprogress _ => hlatch hprogress rfl⟩
  · rw [hevents, hview]
    simp [Diary.events, hnothing]
  · rw [answersOf_append, hanswered, answersOf_append, hanswers]
    simp [Diary.answers, hnothing, answersOf, Call.answer?]
  · simp only [Stage.ending, Option.isSome_some, if_true, List.append_nil, hnothing] at hbeaten
    rw [beatsOf_append, beatsOf_append, hbeats, hbeaten]
    simp [Stage.ending, beatsOf, Call.beat?]
  · simp [Diary.visits, Visit.finds]

theorem Diary.asking_not_mem (d : Diary) : .asking ∉ d.cycles.map Closing.visit := by
  intro hasking
  obtain ⟨c, -, hc⟩ := List.mem_map.mp hasking
  exact c.visit_ne_asking hc

/-- The visits of a task that goes on have not ended it. -/
theorem Stage.Follows.stop_not_mem {s : Stage ρ} (h : s.Follows policy v d events calls)
    (hgoes : s.phase?.isSome = true) :
    .stop ∉ discipline policy v false (d.cycles.map Closing.visit) := by
  intro hstop
  have hbeats := h.beats
  rw [Stage.ending, if_pos hgoes, List.append_nil] at hbeats
  apply stop_not_mem_beatsOf calls
  rw [hbeats]
  exact List.mem_append_left _ hstop

/-- The beats of a task are those of its visits. -/
theorem Stage.Follows.discipline_visits {s : Stage ρ} (h : s.Follows policy v d events calls) :
    beatsOf calls ++ s.ending = discipline policy v false d.visits := by
  rw [h.beats, Diary.visits]
  cases hawaited : d.awaited? with
  | none => simp
  | some answer =>
    have hgoes : s.phase?.isSome = true := by
      cases hphase : s.phase? with
      | none => simp [h.awaited, hphase] at hawaited
      | some => rfl
    rw [Option.toList_some, List.map_singleton, List.map_singleton,
      discipline_concat d.asking_not_mem (h.stop_not_mem hgoes)]
    simp [Visit.beats, Visit.next?]

/-- A task closes a cycle, whose events the diary tells but for the look. -/
theorem Stage.Follows.closes (h : Stage.Follows policy v ⟨b, some phase⟩ d events calls)
    (hphase : phase.answer? = c.answer) (hcloses : b.Closes policy 0 c new b') :
    Stage.Follows policy v ⟨b', c.next.phase?⟩ { cycles := d.cycles ++ [c] }
      (Diary.events { cycles := d.cycles } v ++ [.looked 0 v c.answer.isSome, .closed c])
      (calls ++ new) := by
  have hview : b.view = v := h.view
  have hlatch : b.view.isProgress = true → b.transitioned = false := fun hp => h.latch hp rfl
  have hanswer : d.awaited? = c.answer := h.awaited.trans hphase
  obtain ⟨hsame, hseen, -⟩ := hcloses.marks
  obtain ⟨hbeat, hsilent⟩ := hcloses.beats
  have hgoes := h.stop_not_mem rfl
  obtain ⟨-, hviews, -, -, hanswered, hbeaten, hfound, -⟩ := h
  have hseen' : b'.anchorSeen =
      ((d.cycles.map Closing.visit).any Visit.finds || c.visit.finds) := by
    rw [hseen, c.finds_visit, ← hanswer]
    rw [Diary.visits, List.any_append] at hfound
    rw [hfound]
    cases d.awaited? <;> rfl
  -- Whether the anchor was found before matters only if it is missing now.
  have hnext : c.visit.next? policy v (false || (d.cycles.map Closing.visit).any Visit.finds) =
      some c.next := by
    rw [← hcloses.next?_visit hlatch, hview]
    cases hfinds : c.visit.finds with
    | true => exact Visit.next?_of_finds hfinds _ _
    | false => rw [← hseen, hseen', hfinds, Bool.or_false, Bool.false_or]
  have hbeaten' : beatsOf calls = discipline policy v false (d.cycles.map Closing.visit) ++
      c.visit.beats := by
    rw [c.beats_visit, ← hanswer, ← hbeaten]
    exact (List.append_nil _).symm
  refine ⟨hcloses.kin.view.trans hview, fun c' hc' => ?_, ?_, ?_, ?_, ?_, ?_, fun hp hlive => ?_⟩
  · rcases List.mem_append.mp hc' with hc' | hc'
    · exact hviews c' hc'
    · rw [List.mem_singleton.mp hc', hsame, hview]
  · cases c.next <;> rfl
  · simp [Diary.events]
  · rw [answersOf_append, hanswered, hsilent, Diary.answers, hanswer]
    cases hc : c.answer <;> simp [Diary.answers, hc]
  · rw [beatsOf_append, List.append_assoc, hbeat, hbeaten', List.map_append, List.map_singleton,
      discipline_concat d.asking_not_mem hgoes, hnext]
    simp
  · simp [Diary.visits, hseen']
  · rw [hcloses.kin.view] at hp
    apply hcloses.latch hlatch _ hp
    intro hstop
    rw [hstop] at hlive
    contradiction

/-- A task closes a cycle with the answer that it has waited for. -/
theorem Stage.Follows.concludes {answer : Fallible (Option Snapshot)}
    (h : Stage.Follows policy v ⟨b, some phase⟩ d events calls)
    (hphase : phase.answer? = some answer) (hcloses : b.Closes policy 0 c new b')
    (hanswer : c.answer = some answer) :
    Stage.Follows policy v ⟨b', c.next.phase?⟩ { cycles := d.cycles ++ [c] }
      (events ++ [.closed c]) (calls ++ new) := by
  have hawaited : d.awaited? = some answer := h.awaited.trans hphase
  have hevents : events ++ [.closed c] = Diary.events { cycles := d.cycles } v ++
      [.looked 0 v c.answer.isSome, .closed c] := by
    rw [h.events]
    simp [Diary.events, hawaited, hanswer]
  rw [hevents]
  exact h.closes (hphase.trans hanswer.symm) hcloses

/-- A task closes a cycle without an anchor. -/
theorem Stage.Follows.misses (h : Stage.Follows policy v ⟨b, some phase⟩ d events calls)
    (hphase : phase.answer? = none) (hcloses : b.Closes policy 0 c new b')
    (hanswer : c.answer = none) :
    Stage.Follows policy v ⟨b', c.next.phase?⟩ { cycles := d.cycles ++ [c] }
      (events ++ [.looked 0 b.view false, .closed c]) (calls ++ new) := by
  have hview : b.view = v := h.view
  have hawaited : d.awaited? = none := h.awaited.trans hphase
  have hevents : events ++ [.looked 0 b.view false, .closed c] =
      Diary.events { cycles := d.cycles } v ++ [.looked 0 v c.answer.isSome, .closed c] := by
    rw [h.events, hview]
    simp [Diary.events, hawaited, hanswer]
  rw [hevents]
  exact h.closes (hphase.trans hanswer.symm) hcloses

/-- What a stride leads to is told by a diary. -/
theorem Stage.Strides.follows {s t : Stage ρ} (h : s.Strides policy events calls t)
    (hstart : s.Follows policy v {} [] []) : ∃ d, t.Follows policy v d events calls := by
  induction h with
  | refl => exact ⟨{}, hstart⟩
  | @awakens events calls b phase _ ih =>
    obtain ⟨d, hd⟩ := ih
    exact ⟨d, hd.resume (by cases phase <;> rfl)⟩
  | @hears events calls b phase _ ih =>
    obtain ⟨d, hd⟩ := ih
    exact ⟨d, hd.resume (by cases phase <;> rfl)⟩
  | asks _ hopens ih =>
    obtain ⟨d, hd⟩ := ih
    exact ⟨_, hd.asks rfl hopens _ (.held _ _) rfl⟩
  | @ends events more calls new b b' phase next _ htells ih =>
    obtain ⟨d, hd⟩ := ih
    cases htells with
    | misses hseeks hcloses hanswer =>
      exact ⟨_, hd.misses (Phase.answer?_of_seeks hseeks) hcloses hanswer⟩
    | @answers _ y _ first calls' page answer c hseeks hopens hcloses hanswer =>
      have hasked : Stage.Follows policy v ⟨y, some (.answered answer)⟩ _ _ _ :=
        hd.asks (Phase.answer?_of_seeks hseeks) hopens (b.request page) (.ready answer) rfl
      have hdone := hasked.concludes rfl hcloses hanswer
      rw [List.append_assoc, List.append_assoc] at hdone
      exact ⟨_, hdone⟩
    | concludes hcloses hanswer => exact ⟨_, hd.concludes rfl hcloses hanswer⟩

end

/-! ### Runs -/

namespace Solo

/-- The same page under watch from the start. -/
def watched (x : Solo ρ σ) : Solo (Watcher ρ) (Watched σ) :=
  { x with world := ⟨x.world, []⟩, access := ⟨x.access⟩ }

variable [Host ρ σ] (x : Solo ρ σ)

/-- The page under watch after some acts. -/
def underWatch (acts : List (Act σ)) : Run (Watcher ρ) (Watched σ) :=
  x.watched.start.after (acts.map Act.watched)

/-- The history of the task after some acts. -/
def history (acts : List (Act σ)) : List PollEvent :=
  x.watched.start.history (acts.map Act.watched)

/-- The beats of the task, with its end if that has come. -/
def beats (acts : List (Act σ)) : List Beat :=
  beatsOf (x.underWatch acts).world.calls ++
    if (x.start.after acts).executor.hasEnded 0 then [.stop] else []

theorem underWatch_unwatched (acts : List (Act σ)) :
    (x.underWatch acts).unwatched = x.start.after acts :=
  Run.after_unwatched acts _

theorem hasEnded_eq (acts : List (Act σ)) : (x.start.after acts).executor.hasEnded 0 =
    (x.underWatch acts).executor.hasEnded 0 := by
  rw [← underWatch_unwatched]
  exact Executor.hasEnded_map _ _ 0

theorem history_append (acts more : List (Act σ)) : x.history (acts ++ more) =
    x.history acts ++ (x.underWatch acts).history (more.map Act.watched) := by
  rw [history, List.map_append, Run.history_append]
  rfl

theorem underWatch_append (acts more : List (Act σ)) : x.underWatch (acts ++ more) =
    (x.underWatch acts).after (more.map Act.watched) := by
  rw [underWatch, List.map_append]
  exact List.foldl_append

end Solo

/-- What one task has done that polls a fresh binder. -/
structure Disciplined (policy : Policy) (v : View) (history : List PollEvent) (calls : List Call)
    (beats : List Beat) : Prop where
  /-- The task makes one visit after the other, and its beats are those of the visits. -/
  diary : ∃ d : Diary, history = d.events v ∧ (∀ c ∈ d.cycles, c.view = v) ∧
    answersOf calls = d.answers ∧ beats = discipline policy v false d.visits
  /-- Between two requests there is a sleep. -/
  sleeps : ∀ before between after, beats = before ++ .request :: (between ++ .request :: after) →
    ∃ delay, .sleep delay ∈ between
  /-- Nothing comes after the end. -/
  ends : ∀ before after, beats = before ++ .stop :: after → after = []

section

variable [Host ρ σ]

/-- A task that has ended does nothing more. -/
theorem Run.Alone.rests {policy : Policy} {r : Run (Watcher ρ) (Watched σ)}
    {b : Binder (Watcher ρ)} (h : r.Alone policy ⟨b, none⟩) (acts : List (Act σ)) :
    r.history (acts.map Act.watched) = [] ∧
      (r.after (acts.map Act.watched)).world.calls = r.world.calls ∧
      (r.after (acts.map Act.watched)).executor.hasEnded 0 = true := by
  obtain ⟨t, new, halone, hcalls, hstrides⟩ := h.after_walks acts
  obtain ⟨hevents, rfl, hended⟩ := hstrides.of_ended
  rw [List.append_nil] at hcalls
  exact ⟨hevents, hcalls, halone.hasEnded_iff.mpr hended⟩

namespace Solo

variable (x : Solo ρ σ) (acts : List (Act σ))

/-- Whatever happens, the task is alone at a stage, and a diary tells how it has come there. -/
theorem reaches : ∃ s d, (x.underWatch acts).Alone x.policy s ∧
    s.Follows x.policy x.view d (x.history acts) (x.underWatch acts).world.calls := by
  have hwalks : x.watched.start.Walks x.policy _ (x.history acts) (x.underWatch acts) :=
    (Run.start_alone x.watched).after_walks acts
  obtain ⟨s, calls, halone, hcalls, hstrides⟩ := hwalks
  have hstart : Stage.Follows x.policy x.view _ {} [] [] := Stage.Follows.start x.watched
  obtain ⟨d, hd⟩ := hstrides.follows hstart
  have hcalls' : (x.underWatch acts).world.calls = calls := hcalls
  rw [← hcalls'] at hd
  exact ⟨s, d, halone, hd⟩

theorem disciplined : Disciplined x.policy x.view (x.history acts)
    (x.underWatch acts).world.calls (x.beats acts) := by
  obtain ⟨s, d, halone, hd⟩ := x.reaches acts
  have hbeats : x.beats acts = discipline x.policy x.view false d.visits := by
    rw [← hd.discipline_visits, beats, x.hasEnded_eq]
    cases hphase : s.phase? <;> simp [halone.hasEnded_iff, Stage.ending, hphase]
  have hchain := discipline_isChain x.policy x.view false d.visits
  rw [← hbeats] at hchain
  refine ⟨⟨d, hd.events, hd.views, hd.answers, hbeats⟩, fun before between after hbetween => ?_,
    fun before after hend => ?_⟩
  · rw [hbetween] at hchain
    exact sleep_mem_between hchain
  · rw [hend] at hchain
    exact eq_nil_after_stop hchain

variable {x acts}

theorem still_of_hasEnded (h : (x.start.after acts).executor.hasEnded 0 = true)
    (more : List (Act σ)) :
    x.history (acts ++ more) = x.history acts ∧ x.beats (acts ++ more) = x.beats acts := by
  obtain ⟨⟨b, phase?⟩, -, halone, -⟩ := x.reaches acts
  have hended := h
  rw [x.hasEnded_eq, halone.hasEnded_iff] at hended
  dsimp only at hended
  subst hended
  obtain ⟨hnothing, hsame, hstill⟩ := halone.rests more
  rw [← x.underWatch_append, ← x.hasEnded_eq] at hstill
  rw [← x.underWatch_append] at hsame
  constructor
  · rw [x.history_append, hnothing, List.append_nil]
  · rw [beats, beats, hsame, hstill, h]

theorem goes_on_of_not_hasEnded (h : ¬ (x.start.after acts).executor.hasEnded 0 = true) :
    ∃ e more, x.history (acts ++ Run.urged) = x.history acts ++ e :: more := by
  obtain ⟨⟨b, phase?⟩, -, halone, -⟩ := x.reaches acts
  rw [x.hasEnded_eq, halone.hasEnded_iff] at h
  obtain ⟨phase, rfl⟩ := Option.ne_none_iff_exists'.mp h
  obtain ⟨e, more, hmore⟩ := List.exists_cons_of_ne_nil halone.goes_on
  exact ⟨e, more, by rw [x.history_append, hmore]⟩

/-- One task that polls a new binder keeps to the discipline, whatever the page, the server and
the timer do meanwhile: a visit without the anchor makes no request, one with it makes just one,
and after each visit the task sleeps once, for as long as the policy says, or comes to its end.
It goes on as long as it has not ended, and then does nothing more. -/
theorem polls_disciplined (x : Solo ρ σ) (acts : List (Act σ)) :
    (x.underWatch acts).unwatched = x.start.after acts ∧
      Disciplined x.policy x.view (x.history acts) (x.underWatch acts).world.calls
        (x.beats acts) ∧
      if (x.start.after acts).executor.hasEnded 0 then
        ∀ more, x.history (acts ++ more) = x.history acts ∧ x.beats (acts ++ more) = x.beats acts
      else ∃ e more, x.history (acts ++ Run.urged) = x.history acts ++ e :: more := by
  refine ⟨x.underWatch_unwatched acts, x.disciplined acts, ?_⟩
  split
  · exact still_of_hasEnded ‹_›
  · exact goes_on_of_not_hasEnded ‹_›

end Solo

end

end WalletPage
