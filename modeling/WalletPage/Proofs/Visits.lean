import Mathlib.Data.List.Chain
import WalletPage.Proofs.BinderRuns
import WalletPage.Proofs.Watched

/-! The discipline of a task that polls a new binder. What such a task does to the server and to
the timer depends on nothing but what it meets when it visits its view: whether the anchor is
there, what the server answers, and whether a change of the page is refused. Each visit that
finds the anchor asks once, and the task sleeps once after each visit, up to the one that ends
it. -/

namespace WalletPage

/-! ### Beats -/

/-- What a polling task does to the server and the timer, and its end. -/
inductive Beat where
  | request
  | sleep (delay : Millis)
  | stop
deriving DecidableEq, Repr

/-- The beat of a call, if it is one. Heartbeats do not count. -/
def Call.beat? : Call → Option Beat
  | .asked _ _ => some .request
  | .slept delay => some (.sleep delay)
  | _ => none

/-- The beats in some calls, in order. -/
def beatsOf (calls : List Call) : List Beat :=
  calls.filterMap Call.beat?

/-- What the server answers to a call, at once or in the end. -/
def Call.answer? : Call → Option (Fallible (Option Snapshot))
  | .asked _ reply => some reply.answer
  | _ => none

/-- The answers of the server in some calls, in order. -/
def answersOf (calls : List Call) : List (Fallible (Option Snapshot)) :=
  calls.filterMap Call.answer?

@[simp] theorem beatsOf_append (calls more : List Call) :
    beatsOf (calls ++ more) = beatsOf calls ++ beatsOf more :=
  List.filterMap_append

@[simp] theorem answersOf_append (calls more : List Call) :
    answersOf (calls ++ more) = answersOf calls ++ answersOf more :=
  List.filterMap_append

theorem beatsOf_eq_nil {calls : List Call} (h : ∀ c ∈ calls, c.beat? = none) : beatsOf calls = [] :=
  List.filterMap_eq_nil_iff.mpr h

theorem answersOf_eq_nil {calls : List Call} (h : ∀ c ∈ calls, c.answer? = none) :
    answersOf calls = [] :=
  List.filterMap_eq_nil_iff.mpr h

/-- No call is the end of a task. -/
theorem stop_not_mem_beatsOf (calls : List Call) : .stop ∉ beatsOf calls := by
  intro hstop
  obtain ⟨c, -, hc⟩ := List.mem_filterMap.mp hstop
  cases c <;> simp [Call.beat?] at hc

/-- The beat with which a task turns to what comes next. -/
def Next.beat : Next → Beat
  | .after delay => .sleep delay
  | .stop => .stop

/-- `a.Allows b`: the beat `b` may follow on `a`. Nothing follows on the end, and after a request
comes no other one at once. -/
def Beat.Allows : Beat → Beat → Prop
  | .stop, _ => False
  | .request, .request => False
  | _, _ => True

/-- Between two requests there is a sleep. -/
theorem sleep_mem_between {before between after : List Beat}
    (h : (before ++ .request :: (between ++ .request :: after)).IsChain Beat.Allows) :
    ∃ delay, .sleep delay ∈ between := by
  have htail := h.right_of_append
  cases between with
  | nil => exact (List.isChain_cons_cons.mp htail).1.elim
  | cons beat rest =>
    obtain ⟨hfirst, hrest⟩ := List.isChain_cons_cons.mp htail
    cases beat with
    | request => exact hfirst.elim
    | sleep delay => exact ⟨delay, List.mem_cons_self⟩
    | stop =>
      cases rest with
      | nil => exact (List.isChain_cons_cons.mp hrest).1.elim
      | cons => exact (List.isChain_cons_cons.mp hrest).1.elim

/-- Nothing comes after the end. -/
theorem eq_nil_after_stop {before after : List Beat}
    (h : (before ++ .stop :: after).IsChain Beat.Allows) : after = [] := by
  have htail := h.right_of_append
  cases after with
  | nil => rfl
  | cons beat rest => exact (List.isChain_cons_cons.mp htail).1.elim

/-! ### Visits -/

/-- What a task meets when it visits its view. -/
inductive Visit where
  /-- The anchor is not there. -/
  | absent
  /-- The anchor is there, and the server has not answered yet. -/
  | asking
  /-- The anchor is there and the server has answered. Whether a change of the page was refused
  that was made with the answer. -/
  | answered (answer : Fallible (Option Snapshot)) (isRefused : Bool)

namespace Visit

/-- Whether the anchor is there. -/
def finds : Visit → Bool
  | absent => false
  | _ => true

/-- Whether the question, the view of the snapshot, or its painting has failed. -/
def fails (v : View) : Visit → Bool
  | answered (.error _) _ => true
  | answered (.ok (some s)) isRefused => !s.matchesView v || isRefused
  | _ => false

/-- Whether a snapshot is shown that ends the view. -/
def completes (v : View) : Visit → Bool
  | answered (.ok (some s)) isRefused => s.matchesView v && s.isTerminal && !isRefused
  | _ => false

/-- The beats of a visit: one request if the anchor is there. -/
def beats : Visit → List Beat
  | absent => []
  | _ => [.request]

/-- What comes after a visit, once it is over. `seen` tells whether an earlier visit has found
the anchor. -/
def next? (policy : Policy) (v : View) (seen : Bool) : Visit → Option Next
  | absent =>
    some (if seen && policy.stopWhenAnchorRemoved then .stop else .after policy.mountRetry)
  | asking => none
  | visit =>
    some (if v.isProgress then
        if visit.completes v then .stop else .after policy.progressInterval
      else .after (if visit.fails v then policy.failureRetry else policy.successInterval))

end Visit

/-- The beats of a task that makes these visits, up to the one that ends it. -/
def discipline (policy : Policy) (v : View) : Bool → List Visit → List Beat
  | _, [] => []
  | seen, visit :: rest =>
    visit.beats ++
      match visit.next? policy v seen with
      | some (.after delay) => .sleep delay :: discipline policy v (seen || visit.finds) rest
      | some .stop => [.stop]
      | none => []

section

variable {policy : Policy} {v : View} {seen : Bool} {visits : List Visit} {visit : Visit}

theorem Visit.next?_eq_none_iff : visit.next? policy v seen = none ↔ visit = .asking := by
  cases visit <;> simp [next?]

/-- A visit after others that have not ended the task. -/
theorem discipline_concat (hclosed : .asking ∉ visits)
    (hgoes : .stop ∉ discipline policy v seen visits) :
    discipline policy v seen (visits ++ [visit]) = discipline policy v seen visits ++ visit.beats ++
      ((visit.next? policy v (seen || visits.any Visit.finds)).map Next.beat).toList := by
  induction visits generalizing seen with
  | nil =>
    simp only [List.nil_append, discipline, List.any_nil, Bool.or_false]
    cases visit.next? policy v seen with
    | none => rfl
    | some next => cases next <;> rfl
  | cons first rest ih =>
    obtain ⟨hfirst, hrest⟩ := not_or.mp (mt List.mem_cons.mpr hclosed)
    rw [discipline] at hgoes
    simp only [List.cons_append, discipline]
    cases hnext : first.next? policy v seen with
    | none => exact absurd (Visit.next?_eq_none_iff.mp hnext).symm hfirst
    | some next =>
      cases next with
      | stop => simp [hnext] at hgoes
      | after delay =>
        have hlater : .stop ∉ discipline policy v (seen || first.finds) rest := by
          simp only [hnext, List.mem_append, List.mem_cons, not_or] at hgoes
          exact hgoes.2.2
        simp [ih hrest hlater, Bool.or_assoc]

theorem discipline_isChain (policy : Policy) (v : View) (seen : Bool) (visits : List Visit) :
    (discipline policy v seen visits).IsChain Beat.Allows := by
  induction visits generalizing seen with
  | nil => exact List.isChain_nil
  | cons visit rest ih =>
    have hlast : (visit.beats ++ [Beat.stop]).IsChain Beat.Allows := by
      cases visit <;> simp [Visit.beats, Beat.Allows]
    have hslept (delay : Millis) : (visit.beats ++
        .sleep delay :: discipline policy v (seen || visit.finds) rest).IsChain Beat.Allows := by
      have hsleep : (.sleep delay ::
          discipline policy v (seen || visit.finds) rest).IsChain Beat.Allows :=
        List.isChain_cons.mpr ⟨fun beat _ => trivial, ih _⟩
      cases visit with
      | absent => exact hsleep
      | asking => exact List.isChain_cons_cons.mpr ⟨trivial, hsleep⟩
      | answered => exact List.isChain_cons_cons.mpr ⟨trivial, hsleep⟩
    rw [discipline]
    cases visit.next? policy v seen with
    | none => cases visit <;> simp [Visit.beats]
    | some next =>
      cases next with
      | stop => exact hlast
      | after delay => exact hslept delay

end

end WalletPage
