import WalletPage.Proofs.AnyHost
import WalletPage.Proofs.Turns

/-! A page under watch: any page, with a record of the calls that read its store, change it,
or reach the server. What the halves of a cycle add to the record is said here, for every
page, so that later modules can speak of the calls of whole runs. -/

namespace WalletPage

variable {ρ σ : Type}

/-- A call, with what came of it. -/
inductive Call where
  | read (key : String) (found : Option String)
  | wrote (key value : String) (result : Fallible Unit)
  | removed (key : String)
  | applied (u : Update) (result : Fallible Nat)
  | submitted (form : String) (isPresent : Bool)
  | replaced (container html : String)
  | asked (request : Request) (reply : Reply (Fallible (Option Snapshot)))
  | askedShutdown (reply : Reply (Fallible Bool))
  | beat (reply : Reply (Fallible Unit))
  | slept (delay : Nat)
deriving DecidableEq

/-- A page with the calls that were made, the latest last. -/
structure Watched (σ : Type) where
  world : σ
  calls : List Call := []

/-- An access to a page under watch. -/
structure Watcher (ρ : Type) where
  access : ρ

namespace Watched

/-- Does something that is not recorded. -/
def quiet {α : Type} (m : StateM σ α) : StateM (Watched σ) α := fun w =>
  ((m.run w.world).1, { w with world := (m.run w.world).2 })

/-- Does something and records it. -/
def noted {α : Type} (m : StateM σ α) (call : α → Call) : StateM (Watched σ) α := fun w =>
  ((m.run w.world).1,
    { world := (m.run w.world).2, calls := w.calls ++ [call (m.run w.world).1] })

end Watched

instance [Host ρ σ] : Host (Watcher ρ) (Watched σ) where
  get? x key := Watched.noted (Host.get? x.access key) (.read key)
  set x key value := Watched.noted (Host.set x.access key value) (.wrote key value)
  remove x key := Watched.noted (Host.remove x.access key) fun _ => .removed key
  keys x := Watched.quiet (Host.keys x.access)
  anchorPresent x target := Watched.quiet (Host.anchorPresent x.access target)
  apply x u := Watched.noted (Host.apply x.access u) (.applied u)
  submitForm x form := Watched.noted (Host.submitForm x.access form) (.submitted form)
  replacePage x container html :=
    Watched.noted (Host.replacePage x.access container html) fun _ => .replaced container html
  cacheBuster x := Watched.quiet (Host.cacheBuster x.access)
  fetch x request := Watched.noted (Host.fetch x.access request) (.asked request)
  shutdown x := Watched.noted (Host.shutdown x.access) .askedShutdown
  heartbeat x := Watched.noted (Host.heartbeat x.access) .beat
  sleep x delay := Watched.noted (Host.sleep x.access delay) fun _ => .slept delay
  log x entry := Watched.quiet (Host.log x.access entry)

/-- Whether an action adds calls to the record that go with its result. -/
def Emits {α : Type} (m : StateM (Watched σ) α) (P : α → List Call → Prop) : Prop :=
  ∀ w, ∃ new, (m.run w).2.calls = w.calls ++ new ∧ P (m.run w).1 new

namespace Emits

variable {α β : Type} {P Q : α → List Call → Prop}

theorem bind {m : StateM (Watched σ) α} {f : α → StateM (Watched σ) β}
    {R : β → List Call → Prop} (hm : Emits m P)
    (hf : ∀ a first, P a first → Emits (f a) fun b more => R b (first ++ more)) :
    Emits (m >>= f) R := by
  intro w
  obtain ⟨first, hfirst, ha⟩ := hm w
  obtain ⟨more, hmore, hb⟩ := hf _ first ha (m.run w).2
  refine ⟨first ++ more, ?_, hb⟩
  show ((f (m.run w).1).run (m.run w).2).2.calls = _
  rw [hmore, hfirst, List.append_assoc]

theorem pure {a : α} (h : P a []) : Emits (Pure.pure a : StateM (Watched σ) α) P :=
  fun w => ⟨[], (List.append_nil w.calls).symm, h⟩

theorem mono {m : StateM (Watched σ) α} (hm : Emits m P) (h : ∀ a new, P a new → Q a new) :
    Emits m Q := by
  intro w
  obtain ⟨new, hnew, ha⟩ := hm w
  exact ⟨new, hnew, h _ new ha⟩

theorem quiet {m : StateM σ α} (h : ∀ a, P a []) : Emits (Watched.quiet m) P :=
  fun w => ⟨[], (List.append_nil w.calls).symm, h _⟩

theorem noted {m : StateM σ α} {call : α → Call} (h : ∀ a, P a [call a]) :
    Emits (Watched.noted m call) P :=
  fun w => ⟨_, rfl, h (m.run w.world).1⟩

/-- What is said of all calls of an action is said of those of both its parts, if it is said of
them together. -/
theorem append {m : StateM (Watched σ) α} {q : List Call → Prop}
    (happend : ∀ first more, q first → q more → q (first ++ more))
    (hm : Emits m fun _ new => q new) {f : α → StateM (Watched σ) β}
    (hf : ∀ a, Emits (f a) fun _ new => q new) : Emits (m >>= f) fun _ new => q new :=
  hm.bind fun a first hfirst => (hf a).mono fun _ more hmore => happend first more hfirst hmore

/-- An action whose calls do not bear on what comes after. -/
theorem all {m : StateM (Watched σ) α} {p : Call → Prop} (hm : Emits m fun _ new => ∀ c ∈ new, p c)
    {f : α → StateM (Watched σ) β} (hf : ∀ a, Emits (f a) fun _ new => ∀ c ∈ new, p c) :
    Emits (m >>= f) fun _ new => ∀ c ∈ new, p c :=
  hm.append (q := fun new => ∀ c ∈ new, p c)
    (fun _ _ hfirst hmore => List.forall_mem_append.mpr ⟨hfirst, hmore⟩) hf

/-- An action without calls of its own. -/
theorem silent {m : StateM (Watched σ) α} (hm : Emits m fun _ new => new = [])
    {f : α → StateM (Watched σ) β} {R : β → List Call → Prop} (hf : ∀ a, Emits (f a) R) :
    Emits (m >>= f) R :=
  hm.bind fun a first hfirst => by
    subst hfirst
    exact hf a

end Emits

/-! ### The calls of a cycle -/

/-- The key of a binder's entry in the cache. -/
def Binder.cacheKey (b : Binder ρ) : String :=
  b.view.cacheKey b.session.text

/-- Whether an entry of the cache is a snapshot of a view. -/
def Snapshot.DecodedFrom (s : Snapshot) (raw : String) (v : View) : Prop :=
  Snapshot.ofStored raw = .ok s ∧ s.matchesView v = true

/-- Whether the notes that a rendering shows with a snapshot are what some calls have read. -/
def RenderContext.ReadIn (ctx : RenderContext) (s : Snapshot) (calls : List Call) : Prop :=
  ∀ id ∈ Binder.shortIds s, .read (Notes.key id) (ctx.note id) ∈ calls

/-- `Applies us calls isWhole`: the calls make the changes `us` in order, up to one that is
refused. `isWhole` tells whether none was. -/
inductive Applies : List Update → List Call → Bool → Prop
  | done : Applies [] [] true
  | taken {u : Update} {rest : List Update} {calls : List Call} {isWhole : Bool} (count : Nat)
    (h : Applies rest calls isWhole) :
    Applies (u :: rest) (.applied u (.ok count) :: calls) isWhole
  | refused {u : Update} {rest : List Update} (p : Problem) :
    Applies (u :: rest) [.applied u (.error p)] false

/-- `Recollection session v found calls shown`: an attempt to paint a view from the cache, which
holds `found` for it. An entry is dropped if and only if it is no snapshot of the view. `shown` is
the snapshot if it was painted to the end. -/
inductive Recollection (session : SessionId) (v : View) :
    Option String → List Call → Option Snapshot → Prop
  | absent : Recollection session v none [.read (v.cacheKey session.text) none] none
  | spoilt {raw : String} (hraw : ∀ s : Snapshot, ¬ s.DecodedFrom raw v) :
    Recollection session v (some raw)
      [.read (v.cacheKey session.text) (some raw), .removed (v.cacheKey session.text)] none
  | tried {raw : String} {s : Snapshot} {ctx : RenderContext} {reads taken : List Call}
    {isWhole : Bool} (hs : s.DecodedFrom raw v)
    (hreads : ∀ c ∈ reads, ∃ key note, c = .read key note) (hctx : ctx.ReadIn s reads)
    (happlies : Applies (s.updates v ctx) taken isWhole) :
    Recollection session v (some raw)
      (.read (v.cacheKey session.text) (some raw) :: (reads ++ taken))
      (if isWhole then some s else none)

/-- What the first half of a cycle that asks leaves behind, apart from the request: the mark
on the binder, and an attempt to paint from the cache, if nothing was known of the view. -/
inductive Binder.Opens (b : Binder ρ) : Binder ρ → List Call → Prop
  | straight : Opens b { b with anchorSeen := true } []
  | recalls {found : Option String} {calls : List Call} {shown : Option Snapshot}
    (hseen : b.anchorSeen = false) (hlast : b.lastRendered = none)
    (hview : b.view.hydrates = true) (h : Recollection b.session b.view found calls shown) :
    Opens b { b with anchorSeen := true, lastRendered := shown } calls

/-- A call of the attempt to paint from the cache: what is painted was read under the key
of the binder, and only what was read there and is no snapshot of the view is removed. -/
inductive Binder.Recalls (b : Binder ρ) (calls : List Call) : Call → Prop
  | read (key : String) (found : Option String) : Recalls b calls (.read key found)
  | drop {raw : String} (hread : .read b.cacheKey (some raw) ∈ calls)
    (hraw : ∀ s : Snapshot, ¬ s.DecodedFrom raw b.view) : Recalls b calls (.removed b.cacheKey)
  | paint {raw : String} {s : Snapshot} {ctx : RenderContext} {u : Update}
    {result : Fallible Nat} (hread : .read b.cacheKey (some raw) ∈ calls)
    (hs : s.DecodedFrom raw b.view) (hu : u ∈ s.updates b.view ctx) :
    Recalls b calls (.applied u result)

/-- A call that a binder makes with an answer of the server: it paints and keeps the
snapshot in the answer, with the notes that it has read, and may submit a form. -/
inductive Binder.Uses (b : Binder ρ) (answer : Fallible (Option Snapshot)) (calls : List Call) :
    Call → Prop
  | read (key : String) (found : Option String) : Uses b answer calls (.read key found)
  | paint {s : Snapshot} {ctx : RenderContext} {u : Update} {result : Fallible Nat}
    (hanswer : answer = .ok (some s)) (hs : s.matchesView b.view = true)
    (hctx : ctx.ReadIn s calls) (hu : u ∈ s.updates b.view ctx) :
    Uses b answer calls (.applied u result)
  | keep {s : Snapshot} {result : Fallible Unit} (hanswer : answer = .ok (some s))
    (hs : s.matchesView b.view = true) : Uses b answer calls (.wrote b.cacheKey s.stored result)
  | submit (form : String) (isPresent : Bool) : Uses b answer calls (.submitted form isPresent)

theorem RenderContext.ReadIn.mono {ctx : RenderContext} {s : Snapshot} {calls more : List Call}
    (h : ctx.ReadIn s calls) (hsub : calls ⊆ more) : ctx.ReadIn s more :=
  fun id hid => hsub (h id hid)

theorem Snapshot.DecodedFrom.unique {s s' : Snapshot} {raw : String} {v : View}
    (h : s.DecodedFrom raw v) (h' : s'.DecodedFrom raw v) : s = s' := by
  have hsame := h.1.symm.trans h'.1
  cases hsame
  rfl

theorem Applies.eq_applied {us : List Update} {calls : List Call} {isWhole : Bool}
    (h : Applies us calls isWhole) : ∀ c ∈ calls, ∃ u ∈ us, ∃ result, c = .applied u result := by
  induction h with
  | done => exact List.forall_mem_nil _
  | taken count _ ih =>
    refine List.forall_mem_cons.mpr ⟨⟨_, List.mem_cons_self, _, rfl⟩, fun c hc => ?_⟩
    obtain ⟨u, hu, result, rfl⟩ := ih c hc
    exact ⟨u, List.mem_cons_of_mem _ hu, result, rfl⟩
  | refused p => exact List.forall_mem_singleton.mpr ⟨_, List.mem_cons_self, _, rfl⟩

/-- What is painted from the cache was read there, and what is dropped is no snapshot. -/
theorem Recollection.recalls {b : Binder ρ} {found : Option String} {calls : List Call}
    {shown : Option Snapshot} (h : Recollection b.session b.view found calls shown) :
    ∀ c ∈ calls, b.Recalls calls c := by
  cases h with
  | absent => exact List.forall_mem_singleton.mpr (.read _ _)
  | spoilt hraw =>
    exact List.forall_mem_cons.mpr ⟨.read _ _,
      List.forall_mem_singleton.mpr (.drop List.mem_cons_self hraw)⟩
  | tried hs hreads _ happlies =>
    refine List.forall_mem_cons.mpr ⟨.read _ _, fun c hc => ?_⟩
    rcases List.mem_append.mp hc with hc | hc
    · obtain ⟨key, note, rfl⟩ := hreads c hc
      exact .read key note
    · obtain ⟨u, hu, result, rfl⟩ := happlies.eq_applied c hc
      exact .paint List.mem_cons_self hs hu

namespace Binder

section

variable {b b' : Binder ρ} {first : List Call}

theorem Opens.calls (h : b.Opens b' first) : ∀ c ∈ first, b.Recalls first c := by
  cases h with
  | straight => exact List.forall_mem_nil _
  | recalls _ _ _ h => exact h.recalls

/-- A binder that knows something of its view asks straight away. -/
theorem Opens.known (h : b.Opens b' first) (hknown : b.anchorSeen = true ∨ b.lastRendered ≠ none) :
    first = [] := by
  cases h with
  | straight => rfl
  | recalls hseen hlast =>
    rcases hknown with hknown | hknown
    · exact absurd (hseen.symm.trans hknown) Bool.false_ne_true
    · exact absurd hlast hknown

theorem Opens.binder (h : b.Opens b' first) :
    ∃ shown, b' = { b with anchorSeen := true, lastRendered := shown } := by
  cases h <;> exact ⟨_, rfl⟩

variable {answer : Fallible (Option Snapshot)} {more : List Call}

theorem Uses.mono {c : Call} (h : b.Uses answer first c) (hsub : first ⊆ more) :
    b.Uses answer more c := by
  cases h with
  | read key found => exact .read key found
  | paint hanswer hs hctx hu => exact .paint hanswer hs (hctx.mono hsub) hu
  | keep hanswer hs => exact .keep hanswer hs
  | submit form isPresent => exact .submit form isPresent

theorem Uses.append (hfirst : ∀ c ∈ first, b.Uses answer first c)
    (hmore : ∀ c ∈ more, b.Uses answer more c) :
    ∀ c ∈ first ++ more, b.Uses answer (first ++ more) c :=
  List.forall_mem_append.mpr
    ⟨fun c hc => (hfirst c hc).mono (List.subset_append_left first more),
      fun c hc => (hmore c hc).mono (List.subset_append_right first more)⟩

end

end Binder

variable [Host ρ σ]

theorem emits_tell (b : Binder (Watcher ρ)) (level : LogLevel) (message : String) :
    Emits (σ := σ) (b.tell level message) fun _ new => new = [] :=
  Emits.quiet fun _ => rfl

theorem emits_say (access : Watcher ρ) (level : LogLevel) (component : Component)
    (message : String) :
    Emits (σ := σ) (say access level component message) fun _ new => new = [] :=
  Emits.quiet fun _ => rfl

theorem lookup_note (id other : String) (found : Option String) (notes : List (String × String)) :
    ((found.map fun text => (id, text)).toList ++ notes).lookup other =
      if other = id then found.or (notes.lookup id) else notes.lookup other := by
  cases found with
  | none => by_cases h : other = id <;> simp [h]
  | some text => by_cases h : other = id <;> simp [h, lookup_cons_eq]

/-- The notes that are returned are those that were read. -/
theorem emits_forIds (access : Watcher ρ) (ids : List String) :
    Emits (σ := σ) (Notes.forIds access ids) fun notes new =>
      (∀ c ∈ new, ∃ key found, c = .read key found) ∧
        (∀ id ∈ ids, .read (Notes.key id) (notes.lookup id) ∈ new) ∧
        ∀ id ∉ ids, notes.lookup id = none := by
  induction ids with
  | nil => exact .pure ⟨List.forall_mem_nil _, List.forall_mem_nil _, fun _ _ => rfl⟩
  | cons id rest ih =>
    refine Emits.bind (P := fun found new => new = [.read (Notes.key id) found])
      (Emits.noted fun _ => rfl) fun found first hfirst => ?_
    subst hfirst
    refine ih.bind fun notes more hmore => .pure ?_
    obtain ⟨hreads, hfound, hnone⟩ := hmore
    rw [List.append_nil]
    refine ⟨List.forall_mem_cons.mpr ⟨⟨_, _, rfl⟩, hreads⟩, fun other hother => ?_,
      fun other hother => ?_⟩
    · rw [lookup_note]
      by_cases heq : other = id
      · subst heq
        rw [if_pos rfl]
        by_cases hlater : found = none ∧ other ∈ rest
        · obtain ⟨rfl, hrest⟩ := hlater
          exact List.mem_cons_of_mem _ (hfound other hrest)
        · -- The first reading counts: it found a note, or there is no other one.
          have hsame : found.or (notes.lookup other) = found := by
            cases found with
            | some text => rfl
            | none => exact hnone other fun hrest => hlater ⟨rfl, hrest⟩
          rw [hsame]
          exact List.mem_cons_self
      · rw [if_neg heq]
        exact List.mem_cons_of_mem _ (hfound other ((List.mem_cons.mp hother).resolve_left heq))
    · rw [List.mem_cons, not_or] at hother
      rw [lookup_note, if_neg hother.1, hnone other hother.2]

theorem emits_applyAll (access : Watcher ρ) (us : List Update) (count : Nat) :
    Emits (σ := σ) (applyAll access count us) fun result new => Applies us new result.isOk := by
  induction us generalizing count with
  | nil => exact .pure .done
  | cons u rest ih =>
    refine Emits.bind (P := fun result new => new = [.applied u result])
      (Emits.noted fun result => rfl) fun result first hfirst => ?_
    subst hfirst
    cases result with
    | ok n => exact (ih (count + n)).mono fun result more hmore => .taken n hmore
    | error p => exact .pure (.refused p)

theorem emits_paint (b : Binder (Watcher ρ)) (s : Snapshot) :
    Emits (σ := σ) (b.paint s) fun result new => ∃ reads ctx taken, new = reads ++ taken ∧
      (∀ c ∈ reads, ∃ key note, c = .read key note) ∧ ctx.ReadIn s reads ∧
      Applies (s.updates b.view ctx) taken result.isOk := by
  refine (emits_forIds _ _).bind fun notes reads hreads => ?_
  refine Emits.silent (Emits.quiet fun _ => rfl) fun cacheBuster => ?_
  refine (emits_applyAll _ _ 0).mono fun result taken htaken => ?_
  refine ⟨reads, _, taken, rfl, hreads.1, ?_, htaken⟩
  exact hreads.2.1

/-! ### The calls of an answer -/

theorem emits_fireTransition (b : Binder (Watcher ρ)) :
    Emits (σ := σ) b.fireTransition fun _ new =>
      ∀ c ∈ new, ∃ form isPresent, c = .submitted form isPresent := by
  unfold Binder.fireTransition
  cases b.view.transitionForm? with
  | none => exact .pure (List.forall_mem_nil _)
  | some form =>
    dsimp only
    split
    · exact .pure (List.forall_mem_nil _)
    · refine Emits.all (Emits.noted fun present c hc => ?_) fun present => ?_
      · exact ⟨form, present, List.mem_singleton.mp hc⟩
      · split
        · refine Emits.silent (emits_tell _ _ _) fun _ => ?_
          exact .pure (List.forall_mem_nil _)
        · refine Emits.silent (emits_tell _ _ _) fun _ => ?_
          exact .pure (List.forall_mem_nil _)

theorem emits_conclude (b : Binder (Watcher ρ)) (s : Snapshot) (changed : Bool) :
    Emits (σ := σ) (b.conclude s changed) fun _ new =>
      ∀ c ∈ new, ∃ form isPresent, c = .submitted form isPresent := by
  unfold Binder.conclude
  dsimp only
  split
  · refine (emits_fireTransition _).all fun _ => ?_
    exact .pure (List.forall_mem_nil _)
  · rw [pure_bind]
    exact .pure (List.forall_mem_nil _)

theorem emits_keepPainted (b : Binder (Watcher ρ)) (s : Snapshot) :
    Emits (σ := σ) (b.keepPainted s) fun _ new => ∀ c ∈ new,
      s.matchesView b.view = true ∧ ∃ result, c = .wrote b.cacheKey s.stored result := by
  have hkeep : Emits (σ := σ) (Cache.keep b.access b.session b.view s) fun _ new => ∀ c ∈ new,
      s.matchesView b.view = true ∧ ∃ result, c = .wrote b.cacheKey s.stored result := by
    unfold Cache.keep
    split
    · refine Emits.all (Emits.noted fun result c hc => ?_) fun result => ?_
      · exact ⟨‹_›, result, List.mem_singleton.mp hc⟩
      · cases result with
        | ok _ =>
          refine Emits.silent (emits_say _ _ _ _) fun _ => ?_
          exact .pure (List.forall_mem_nil _)
        | error p => exact .pure (List.forall_mem_nil _)
    · exact .pure (List.forall_mem_nil _)
  unfold Binder.keepPainted
  refine hkeep.all fun result => ?_
  cases result with
  | ok _ => exact .pure (List.forall_mem_nil _)
  | error p =>
    refine (emits_tell _ _ _).mono fun _ new hnew => ?_
    rw [hnew]
    exact List.forall_mem_nil _

theorem emits_accept (b : Binder (Watcher ρ)) {s : Snapshot} (hs : s.matchesView b.view = true) :
    Emits (σ := σ) (b.accept s) fun _ new => ∀ c ∈ new, b.Uses (.ok (some s)) new c := by
  have hconclude (changed : Bool) : Emits (σ := σ) (b.conclude s changed) fun _ new =>
      ∀ c ∈ new, b.Uses (.ok (some s)) new c := by
    refine (emits_conclude b s changed).mono fun _ new hnew c hc => ?_
    obtain ⟨form, isPresent, rfl⟩ := hnew c hc
    exact .submit form isPresent
  have hpaint : Emits (σ := σ) (b.paint s) fun _ new =>
      ∀ c ∈ new, b.Uses (.ok (some s)) new c := by
    refine (emits_paint b s).mono fun _ new hnew c hc => ?_
    obtain ⟨reads, ctx, taken, rfl, hreads, hctx, happlies⟩ := hnew
    rcases List.mem_append.mp hc with hc | hc
    · obtain ⟨key, found, rfl⟩ := hreads c hc
      exact .read key found
    · obtain ⟨u, hu, result, rfl⟩ := happlies.eq_applied c hc
      exact .paint rfl hs (hctx.mono (List.subset_append_left reads taken)) hu
  have hkeep : Emits (σ := σ) (b.keepPainted s) fun _ new =>
      ∀ c ∈ new, b.Uses (.ok (some s)) new c := by
    refine (emits_keepPainted b s).mono fun _ new hnew c hc => ?_
    obtain ⟨-, result, rfl⟩ := hnew c hc
    exact .keep rfl hs
  have hcontains : Emits (σ := σ) (Cache.contains b.access b.session b.view) fun _ new =>
      ∀ c ∈ new, b.Uses (.ok (some s)) new c := by
    refine Emits.append (fun _ _ => Binder.Uses.append) (Emits.noted fun found c hc => ?_)
      fun found => ?_
    · rw [List.mem_singleton.mp hc]
      exact .read _ found
    · exact .pure (List.forall_mem_nil _)
  unfold Binder.accept
  extract_lets rest
  have hrest (isKept : Bool) : Emits (σ := σ) (rest isKept) fun _ new =>
      ∀ c ∈ new, b.Uses (.ok (some s)) new c := by
    dsimp only [rest]
    split
    · exact hconclude false
    · refine hpaint.append (fun _ _ => Binder.Uses.append) fun result => ?_
      cases result with
      | error p =>
        refine Emits.silent (emits_tell _ _ _) fun _ => ?_
        exact .pure (List.forall_mem_nil _)
      | ok count =>
        refine Emits.silent (emits_tell _ _ _) fun _ => ?_
        exact hkeep.append (fun _ _ => Binder.Uses.append) fun _ => hconclude true
  split
  · exact hcontains.append (fun _ _ => Binder.Uses.append) fun isKept => hrest isKept
  · rw [pure_bind]
    exact hrest false

theorem emits_finish (b : Binder (Watcher ρ)) (answer : Fallible (Option Snapshot)) :
    Emits (σ := σ) (b.finish answer) fun _ new => ∀ c ∈ new, b.Uses answer new c := by
  unfold Binder.finish
  split
  · refine Emits.silent (emits_tell _ _ _) fun _ => ?_
    exact .pure (List.forall_mem_nil _)
  · exact .pure (List.forall_mem_nil _)
  · split
    · exact emits_accept b ‹_›
    · refine Emits.silent (emits_tell _ _ _) fun _ => ?_
      exact .pure (List.forall_mem_nil _)

theorem emits_rest (b : Binder (Watcher ρ)) (policy : Policy) (outcome : Outcome) :
    Emits (σ := σ) (b.rest policy outcome) fun _ new => ∀ c ∈ new, ∃ delay, c = .slept delay := by
  unfold Binder.rest
  refine Emits.silent (emits_say _ _ _ _) fun _ => ?_
  split
  · refine (emits_say _ _ _ _).mono fun _ new hnew => ?_
    rw [hnew]
    exact List.forall_mem_nil _
  · exact Emits.noted fun _ c hc => ⟨_, List.mem_singleton.mp hc⟩

theorem emits_sweep (access : Watcher ρ) :
    Emits (σ := σ) (Cache.sweep access) fun _ new => ∀ c ∈ new, ∃ key, c = .removed key := by
  have hremove (keys : List String) : Emits (σ := σ) (Cache.removeAll access keys) fun _ new =>
      ∀ c ∈ new, ∃ key, c = .removed key := by
    induction keys with
    | nil => exact .pure (List.forall_mem_nil _)
    | cons key rest ih =>
      exact Emits.all (Emits.noted fun _ c hc => ⟨key, List.mem_singleton.mp hc⟩) fun _ => ih
  unfold Cache.sweep
  refine Emits.silent (Emits.quiet fun _ => rfl) fun keys => ?_
  refine (hremove _).all fun _ => ?_
  dsimp only
  split
  · refine Emits.silent (emits_say _ _ _ _) fun _ => ?_
    exact .pure (List.forall_mem_nil _)
  · exact .pure (List.forall_mem_nil _)

end WalletPage
