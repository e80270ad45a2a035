import WalletPage.Proofs.CancelSafety
import WalletPage.Proofs.Occurrences

/-! What a service leaves alone. A property of the page is kept by all that a service of one
session does, if it is kept by each thing that can be done with a page, where the store is
written only under the cache keys of the session, and nothing is removed from it but these
and stale entries. -/

namespace WalletPage

variable {ρ σ : Type}

/-- Whether an action keeps a property of the page. -/
def Keeps {α : Type} (m : StateM σ α) (P : σ → Prop) : Prop :=
  ∀ w, P w → P (m.run w).2

namespace Keeps

variable {α β : Type} {P : σ → Prop}

theorem bind {m : StateM σ α} {f : α → StateM σ β} (hm : Keeps m P) (hf : ∀ a, Keeps (f a) P) :
    Keeps (m >>= f) P :=
  fun w hw => hf (m.run w).1 _ (hm w hw)

theorem pure (a : α) : Keeps (Pure.pure a : StateM σ α) P :=
  fun _ hw => hw

end Keeps

/-- Whether a property of the page is kept by each thing that the tasks of a service of a
session may do with the page. -/
structure Bears (ρ : Type) [Host ρ σ] (session : SessionId) (P : σ → Prop) : Prop where
  get? : ∀ (x : ρ) (key : String), Keeps (Host.get? x key) P
  set : ∀ (x : ρ) (v : View) (value : String), Keeps (Host.set x (v.cacheKey session.text) value) P
  removeOwn : ∀ (x : ρ) (v : View), Keeps (Host.remove x (v.cacheKey session.text)) P
  removeStale : ∀ (x : ρ) (key : String), Cache.isStale key = true → Keeps (Host.remove x key) P
  keys : ∀ x : ρ, Keeps (Host.keys x) P
  anchorPresent : ∀ (x : ρ) (target : Target), Keeps (Host.anchorPresent x target) P
  apply : ∀ (x : ρ) (u : Update), Keeps (Host.apply x u) P
  submitForm : ∀ (x : ρ) (form : String), Keeps (Host.submitForm x form) P
  cacheBuster : ∀ x : ρ, Keeps (Host.cacheBuster x) P
  fetch : ∀ (x : ρ) (request : Request), Keeps (Host.fetch x request) P
  heartbeat : ∀ x : ρ, Keeps (Host.heartbeat x) P
  sleep : ∀ (x : ρ) (delay : Nat), Keeps (Host.sleep x delay) P
  log : ∀ (x : ρ) (entry : LogEntry), Keeps (Host.log x entry) P

/-- Whether a property of the page is kept by each thing that a service of a session may do
with the page, its shutdown included. -/
structure Withstands (ρ : Type) [Host ρ σ] (session : SessionId) (P : σ → Prop) : Prop
    extends Bears ρ session P where
  replacePage : ∀ (x : ρ) (container html : String), Keeps (Host.replacePage x container html) P
  shutdown : ∀ x : ρ, Keeps (Host.shutdown x) P

namespace Bears

variable [Host ρ σ] {session : SessionId} {P : σ → Prop} (h : Bears ρ session P)

include h

/-! ### The cache -/

theorem say (x : ρ) (level : LogLevel) (component : Component) (message : String) :
    Keeps (say x level component message) P :=
  h.log x _

theorem load (x : ρ) (v : View) : Keeps (Cache.load x session v) P := by
  have hdrop (message : String) : Keeps (Cache.drop x (v.cacheKey session.text) message) P :=
    (h.say x _ _ _).bind fun _ => (h.removeOwn x v).bind fun _ => .pure _
  unfold Cache.load
  refine (h.get? x _).bind fun found => ?_
  cases found with
  | none => exact .pure _
  | some raw =>
    dsimp only
    cases Snapshot.ofStored raw with
    | error e => exact hdrop _
    | ok s =>
      dsimp only
      split
      · exact .pure _
      · exact hdrop _

theorem contains (x : ρ) (v : View) : Keeps (Cache.contains x session v) P :=
  (h.get? x _).bind fun _ => .pure _

theorem keep (x : ρ) (v : View) (s : Snapshot) : Keeps (Cache.keep x session v s) P := by
  unfold Cache.keep
  split
  · refine (h.set x v _).bind fun result => ?_
    cases result with
    | ok _ => exact (h.say x _ _ _).bind fun _ => .pure _
    | error p => exact .pure _
  · exact .pure _

theorem sweep (x : ρ) : Keeps (Cache.sweep x) P := by
  have hremove (stale : List String) (hstale : ∀ key ∈ stale, Cache.isStale key = true) :
      Keeps (Cache.removeAll x stale) P := by
    induction stale with
    | nil => exact .pure _
    | cons key rest ih =>
      obtain ⟨hkey, hrest⟩ := List.forall_mem_cons.mp hstale
      exact (h.removeStale x key hkey).bind fun _ => ih hrest
  unfold Cache.sweep
  refine (h.keys x).bind fun keys => ?_
  refine (hremove _ fun key hkey => (List.mem_filter.mp hkey).2).bind fun _ => ?_
  dsimp only
  split
  · exact (h.say x _ _ _).bind fun _ => .pure _
  · exact .pure _

/-! ### Cycles -/

theorem forIds (x : ρ) (ids : List String) : Keeps (Notes.forIds x ids) P := by
  induction ids with
  | nil => exact .pure _
  | cons id rest ih => exact (h.get? x _).bind fun _ => ih.bind fun _ => .pure _

theorem applyAll (x : ρ) (us : List Update) (count : Nat) : Keeps (applyAll x count us) P := by
  induction us generalizing count with
  | nil => exact .pure _
  | cons u rest ih =>
    refine (h.apply x u).bind fun result => ?_
    cases result with
    | ok n => exact ih (count + n)
    | error p => exact .pure _

theorem paint (b : Binder ρ) (s : Snapshot) : Keeps (b.paint s) P :=
  (h.forIds b.access _).bind fun _ => (h.cacheBuster b.access).bind fun _ => h.applyAll _ _ 0

theorem tell (b : Binder ρ) (level : LogLevel) (message : String) :
    Keeps (b.tell level message) P :=
  h.say b.access _ _ _

theorem hydrate {b : Binder ρ} (hb : b.session = session) : Keeps b.hydrate P := by
  unfold Binder.hydrate
  split
  · refine (h.anchorPresent _ _).bind fun present => ?_
    split
    · rw [hb]
      refine (h.load _ _).bind fun found => ?_
      cases found with
      | none => exact .pure _
      | some cached =>
        refine (h.paint b cached).bind fun result => ?_
        cases result with
        | ok count => exact (h.tell b _ _).bind fun _ => .pure _
        | error p => exact (h.tell b _ _).bind fun _ => .pure _
    · exact .pure _
  · exact .pure _

theorem begin {b : Binder ρ} (hb : b.session = session) (page : Option PageNumber) :
    Keeps (b.begin page) P := by
  unfold Binder.begin
  refine (h.anchorPresent _ _).bind fun present => ?_
  split
  · split
    · exact (h.hydrate hb).bind fun x => (h.fetch _ _).bind fun _ => .pure _
    · rw [pure_bind]
      exact (h.fetch _ _).bind fun _ => .pure _
  · exact (h.tell b _ _).bind fun _ => .pure _

theorem fireTransition (b : Binder ρ) : Keeps b.fireTransition P := by
  unfold Binder.fireTransition
  cases b.view.transitionForm? with
  | none => exact .pure _
  | some form =>
    dsimp only
    split
    · exact .pure _
    · refine (h.submitForm _ _).bind fun present => ?_
      split
      · exact (h.tell b _ _).bind fun _ => .pure _
      · exact (h.tell b _ _).bind fun _ => .pure _

theorem conclude (b : Binder ρ) (s : Snapshot) (changed : Bool) :
    Keeps (b.conclude s changed) P := by
  unfold Binder.conclude
  dsimp only
  split
  · exact (h.fireTransition _).bind fun _ => .pure _
  · rw [pure_bind]
    exact .pure _

theorem keepPainted {b : Binder ρ} (hb : b.session = session) (s : Snapshot) :
    Keeps (b.keepPainted s) P := by
  unfold Binder.keepPainted
  rw [hb]
  refine (h.keep _ _ _).bind fun result => ?_
  cases result with
  | ok _ => exact .pure _
  | error p => exact h.tell b _ _

theorem accept {b : Binder ρ} (hb : b.session = session) (s : Snapshot) :
    Keeps (b.accept s) P := by
  unfold Binder.accept
  extract_lets rest
  have hrest (isKept : Bool) : Keeps (rest isKept) P := by
    dsimp only [rest]
    split
    · exact h.conclude b s false
    · refine (h.paint b s).bind fun result => ?_
      cases result with
      | error p => exact (h.tell b _ _).bind fun _ => .pure _
      | ok count =>
        exact (h.tell b _ _).bind fun _ => (h.keepPainted hb s).bind fun _ => h.conclude b s true
  split
  · rw [hb]
    exact (h.contains _ _).bind fun isKept => hrest isKept
  · rw [pure_bind]
    exact hrest false

theorem finish {b : Binder ρ} (hb : b.session = session) (answer : Fallible (Option Snapshot)) :
    Keeps (b.finish answer) P := by
  unfold Binder.finish
  split
  · exact (h.tell b _ _).bind fun _ => .pure _
  · exact .pure _
  · split
    · exact h.accept hb _
    · exact (h.tell b _ _).bind fun _ => .pure _

/-- Watching a page takes nothing away from it. -/
theorem watched : Bears (Watcher ρ) session fun w : Watched σ => P w.world where
  get? x key w := h.get? x.access key w.world
  set x v value w := h.set x.access v value w.world
  removeOwn x v w := h.removeOwn x.access v w.world
  removeStale x key hstale w := h.removeStale x.access key hstale w.world
  keys x w := h.keys x.access w.world
  anchorPresent x target w := h.anchorPresent x.access target w.world
  apply x u w := h.apply x.access u w.world
  submitForm x form w := h.submitForm x.access form w.world
  cacheBuster x w := h.cacheBuster x.access w.world
  fetch x request w := h.fetch x.access request w.world
  heartbeat x w := h.heartbeat x.access w.world
  sleep x delay w := h.sleep x.access delay w.world
  log x entry w := h.log x.access entry w.world

end Bears

/-- Whether a property of the page is kept by each thing that the tasks of a service of a
session do with the page. -/
structure Endures (ρ : Type) [Host ρ σ] (session : SessionId) (P : σ → Prop) : Prop where
  hydrate : ∀ b : Binder ρ, b.session = session → Keeps b.hydrate P
  begin : ∀ b : Binder ρ, b.session = session → ∀ page, Keeps (b.begin page) P
  finish : ∀ b : Binder ρ, b.session = session → ∀ answer, Keeps (b.finish answer) P
  sweep : ∀ x : ρ, Keeps (Cache.sweep x) P
  heartbeat : ∀ x : ρ, Keeps (Host.heartbeat x) P
  sleep : ∀ (x : ρ) (delay : Nat), Keeps (Host.sleep x delay) P
  log : ∀ (x : ρ) (entry : LogEntry), Keeps (Host.log x entry) P

theorem Bears.endures [Host ρ σ] {session : SessionId} {P : σ → Prop}
    (h : Bears ρ session P) : Endures ρ session P where
  hydrate _ hb := h.hydrate hb
  begin _ hb := h.begin hb
  finish _ hb := h.finish hb
  sweep := h.sweep
  heartbeat := h.heartbeat
  sleep := h.sleep
  log := h.log

namespace Endures

variable [Host ρ σ] {session : SessionId} {P : σ → Prop} (h : Endures ρ session P)

include h

theorem say (x : ρ) (level : LogLevel) (component : Component) (message : String) :
    Keeps (WalletPage.say x level component message) P :=
  h.log x _

theorem rest (b : Binder ρ) (policy : Policy) (outcome : Outcome) :
    Keeps (b.rest policy outcome) P := by
  unfold Binder.rest
  refine (h.say _ _ _ _).bind fun _ => ?_
  split
  · exact h.say _ _ _ _
  · exact h.sleep _ _

/-! ### Turns and moves -/

variable {r r' : Run ρ σ} {s : Service ρ} {id : TaskId}

theorem cycleEnds {x : Shared ρ} (hx : x.binder.session = session)
    {phase : Phase (Fallible (Option Snapshot))} {b : Binder ρ} {outcome : Outcome} {w : σ}
    (hends : r.CycleEnds x phase b outcome w) (hr : P r.world) : P w := by
  have hbegun := h.begin _ hx (r.selected x.selection) r.world hr
  have hkin := (x.binder.begin_yields (r.selected x.selection) r.world).1.kin
  cases hends with
  | absent hseeks hfree hbegin =>
    rw [hbegin] at hbegun
    exact hbegun
  | @ready _ b _ answer _ w₁ _ hseeks hfree hbegin hfinish =>
    rw [hbegin] at hbegun hkin
    have hfinished := h.finish _ (hkin.session.trans hx) answer w₁ hbegun
    rw [hfinish] at hfinished
    exact hfinished
  | @answered answer _ _ _ hfinish =>
    have hfinished := h.finish _ hx answer r.world hr
    rw [hfinish] at hfinished
    exact hfinished

theorem pollTurn {binder : BinderId} {policy : Policy} {x : Shared ρ}
    (hx : x.binder.session = session) {phase : Phase (Fallible (Option Snapshot))}
    (hturn : r.PollTurn id binder policy x phase r') (hr : P r.world) : P r'.world := by
  cases hturn with
  | idle => exact hr
  | joins => exact hr
  | waits => exact hr
  | asks hseeks hfree hbegin =>
    have hbegun := h.begin _ hx (r.selected x.selection) r.world hr
    rw [hbegin] at hbegun
    exact hbegun
  | ends hends =>
    rw [(Run.ended_page ..).1]
    exact h.rest _ _ _ _ (h.cycleEnds hx hends hr)

theorem heartbeatTurn (x : ρ) (interval : Millis) (phase : Phase (Fallible Unit))
    (hr : P r.world) : P (r.heartbeatTurn id x interval phase).world := by
  have hanswer (r : Run ρ σ) (hr : P r.world) (answer : Fallible Unit) :
      P (r.answerHeartbeat id x interval answer).world := by
    cases answer with
    | ok _ => exact h.sleep x interval _ hr
    | error p => exact h.sleep x interval _ (h.say x _ _ _ _ hr)
  unfold Run.heartbeatTurn
  cases phase with
  | start =>
    have hbeaten : P (r.act (Host.heartbeat x)).2.world := h.heartbeat x r.world hr
    cases hact : r.act (Host.heartbeat x) with
    | mk reply r₁ =>
      rw [hact] at hbeaten
      cases reply with
      | ready answer => exact hanswer r₁ hbeaten answer
      | held key answer => exact hbeaten
  | answered answer => exact hanswer r hr answer
  | queued => exact hr
  | waiting => exact hr
  | sleeping => exact hr

theorem turned (hown : ∀ x ∈ r.binders, x.binder.session = session) (hturned : r.Turned id r')
    (hr : P r.world) : P r'.world := by
  cases hturned with
  | gone => exact hr
  | @disposes body hid =>
    have hworld := (Run.dispose_letsGo r body).world
    exact hworld ▸ hr
  | polls hx hid hturn => exact h.pollTurn (hown _ (List.mem_of_getElem? hx)) hturn hr
  | @beats x interval phase hid => exact h.heartbeatTurn x interval phase hr

/-- A move keeps what endures the service, if others keep it too. -/
theorem move (hmove : Run.Move (fun w w' => P w → P w') r r') (horder : r.InOrder s none)
    (hs : s.session = session) (hr : P r.world) : P r'.world := by
  cases hmove with
  | turn hnext =>
    obtain ⟨id, executor, -, hpopped, hturned⟩ := Run.next?_cases horder hnext
    exact h.turned (fun x hx => (hpopped.orderly.own x hx).1.trans hs) hturned hr
  | enroll => exact hr
  | @resume change hchange id =>
    unfold Run.resume
    split
    · exact hr
    · exact hr
  | forget => exact hr
  | change hw => exact hw hr
  | log x entry => exact h.log x entry _ hr
  | sweep x => exact h.sweep x _ hr
  | abort => exact hr
  | @bind s₁ v hs₁ hnew =>
    obtain rfl := List.singleton_inj.mp (hs₁.symm.trans horder.services)
    rw [Run.binderFor_new hs₁ hnew]
    exact h.hydrate (s₁.newBinder v) hs _ hr
  | strike => exact hr
  | spawn => exact hr

/-- Whatever occurs keeps what endures the service, if others keep it too. -/
theorem through (horder : r.InOrder s none) (hs : s.session = session)
    {occurrences : List (Occurrence σ)}
    (hwithin : ∀ o ∈ occurrences, o.Within ρ fun w w' => P w → P w') (hr : P r.world) :
    P (r.through occurrences).world := by
  have hkept : Run.Invariant (fun w w' => P w → P w')
      fun r : Run ρ σ => ∃ s, r.InOrder s none ∧ s.session = session ∧ P r.world :=
    .of_inOrder (fun _ _ _ _ horder hmove _ hkin ⟨hs, hr⟩ =>
      ⟨hkin.session.trans hs, h.move hmove horder hs hr⟩) fun _ _ _ hr => hr
  obtain ⟨-, -, -, hend⟩ := hkept.through hwithin ⟨s, horder, hs, hr⟩
  exact hend

end Endures

/-- Whatever occurs keeps what withstands the service, if others keep it too. -/
theorem Withstands.through [Host ρ σ] {session : SessionId} {P : σ → Prop}
    (h : Withstands ρ session P) {r : Run ρ σ} {s : Service ρ} (horder : r.InOrder s none)
    (hs : s.session = session) {occurrences : List (Occurrence σ)}
    (hwithin : ∀ o ∈ occurrences, o.Within ρ fun w w' => P w → P w') (hr : P r.world) :
    P (r.through occurrences).world :=
  h.endures.through horder hs hwithin hr

end WalletPage
