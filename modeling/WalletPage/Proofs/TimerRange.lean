import WalletPage.Proofs.Occurrences
import WalletPage.Proofs.PolledRuns

/-! Delays that a timer keeps. Settings that were read and accepted have no interval of zero,
after which a loop would spin, and none beyond the longest one of a timer, which would end at
once. So whatever occurs to a service with such settings, its tasks never sleep for a time out
of that range; and settings with an interval out of range, or with a base URL that ends with a
slash, are refused with a message that blames one of them. -/

namespace WalletPage

variable {ρ σ : Type}

/-- Whether a timer keeps a delay, and others can run before it has passed. -/
def Millis.FitsTimer (ms : Millis) : Prop := 1 ≤ ms ∧ ms ≤ 2147483647

/-! ### Settings -/

namespace Config

/-- Whether settings can be used: a timer keeps all the intervals, and paths can be put after
the base URL. -/
structure IsUsable (c : Config) : Prop where
  mountRetry : c.mountRetry.FitsTimer
  successInterval : c.successInterval.FitsTimer
  failureRetry : c.failureRetry.FitsTimer
  progressInterval : c.progressInterval.FitsTimer
  heartbeatInterval : c.heartbeatInterval.FitsTimer
  baseUrl : ¬ ['/'] <:+ c.baseUrl.toList

/-- What is said of a named interval that is out of range. -/
inductive Blames : String × Millis → String → Prop
  | short (name : String) : Blames (name, 0) (name ++ " must be positive")
  | long {ms : Millis} (name : String) (h : 2147483647 < ms) :
    Blames (name, ms) (name ++ " must not exceed 2147483647 ms")

/-- What is said of settings that cannot be used. -/
inductive Complains (c : Config) : String → Prop
  | interval {setting : String × Millis} {message : String} (h : setting ∈ c.intervals)
    (hblames : Blames setting message) : Complains c message
  | baseUrl (h : ['/'] <:+ c.baseUrl.toList) : Complains c "baseUrl must not end with '/'"

variable {c : Config}

theorem isUsable_default : IsUsable {} := by
  constructor <;> first | exact ⟨by decide, by decide⟩ | decide

/-- Settings are usable if and only if each of the intervals that are checked is in range, and
so is the base URL. -/
theorem isUsable_iff : c.IsUsable ↔
    (∀ setting ∈ c.intervals, setting.2.FitsTimer) ∧ ¬ ['/'] <:+ c.baseUrl.toList := by
  constructor
  · rintro ⟨hmount, hsuccess, hfailure, hprogress, hheartbeat, hurl⟩
    refine ⟨fun setting hsetting => ?_, hurl⟩
    simp only [intervals, List.mem_cons, List.not_mem_nil, or_false] at hsetting
    rcases hsetting with rfl | rfl | rfl | rfl | rfl <;> assumption
  · rintro ⟨hall, hurl⟩
    simp only [intervals, List.forall_mem_cons] at hall
    obtain ⟨hmount, hsuccess, hfailure, hprogress, hheartbeat, -⟩ := hall
    exact ⟨hmount, hsuccess, hfailure, hprogress, hheartbeat, hurl⟩

theorem checkInterval_cases (name : String) (ms : Millis) :
    checkInterval name ms = .ok () ∧ ms.FitsTimer ∨ ∃ message, Blames (name, ms) message ∧
      checkInterval name ms = .error (.invalidParameter message) := by
  unfold checkInterval
  by_cases hzero : ms = 0
  · subst hzero
    exact .inr ⟨_, .short name, if_pos rfl⟩
  · by_cases hlong : longestInterval < ms
    · have hmessage : name ++ " must not exceed " ++
          String.ofList (Decimal.natDigits longestInterval) ++ " ms" =
          name ++ " must not exceed 2147483647 ms" := by
        rw [String.append_assoc, String.append_assoc]
        rfl
      refine .inr ⟨_, .long name hlong, ?_⟩
      rw [if_neg hzero, if_pos hlong, hmessage]
    · refine .inl ⟨?_, Nat.pos_of_ne_zero hzero, Nat.not_lt.mp hlong⟩
      rw [if_neg hzero, if_neg hlong]

theorem checkIntervals_cases (settings : List (String × Millis)) :
    checkIntervals settings = .ok () ∧ (∀ setting ∈ settings, setting.2.FitsTimer) ∨
      ∃ setting ∈ settings, ∃ message, Blames setting message ∧
        checkIntervals settings = .error (.invalidParameter message) := by
  induction settings with
  | nil => exact .inl ⟨rfl, List.forall_mem_nil _⟩
  | cons setting rest ih =>
    obtain ⟨name, ms⟩ := setting
    unfold checkIntervals
    rcases checkInterval_cases name ms with ⟨hok, hfits⟩ | ⟨message, hblames, herror⟩
    · rw [hok]
      rcases ih with ⟨hok, hall⟩ | ⟨setting, hsetting, message, hblames, herror⟩
      · exact .inl ⟨hok, List.forall_mem_cons.mpr ⟨hfits, hall⟩⟩
      · exact .inr ⟨setting, List.mem_cons_of_mem _ hsetting, message, hblames, herror⟩
    · rw [herror]
      exact .inr ⟨_, List.mem_cons_self, message, hblames, rfl⟩

/-- Settings pass the check as they are if they can be used, and are refused otherwise. -/
theorem check_cases (c : Config) :
    c.check = .ok c ∧ c.IsUsable ∨ ∃ message, c.Complains message ∧
      c.check = .error (.invalidParameter message) := by
  have hslash : ['/'] <:+ c.baseUrl.toList ↔ c.baseUrl.toList.getLast? = some '/' :=
    List.singleton_suffix_iff_getLast?_eq_some
  unfold check
  rcases checkIntervals_cases c.intervals with
    ⟨hok, hall⟩ | ⟨setting, hsetting, message, hblames, herror⟩
  · rw [hok]
    by_cases hurl : ['/'] <:+ c.baseUrl.toList
    · exact .inr ⟨_, .baseUrl hurl, if_pos (hslash.mp hurl)⟩
    · exact .inl ⟨if_neg (mt hslash.mpr hurl), isUsable_iff.mpr ⟨hall, hurl⟩⟩
  · rw [herror]
    exact .inr ⟨message, .interval hsetting hblames, rfl⟩

example : check { mountRetry := 2147483647, heartbeatInterval := 2147483648 } =
    .error (.invalidParameter "heartbeatIntervalMs must not exceed 2147483647 ms") := rfl

/-- Settings that are accepted can be used. -/
theorem isUsable_of_ofJson {json : Json} (h : ofJson json = .ok c) : c.IsUsable := by
  unfold ofJson at h
  split at h
  · obtain rfl : {} = c := Except.ok.inj h
    exact isUsable_default
  · unfold ofDecoded at h
    split at h
    · rename_i c' _
      rcases c'.check_cases with ⟨hok, husable⟩ | ⟨message, -, herror⟩
      · obtain rfl : c' = c := Except.ok.inj (hok.symm.trans h)
        exact husable
      · exact absurd (herror.symm.trans h) nofun
    · contradiction

/-- Settings that can be read but not used are refused. -/
theorem ofJson_of_not_isUsable {json : Json}
    (hdecoded : Document.record shape (.value json) = .ok c) (h : ¬ c.IsUsable) :
    ∃ message, c.Complains message ∧ ofJson json = .error (.invalidParameter message) := by
  have hjson : ofJson json = c.check := by
    unfold ofJson
    split
    · contradiction
    · rw [hdecoded]
      rfl
  rw [hjson]
  exact c.check_cases.resolve_left fun hok => h hok.2

end Config

/-- Whether every delay between two cycles, however the first one ends, has a property. -/
def Policy.SleepsFor (policy : Policy) (p : Millis → Prop) : Prop :=
  ∀ v outcome anchorSeen delay, policy.next v outcome anchorSeen = .after delay → p delay

/-- The delays of a policy are the four that it names. -/
theorem Policy.sleepsFor_of_delays {policy : Policy} {p : Millis → Prop}
    (hmount : p policy.mountRetry) (hsuccess : p policy.successInterval)
    (hfailure : p policy.failureRetry) (hprogress : p policy.progressInterval) :
    policy.SleepsFor p := by
  intro v outcome anchorSeen delay hnext
  unfold next at hnext
  cases outcome <;> dsimp only at hnext <;> split at hnext <;> cases hnext <;> assumption

theorem Config.IsUsable.policy {c : Config} (h : c.IsUsable) :
    c.policy.SleepsFor Millis.FitsTimer :=
  Policy.sleepsFor_of_delays h.mountRetry h.successInterval h.failureRetry h.progressInterval

/-! ### Bodies and calls -/

/-- Whether all the delays of a body have a property. -/
def Body.SleepsFor (p : Millis → Prop) : Body ρ → Prop
  | .poll _ policy _ => policy.SleepsFor p
  | .heartbeat _ interval _ => p interval
  | .shutdown .. => True

theorem Body.steady_sleepsFor (p : Millis → Prop) : Body.Steady (Body.SleepsFor (ρ := ρ) p) := by
  intro body body' hsleeps hsame
  cases body <;> cases body' <;> cases hsame <;> exact hsleeps

/-- What a service with usable settings begins sleeps for delays that a timer keeps. -/
theorem Service.Begins.sleepsFor {s : Service ρ} {key : TaskKey} {body : Body ρ}
    (h : s.Begins key body) (husable : s.config.IsUsable) : body.SleepsFor Millis.FitsTimer := by
  cases h with
  | poll => exact husable.policy
  | heartbeat => exact husable.heartbeatInterval

/-- Whether a call is no sleep, or one for a delay that has a property. -/
def Call.SleepsFor (p : Millis → Prop) : Call → Prop
  | slept delay => p delay
  | _ => True

/-- Whether all the sleeps so far were for delays that have a property. -/
def Watched.Slept (p : Millis → Prop) (w : Watched σ) : Prop :=
  ∀ c ∈ w.calls, c.SleepsFor p

variable {p : Millis → Prop}

theorem Watched.Slept.append {w w' : Watched σ} {new : List Call} (h : w.Slept p)
    (hcalls : w'.calls = w.calls ++ new) (hnew : ∀ c ∈ new, c.SleepsFor p) : w'.Slept p := by
  intro c hc
  rw [hcalls, List.mem_append] at hc
  exact hc.elim (h c) (hnew c)

theorem Watched.Slept.emits {α : Type} {m : StateM (Watched σ) α} {w : Watched σ} (h : w.Slept p)
    (hm : Emits m fun _ new => ∀ c ∈ new, c.SleepsFor p) : (m.run w).2.Slept p := by
  obtain ⟨new, hcalls, hnew⟩ := hm w
  exact h.append hcalls hnew

namespace Binder

variable {policy : Policy} {task : TaskId} {b b' : Binder (Watcher ρ)} {calls : List Call}
  {c : Call}

theorem Recalls.sleepsFor {first : List Call} (h : b.Recalls first c) : c.SleepsFor p := by
  cases h <;> trivial

theorem Uses.sleepsFor {answer : Fallible (Option Snapshot)} (h : b.Uses answer calls c) :
    c.SleepsFor p := by
  cases h <;> trivial

/-- At the end of a cycle a task sleeps for no other delay than the one that comes next. -/
theorem Closes.sleepsFor {closing : Closing} (h : b.Closes policy task closing calls b')
    (hpolicy : policy.SleepsFor p) : ∀ c ∈ calls, c.SleepsFor p := by
  have hrest {v : View} {outcome : Outcome} {anchorSeen : Bool} {next : Next}
      (hnext : next = policy.next v outcome anchorSeen) : ∀ c ∈ next.calls, c.SleepsFor p := by
    intro c hc
    cases next with
    | stop => contradiction
    | after delay =>
      rw [List.mem_singleton.mp hc]
      exact hpolicy v outcome anchorSeen delay hnext.symm
  cases h with
  | givesUp hnext => exact hrest hnext
  | concludes _ huses hnext =>
    exact List.forall_mem_append.mpr ⟨fun c hc => (huses c hc).sleepsFor, hrest hnext⟩

theorem Tells.sleepsFor {phase : Phase (Fallible (Option Snapshot))} {events : List PollEvent}
    {next? : Option Next} (h : b.Tells policy task phase events calls b' next?)
    (hpolicy : policy.SleepsFor p) : ∀ c ∈ calls, c.SleepsFor p := by
  have hasked {y : Binder (Watcher ρ)} {first : List Call} (hopens : b.Opens y first)
      (request : Request) (reply : Reply (Fallible (Option Snapshot))) :
      ∀ c ∈ first ++ [.asked request reply], c.SleepsFor p :=
    List.forall_mem_append.mpr ⟨fun c hc => (hopens.calls c hc).sleepsFor,
      List.forall_mem_singleton.mpr trivial⟩
  cases h with
  | rests => exact List.forall_mem_nil _
  | misses _ hcloses => exact hcloses.sleepsFor hpolicy
  | asks _ hopens => exact hasked hopens _ _
  | answers _ hopens hcloses =>
    exact List.forall_mem_append.mpr ⟨hasked hopens _ _, hcloses.sleepsFor hpolicy⟩
  | concludes hcloses => exact hcloses.sleepsFor hpolicy

end Binder

/-! ### Runs -/

namespace Run

variable [Host ρ σ] {r r' : Run (Watcher ρ) (Watched σ)} {s : Service (Watcher ρ)} {id : TaskId}

theorem Turned.slept (hturned : Turned r id r') (hbodies : r.AllBodies (Body.SleepsFor p))
    (hslept : r.world.Slept p) : r'.world.Slept p := by
  cases hturned with
  | gone => exact hslept
  | @disposes body hid =>
    have hworld : (r.dispose body).world = r.world := (dispose_letsGo r body).world
    show (r.dispose body).world.Slept p
    rwa [hworld]
  | polls hx hid hturn =>
    obtain ⟨x', new, next?, -, hcalls, htells, -⟩ := hturn.tells hx (Executor.lt_of_live? hid)
    exact hslept.append hcalls (htells.sleepsFor (hbodies id _ _ hid))
  | @beats access interval phase hid =>
    obtain ⟨new, hcalls, hnew⟩ := heartbeatTurn_calls (p := Call.SleepsFor p) r id access interval
      phase (fun _ => trivial) (hbodies id _ _ hid)
    exact hslept.append hcalls hnew

/-- In a move nothing sleeps for other delays than those of the tasks. -/
theorem Move.slept (hmove : Move (fun w w' => w.Slept p → w'.Slept p) r r')
    (h : r.InOrder s none) (hbodies : r.AllBodies (Body.SleepsFor p)) (hslept : r.world.Slept p) :
    r'.world.Slept p := by
  cases hmove with
  | turn hnext =>
    obtain ⟨id, executor, hpop, -, hturned⟩ := next?_cases h hnext
    obtain ⟨rest, -, rfl⟩ := Executor.next?_eq_some_iff.mp hpop
    exact hturned.slept hbodies hslept
  | resume hchange id =>
    rw [(r.resume_page _ id).1]
    exact hslept
  | change hw => exact hw hslept
  | sweep access =>
    refine hslept.emits ((emits_sweep access).mono fun _ new hremoved c hc => ?_)
    obtain ⟨key, rfl⟩ := hremoved c hc
    trivial
  | @bind s' v hs hnew =>
    obtain ⟨new, shown, hcalls, -, hrecollects⟩ := (s'.newBinder v).hydrate_recollects r.world
    rw [binderFor_new hs hnew]
    exact hslept.append hcalls fun c hc => (hrecollects.recalls c hc).sleepsFor
  | _ => exact hslept

/-- With usable settings, tasks keep to delays that a timer keeps, and have always done so. -/
theorem slept_invariant {config : Config} (husable : config.IsUsable) :
    Invariant (fun w w' : Watched σ => w.Slept Millis.FitsTimer → w'.Slept Millis.FitsTimer)
      fun r : Run (Watcher ρ) (Watched σ) => ∃ s, r.InOrder s none ∧ s.config = config ∧
        r.AllBodies (Body.SleepsFor Millis.FitsTimer) ∧ r.world.Slept Millis.FitsTimer := by
  -- A turn sleeps for what the body says that it finds, so the bodies are part of the invariant.
  refine .of_inOrder (fun r r' s s' h hmove _ hkin ⟨hconfig, hbodies, hslept⟩ => ?_)
    fun _ _ _ hs => hs
  have hheeds := hmove.heeds h (Body.steady_sleepsFor _)
    (fun _ _ hbegins => hbegins.sleepsFor (hconfig ▸ husable)) hbodies
  exact ⟨hkin.config.trans hconfig, hbodies.heeds hheeds, hmove.slept h hbodies hslept⟩

end Run

theorem Call.IsUsers.sleepsFor {c : Call} (h : c.IsUsers) : c.SleepsFor p := by
  cases c <;> trivial

/-- Only its tasks sleep for a service. -/
theorem Occurrence.within_slept [Host ρ σ] (o : Occurrence σ) :
    o.watched.Within (Watcher ρ) fun w w' => w.Slept p → w'.Slept p :=
  o.watched_within.mono fun _ _ ⟨_, hcalls, hnew⟩ hslept =>
    hslept.append hcalls fun c hc => (hnew c hc).sleepsFor

theorem Run.slept_through [Host ρ σ] {config : Config} (husable : config.IsUsable) (world : σ)
    (session : SessionId) (access : ρ) (occurrences : List (Occurrence σ)) :
    (watchedThrough world session config access occurrences).world.Slept Millis.FitsTimer := by
  have hwithin : ∀ o ∈ occurrences.map Occurrence.watched, o.Within (Watcher ρ)
      fun w w' : Watched σ => w.Slept Millis.FitsTimer → w'.Slept Millis.FitsTimer := by
    intro o ho
    obtain ⟨o', -, rfl⟩ := List.mem_map.mp ho
    exact o'.within_slept
  obtain ⟨-, -, -, -, hslept⟩ := (slept_invariant husable).through hwithin
    ⟨_, opened_inOrder (⟨world, []⟩ : Watched σ) session config (Watcher.mk access), rfl,
      .opened _ _ session config _, List.forall_mem_nil _⟩
  exact hslept

/-- Settings that are accepted make no task spin, and none overrun its timer: on every page,
whatever is answered and whatever occurs, each delay for which a task sleeps is one that a timer
keeps, and the base URL does not end with a slash. Settings that can be read and break this are
refused as an invalid parameter, with a message that is true of them. -/
theorem delays_fit_timer [Host ρ σ] (json : Json) :
    (∀ config, Config.ofJson json = .ok config →
      ¬ ['/'] <:+ config.baseUrl.toList ∧
      ∀ (world : σ) (session : SessionId) (access : ρ) (occurrences : List (Occurrence σ)),
        (Run.watchedThrough world session config access occurrences).unwatched =
            (Run.opened world session config access).through occurrences ∧
          ∀ delay,
            .slept delay ∈
              (Run.watchedThrough world session config access occurrences).world.calls →
            1 ≤ delay ∧ delay ≤ 2147483647) ∧
    ∀ config, Document.record Config.shape (.value json) = .ok config → ¬ config.IsUsable →
      ∃ message, config.Complains message ∧
        Config.ofJson json = .error (.invalidParameter message) := by
  refine ⟨fun config haccepted => ?_, fun config => Config.ofJson_of_not_isUsable⟩
  have husable := Config.isUsable_of_ofJson haccepted
  refine ⟨husable.baseUrl, fun world session access occurrences =>
    ⟨Run.watchedThrough_unwatched .., fun delay hdelay => ?_⟩⟩
  exact Run.slept_through husable world session access occurrences _ hdelay

/-- Settings with the longest delay of a timer between two looks for an anchor. -/
def patientSettings : Json :=
  .object [("mountRetryMs", .number (.int 2147483647))]

/-- Settings with a delay that is longer by one, and with a base URL that ends with a slash. -/
def overlongSettings : Json :=
  .object [("baseUrl", .string "/wallet/"), ("mountRetryMs", .number (.int 2147483648))]

/-- The longest delay is accepted, and slept for on a page where no view is mounted; a longer one
is refused. -/
theorem patient_sleeps_overlong_refused :
    Config.ofJson patientSettings = .ok { mountRetry := 2147483647 } ∧
      (∃ delay, .slept delay ∈ (Run.watchedThrough ({} : Page) .anonymous
          { mountRetry := 2147483647 } PageAccess.only
          [.act (.startView .balance), .act .run]).world.calls ∧
        1 ≤ delay ∧ delay ≤ 2147483647) ∧
      ∃ message, Config.Complains { baseUrl := "/wallet/", mountRetry := 2147483648 } message ∧
        Config.ofJson overlongSettings = .error (.invalidParameter message) := by
  have haccepted : Config.ofJson patientSettings = .ok { mountRetry := 2147483647 } := rfl
  have hread : Document.record Config.shape (.value overlongSettings) =
      .ok { baseUrl := "/wallet/", mountRetry := 2147483648 } := rfl
  have hunusable : ¬ Config.IsUsable { baseUrl := "/wallet/", mountRetry := 2147483648 } :=
    fun husable => absurd husable.mountRetry.2 (by decide)
  have hslept : .slept 2147483647 ∈ (Run.watchedThrough ({} : Page) .anonymous
      { mountRetry := 2147483647 } PageAccess.only
      [.act (.startView .balance), .act .run]).world.calls := by
    decide +kernel
  obtain ⟨-, hfits⟩ :=
    (delays_fit_timer (ρ := PageAccess) (σ := Page) patientSettings).1 _ haccepted
  exact ⟨haccepted, ⟨_, hslept, (hfits _ _ _ _).2 _ hslept⟩,
    (delays_fit_timer (ρ := PageAccess) (σ := Page) overlongSettings).2 _ hread hunusable⟩

end WalletPage
