import Mathlib.Tactic.SplitIfs
import WalletPage.Poll.Config
import WalletPage.Store.Keyed

/-! The two readers of log levels. One takes the name of a level in any mixture of capital and
small letters; the settings take only the exact name. What the settings read, the other reader
reads as the same level, but a name with a capital letter is refused in the settings. -/

namespace WalletPage

namespace LogLevel

/-- The names of levels are written in small letters. -/
theorem not_isUpper_of_mem_name (l : LogLevel) : ∀ c ∈ l.name.toList, c.isUpper = false := by
  have hall : l.name.toList.all (fun c => !c.isUpper) = true := by
    cases l <;> decide
  simpa using hall

/-- A text is read as a level if in small letters it is the name of the level. -/
theorem ofName?_eq_some_iff {text : String} {l : LogLevel} :
    ofName? text = some l ↔ text.toList.map Char.toLower = l.name.toList := by
  constructor
  · intro h
    simpa using List.find?_some h
  · intro h
    unfold ofName?
    rw [h]
    cases l <;> decide

theorem map_toLower_of_not_isUpper {cs : List Char} (h : ∀ c ∈ cs, c.isUpper = false) :
    cs.map Char.toLower = cs := by
  refine (List.map_congr_left fun c hc => ?_).trans (List.map_id cs)
  have hsmall : ¬ (c.val ≥ 'A'.val ∧ c.val ≤ 'Z'.val) := of_decide_eq_false (h c hc)
  exact dif_neg hsmall

theorem ofName?_name (l : LogLevel) : ofName? l.name = some l :=
  ofName?_eq_some_iff.mpr (map_toLower_of_not_isUpper l.not_isUpper_of_mem_name)

theorem lookup_name_eq_some_iff {text : String} {l : LogLevel} :
    (all.map fun l => (l.name, l)).lookup text = some l ↔ text = l.name := by
  constructor
  · intro h
    simp only [all, List.map_cons, List.map_nil, lookup_cons_eq, List.lookup_nil] at h
    split_ifs at h <;> cases h <;> assumption
  · rintro rfl
    cases l <;> decide

end LogLevel

namespace Config

/-- Settings that say nothing but the level of the log. -/
def levelOnly (text : String) : Json :=
  .object [("logLevel", .string text)]

/-- Settings that say nothing but a level are the default ones with that level, or else they are
refused as unreadable. -/
theorem ofJson_levelOnly (text : String) : ofJson (levelOnly text) =
    match (LogLevel.all.map fun l => (l.name, l)).lookup text with
    | some l => .ok { logLevel := l }
    | none => .error (.unreadable
        (DecodeError.unknownVariant text (LogLevel.all.map LogLevel.name)).message) := by
  have hread : Document.record shape (.value (levelOnly text)) =
      (Document.named (LogLevel.all.map fun l => (l.name, l)) text).map
        fun l => { logLevel := l } := by
    show (Except.map _ (Document.named _ text) >>= _) = _
    cases Document.named (LogLevel.all.map fun l => (l.name, l)) text <;> rfl
  show ofDecoded (Document.record shape (.value (levelOnly text))) = _
  rw [hread, Document.named]
  cases (LogLevel.all.map fun l => (l.name, l)).lookup text with
  | none => rfl
  | some l => rfl

/-- Whether settings that say nothing but a level are read, and have that level. -/
def ReadsLevel (text : String) (l : LogLevel) : Prop :=
  ∃ c, ofJson (levelOnly text) = .ok c ∧ c.logLevel = l

/-- The settings read a level by its exact name. -/
theorem readsLevel_iff {text : String} {l : LogLevel} : ReadsLevel text l ↔ text = l.name := by
  rw [ReadsLevel, ofJson_levelOnly, ← LogLevel.lookup_name_eq_some_iff]
  cases (LogLevel.all.map fun l => (l.name, l)).lookup text with
  | none => simp
  | some l' => simp

end Config

/-- What the settings read as a level, the other reader reads as the same level. The two agree
on a text, for all levels, exactly if it names no level at all or holds no capital letter. -/
theorem levelReaders_agree_iff (text : String) :
    (∀ l, Config.ReadsLevel text l → LogLevel.ofName? text = some l) ∧
      ((∀ l, Config.ReadsLevel text l ↔ LogLevel.ofName? text = some l) ↔
        LogLevel.ofName? text = none ∨ ∀ c ∈ text.toList, c.isUpper = false) := by
  have hreads : ∀ l, Config.ReadsLevel text l → LogLevel.ofName? text = some l := by
    intro l h
    rw [Config.readsLevel_iff.mp h]
    exact l.ofName?_name
  refine ⟨hreads, fun hagree => ?_, fun h l => ⟨hreads l, fun hname => ?_⟩⟩
  · cases hname : LogLevel.ofName? text with
    | none => exact .inl rfl
    | some l =>
      rw [Config.readsLevel_iff.mp ((hagree l).mpr hname)]
      exact .inr l.not_isUpper_of_mem_name
  · rcases h with hnone | hsmall
    · rw [hnone] at hname
      contradiction
    · rw [LogLevel.ofName?_eq_some_iff, LogLevel.map_toLower_of_not_isUpper hsmall] at hname
      exact Config.readsLevel_iff.mpr (String.toList_injective hname)

/-- A level in capital letters is refused in the settings, and read otherwise. -/
theorem capital_level_refused :
    ¬ (∀ l, Config.ReadsLevel "DEBUG" l ↔ LogLevel.ofName? "DEBUG" = some l) ∧
      LogLevel.ofName? "DEBUG" = some .debug ∧
      Config.ofJson (Config.levelOnly "DEBUG") = .error (.unreadable
        (DecodeError.unknownVariant "DEBUG"
          ["trace", "debug", "info", "warn", "error"]).message) := by
  refine ⟨fun hagree => ?_, by decide, Config.ofJson_levelOnly "DEBUG"⟩
  rcases (levelReaders_agree_iff "DEBUG").2.mp hagree with hnone | hsmall
  · exact absurd hnone (by decide)
  · exact absurd (hsmall 'D' (by decide)) (by decide)

end WalletPage
