import Mathlib.Data.List.Basic
import WalletPage.Markup.Html

/-! The HTML text of a tree says which tree it was, up to what HTML cannot show:
how texts were cut, how trees were grouped, and what was put inside a void tag.
Each part of the text ends at a character that cannot occur in it, so the text
can be cut in one way only. -/

namespace WalletPage

/-! ## Cutting a text -/

/-- The text is over or goes on with a character that is not of that kind. -/
def Stops (kind : Char → Bool) (text : List Char) : Prop :=
  ∀ c ∈ text.head?, kind c = false

/-- A run of characters of one kind ends where the kind does. -/
theorem takeWhile_append_of_stops {kind : Char → Bool} {run rest : List Char}
    (hrun : ∀ c ∈ run, kind c = true) (hrest : Stops kind rest) :
    (run ++ rest).takeWhile kind = run := by
  rw [List.takeWhile_append_of_pos hrun]
  cases rest with
  | nil => simp
  | cons c rest => simp [hrest c rfl]

/-- Equal texts that begin with runs of one kind begin with the same run. -/
theorem append_inj_of_stops {kind : Char → Bool} {run run' rest rest' : List Char}
    (hrun : ∀ c ∈ run, kind c = true) (hrun' : ∀ c ∈ run', kind c = true)
    (hrest : Stops kind rest) (hrest' : Stops kind rest')
    (heq : run ++ rest = run' ++ rest') : run = run' ∧ rest = rest' := by
  have hsame : run = run' := by
    rw [← takeWhile_append_of_stops hrun hrest, heq, takeWhile_append_of_stops hrun' hrest']
  subst hsame
  exact ⟨rfl, List.append_cancel_left heq⟩

/-- A code whose words are not empty and do not begin one another. -/
structure IsPrefixCode (code : Char → List Char) : Prop where
  ne_nil : ∀ c, code c ≠ []
  head : ∀ c d x y, code c ++ x = code d ++ y → c = d

/-- A text can be read back from the code words of its characters. -/
theorem IsPrefixCode.flatMap_injective {code : Char → List Char} (hcode : IsPrefixCode code) :
    ∀ {s t : List Char}, s.flatMap code = t.flatMap code → s = t
  | [], [], _ => rfl
  | [], d :: t, h => by simp [hcode.ne_nil] at h
  | c :: s, [], h => by simp [hcode.ne_nil] at h
  | c :: s, d :: t, h => by
    simp only [List.flatMap_cons] at h
    have hhead : c = d := hcode.head c d _ _ h
    subst hhead
    rw [hcode.flatMap_injective (List.append_cancel_left h)]

namespace Markup

/-! ## Escaping -/

theorem escapedInText_isPrefixCode : IsPrefixCode escapedInText where
  ne_nil c := by unfold escapedInText; split <;> simp
  head c d x y h := by
    unfold escapedInText at h
    split at h <;> split at h <;> grind

/-- No escaped text begins with the entity of a double quote, unless it is one. -/
theorem quote_ne_escapedInText {d : Char} (hd : d ≠ '"') (x y : List Char) :
    escapedInValue '"' ++ x ≠ escapedInText d ++ y := by
  unfold escapedInText
  split <;> grind [escapedInValue]

theorem escapedInValue_isPrefixCode : IsPrefixCode escapedInValue where
  ne_nil c := by
    unfold escapedInValue
    split
    · simp
    · exact escapedInText_isPrefixCode.ne_nil c
  head c d x y h := by
    rcases eq_or_ne c '"' with rfl | hc <;> rcases eq_or_ne d '"' with rfl | hd
    · rfl
    · rw [escapedInValue.eq_2 d hd] at h
      exact absurd h (quote_ne_escapedInText hd x y)
    · rw [escapedInValue.eq_2 c hc] at h
      exact absurd h.symm (quote_ne_escapedInText hc y x)
    · rw [escapedInValue.eq_2 c hc, escapedInValue.eq_2 d hd] at h
      exact escapedInText_isPrefixCode.head c d x y h

/-- Escaping leaves no character that opens a tag. -/
theorem isText_escapedInText (content : List Char) :
    ∀ c ∈ content.flatMap escapedInText, (c != '<') = true := by
  intro c hc
  obtain ⟨d, -, hd⟩ := List.mem_flatMap.mp hc
  unfold escapedInText at hd
  split at hd <;> grind

/-- Escaping leaves no character that ends a value. -/
theorem isValue_escapedInValue (content : List Char) :
    ∀ c ∈ content.flatMap escapedInValue, (c != '"') = true := by
  intro c hc
  obtain ⟨d, -, hd⟩ := List.mem_flatMap.mp hc
  unfold escapedInValue escapedInText at hd
  split at hd
  · grind
  · split at hd <;> grind

end Markup

/-! ## Words -/

/-- A character of a tag or of an attribute name. -/
def isWordChar (c : Char) : Bool :=
  c.isAlphanum || c = '-'

/-- A word of letters, digits and hyphens that is not empty. -/
structure IsWord (word : String) : Prop where
  ne_empty : word ≠ ""
  chars : ∀ c ∈ word.toList, isWordChar c = true

instance (word : String) : Decidable (IsWord word) :=
  decidable_of_iff (word ≠ "" ∧ word.toList.all isWordChar = true)
    ⟨fun h => ⟨h.1, List.all_eq_true.mp h.2⟩, fun h => ⟨h.1, List.all_eq_true.mpr h.2⟩⟩

/-- A word starts with one of its characters. -/
theorem IsWord.eq_cons {word : String} (h : IsWord word) :
    ∃ c rest, word.toList = c :: rest ∧ isWordChar c = true := by
  cases hchars : word.toList with
  | nil => exact absurd (String.toList_eq_nil_iff.mp hchars) h.ne_empty
  | cons c rest => exact ⟨c, rest, rfl, h.chars c (by simp [hchars])⟩

/-- Words are read back up to the first character that is in no word. -/
theorem IsWord.append_inj {word word' : String} {rest rest' : List Char}
    (h : IsWord word) (h' : IsWord word') (hrest : Stops isWordChar rest)
    (hrest' : Stops isWordChar rest') (heq : word.toList ++ rest = word'.toList ++ rest') :
    word = word' ∧ rest = rest' := by
  obtain ⟨hword, heq⟩ := append_inj_of_stops h.chars h'.chars hrest hrest' heq
  exact ⟨String.toList_injective hword, heq⟩

/-! ## Opening tags -/

/-- What can come after an attribute: another one or the end of the tag. -/
def AfterAttribute (text : List Char) : Prop :=
  ∃ c rest, text = c :: rest ∧ (c = ' ' ∨ c = '>')

namespace AfterAttribute

theorem stops {text : List Char} (h : AfterAttribute text) : Stops isWordChar text := by
  obtain ⟨c, rest, rfl, rfl | rfl⟩ := h <;> simp [Stops, isWordChar]

theorem ne_value {text rest : List Char} (h : AfterAttribute text) : text ≠ '=' :: rest := by
  obtain ⟨c, rest', rfl, rfl | rfl⟩ := h <;> simp

end AfterAttribute

namespace Markup

/-- The attributes and the end of a tag come after a word. -/
theorem afterAttribute_attributes (attributes : List Attribute) (rest : List Char) :
    AfterAttribute (attributes.flatMap attributeChars ++ '>' :: rest) := by
  cases attributes with
  | nil => exact ⟨'>', rest, rfl, .inr rfl⟩
  | cons a attributes =>
    obtain ⟨name, value⟩ := a
    cases value <;>
      exact ⟨' ', _, by simp only [List.flatMap_cons, attributeChars, List.cons_append]; rfl,
        .inl rfl⟩

/-- A value is read back up to the double quote that ends it. -/
theorem value_append_inj {value value' : String} {rest rest' : List Char}
    (heq : value.toList.flatMap escapedInValue ++ '"' :: rest =
      value'.toList.flatMap escapedInValue ++ '"' :: rest') : value = value' ∧ rest = rest' := by
  obtain ⟨hvalue, hrest⟩ := append_inj_of_stops (isValue_escapedInValue _)
    (isValue_escapedInValue _) (by simp [Stops]) (by simp [Stops]) heq
  exact ⟨String.toList_injective (escapedInValue_isPrefixCode.flatMap_injective hvalue),
    (List.cons.inj hrest).2⟩

/-- An attribute is read back, with its value or as a flag. -/
theorem attributeChars_append_inj {a a' : Attribute} {rest rest' : List Char}
    (ha : IsWord a.name) (ha' : IsWord a'.name) (hrest : AfterAttribute rest)
    (hrest' : AfterAttribute rest') (heq : attributeChars a ++ rest = attributeChars a' ++ rest') :
    a = a' ∧ rest = rest' := by
  obtain ⟨name, value⟩ := a
  obtain ⟨name', value'⟩ := a'
  have hequals (r : List Char) : Stops isWordChar ('=' :: r) := by simp [Stops, isWordChar]
  cases value with
  | none =>
    cases value' with
    | none =>
      obtain ⟨rfl, rfl⟩ := ha.append_inj ha' hrest.stops hrest'.stops (List.cons.inj heq).2
      exact ⟨rfl, rfl⟩
    | some value' =>
      simp only [attributeChars, List.cons_append, List.append_assoc] at heq
      have := ha.append_inj ha' hrest.stops (hequals _) (List.cons.inj heq).2
      exact absurd this.2 hrest.ne_value
  | some value =>
    cases value' with
    | none =>
      simp only [attributeChars, List.cons_append, List.append_assoc] at heq
      have := ha.append_inj ha' (hequals _) hrest'.stops (List.cons.inj heq).2
      exact absurd this.2.symm hrest'.ne_value
    | some value' =>
      simp only [attributeChars, List.cons_append, List.append_assoc, List.nil_append] at heq
      obtain ⟨rfl, hvalue⟩ := ha.append_inj ha' (hequals _) (hequals _) (List.cons.inj heq).2
      simp only [List.cons.injEq, true_and] at hvalue
      obtain ⟨rfl, rfl⟩ := value_append_inj hvalue
      exact ⟨rfl, rfl⟩

/-- Attributes are read back up to the end of the tag, in their order. -/
theorem attributes_append_inj {rest rest' : List Char} :
    ∀ {as as' : List Attribute}, (∀ a ∈ as, IsWord a.name) → (∀ a ∈ as', IsWord a.name) →
      as.flatMap attributeChars ++ '>' :: rest = as'.flatMap attributeChars ++ '>' :: rest' →
      as = as' ∧ rest = rest'
  | [], [], _, _, heq => ⟨rfl, (List.cons.inj heq).2⟩
  | [], ⟨_, none⟩ :: _, _, _, heq => by simp [attributeChars] at heq
  | [], ⟨_, some _⟩ :: _, _, _, heq => by simp [attributeChars] at heq
  | ⟨_, none⟩ :: _, [], _, _, heq => by simp [attributeChars] at heq
  | ⟨_, some _⟩ :: _, [], _, _, heq => by simp [attributeChars] at heq
  | a :: as, a' :: as', has, has', heq => by
    simp only [List.flatMap_cons, List.append_assoc] at heq
    obtain ⟨rfl, htail⟩ := attributeChars_append_inj (has a (by simp)) (has' a' (by simp))
      (afterAttribute_attributes as rest) (afterAttribute_attributes as' rest') heq
    obtain ⟨rfl, rfl⟩ := attributes_append_inj (fun b hb => has b (List.mem_cons_of_mem a hb))
      (fun b hb => has' b (List.mem_cons_of_mem a hb)) htail
    exact ⟨rfl, rfl⟩

/-- An opening tag is read back, with all its attributes. -/
theorem openTag_append_inj {tag tag' : String} {as as' : List Attribute} {rest rest' : List Char}
    (htag : IsWord tag) (htag' : IsWord tag') (has : ∀ a ∈ as, IsWord a.name)
    (has' : ∀ a ∈ as', IsWord a.name) (heq : openTag tag as ++ rest = openTag tag' as' ++ rest') :
    tag = tag' ∧ as = as' ∧ rest = rest' := by
  simp only [openTag, List.cons_append, List.append_assoc, List.nil_append, List.cons.injEq,
    true_and] at heq
  obtain ⟨rfl, htail⟩ := htag.append_inj htag' (afterAttribute_attributes as rest).stops
    (afterAttribute_attributes as' rest').stops heq
  obtain ⟨rfl, rfl⟩ := attributes_append_inj has has' htail
  exact ⟨rfl, rfl, rfl⟩

end Markup

/-! ## Normal forms -/

/-- Neighbouring nodes from the first one on, without groups. -/
inductive Nodes where
  | none
  | text (content : String) (rest : Nodes)
  | element (tag : String) (attributes : List Attribute) (children rest : Nodes)
deriving DecidableEq, Repr

namespace Nodes

/-- The nodes with a text before them: an empty text is dropped, and a text
before a text is joined with it. -/
def after (content : String) : Nodes → Nodes
  | text next rest => text (content ++ next) rest
  | rest => if content = "" then rest else text content rest

/-- The first node is a text. -/
def StartsWithText : Nodes → Prop
  | text _ _ => True
  | _ => False

/-- No text is empty or next to another one, void elements have no children, and
the tags and attribute names are words. -/
def IsNormal : Nodes → Prop
  | none => True
  | text content rest => content ≠ "" ∧ ¬rest.StartsWithText ∧ rest.IsNormal
  | element tag attributes children rest =>
    IsWord tag ∧ (∀ a ∈ attributes, IsWord a.name) ∧
      (Markup.voidTags.contains tag = true → children = none) ∧
      children.IsNormal ∧ rest.IsNormal

/-- The characters of the nodes. -/
def chars : Nodes → List Char
  | none => []
  | text content rest => content.toList.flatMap Markup.escapedInText ++ rest.chars
  | element tag attributes children rest =>
    Markup.openTag tag attributes ++
      (if Markup.voidTags.contains tag then [] else children.chars ++ Markup.closeTag tag) ++
      rest.chars

theorem chars_after (content : String) (nodes : Nodes) :
    (nodes.after content).chars = content.toList.flatMap Markup.escapedInText ++ nodes.chars := by
  cases nodes with
  | none | element => simp only [after]; split <;> simp_all [chars]
  | text next rest => simp [after, chars]

theorem isNormal_after (content : String) {nodes : Nodes} (h : nodes.IsNormal) :
    (nodes.after content).IsNormal := by
  cases nodes with
  | none | element =>
    simp only [after]
    split
    · exact h
    · next hne => exact ⟨hne, id, h⟩
  | text next rest => exact ⟨by simp [h.1], h.2⟩

end Nodes

namespace Markup

mutual

/-- The tree in front of the nodes that come after it. -/
def before : Markup → Nodes → Nodes
  | text content, rest => rest.after content
  | fragment children, rest => allBefore children rest
  | element tag attributes children, rest =>
    .element tag attributes (if voidTags.contains tag then .none else allBefore children .none) rest

/-- Several trees in front of the nodes that come after them. -/
def allBefore : List Markup → Nodes → Nodes
  | [], rest => rest
  | tree :: trees, rest => before tree (allBefore trees rest)

end

/-- The normal form of a tree: groups are flattened, neighbouring texts are
joined, empty texts and the children of void elements are dropped. -/
def normal (tree : Markup) : Nodes :=
  tree.before .none

mutual

/-- The tags and attribute names of a tree are words. -/
def IsWorded : Markup → Prop
  | text _ => True
  | fragment children => AllWorded children
  | element tag attributes children =>
    IsWord tag ∧ (∀ a ∈ attributes, IsWord a.name) ∧ AllWorded children

/-- The tags and attribute names of several trees are words. -/
def AllWorded : List Markup → Prop
  | [] => True
  | tree :: trees => IsWorded tree ∧ AllWorded trees

end

mutual

/-- A tree has the characters of its normal form. -/
theorem chars_before (tree : Markup) (rest : Nodes) :
    (tree.before rest).chars = tree.chars ++ rest.chars := by
  cases tree with
  | text content => simp only [before, chars, Nodes.chars_after]
  | fragment children => simp only [before, chars, chars_allBefore children rest]
  | element tag attributes children =>
    simp only [before, chars, Nodes.chars, List.append_assoc]
    split <;> simp [chars_allBefore children .none, Nodes.chars]

theorem chars_allBefore (trees : List Markup) (rest : Nodes) :
    (allBefore trees rest).chars = allChars trees ++ rest.chars := by
  cases trees with
  | nil => simp [allBefore, allChars]
  | cons tree trees =>
    simp only [allBefore, allChars, List.append_assoc, chars_before tree, chars_allBefore trees]

end

mutual

theorem isNormal_before {tree : Markup} (h : tree.IsWorded) {rest : Nodes} (hrest : rest.IsNormal) :
    (tree.before rest).IsNormal := by
  cases tree with
  | text content =>
    simp only [before]
    exact Nodes.isNormal_after content hrest
  | fragment children =>
    simp only [before, IsWorded] at h ⊢
    exact isNormal_allBefore h hrest
  | element tag attributes children =>
    simp only [before, IsWorded] at h ⊢
    refine ⟨h.1, h.2.1, fun hvoid => if_pos hvoid, ?_, hrest⟩
    split
    · trivial
    · exact isNormal_allBefore h.2.2 trivial

theorem isNormal_allBefore {trees : List Markup} (h : AllWorded trees) {rest : Nodes}
    (hrest : rest.IsNormal) : (allBefore trees rest).IsNormal := by
  cases trees with
  | nil => simpa only [allBefore] using hrest
  | cons tree trees =>
    simp only [allBefore, AllWorded] at h ⊢
    exact isNormal_before h.1 (isNormal_allBefore h.2 hrest)

end

end Markup

/-! ## Reading nodes back -/

/-- What can come after nodes: nothing or a closing tag. -/
def Closes (text : List Char) : Prop :=
  text = [] ∨ ∃ rest, text = '<' :: '/' :: rest

namespace Nodes

/-- A text that is not empty does not begin as a tag does. -/
theorem chars_text_eq {content : String} (h : content ≠ "") (rest : Nodes) :
    ∃ c text, (Nodes.text content rest).chars = c :: text ∧ c ≠ '<' := by
  cases hchars : content.toList.flatMap Markup.escapedInText with
  | nil =>
    have := Markup.escapedInText_isPrefixCode.flatMap_injective (t := []) (by simpa using hchars)
    exact absurd (String.toList_eq_nil_iff.mp this) h
  | cons c text =>
    have hc := Markup.isText_escapedInText content.toList c (by simp [hchars])
    exact ⟨c, text ++ rest.chars, by simp [chars, hchars], by simpa using hc⟩

/-- An element begins with the character that opens a tag and one of a word. -/
theorem chars_element_eq {tag : String} (h : IsWord tag) (attributes : List Attribute)
    (children rest : Nodes) :
    ∃ c text, (element tag attributes children rest).chars = '<' :: c :: text ∧
      isWordChar c = true := by
  obtain ⟨c, word, hword, hc⟩ := h.eq_cons
  exact ⟨c, _, by simp only [chars, Markup.openTag, hword, List.cons_append]; rfl, hc⟩

/-- After a text comes no other character of a text. -/
theorem stops_chars {nodes : Nodes} (hstart : ¬nodes.StartsWithText) {rest : List Char}
    (hrest : Closes rest) : Stops (· != '<') (nodes.chars ++ rest) := by
  cases nodes with
  | none => obtain rfl | ⟨rest, rfl⟩ := hrest <;> simp [chars, Stops]
  | text content rest => exact absurd trivial hstart
  | element tag attributes children rest => simp [chars, Markup.openTag, Stops]

/-- What comes after nodes does not begin as an element does. -/
theorem closes_ne_element {text : List Char} (h : Closes text) {c : Char}
    (hc : isWordChar c = true) (rest : List Char) : text ≠ '<' :: c :: rest := by
  obtain rfl | ⟨text, rfl⟩ := h
  · simp
  · intro heq
    obtain ⟨rfl, -⟩ := List.cons.inj (List.cons.inj heq).2
    exact absurd hc (by decide)

/-- What comes after nodes does not begin as a text does. -/
theorem closes_ne_text {text : List Char} (h : Closes text) {c : Char} (hc : c ≠ '<')
    (rest : List Char) : text ≠ c :: rest := by
  obtain rfl | ⟨text, rfl⟩ := h
  · simp
  · simp [hc.symm]

/-- Nodes in normal form are read back up to what comes after them. -/
theorem chars_append_inj {a b : Nodes} (ha : a.IsNormal) (hb : b.IsNormal) {rest rest' : List Char}
    (hrest : Closes rest) (hrest' : Closes rest') (heq : a.chars ++ rest = b.chars ++ rest') :
    a = b ∧ rest = rest' := by
  induction a generalizing b rest rest' with
  | none =>
    cases b with
    | none => exact ⟨rfl, heq⟩
    | text content after =>
      obtain ⟨c, text, htext, hc⟩ := chars_text_eq hb.1 after
      rw [htext] at heq
      exact absurd heq (closes_ne_text hrest hc _)
    | element tag attributes children after =>
      obtain ⟨c, text, htext, hc⟩ := chars_element_eq hb.1 attributes children after
      rw [htext] at heq
      exact absurd heq (closes_ne_element hrest hc _)
  | text content after ih =>
    cases b with
    | none =>
      obtain ⟨c, text, htext, hc⟩ := chars_text_eq ha.1 after
      rw [htext] at heq
      exact absurd heq.symm (closes_ne_text hrest' hc _)
    | text content' after' =>
      simp only [chars, List.append_assoc] at heq
      obtain ⟨hcontent, hafter⟩ := append_inj_of_stops (Markup.isText_escapedInText _)
        (Markup.isText_escapedInText _) (stops_chars ha.2.1 hrest) (stops_chars hb.2.1 hrest') heq
      have hsame := Markup.escapedInText_isPrefixCode.flatMap_injective hcontent
      obtain ⟨rfl, rfl⟩ := ih ha.2.2 hb.2.2 hrest hrest' hafter
      exact ⟨by rw [String.toList_injective hsame], rfl⟩
    | element tag attributes children after' =>
      obtain ⟨c, text, htext, hc⟩ := chars_text_eq ha.1 after
      obtain ⟨d, text', htext', -⟩ := chars_element_eq hb.1 attributes children after'
      rw [htext, htext'] at heq
      exact absurd (List.cons.inj heq).1 hc
  | element tag attributes children after ihchildren ih =>
    obtain ⟨htag, hattributes, hvoid, hchildren, hafter⟩ := ha
    cases b with
    | none =>
      obtain ⟨c, text, htext, hc⟩ := chars_element_eq htag attributes children after
      rw [htext] at heq
      exact absurd heq.symm (closes_ne_element hrest' hc _)
    | text content after' =>
      obtain ⟨c, text, htext, -⟩ := chars_element_eq htag attributes children after
      obtain ⟨d, text', htext', hd⟩ := chars_text_eq hb.1 after'
      rw [htext, htext'] at heq
      exact absurd (List.cons.inj heq).1.symm hd
    | element tag' attributes' children' after' =>
      obtain ⟨htag', hattributes', hvoid', hchildren', hafter'⟩ := hb
      simp only [chars, List.append_assoc] at heq
      obtain ⟨rfl, rfl, hbody⟩ :=
        Markup.openTag_append_inj htag htag' hattributes hattributes' heq
      by_cases htagVoid : Markup.voidTags.contains tag = true
      · rw [if_pos htagVoid, if_pos htagVoid, List.nil_append, List.nil_append] at hbody
        obtain ⟨rfl, rfl⟩ := ih hafter hafter' hrest hrest' hbody
        exact ⟨by rw [hvoid htagVoid, hvoid' htagVoid], rfl⟩
      · -- the closing tag ends the children and is the same for both
        rw [if_neg htagVoid, if_neg htagVoid, List.append_assoc, List.append_assoc] at hbody
        have hcloses (r : List Char) : Closes (Markup.closeTag tag ++ r) := .inr ⟨_, rfl⟩
        obtain ⟨rfl, hclose⟩ := ihchildren hchildren hchildren' (hcloses _) (hcloses _) hbody
        obtain ⟨rfl, rfl⟩ := ih hafter hafter' hrest hrest' (List.append_cancel_left hclose)
        exact ⟨rfl, rfl⟩

end Nodes

/-! ## Trees and their HTML -/

namespace Markup

/-- A tree has the characters of its normal form. -/
theorem chars_normal (tree : Markup) : tree.normal.chars = tree.chars := by
  simp [normal, chars_before, Nodes.chars]

/-- The normal form of a tree of words is one. -/
theorem isNormal_normal {tree : Markup} (h : tree.IsWorded) : tree.normal.IsNormal :=
  isNormal_before h trivial

/-- Two trees whose tags and attribute names are words have the same HTML exactly
if they have the same normal form: no text and no value is taken for structure. -/
theorem html_eq_iff {a b : Markup} (ha : a.IsWorded) (hb : b.IsWorded) :
    a.html = b.html ↔ a.normal = b.normal := by
  constructor
  · intro h
    have hchars : a.normal.chars ++ [] = b.normal.chars ++ [] := by
      rw [chars_normal, chars_normal, String.ofList_injective h]
    exact (Nodes.chars_append_inj (isNormal_normal ha) (isNormal_normal hb) (.inl rfl) (.inl rfl)
      hchars).1
  · intro h
    rw [html, html, ← chars_normal a, ← chars_normal b, h]

/-- A cell with two texts in a group and a break that was given a child. -/
def groupedCell : Markup :=
  element "li" [attr "class" "cell", ⟨"hidden", none⟩]
    [text "1 ", fragment [text "< 2", text ""], element "br" [] [text "unseen"]]

/-- The same cell with one text. -/
def plainCell : Markup :=
  element "li" [attr "class" "cell", ⟨"hidden", none⟩] [text "1 < 2", element "br" [] []]

/-- Grouping, cutting a text and the child of a void element do not show. -/
theorem groupedCell_html : groupedCell.IsWorded ∧ plainCell.IsWorded ∧
    groupedCell.html = plainCell.html := by
  have hli : IsWord "li" := by decide
  have hbr : IsWord "br" := by decide
  have hnames : ∀ a ∈ [attr "class" "cell", ⟨"hidden", none⟩], IsWord a.name := by
    simp only [List.forall_mem_cons, attr]
    exact ⟨by decide, by decide, List.forall_mem_nil _⟩
  have hgrouped : groupedCell.IsWorded := by
    simp only [groupedCell, IsWorded, AllWorded, and_true, true_and]
    exact ⟨hli, hnames, hbr, List.forall_mem_nil _⟩
  have hplain : plainCell.IsWorded := by
    simp only [plainCell, IsWorded, AllWorded, and_true, true_and]
    exact ⟨hli, hnames, hbr, List.forall_mem_nil _⟩
  exact ⟨hgrouped, hplain, (html_eq_iff hgrouped hplain).mpr (by decide)⟩

end Markup

end WalletPage
