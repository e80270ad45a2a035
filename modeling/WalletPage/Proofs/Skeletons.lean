import WalletPage.Proofs.NormalMarkup
import WalletPage.Render.Basic
import WalletPage.Render.Notice

/-! The skeleton of HTML is what a scanner keeps that deletes the texts outside
tags and the contents of attribute values. What a view shows goes into texts and
values only, so it never decides the skeleton: the scanner leaves a text or a
value exactly where the tree does. -/

namespace WalletPage

/-! ### The scanner -/

namespace Html

/-- Where a scanner of HTML is: in a text, in a tag, or in a value between double quotes. -/
inductive Place where
  | text
  | tag
  | value
deriving DecidableEq, Repr

/-- Where the scanner is after a character. -/
def Place.after : Place → Char → Place
  | text, c => if c = '<' then tag else text
  | tag, c => if c = '"' then value else if c = '>' then text else tag
  | value, c => if c = '"' then tag else value

/-- Whether the scanner keeps a character: those of tags with the quotes around values. -/
def Place.keeps : Place → Char → Bool
  | text, c => c = '<'
  | tag, _ => true
  | value, c => c = '"'

/-- What is left of HTML that is scanned from a place on. -/
def skeletonFrom : Place → List Char → List Char
  | _, [] => []
  | place, c :: rest =>
    let others := skeletonFrom (place.after c) rest
    if place.keeps c then c :: others else others

/-- What is left of HTML without the texts outside tags and the contents of values. -/
def skeleton (html : String) : List Char :=
  skeletonFrom .text html.toList

theorem skeletonFrom_text {run : List Char} (h : ∀ c ∈ run, (c != '<') = true)
    (rest : List Char) : skeletonFrom .text (run ++ rest) = skeletonFrom .text rest := by
  induction run with
  | nil => rfl
  | cons c run ih =>
    obtain ⟨hc, hrun⟩ := List.forall_mem_cons.mp h
    simp only [bne_iff_ne] at hc
    simp [skeletonFrom, Place.after, Place.keeps, hc, ih hrun]

theorem skeletonFrom_value {run : List Char} (h : ∀ c ∈ run, (c != '"') = true)
    (rest : List Char) :
    skeletonFrom .value (run ++ '"' :: rest) = '"' :: skeletonFrom .tag rest := by
  induction run with
  | nil => rfl
  | cons c run ih =>
    obtain ⟨hc, hrun⟩ := List.forall_mem_cons.mp h
    simp only [bne_iff_ne] at hc
    simp [skeletonFrom, Place.after, Place.keeps, hc, ih hrun]

theorem skeletonFrom_tag {run : List Char} (h : ∀ c ∈ run, c ≠ '"' ∧ c ≠ '>')
    (rest : List Char) : skeletonFrom .tag (run ++ rest) = run ++ skeletonFrom .tag rest := by
  induction run with
  | nil => rfl
  | cons c run ih =>
    obtain ⟨hc, hrun⟩ := List.forall_mem_cons.mp h
    simp [skeletonFrom, Place.after, Place.keeps, hc.1, hc.2, ih hrun]

end Html

/-! ### Trees without their texts and values -/

/-- The attribute with an empty value. -/
def Attribute.blank (a : Attribute) : Attribute :=
  ⟨a.name, a.value.map fun _ => ""⟩

namespace Markup

mutual

/-- The tree with empty texts and values. -/
def blank : Markup → Markup
  | text _ => text ""
  | fragment children => fragment (allBlank children)
  | element tag attributes children =>
    element tag (attributes.map Attribute.blank) (allBlank children)

/-- The trees with empty texts and values. -/
def allBlank : List Markup → List Markup
  | [] => []
  | tree :: rest => blank tree :: allBlank rest

end

theorem allBlank_eq_map (trees : List Markup) : allBlank trees = trees.map blank := by
  induction trees with
  | nil => rfl
  | cons tree rest ih => rw [allBlank, ih, List.map_cons]

open Html

theorem ne_of_isWordChar {c : Char} (h : isWordChar c = true) : c ≠ '"' ∧ c ≠ '>' :=
  ⟨fun heq => by simp [heq, isWordChar] at h, fun heq => by simp [heq, isWordChar] at h⟩

/-- Scanning an attribute leaves it with an empty value. -/
theorem skeletonFrom_attribute {a : Attribute} (ha : IsWord a.name) (rest : List Char) :
    skeletonFrom .tag (attributeChars a ++ rest) =
      attributeChars a.blank ++ skeletonFrom .tag rest := by
  obtain ⟨name, value⟩ := a
  have hname : ∀ c ∈ ' ' :: name.toList, c ≠ '"' ∧ c ≠ '>' :=
    List.forall_mem_cons.mpr ⟨by decide, fun c hc => ne_of_isWordChar (ha.chars c hc)⟩
  cases value with
  | none => exact skeletonFrom_tag hname rest
  | some value =>
    have hopen : ∀ c ∈ ' ' :: name.toList ++ ['='], c ≠ '"' ∧ c ≠ '>' := by
      rw [List.forall_mem_append]
      exact ⟨hname, List.forall_mem_singleton.mpr (by decide)⟩
    have hvalue := skeletonFrom_value (isValue_escapedInValue value.toList) rest
    have hquote (tail : List Char) :
        skeletonFrom .tag ('"' :: tail) = '"' :: skeletonFrom .value tail := rfl
    calc skeletonFrom .tag (attributeChars ⟨name, some value⟩ ++ rest)
      _ = skeletonFrom .tag ((' ' :: name.toList ++ ['=']) ++
            '"' :: (value.toList.flatMap escapedInValue ++ '"' :: rest)) := by
          simp [attributeChars]
      _ = (' ' :: name.toList ++ ['=']) ++ '"' :: '"' :: skeletonFrom .tag rest := by
          rw [skeletonFrom_tag hopen, hquote, hvalue]
      _ = attributeChars (Attribute.blank ⟨name, some value⟩) ++ skeletonFrom .tag rest := by
          simp [attributeChars, Attribute.blank]

theorem skeletonFrom_attributes {attributes : List Attribute}
    (h : ∀ a ∈ attributes, IsWord a.name) (rest : List Char) :
    skeletonFrom .tag (attributes.flatMap attributeChars ++ rest) =
      (attributes.map Attribute.blank).flatMap attributeChars ++ skeletonFrom .tag rest := by
  induction attributes with
  | nil => rfl
  | cons a others ih =>
    obtain ⟨ha, hothers⟩ := List.forall_mem_cons.mp h
    simp only [List.flatMap_cons, List.map_cons, List.append_assoc]
    rw [skeletonFrom_attribute ha, ih hothers]

/-- Scanning an opening tag leaves it with empty values, and ends in a text. -/
theorem skeletonFrom_openTag {tag : String} {attributes : List Attribute} (htag : IsWord tag)
    (h : ∀ a ∈ attributes, IsWord a.name) (rest : List Char) :
    skeletonFrom .text (openTag tag attributes ++ rest) =
      openTag tag (attributes.map Attribute.blank) ++ skeletonFrom .text rest := by
  have hword : ∀ c ∈ tag.toList, c ≠ '"' ∧ c ≠ '>' :=
    fun c hc => ne_of_isWordChar (htag.chars c hc)
  calc skeletonFrom .text (openTag tag attributes ++ rest)
    _ = '<' :: skeletonFrom .tag
          (tag.toList ++ (attributes.flatMap attributeChars ++ '>' :: rest)) := by
        simp [openTag, skeletonFrom, Place.after, Place.keeps]
    _ = '<' :: (tag.toList ++ ((attributes.map Attribute.blank).flatMap attributeChars ++
          '>' :: skeletonFrom .text rest)) := by
        rw [skeletonFrom_tag hword, skeletonFrom_attributes h]
        rfl
    _ = openTag tag (attributes.map Attribute.blank) ++ skeletonFrom .text rest := by
        simp [openTag]

theorem skeletonFrom_closeTag {tag : String} (htag : IsWord tag) (rest : List Char) :
    skeletonFrom .text (closeTag tag ++ rest) = closeTag tag ++ skeletonFrom .text rest := by
  have hword : ∀ c ∈ '/' :: tag.toList, c ≠ '"' ∧ c ≠ '>' :=
    List.forall_mem_cons.mpr ⟨by decide, fun c hc => ne_of_isWordChar (htag.chars c hc)⟩
  calc skeletonFrom .text (closeTag tag ++ rest)
    _ = '<' :: skeletonFrom .tag (('/' :: tag.toList) ++ '>' :: rest) := by
        simp [closeTag, skeletonFrom, Place.after, Place.keeps]
    _ = '<' :: (('/' :: tag.toList) ++ '>' :: skeletonFrom .text rest) := by
        rw [skeletonFrom_tag hword]
        rfl
    _ = closeTag tag ++ skeletonFrom .text rest := by simp [closeTag]

mutual

/-- Scanning a tree leaves it with empty texts and values, whatever comes after it. -/
theorem skeletonFrom_chars {tree : Markup} (h : tree.IsWorded) (rest : List Char) :
    skeletonFrom .text (tree.chars ++ rest) = tree.blank.chars ++ skeletonFrom .text rest := by
  cases tree with
  | text content =>
    simp only [chars, blank, String.toList_empty, List.flatMap_nil, List.nil_append]
    exact skeletonFrom_text (isText_escapedInText _) rest
  | fragment children =>
    simp only [IsWorded, chars, blank] at h ⊢
    exact skeletonFrom_allChars h rest
  | element tag attributes children =>
    simp only [IsWorded, chars, blank, List.append_assoc] at h ⊢
    rw [skeletonFrom_openTag h.1 h.2.1]
    split
    · rfl
    · rw [List.append_assoc, skeletonFrom_allChars h.2.2, skeletonFrom_closeTag h.1,
        List.append_assoc]

theorem skeletonFrom_allChars {trees : List Markup} (h : AllWorded trees) (rest : List Char) :
    skeletonFrom .text (allChars trees ++ rest) =
      allChars (allBlank trees) ++ skeletonFrom .text rest := by
  cases trees with
  | nil => rfl
  | cons tree trees =>
    simp only [AllWorded, allChars, allBlank, List.append_assoc] at h ⊢
    rw [skeletonFrom_chars h.1, skeletonFrom_allChars h.2]

end

/-- The skeleton of a tree whose tags and attribute names are words has nothing of its
texts and values. -/
theorem skeleton_html {tree : Markup} (h : tree.IsWorded) :
    skeleton tree.html = tree.blank.chars := by
  have hscan := skeletonFrom_chars h []
  simpa [skeleton, html, skeletonFrom] using hscan

end Markup

/-! ### What the views show -/

theorem Markup.AllWorded.of_map {α : Type} {build : α → Markup} (h : ∀ a, (build a).IsWorded)
    (items : List α) : AllWorded (items.map build) := by
  induction items with
  | nil => trivial
  | cons a rest ih => exact ⟨h a, ih⟩

open Markup

theorem isWorded_txRow (ctx : RenderContext) (line : TxLine) : (txRow ctx line).IsWorded := by
  simp only [txRow, detailsForm, hiddenInput, noteInput, cell, attr, IsWorded, AllWorded,
    List.forall_mem_cons, List.not_mem_nil, false_implies, implies_true, and_true]
  decide

theorem isWorded_txHeader : txHeader.IsWorded := by
  simp only [txHeader, attr, List.map_cons, List.map_nil, IsWorded, AllWorded,
    List.forall_mem_cons, List.not_mem_nil, false_implies, implies_true, and_true]
  decide

theorem isWorded_txTable (ctx : RenderContext) (page : TxHistoryPage) :
    (txTable ctx page).IsWorded :=
  ⟨isWorded_txHeader, .of_map (isWorded_txRow ctx) page.lines⟩

theorem isWorded_pageOption (current n : Nat) : (pageOption current n).IsWorded := by
  have hflag : ∀ a ∈ flag "selected" (n = current), IsWord a.name := by
    intro a ha
    rw [flag] at ha
    split at ha
    · cases List.mem_singleton.mp ha
      decide
    · cases ha
  have hvalue : ∀ a ∈ [attr "value" (numeral n)], IsWord a.name :=
    List.forall_mem_singleton.mpr (by simp only [attr]; decide)
  exact ⟨by decide, List.forall_mem_append.mpr ⟨hflag, hvalue⟩, trivial, trivial⟩

theorem isWorded_pageOptions (page : TxHistoryPage) : (pageOptions page).IsWorded :=
  .of_map (isWorded_pageOption page.current.toNat) _

theorem isWorded_shutdownNotice (baseUrl : String) : (shutdownNotice baseUrl).IsWorded := by
  simp only [shutdownNotice, attr, IsWorded, AllWorded, List.forall_mem_cons, List.not_mem_nil,
    false_implies, implies_true, and_true]
  decide

/-- All rows are the same without their texts and values. -/
theorem blank_txTable (ctx ctx' : RenderContext) {page page' : TxHistoryPage}
    (h : page.lines.length = page'.lines.length) :
    (txTable ctx page).blank = (txTable ctx' page').blank := by
  have hrow (ctx : RenderContext) (line : TxLine) :
      (txRow ctx line).blank = (txRow { session := ⟨""⟩ } {}).blank := rfl
  simp only [txTable, blank, allBlank, allBlank_eq_map, List.map_map, Function.comp_def, hrow,
    List.map_const', h]

/-- What is left of a change when everything is taken away that data can decide. -/
inductive Change.Outline where
  | html (skeleton : List Char)
  | className
  | value
deriving DecidableEq, Repr

/-- The outline of a change. -/
def Change.outline : Change → Outline
  | .html content => .html (Html.skeleton content)
  | .className _ => .className
  | .value _ => .value

/-- The target of an update with the outline of its change. -/
def Update.outline (u : Update) : Target × Change.Outline :=
  (u.target, u.change.outline)

theorem Update.outline_html {tree : Markup} (h : tree.IsWorded) (target : Target) :
    (Update.html target tree).outline = (target, .html tree.blank.chars) := by
  rw [outline, html, Change.outline, skeleton_html h]

theorem Update.outline_text (target : Target) (content : String) :
    (Update.text target content).outline = (target, .html []) :=
  @outline_html (.text content) trivial target

/-- Whether two snapshots are of one kind and, if they are pages of transactions, agree on
the number of lines, the number of pages and which page they are. -/
def Snapshot.SameForm : Snapshot → Snapshot → Prop
  | .balance _, .balance _ => True
  | .blockHeight _, .blockHeight _ => True
  | .progress _, .progress _ => True
  | .txHistory page, .txHistory page' =>
    page.lines.length = page'.lines.length ∧ page.total = page'.total ∧
      page.current = page'.current
  | _, _ => False

theorem Balance.outlines (data data' : Balance) :
    data.updates.map Update.outline = data'.updates.map Update.outline := by
  simp only [updates, List.map_cons, Update.outline_text]
  rfl

theorem BlockHeight.outlines (data data' : BlockHeight) :
    data.updates.map Update.outline = data'.updates.map Update.outline := by
  simp only [updates, List.map_cons, Update.outline_text]
  rfl

theorem Progress.outlines (v : View) (data data' : Progress) :
    (data.updates v).map Update.outline = (data'.updates v).map Update.outline := by
  simp only [updates, List.map_cons, Update.outline_text]

theorem TxHistoryPage.outlines (ctx ctx' : RenderContext) {page page' : TxHistoryPage}
    (hlines : page.lines.length = page'.lines.length) (htotal : page.total = page'.total)
    (hcurrent : page.current = page'.current) :
    (page.updates ctx).map Update.outline = (page'.updates ctx').map Update.outline := by
  have hoptions : pageOptions page = pageOptions page' := by
    rw [pageOptions, pageOptions, htotal, hcurrent]
  simp only [updates, List.map_cons, Update.outline_text,
    Update.outline_html (isWorded_txTable _ _), Update.outline_html (isWorded_pageOptions _),
    blank_txTable ctx ctx' hlines, hoptions]

/-- Data cannot inject markup. The updates for two snapshots of one form have the same
targets, the same kinds of changes and the same skeletons of HTML, whatever their texts are
and in whatever contexts they are rendered; so has the notice of a shutdown for every base
address. -/
theorem updates_outline :
    (∀ (v : View) (ctx ctx' : RenderContext) (s s' : Snapshot), s.SameForm s' →
      (s.updates v ctx).map Update.outline = (s'.updates v ctx').map Update.outline) ∧
    ∀ baseUrl baseUrl', Html.skeleton (shutdownNotice baseUrl).html =
      Html.skeleton (shutdownNotice baseUrl').html := by
  refine ⟨fun v ctx ctx' s s' h => ?_, fun baseUrl baseUrl' => ?_⟩
  · cases s <;> cases s' <;> first | cases h; done | skip
    · exact Balance.outlines _ _
    · exact BlockHeight.outlines _ _
    · exact TxHistoryPage.outlines ctx ctx' h.1 h.2.1 h.2.2
    · exact Progress.outlines v _ _
  · rw [skeleton_html (isWorded_shutdownNotice baseUrl),
      skeleton_html (isWorded_shutdownNotice baseUrl')]
    rfl

/-- A line whose texts and note are markup leaves no trace of it. -/
theorem updates_outline_hostile :
    ((Snapshot.txHistory ⟨[{ kind := "</li><script>", shortId := "\"><b>" }], 1, 1⟩).updates
      .txHistory { session := ⟨"a"⟩, note := fun _ => some "\" onfocus=\"" }).map Update.outline =
    ((Snapshot.txHistory ⟨[{}], 1, 1⟩).updates .txHistory { session := ⟨"b"⟩ }).map
      Update.outline :=
  updates_outline.1 .txHistory _ _ _ _ ⟨rfl, rfl, rfl⟩

end WalletPage
