/-
# Joining declarations to styles

What the joined text of declarations reads back as, before an author's style
(`declarations_prepend`) and behind one (`declarations_append`). A declaration
is readable if its own text reads back; how its value is quoted is its own
affair, as long as it closes what it opens.

The last declaration of a property is in force, so the value of a joined style
is that of the part written last which declares the property.
-/

import Letterpress.Proofs.Style.Cutting
import Mathlib.Data.List.Induction

namespace Letterpress

namespace Declaration

/-- The written declaration can be read again: the property is in the form in which properties
are read, and no separator lies open in the text. -/
structure IsReadable (d : Declaration) : Prop where
  property_ne_nil : d.property ≠ []
  lower_property : Text.lower d.property = d.property
  trim_property : Text.trim d.property = d.property
  colon_not_mem : ':' ∉ d.property
  isWhole_written : Style.IsWhole d.written

/-- The declaration as it is read: blanks around its value are gone. -/
def trimmed (d : Declaration) : Declaration := { d with value := Text.trim d.value }

/-- Characters that mean nothing but themselves in a property. -/
def isNameChar (c : Char) : Bool :=
  !Style.Scan.isMark c && c.toLower == c && !isBlank c && c != ':'

/-- A name of such characters and a whole value make a readable declaration. -/
theorem isReadable_of_isNameChar {property value : Text} (hne : property ≠ [])
    (hname : property.all isNameChar) (hvalue : Style.IsWhole value) :
    IsReadable ⟨property, value⟩ := by
  simp only [List.all_eq_true, isNameChar, Bool.and_eq_true, Bool.not_eq_true', beq_iff_eq,
    bne_iff_ne] at hname
  refine ⟨hne, ?_, ?_, ?_, ?_⟩
  · have hlower : property.map Char.toLower = property.map id := by
      apply List.map_congr_left
      intro c hc
      exact (hname c hc).1.1.2
    exact hlower.trans (List.map_id _)
  · apply Text.trim_eq_self
    intro c hc
    exact (hname c hc).1.2
  · intro hcolon
    exact (hname ':' hcolon).2 rfl
  · have hproperty : Style.IsWhole property :=
      Style.isWhole_of_not_isMark (by simpa using fun c hc => (hname c hc).1.1.1)
    exact (hproperty.append (by decide)).append hvalue

/-- A property of such characters and a value without marks, neither of them empty or
padded. -/
def isPlain (d : Declaration) : Bool :=
  !d.property.isEmpty && d.property.all isNameChar && d.value.all fun c => !Style.Scan.isMark c

theorem isReadable_of_isPlain {d : Declaration} (hplain : d.isPlain = true) : d.IsReadable := by
  simp only [isPlain, Bool.and_eq_true, Bool.not_eq_true', List.isEmpty_eq_false_iff] at hplain
  obtain ⟨⟨hne, hname⟩, hvalue⟩ := hplain
  exact isReadable_of_isNameChar hne hname (Style.isWhole_of_not_isMark hvalue)

/-- The property is in the form in which properties are read. -/
structure IsNamed (d : Declaration) : Prop where
  property_ne_nil : d.property ≠ []
  lower_property : Text.lower d.property = d.property
  trim_property : Text.trim d.property = d.property
  colon_not_mem : ':' ∉ d.property

theorem IsReadable.isNamed {d : Declaration} (hread : d.IsReadable) : d.IsNamed :=
  ⟨hread.property_ne_nil, hread.lower_property, hread.trim_property, hread.colon_not_mem⟩

/-- The text of a declaration holds the declaration. -/
theorem declaration?_written {d : Declaration} (hnamed : d.IsNamed) :
    Style.declaration? d.written = some d.trimmed := by
  have hsplit : Text.splitAtFirst ':' d.written = some (d.property, ' ' :: d.value) := by
    have htext : d.written = d.property ++ ':' :: ' ' :: d.value := by simp [written]
    rw [htext, Text.splitAtFirst_append hnamed.colon_not_mem]
    simp [Text.splitAtFirst]
  have hvalue : Text.trim (' ' :: d.value) = Text.trim d.value := by
    simpa using Text.trim_append_blank (v := [' ']) (w := []) (by decide) rfl d.value
  simp [Style.declaration?, hsplit, hnamed.trim_property, hnamed.lower_property,
    hnamed.property_ne_nil, hvalue, trimmed]

/-- The text of a declaration is read as this declaration alone if no separator lies open in
it, even if it leaves something open. -/
theorem declarations_written {d : Declaration} (hnamed : d.IsNamed)
    (hpieces : Style.pieces .top d.written = [d.written]) :
    Style.declarations d.written = [d.trimmed] := by
  rw [Style.declarations_eq_filterMap, hpieces]
  simp [declaration?_written hnamed]

theorem joined_cons_cons (d e : Declaration) (ds : List Declaration) :
    joined (d :: e :: ds) = d.written ++ ';' :: ([' '] ++ joined (e :: ds)) := by
  simp [joined, Text.joinWith]

theorem joined_singleton (d : Declaration) : joined [d] = d.written := rfl

theorem closes_joined {ds : List Declaration} (hread : ∀ d ∈ ds, d.IsReadable) :
    Style.closes (joined ds) = true := by
  induction ds with
  | nil => rfl
  | cons d ds ih =>
      have hd := (hread d (by simp)).isWhole_written
      cases ds with
      | nil => exact hd.closes
      | cons e ds =>
          have hrest := Style.run_top_of_closes (ih fun d hd => hread d (by simp_all))
          rw [joined_cons_cons, Style.closes, Style.Scan.run_append, hd.1, Style.Scan.run_cons,
            Style.Scan.run_append]
          exact beq_iff_eq.mpr hrest

/-- Joined declarations are read one by one, and the last of them may leave something open. -/
theorem declarations_joined_append {ds : List Declaration} (hread : ∀ d ∈ ds, d.IsReadable)
    (d : Declaration) :
    Style.declarations (joined (ds ++ [d])) =
      ds.map trimmed ++ Style.declarations d.written := by
  induction ds with
  | nil => rfl
  | cons e ds ih =>
      have he := hread e List.mem_cons_self
      obtain ⟨f, fs, hrest⟩ : ∃ f fs, ds ++ [d] = f :: fs :=
        List.exists_cons_of_ne_nil (by simp)
      rw [List.cons_append, hrest, joined_cons_cons,
        Style.declarations_append_semicolon he.isWhole_written.closes,
        Style.declarations_append_blank_left (by decide), ← hrest,
        ih fun d hd => hread d (List.mem_cons_of_mem e hd),
        declarations_written he.isNamed he.isWhole_written.2]
      rfl

theorem declarations_joined {ds : List Declaration} (hread : ∀ d ∈ ds, d.IsReadable) :
    Style.declarations (joined ds) = ds.map trimmed := by
  induction ds using List.reverseRecOn with
  | nil => rfl
  | append_singleton ds d _ =>
      have hd := hread d (by simp)
      rw [declarations_joined_append (fun e he => hread e (List.mem_append_left _ he)),
        declarations_written hd.isNamed hd.isWhole_written.2, List.map_append,
        List.map_singleton]

/-! ## Values in force -/

/-- The value that a list of declarations gives a property in the end. -/
def lastValue? (ds : List Declaration) (property : Text) : Option Text :=
  (ds.reverse.find? fun d => Text.sameName d.property property).map Declaration.value

theorem lastValue?_append (ds es : List Declaration) (property : Text) :
    lastValue? (ds ++ es) property = (lastValue? es property).or (lastValue? ds property) := by
  rw [lastValue?, List.reverse_append, List.find?_append]
  cases hlast : es.reverse.find? (fun d => Text.sameName d.property property) <;>
    simp [lastValue?, hlast]

theorem lastValue?_eq_none_iff {ds : List Declaration} {property : Text} :
    lastValue? ds property = none ↔ ∀ d ∈ ds, Text.sameName d.property property = false := by
  simp [lastValue?]

theorem isSome_lastValue?_iff {ds : List Declaration} {property : Text} :
    (lastValue? ds property).isSome = true ↔
      ∃ d ∈ ds, Text.sameName d.property property = true := by
  rw [Option.isSome_iff_ne_none, Ne, lastValue?_eq_none_iff]
  simp

end Declaration

namespace Style

open Declaration

theorem value?_eq_lastValue? (t property : Text) :
    value? t property = lastValue? (declarations t) property := rfl

/-- What is read of a style that may be missing. -/
def declarationsOf (style : Option Text) : List Declaration :=
  (style.map declarations).getD []

/-- A missing style declares nothing. -/
theorem lastValue?_declarationsOf (style : Option Text) (property : Text) :
    lastValue? (declarationsOf style) property = style.bind (value? · property) := by
  cases style <;> rfl

/-! ## Styles from parts -/

/-- Declarations before an author's style are read before it, whatever the author wrote. -/
theorem declarations_prepend {ds : List Declaration} (hne : ds ≠ [])
    (hread : ∀ d ∈ ds, d.IsReadable) (author : Option Text) :
    ∃ style, prepend ds author = some style ∧
      declarations style = ds.map trimmed ++ declarationsOf author := by
  have hjoined := declarations_joined hread
  have hsome : ds.isEmpty = false := by simpa using hne
  cases author with
  | none => exact ⟨joined ds, by simp [prepend, hne], by simp [hjoined, declarationsOf]⟩
  | some style =>
      by_cases hblank : Text.isBlankText style
      · refine ⟨joined ds, by simp [prepend, hne, hblank], ?_⟩
        simp [hjoined, declarationsOf, declarations_of_isBlankText hblank]
      · refine ⟨joined ds ++ ';' :: ([' '] ++ style), by simp [prepend, hne, hblank], ?_⟩
        rw [declarations_append_semicolon (closes_joined hread),
          declarations_append_blank_left (by decide), hjoined]
        rfl

/-- Declarations before an author's style close if the author's style does. -/
theorem closes_prepend {ds : List Declaration} (hread : ∀ d ∈ ds, d.IsReadable)
    {author : Option Text} (hcloses : ∀ style ∈ author, closes style = true) :
    ∀ style ∈ prepend ds author, closes style = true := by
  have hjoined := closes_joined hread
  intro style hstyle
  revert hstyle
  fun_cases prepend ds author
  case case1 => exact nofun
  case case2 | case4 =>
    rintro ⟨⟩
    exact hjoined
  case case3 _ author _ =>
    rintro ⟨⟩
    have hsep : closes "; " = true := by decide
    rw [closes, Scan.run_append, Scan.run_append, run_top_of_closes hjoined,
      run_top_of_closes hsep, run_top_of_closes (hcloses author rfl)]
    rfl

/-- The semicolons at the end of a text that closes separate nothing. -/
theorem declarations_dropEnd_semicolon {t : Text} (hcloses : closes t = true) :
    closes (Text.dropEndWhile (· == ';') t) = true ∧
      declarations (Text.dropEndWhile (· == ';') t) = declarations t := by
  obtain ⟨w, hw, heq⟩ := Text.exists_dropEndWhile_eq (· == ';') t
  generalize Text.dropEndWhile (· == ';') t = u at heq
  subst heq
  have hu : closes u = true := by
    rw [closes, ← Scan.run_semicolons (Scan.isValid_top.run u) hw, ← Scan.run_append]
    exact hcloses
  refine ⟨hu, ?_⟩
  cases w with
  | nil => rw [List.append_nil]
  | cons c w =>
      simp only [List.all_cons, Bool.and_eq_true, beq_iff_eq] at hw
      have hempty : declarations w = [] := by
        have hall := hw.2
        clear hw hcloses
        induction w with
        | nil => rfl
        | cons d w ih =>
            simp only [List.all_cons, Bool.and_eq_true, beq_iff_eq] at hall
            rw [hall.1, ← List.nil_append (';' :: w),
              declarations_append_semicolon (t := []) rfl w, ih hall.2]
            rfl
      rw [hw.1, declarations_append_semicolon hu, hempty, List.append_nil]

/-- Blanks around a text change neither what it closes nor what it declares. -/
theorem declarations_append_blank {v w : Text} (hv : v.all isBlank) (hw : w.all isBlank)
    (t : Text) :
    closes (v ++ (t ++ w)) = closes t ∧ declarations (v ++ (t ++ w)) = declarations t := by
  constructor
  · rw [closes, closes, Scan.run_append, Scan.run_append,
      Scan.run_of_not_isMark Scan.isValid_top (Scan.not_isMark_of_all_isBlank hv),
      Scan.run_of_not_isMark (Scan.isValid_top.run t) (Scan.not_isMark_of_all_isBlank hw)]
  · rw [declarations_append_blank_left hv, declarations_append_blank_right hw]

/-- A style that closes declares the same without the semicolons and white space at its
end. -/
theorem declarations_bare {style : Text} (hcloses : closes style = true) :
    closes (bare style) = true ∧ declarations (bare style) = declarations style := by
  obtain ⟨v, w, hv, hw, htrim⟩ := Text.exists_trim_eq style
  obtain ⟨hcloses', hsame⟩ := declarations_append_blank hv hw (Text.trim style)
  rw [← htrim] at hcloses' hsame
  obtain ⟨hsemi, hsemiSame⟩ := declarations_dropEnd_semicolon (hcloses' ▸ hcloses)
  obtain ⟨u, hu, hend⟩ := Text.exists_dropEndWhile_eq isBlank
    (Text.dropEndWhile (· == ';') (Text.trim style))
  obtain ⟨hclosesEnd, hsameEnd⟩ := declarations_append_blank (v := []) rfl hu (bare style)
  rw [List.nil_append, bare, Text.trimEnd, ← hend] at hclosesEnd hsameEnd
  rw [bare, Text.trimEnd]
  exact ⟨hclosesEnd ▸ hsemi, by rw [← hsameEnd, hsemiSame, hsame]⟩

/-- Declarations behind an author's style that closes are read behind it. -/
theorem declarations_append {ds : List Declaration} (hread : ∀ d ∈ ds, d.IsReadable)
    {author : Option Text} (hcloses : ∀ style ∈ author, closes style = true) :
    declarationsOf ((append author ds).or author) =
      declarationsOf author ++ ds.map trimmed := by
  cases hds : ds with
  | nil => simp [append]
  | cons d ds' =>
      rw [← hds]
      have hne : ds ≠ [] := by simp [hds]
      have hjoined := declarations_joined hread
      cases author with
      | none => simp [append, hne, hjoined, declarationsOf]
      | some style =>
          by_cases hblank : Text.isBlankText style
          · simp [append, hne, hblank, hjoined, declarationsOf,
              declarations_of_isBlankText hblank]
          · obtain ⟨hbare, hsame⟩ := declarations_bare (hcloses style rfl)
            have hstyle : append (some style) ds =
                some (bare style ++ ';' :: ([' '] ++ joined ds)) := by
              simp [append, hne, hblank]
            rw [hstyle, Option.some_or]
            simp only [declarationsOf, Option.map_some, Option.getD_some]
            rw [declarations_append_semicolon hbare, declarations_append_blank_left (by decide),
              hjoined, hsame]

end Style

end Letterpress
