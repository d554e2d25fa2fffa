/-
# Styles that leave something open

A style text that leaves quotes or a parenthesis open never ends its last piece:
whatever is written behind it, quotes and parentheses apart, becomes part of that
piece. So the declarations before it stay as they are, and what the last piece
declares holds the character that was left open, in its property or in its value.

A length in pixels holds no such character. Hence the pixels that a style gives a
property do not change when something is written behind a style that leaves
something open (`bind_value?_append_of_open`), though the value itself may.
-/

import Letterpress.Proofs.Style.Joining
import Letterpress.Proofs.Text.Letters
import Letterpress.Style.Pixels

namespace Letterpress

/-! ## Characters of lengths -/

/-- The characters that leave a style open until something closes it. -/
def isOpening (c : Char) : Bool := c == '"' || c == '\'' || c == '('

/-- The characters that open or close something. -/
def isBracket (c : Char) : Bool := isOpening c || c == ')'

theorem isOpening_cases {c : Char} (hopening : isOpening c = true) :
    c = '"' ∨ c = '\'' ∨ c = '(' := by
  simpa [isOpening, or_assoc] using hopening

namespace Text

/-- Trimming takes blanks only. -/
theorem mem_trim {c : Char} {t : Text} (hmem : c ∈ t) (hblank : isBlank c = false) :
    c ∈ trim t := by
  obtain ⟨v, w, hv, hw, heq⟩ := exists_trim_eq t
  have hnot (u : Text) (hu : u.all isBlank = true) : c ∉ u := by
    intro hcu
    have hyes := List.all_eq_true.mp hu c hcu
    rw [hblank] at hyes
    cases hyes
  rw [heq, List.mem_append, List.mem_append] at hmem
  rcases hmem with hleft | hmiddle | hright
  · exact absurd hleft (hnot v hv)
  · exact hmiddle
  · exact absurd hright (hnot w hw)

/-- What opens something is neither trimmed away nor made small. -/
theorem mem_lower_trim {c : Char} {t : Text} (hopening : isOpening c = true) (hmem : c ∈ t) :
    c ∈ lower (trim t) := by
  have hkept : isBlank c = false ∧ c.toLower = c := by
    rcases isOpening_cases hopening with rfl | rfl | rfl <;> decide
  exact List.mem_map.mpr ⟨c, mem_trim hmem hkept.1, hkept.2⟩

end Text

namespace DecimalNumber

/-- The characters that numbers are written with. -/
def isNumberChar (c : Char) : Bool := c.isDigit || c == '-' || c == '+' || c == '.' || c == 'e'

theorem not_isNumberChar_of_isOpening {c : Char} (hopening : isOpening c = true) :
    isNumberChar c = false := by
  rcases isOpening_cases hopening with rfl | rfl | rfl <;> decide

theorem mem_of_sign {t : Text} {c : Char} (hmem : c ∈ t) :
    c ∈ (sign t).2 ∨ isNumberChar c = true := by
  unfold sign
  split
  · rcases List.mem_cons.mp hmem with rfl | hrest
    · exact .inr rfl
    · exact .inl hrest
  · rcases List.mem_cons.mp hmem with rfl | hrest
    · exact .inr rfl
    · exact .inl hrest
  · exact .inl hmem

theorem isNumberChar_of_exponent? {t : Text} (hsome : (exponent? t).isSome = true) {c : Char}
    (hmem : c ∈ t) : isNumberChar c = true := by
  cases t with
  | nil => cases hmem
  | cons d t =>
      simp only [exponent?] at hsome
      split at hsome
      · rename_i hparts
        simp only [Bool.and_eq_true, decide_eq_true_eq, areDigits] at hparts
        obtain ⟨rfl, -, hdigits⟩ := hparts
        rcases List.mem_cons.mp hmem with rfl | hrest
        · rfl
        · rcases mem_of_sign hrest with hdigit | hsign
          · simp [isNumberChar, List.all_eq_true.mp hdigits c hdigit]
          · exact hsign
      · cases hsome

/-- Digits, and then something else that is known. -/
theorem isNumberChar_of_dropWhile {t : Text}
    (hrest : ∀ c ∈ t.dropWhile Char.isDigit, isNumberChar c = true) {c : Char} (hmem : c ∈ t) :
    isNumberChar c = true := by
  rw [← List.takeWhile_append_dropWhile (p := Char.isDigit) (l := t), List.mem_append] at hmem
  rcases hmem with hdigit | hlater
  · have hyes := List.mem_takeWhile_imp hdigit
    simp [isNumberChar, hyes]
  · exact hrest c hlater

/-- What is read as a number consists of such characters. -/
theorem isNumberChar_of_parse? {t : Text} (hsome : (parse? t).isSome = true) {c : Char}
    (hmem : c ∈ t) : isNumberChar c = true := by
  rcases mem_of_sign hmem with hunsigned | hsign
  · refine isNumberChar_of_dropWhile (fun d hd => ?_) hunsigned
    simp only [parse?] at hsome
    split at hsome
    · rename_i places hpoint
      split at hsome
      · cases hsome
      · rw [Option.isSome_map] at hsome
        rw [hpoint] at hd
        rcases List.mem_cons.mp hd with rfl | hd
        · rfl
        · exact isNumberChar_of_dropWhile (fun e he => isNumberChar_of_exponent? hsome he) hd
    · split at hsome
      · cases hsome
      · rw [Option.isSome_map] at hsome
        exact isNumberChar_of_exponent? hsome hd
  · exact hsign

end DecimalNumber

/-- A length in pixels opens nothing. -/
theorem pixels?_eq_none {value : Text} {m : Char} (hopening : isOpening m = true)
    (hmem : m ∈ value) : pixels? value = none := by
  have hlower := Text.mem_lower_trim hopening hmem
  have hnumber : m ∈ Text.trim
      ((Text.before? "px" (Text.lower (Text.trim value))).getD (Text.lower (Text.trim value))) := by
    have hblank : isBlank m = false := by
      rcases isOpening_cases hopening with rfl | rfl | rfl <;> decide
    refine Text.mem_trim ?_ hblank
    cases hbefore : Text.before? "px" (Text.lower (Text.trim value)) with
    | none => exact hlower
    | some rest =>
        rw [Text.before?_eq_some_iff.mp hbefore, List.mem_append] at hlower
        rcases hlower with hrest | hunit
        · exact hrest
        · rcases isOpening_cases hopening with rfl | rfl | rfl <;> simp at hunit
  have hnone : DecimalNumber.parse? (Text.trim
      ((Text.before? "px" (Text.lower (Text.trim value))).getD
        (Text.lower (Text.trim value)))) = none := by
    rw [← Option.not_isSome_iff_eq_none]
    intro hsome
    have hchar := DecimalNumber.isNumberChar_of_parse? hsome hnumber
    rw [DecimalNumber.not_isNumberChar_of_isOpening hopening] at hchar
    cases hchar
  simp only [pixels?, hnone, Option.bind_none]

namespace Style

open Declaration

/-! ## The last piece -/

namespace Scan

/-- Nothing that is not open can be left open. -/
theorem run_top_of_not_isOpening {t : Text} (hnone : ∀ c ∈ t, isOpening c = false) :
    top.run t = top := by
  induction t with
  | nil => rfl
  | cons c t ih =>
      have hstep : top.step c = top := by
        have hc := hnone c (by simp)
        simp only [isOpening, Bool.or_eq_false_iff, beq_eq_false_iff_ne] at hc
        simp [step, top, hc.1.1, hc.1.2, hc.2]
      rw [run_cons, hstep]
      exact ih fun d hd => hnone d (by simp [hd])

/-- Only quotes and parentheses move a scan. -/
theorem step_of_not_isBracket {s : Scan} (hvalid : s.IsValid) {c : Char}
    (hbracket : isBracket c = false) : s.step c = s := by
  simp only [isBracket, isOpening, Bool.or_eq_false_iff] at hbracket
  obtain ⟨⟨⟨hdouble, hsingle⟩, hleft⟩, hright⟩ := hbracket
  by_cases hsemicolon : c = ';'
  · rw [hsemicolon, step_semicolon hvalid]
  · apply step_of_not_isMark hvalid
    simp [isMark, hdouble, hsingle, hleft, hright, hsemicolon]

theorem run_of_not_isBracket {s : Scan} (hvalid : s.IsValid) {w : Text}
    (hw : ∀ c ∈ w, isBracket c = false) : s.run w = s := by
  induction w with
  | nil => rfl
  | cons c w ih =>
      rw [run_cons, step_of_not_isBracket hvalid (hw c (by simp))]
      exact ih fun d hd => hw d (by simp [hd])

end Scan

/-- Where something is open, text without quotes and parentheses is one piece. -/
theorem pieces_of_ne_top {s : Scan} (hvalid : s.IsValid) (hopen : s ≠ .top) {w : Text}
    (hw : ∀ c ∈ w, isBracket c = false) : pieces s w = [w] := by
  induction w with
  | nil => rfl
  | cons c w ih =>
      have hcuts : ¬ s.cuts c = true := fun hcuts => hopen (Scan.cuts_iff.mp hcuts).1
      rw [pieces, if_neg hcuts, Scan.step_of_not_isBracket hvalid (hw c (by simp)),
        ih fun d hd => hw d (by simp [hd])]
      rfl

/-- What the last piece leaves open is what the text leaves open. -/
theorem run_eq_run_last_piece {s : Scan} {t : Text} {ps : List Text} {p : Text}
    (hpieces : pieces s t = ps ++ [p]) : s.run t = (if ps = [] then s else .top).run p := by
  induction t generalizing s ps p with
  | nil =>
      obtain ⟨rfl, rfl⟩ : ps = [] ∧ p = [] := by
        cases ps <;> simp_all [pieces]
      rfl
  | cons c t ih =>
      by_cases hcuts : s.cuts c
      · obtain ⟨rfl, rfl⟩ := Scan.cuts_iff.mp hcuts
        rw [pieces, if_pos hcuts] at hpieces
        cases ps with
        | nil =>
            have hnil : pieces Scan.top t = [] := by simpa using (List.cons.inj hpieces).2
            exact absurd hnil (pieces_ne_nil _ _)
        | cons q qs =>
            have hlast := ih (List.cons.inj hpieces).2
            rw [ite_self] at hlast
            rw [Scan.run_cons, Scan.step_of_cuts hcuts, hlast, if_neg (by simp)]
      · rw [pieces, if_neg hcuts] at hpieces
        obtain ⟨qs, q, hrest⟩ : ∃ qs q, pieces (s.step c) t = qs ++ [q] := by
          obtain ⟨qs, q, hrest, -⟩ := exists_last_piece (s.step c) t
          exact ⟨qs, q, hrest⟩
        have hlast := ih hrest
        rw [hrest] at hpieces
        rw [Scan.run_cons, hlast]
        cases qs with
        | nil =>
            have hfirst : [c :: q] = ps ++ [p] := hpieces
            obtain ⟨rfl, rfl⟩ : ps = [] ∧ p = c :: q := by
              cases ps <;> simp_all
            rfl
        | cons r rs =>
            have hlater : (c :: r) :: rs ++ [q] = ps ++ [p] := hpieces
            obtain ⟨rfl, hq⟩ := List.append_inj' hlater rfl
            rw [List.singleton_inj.mp hq, if_neg (by simp), if_neg (by simp)]

/-- A text that leaves something open goes on in its last piece, which holds what was left
open. -/
theorem exists_open_piece {t : Text} (hopen : closes t = false) :
    ∃ ps p, (∃ m ∈ p, isOpening m = true) ∧
      ∀ w : Text, (∀ c ∈ w, isBracket c = false) → pieces .top (t ++ w) = ps ++ [p ++ w] := by
  have hrun : Scan.top.run t ≠ .top := by
    intro htop
    rw [closes, htop] at hopen
    cases hopen
  obtain ⟨ps, p, hpieces, happend⟩ := exists_last_piece .top t
  refine ⟨ps, p, ?_, ?_⟩
  · have hlast := run_eq_run_last_piece hpieces
    rw [ite_self] at hlast
    by_contra hnone
    simp only [not_exists, not_and, Bool.not_eq_true] at hnone
    exact hrun (hlast.trans (Scan.run_top_of_not_isOpening hnone))
  · intro w hw
    rw [happend, pieces_of_ne_top (Scan.isValid_top.run t) hrun hw]
    rfl

/-! ## What the last piece declares -/

/-- What a piece gives a property, if it declares it. -/
def pieceValue? (property piece : Text) : Option Text :=
  (declaration? piece).bind fun d =>
    if Text.sameName d.property property then some d.value else none

variable {property p : Text} {m : Char}

/-- A piece in which something opens declares the same property whatever follows it, and its
value, if the property opens nothing, holds what opened. -/
theorem pieceValue?_append (hproperty : ∀ c ∈ property, isOpening c = false)
    (hopening : isOpening m = true) (hmem : m ∈ p) :
    (∀ w, pieceValue? property (p ++ w) = none) ∨
      ∀ w, ∃ value, pieceValue? property (p ++ w) = some value ∧ m ∈ value := by
  have hother (t : Text) (ht : m ∈ t) (value : Text) :
      Text.sameName (Text.lower (Text.trim t)) property = false := by
    apply beq_false_of_ne
    intro hsame
    rw [Text.lower_lower] at hsame
    have hlower := Text.mem_lower_trim hopening ht
    rw [hsame] at hlower
    obtain ⟨c, hc, hcm⟩ := List.mem_map.mp hlower
    have hself : c = m := by
      rcases isOpening_cases hopening with rfl | rfl | rfl
      all_goals exact (Text.toLower_eq_iff (.inl (by decide))).mp hcm
    rw [← hself, hproperty c hc] at hopening
    cases hopening
  cases hsplit : Text.splitAtFirst ':' p with
  | none =>
      refine .inl fun w => ?_
      rw [pieceValue?, declaration?,
        Text.splitAtFirst_append (Text.not_mem_of_splitAtFirst_eq_none hsplit)]
      cases Text.splitAtFirst ':' w with
      | none => rfl
      | some parts =>
          simp only [Option.map_some, Option.bind_some]
          split
          · rfl
          · simp [hother (p ++ parts.1) (by simp [hmem]) parts.2]
  | some parts =>
      obtain ⟨left, right⟩ := parts
      have hread (w : Text) : declaration? (p ++ w) =
          if (Text.trim left).isEmpty then none
          else some ⟨Text.lower (Text.trim left), Text.trim (right ++ w)⟩ := by
        rw [declaration?, Text.splitAtFirst_append_of_some hsplit]
        rfl
      have hblank : isBlank m = false := by
        rcases isOpening_cases hopening with rfl | rfl | rfl <;> decide
      rw [Text.eq_of_splitAtFirst hsplit, List.mem_append, List.mem_cons] at hmem
      by_cases hnamed : (Text.trim left).isEmpty = false ∧
          Text.sameName (Text.lower (Text.trim left)) property = true
      · refine .inr fun w => ⟨Text.trim (right ++ w), ?_, ?_⟩
        · simp [pieceValue?, hread, hnamed.1, hnamed.2]
        · rcases hmem with hleft | hcolon | hright
          · rw [hother left hleft right] at hnamed
            cases hnamed.2
          · rcases isOpening_cases hopening with rfl | rfl | rfl <;> cases hcolon
          · exact Text.mem_trim (by simp [hright]) hblank
      · refine .inl fun w => ?_
        rw [pieceValue?, hread]
        split
        · rfl
        · rename_i hsome
          have hdifferent : Text.sameName (Text.lower (Text.trim left)) property = false := by
            rw [← Bool.not_eq_true]
            intro hsame
            exact hnamed ⟨by simpa using hsome, hsame⟩
          simp [hdifferent]

/-- The last piece that declares a property gives its value. -/
theorem value?_eq_of_pieces {t : Text} {ps : List Text} {p : Text}
    (hpieces : pieces .top t = ps ++ [p]) (property : Text) :
    value? t property =
      (pieceValue? property p).or (lastValue? (ps.filterMap declaration?) property) := by
  have hdeclarations : declarations t = ps.filterMap declaration? ++ (declaration? p).toList := by
    rw [declarations_eq_filterMap, hpieces, List.filterMap_append]
    cases hp : declaration? p <;> simp [hp]
  rw [value?_eq_lastValue?, hdeclarations, lastValue?_append]
  congr 1
  cases hp : declaration? p with
  | none => simp [pieceValue?, hp, lastValue?]
  | some d =>
      by_cases hsame : Text.sameName d.property property <;>
        simp [pieceValue?, hp, lastValue?, hsame]

/-- What is written behind a style that leaves something open does not change what is read of a
property in a form that opens nothing. -/
theorem bind_value?_append_of_open {α : Type} {read? : Text → Option α}
    (hread : ∀ {value : Text} {m : Char}, isOpening m = true → m ∈ value → read? value = none)
    {property : Text} (hproperty : ∀ c ∈ property, isOpening c = false) {t : Text}
    (hopen : closes t = false) {w : Text} (hw : ∀ c ∈ w, isBracket c = false) :
    (value? (t ++ w) property).bind read? = (value? t property).bind read? := by
  obtain ⟨ps, p, ⟨m, hmem, hopening⟩, hpieces⟩ := exists_open_piece hopen
  have hself := hpieces [] (by simp)
  rw [List.append_nil] at hself
  rw [value?_eq_of_pieces (hpieces w hw), value?_eq_of_pieces hself]
  rcases pieceValue?_append hproperty hopening hmem with hnone | hsome
  · rw [hnone, hnone]
  · obtain ⟨value, hvalue, hheld⟩ := hsome w
    obtain ⟨value', hvalue', hheld'⟩ := hsome []
    rw [hvalue, hvalue', Option.some_or, Option.some_or, Option.bind_some, Option.bind_some,
      hread hopening hheld, hread hopening hheld']

/-! ## Hints behind such a style -/

theorem isBracket_of_isBlank {c : Char} (hblank : isBlank c = true) : isBracket c = false := by
  have hmark := Scan.not_isMark_of_isBlank hblank
  simp only [Scan.isMark, Bool.or_eq_false_iff] at hmark
  simp [isBracket, isOpening, hmark]

/-- What a bare style lacks: blanks before it, and blanks and semicolons behind it. -/
theorem exists_bare_eq (style : Text) :
    ∃ v w, v.all isBlank = true ∧ (∀ c ∈ w, isBracket c = false) ∧
      style = v ++ (bare style ++ w) := by
  obtain ⟨v, w, hv, hw, htrim⟩ := Text.exists_trim_eq style
  obtain ⟨u, hu, hsemicolons⟩ := Text.exists_dropEndWhile_eq (· == ';') (Text.trim style)
  obtain ⟨x, hx, hend⟩ := Text.exists_dropEndWhile_eq isBlank
    (Text.dropEndWhile (· == ';') (Text.trim style))
  refine ⟨v, x ++ (u ++ w), hv, ?_, ?_⟩
  · intro c hc
    rcases List.mem_append.mp hc with hc | hc
    · exact isBracket_of_isBlank (List.all_eq_true.mp hx c hc)
    · rcases List.mem_append.mp hc with hc | hc
      · rw [beq_iff_eq.mp (List.all_eq_true.mp hu c hc)]
        decide
      · exact isBracket_of_isBlank (List.all_eq_true.mp hw c hc)
  · have hbare : Text.trim style = bare style ++ (x ++ u) := by
      rw [← List.append_assoc, bare, Text.trimEnd, ← hend]
      exact hsemicolons
    conv => lhs; rw [htrim, hbare]
    simp only [List.append_assoc]

/-- A style that leaves something open still does so when it is made bare. -/
theorem closes_bare_of_open {style : Text} (hopen : closes style = false) :
    closes (bare style) = false := by
  obtain ⟨v, w, hv, hw, heq⟩ := exists_bare_eq style
  have hrun : Scan.top.run style = Scan.top.run (bare style) := by
    conv => lhs; rw [heq]
    rw [Scan.run_append, Scan.run_append,
      Scan.run_of_not_isMark Scan.isValid_top (Scan.not_isMark_of_all_isBlank hv),
      Scan.run_of_not_isBracket (Scan.isValid_top.run _) hw]
  rw [closes, ← hrun]
  exact hopen

/-- Plain declarations open and close nothing. -/
theorem isBracket_of_mem_joined {ds : List Declaration} (hplain : ∀ d ∈ ds, d.isPlain = true)
    {c : Char} (hmem : c ∈ joined ds) : isBracket c = false := by
  have hmark {c : Char} (hc : Scan.isMark c = false) : isBracket c = false := by
    simp only [Scan.isMark, Bool.or_eq_false_iff] at hc
    simp [isBracket, isOpening, hc]
  have hwritten (d : Declaration) (hd : d.isPlain = true) (hc : c ∈ d.written) :
      isBracket c = false := by
    simp only [isPlain, Bool.and_eq_true, List.all_eq_true, isNameChar, Bool.not_eq_true'] at hd
    rw [written, List.mem_append, List.mem_append] at hc
    rcases hc with (hproperty | hcolon) | hvalue
    · exact hmark (hd.1.2 c hproperty).1.1.1
    · have hcases : c = ':' ∨ c = ' ' := by simpa using hcolon
      rcases hcases with rfl | rfl <;> decide
    · exact hmark (hd.2 c hvalue)
  induction ds with
  | nil => cases hmem
  | cons d ds ih =>
      cases ds with
      | nil => exact hwritten d (hplain d (by simp)) hmem
      | cons e ds =>
          rw [joined_cons_cons, List.mem_append, List.mem_cons, List.mem_append] at hmem
          rcases hmem with hfirst | rfl | hspace | hrest
          · exact hwritten d (hplain d (by simp)) hfirst
          · decide
          · rw [List.mem_singleton.mp hspace]
            decide
          · exact ih (fun d' hd' => hplain d' (List.mem_cons_of_mem d hd')) hrest

/-- Plain declarations behind an author's style that leaves something open do not change what is
read of a property in a form that opens nothing. -/
theorem bind_value?_append_declarations_of_open {α : Type} {read? : Text → Option α}
    (hread : ∀ {value : Text} {m : Char}, isOpening m = true → m ∈ value → read? value = none)
    {ds : List Declaration} (hplain : ∀ d ∈ ds, d.isPlain = true)
    {property : Text} (hproperty : ∀ c ∈ property, isOpening c = false) {style : Text}
    (hopen : closes style = false) :
    ((append (some style) ds).or (some style)).bind
        (fun s => (value? s property).bind read?) =
      (value? style property).bind read? := by
  cases hds : ds.isEmpty with
  | true => simp [append, hds]
  | false =>
      obtain ⟨v, w, hv, hw, heq⟩ := exists_bare_eq style
      have hbare := closes_bare_of_open hopen
      have hblank : Text.isBlankText style = false := by
        rw [← Bool.not_eq_true]
        intro hblank
        have hcloses := Scan.run_of_not_isMark Scan.isValid_top
          (Scan.not_isMark_of_all_isBlank hblank)
        rw [closes, hcloses] at hopen
        cases hopen
      have happend : append (some style) ds = some (bare style ++ ("; " ++ joined ds)) := by
        simp [append, hds, hblank]
      have hhints : ∀ c ∈ ("; " : Text) ++ joined ds, isBracket c = false := by
        intro c hc
        rcases List.mem_append.mp hc with hsep | hjoined
        · have hcases : c = ';' ∨ c = ' ' := by simpa using hsep
          rcases hcases with rfl | rfl <;> decide
        · exact isBracket_of_mem_joined hplain hjoined
      have hstyle : value? style property = value? (bare style ++ w) property := by
        rw [value?_eq_lastValue?, value?_eq_lastValue?]
        conv => lhs; rw [heq]
        rw [declarations_append_blank_left hv]
      rw [happend, Option.some_or, Option.bind_some, hstyle,
        bind_value?_append_of_open hread hproperty hbare hhints,
        bind_value?_append_of_open hread hproperty hbare hw]

end Style

end Letterpress
