/-
# A configuration written and read

Every configuration is read from its JSON text as it was, with no default filled
in. The members are read one by one: each fills a field that was open, and the
fields before it stay.
-/

import Letterpress.Email.ConfigText
import Letterpress.Proofs.Json.Acceptance

namespace Letterpress

@[simp]
theorem Dialect.ofName?_name (d : Dialect) : Dialect.ofName? d.name = some d := by
  cases d <;> rfl

namespace Config

open Json Json.Read

@[simp]
theorem Field.ofName?_name (f : Field) : Field.ofName? f.name = some f := by
  cases f <;> rfl

/-- What has been read when one more field has the value that a configuration has. -/
def Given.filled (c : Config) (g : Given) : Field → Given
  | .maxWidth => { g with maxWidth := some c.maxWidth }
  | .font => { g with font := some c.font }
  | .dialect => { g with dialect := some c.dialect }
  | .headerImage => { g with headerImage := some c.headerImage }
  | .footerImage => { g with footerImage := some c.footerImage }

@[simp]
theorem Given.has_filled (c : Config) (g : Given) (f e : Field) :
    (g.filled c f).has e = (f == e || g.has e) := by
  cases f <;> cases e <;> rfl

@[simp]
theorem Given.has_nothing (f : Field) : Given.nothing.has f = false := by
  cases f <;> rfl

/-- With all fields filled, no default is needed. -/
theorem Given.config_foldl_filled (c : Config) :
    (Field.all.foldl (Given.filled c) .nothing).config = c := rfl

namespace Reading

variable {t rest : Text} {g : Given}

theorem all_isSpace_single : ∀ c ∈ (" " : Text), isSpace c :=
  List.all_eq_true.mp (by decide)

/-! ## Values -/

theorem accepts_aText (blank : Text) (hblank : ∀ c ∈ blank, isSpace c) (expected t rest : Text) :
    Accepts (aText expected) (blank ++ Literal.written t) rest t := by
  refine accepts_valueStart_bind blank hblank (by decide) ?_
  exact accepts_advance_bind (accepts_text t rest)

theorem accepts_optionalText (o : Option Text) (rest : Text) :
    Accepts optionalText (" " ++ writtenOption o) rest o := by
  cases o with
  | none =>
      refine accepts_token_bind all_isSpace_single (by simp [writtenOption, isSpace]) ?_
      exact accepts_advance_bind ((accepts_word "ull" rest).bind_nil (accepts_pure none rest))
  | some t =>
      refine accepts_token_bind all_isSpace_single
        (by simp [writtenOption, Literal.written, isSpace]) ?_
      have htext := accepts_aText [] (by simp) "a string" t rest
      exact htext.bind_nil (accepts_pure (some t) rest)

/-- A width fits in 32 bits, so it is read as the number it is. -/
theorem accepts_width (n : UInt32) (hrest : EndsNumber rest) :
    Accepts width (" " ++ Text.decimal n.toNat) rest n := by
  have hlt : n.toNat < UInt32.size := n.toNat_lt_size
  have hlargest : n.toNat ≤ Number.largest := Nat.le_of_lt (Nat.lt_trans hlt (by decide))
  have hsigned := accepts_signed hlargest hrest
  obtain ⟨c, t, ht⟩ : ∃ c t, Text.decimal n.toNat = c :: t :=
    List.exists_cons_of_ne_nil Nat.toDigits_ne_nil
  have hdigit : c.isDigit = true := isDigit_of_mem_decimal c (ht ▸ List.mem_cons_self)
  have hspace : ¬ isSpace c := by
    intro h
    simp only [isSpace, Bool.or_eq_true, beq_iff_eq] at h
    rcases h with ((rfl | rfl) | rfl) | rfl <;> exact absurd hdigit (by decide)
  rw [ht] at hsigned ⊢
  refine accepts_valueStart_bind " " all_isSpace_single hspace ?_
  simp only [hdigit, Bool.or_true, if_true]
  refine hsigned.bind_nil ?_
  simp only [hlt, if_true]
  have hself : n.toNat.toUInt32 = n := UInt32.ofNat_toNat
  rw [hself]
  exact accepts_pure n rest

theorem accepts_dialect (d : Dialect) (rest : Text) :
    Accepts dialect (" " ++ Literal.written d.name) rest d := by
  refine accepts_valueStart_bind " " all_isSpace_single (by decide) ?_
  have hname := accepts_aText [] (by simp) "variant identifier" d.name rest
  refine hname.bind_nil ?_
  rw [Dialect.ofName?_name]
  exact accepts_pure d rest

theorem accepts_fieldValue (c : Config) (f : Field) (hrest : EndsNumber rest) :
    Accepts (fieldValue g f) (" " ++ c.writtenValue f) rest (g.filled c f) := by
  cases f with
  | maxWidth => exact (accepts_width c.maxWidth hrest).bind_nil (accepts_pure _ rest)
  | font =>
      exact (accepts_aText " " all_isSpace_single "a string" c.font rest).bind_nil
        (accepts_pure _ rest)
  | dialect => exact (accepts_dialect c.dialect rest).bind_nil (accepts_pure _ rest)
  | headerImage =>
      exact (accepts_optionalText c.headerImage rest).bind_nil (accepts_pure _ rest)
  | footerImage =>
      exact (accepts_optionalText c.footerImage rest).bind_nil (accepts_pure _ rest)

/-! ## Members -/

/-- What stands in front of a member: a comma unless it is the first. -/
def separator (first : Bool) : Text := if first then [] else ","

theorem accepts_nextMember (first : Bool) (rest : Text) :
    Accepts (nextMember first) (separator first ++ "\n  \"") rest true := by
  have hblank : ∀ c ∈ ("\n  " : Text), isSpace c := List.all_eq_true.mp (by decide)
  have hquote : Accepts (do advance; return true : Read Bool) ['"'] rest true :=
    accepts_advance_bind (accepts_pure true rest)
  cases first with
  | true =>
      change Accepts _ ("\n  " ++ ['"']) rest true
      exact accepts_token_bind hblank (by simp [isSpace]) hquote
  | false =>
      change Accepts _ ([] ++ ',' :: ("\n  " ++ ['"'])) rest true
      refine accepts_token_bind (by simp) (by simp [isSpace]) ?_
      exact accepts_advance_bind (accepts_token_bind hblank (by simp [isSpace]) hquote)

theorem accepts_nextMember_end (first : Bool) (rest : Text) :
    Accepts (nextMember first) "\n" ('\x7d' :: rest) false := by
  have hblank : ∀ c ∈ ("\n" : Text), isSpace c := List.all_eq_true.mp (by decide)
  exact accepts_token_bind (t := []) hblank (by simp [isSpace]) (accepts_pure false _)

/-- One member fills its field and leaves the members behind it. -/
theorem accepts_member {c : Config} {f : Field} {fuel : Nat} {result : Given} (first : Bool)
    (hopen : g.has f = false) (hends : EndsNumber (t ++ rest))
    (hmore : Accepts (membersWithin fuel false (g.filled c f)) t rest result) :
    Accepts (membersWithin (fuel + 1) first g) (separator first ++ c.writtenField f ++ t) rest
      result := by
  have hparts : separator first ++ c.writtenField f ++ t =
      (separator first ++ "\n  \"") ++ ((f.name.flatMap Literal.writtenChar ++ ['"']) ++
        (":".toList ++ ((" " ++ c.writtenValue f) ++ t))) := by
    simp [writtenField, Literal.written]
  have hcolon := accepts_colon ((" " ++ c.writtenValue f) ++ t ++ rest)
  have hvalue := accepts_fieldValue (g := g) c f hends
  rw [hparts, membersWithin]
  refine (accepts_nextMember first _).bind ?_
  rw [if_pos rfl]
  refine (accepts_text f.name _).bind ?_
  simp only [Field.ofName?_name, hopen, Bool.false_eq_true, if_false]
  exact hcolon.bind (hvalue.bind hmore)

/-- The members behind the first one, with the line break in front of the closing brace. -/
def writtenMore (c : Config) (fields : List Field) : Text :=
  fields.flatMap (fun f => separator false ++ c.writtenField f) ++ "\n"

theorem endsNumber_writtenMore (c : Config) (fields : List Field) (rest : Text) :
    EndsNumber (writtenMore c fields ++ rest) := by
  have hnext {d : Char} (hd : d.isDigit = false ∧ d ≠ '.' ∧ d ≠ 'e' ∧ d ≠ 'E') (t : Text) :
      EndsNumber (d :: t) := by
    rintro _ ⟨⟩
    exact hd
  cases fields with
  | nil => exact hnext (by decide) _
  | cons f fields => exact hnext (by decide) _

/-- Members fill their fields, each of which must come once. -/
theorem accepts_membersWithin (c : Config) {fields : List Field} {fuel : Nat}
    (hopen : ∀ f ∈ fields, g.has f = false) (honce : fields.Nodup) (hfuel : fields.length < fuel)
    (rest : Text) :
    Accepts (membersWithin fuel false g) (writtenMore c fields) ('\x7d' :: rest)
      (fields.foldl (Given.filled c) g) := by
  induction fields generalizing g fuel with
  | nil =>
      obtain ⟨fuel, rfl⟩ := Nat.exists_eq_succ_of_ne_zero (Nat.ne_of_gt hfuel)
      exact (accepts_nextMember_end false rest).bind_nil (accepts_pure g _)
  | cons f fields ih =>
      obtain ⟨fuel, rfl⟩ := Nat.exists_eq_succ_of_ne_zero (Nat.ne_of_gt (Nat.zero_lt_of_lt hfuel))
      obtain ⟨hnew, honce⟩ := List.nodup_cons.mp honce
      have hstill : ∀ e ∈ fields, (g.filled c f).has e = false := by
        intro e he
        have hne : f ≠ e := fun h => hnew (h ▸ he)
        simp [hne, hopen e (List.mem_cons_of_mem f he)]
      have hmore := ih hstill honce (Nat.lt_of_succ_lt_succ hfuel)
      have hall := accepts_member false (hopen f List.mem_cons_self)
        (endsNumber_writtenMore c fields _) hmore
      have hparts : writtenMore c (f :: fields) =
          separator false ++ c.writtenField f ++ writtenMore c fields := by
        simp [writtenMore]
      rw [hparts]
      exact hall

end Reading

/-! ## The whole text -/

theorem written_eq (c : Config) :
    c.written = '\x7b' :: (c.writtenField .maxWidth ++
      Reading.writtenMore c [.font, .dialect, .headerImage, .footerImage] ++ "\x7d") := by
  simp [written, Field.all, Text.joinWith, Reading.writtenMore, Reading.separator]

/-- A configuration is read from what it was written as. -/
theorem parse_written (c : Config) : parse c.written = .ok c := by
  let fields := [Field.font, .dialect, .headerImage, .footerImage]
  have hopen : ∀ f ∈ fields, (Given.nothing.filled c .maxWidth).has f = false := by
    intro f hf
    have hne : Field.maxWidth ≠ f := by
      rintro rfl
      exact absurd hf (by decide)
    simp [hne]
  have hmembers : Accepts Reading.members
      (c.writtenField .maxWidth ++ Reading.writtenMore c fields) "\x7d"
      (Field.all.foldl (Given.filled c) .nothing) := by
    intro offset
    have hlength : fields.length < (c.writtenField .maxWidth ++ Reading.writtenMore c fields ++
        "\x7d").length := by
      simp [fields, writtenField]
      omega
    have hmore := Reading.accepts_membersWithin c hopen (by decide) hlength []
    exact Reading.accepts_member true (Given.has_nothing _)
      (Reading.endsNumber_writtenMore c fields _) hmore offset
  refine Accepts.run_eq (r := Reading.config) ?_
  rw [written_eq]
  refine accepts_valueStart_bind [] (by simp) (by decide) ?_
  refine accepts_advance_bind (hmembers.bind (u := "\x7d") ?_)
  exact accepts_advance_bind (accepts_pure c [])

/-! ## The zero character -/

/-- No character is written with the zero character. -/
theorem null_not_mem_writtenChar (c : Char) : '\x00' ∉ Literal.writtenChar c := by
  have hdigit : ∀ n < 16, '\x00' ≠ Nat.digitChar n := by decide
  intro hmem
  rcases Read.writtenChar_cases c with ⟨x, hwritten, -, hescaped⟩ | ⟨hcontrol, hwritten⟩ |
    ⟨hwritten, -, -, hplain⟩ <;> rw [hwritten] at hmem
  · obtain rfl : '\x00' = x := by simpa using hmem
    cases hescaped
  · simp only [List.mem_cons, List.not_mem_nil, or_false] at hmem
    rcases hmem with h | h | h | h | h | h
    · exact absurd h (by decide)
    · exact absurd h (by decide)
    · exact absurd h (by decide)
    · exact absurd h (by decide)
    · exact hdigit _ (by omega) h
    · exact hdigit _ (by omega) h
  · obtain rfl : '\x00' = c := by simpa using hmem
    exact hplain (by decide)

theorem null_not_mem_literal (t : Text) : '\x00' ∉ Literal.written t := by
  simp [Literal.written, null_not_mem_writtenChar]

theorem null_not_mem_writtenOption (o : Option Text) : '\x00' ∉ writtenOption o := by
  cases o with
  | none => decide
  | some t => exact null_not_mem_literal t

theorem null_not_mem_writtenField (c : Config) (f : Field) : '\x00' ∉ c.writtenField f := by
  have hvalue : '\x00' ∉ c.writtenValue f := by
    cases f with
    | maxWidth => exact fun hmem => absurd (Read.isDigit_of_mem_decimal _ hmem) (by decide)
    | font => exact null_not_mem_literal c.font
    | dialect => exact null_not_mem_literal c.dialect.name
    | headerImage => exact null_not_mem_writtenOption c.headerImage
    | footerImage => exact null_not_mem_writtenOption c.footerImage
  simp [writtenField, null_not_mem_literal, hvalue]

theorem null_not_mem_written (c : Config) : '\x00' ∉ c.written := by
  simp [written, Field.all, Text.joinWith, null_not_mem_writtenField]

/-- A configuration survives its JSON text, whatever its texts hold: it is read as it was, and a
zero character in it is written as an escape. -/
theorem parse_written_and_null_not_mem (c : Config) :
    parse c.written = .ok c ∧ '\x00' ∉ c.written :=
  ⟨parse_written c, null_not_mem_written c⟩

end Config

end Letterpress
