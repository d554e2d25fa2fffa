/-
# Texts that a reader takes

A reader takes a text if it goes past just that text, whatever stands in front of
it. Such texts come one after another where readers do, so what is written piece
by piece is read piece by piece. Texts in quotes and whole numbers are read as what
they were written from.
-/

import Letterpress.Json.Digits
import Letterpress.Json.Literal

namespace Letterpress

namespace Json.Read

/-- In front of `rest`, the reader goes past `t` and gives `a`. -/
def Accepts (r : Read α) (t rest : Text) (a : α) : Prop :=
  ∀ offset, r ⟨offset, t ++ rest⟩ = .ok (a, ⟨offset + Text.size t, rest⟩)

variable {α β : Type} {r : Read α} {f : α → Read β} {t u rest : Text} {a : α} {b : β}

/-! ## One reader after another -/

theorem accepts_pure (a : α) (rest : Text) : Accepts (pure a) [] rest a := fun _ => rfl

theorem Accepts.bind (hr : Accepts r t (u ++ rest) a) (hf : Accepts (f a) u rest b) :
    Accepts (r >>= f) (t ++ u) rest b := by
  intro offset
  have hfirst := hr offset
  have hsecond := hf (offset + Text.size t)
  change Except.bind (r _) _ = _
  rw [List.append_assoc, hfirst, Text.size_append, ← Nat.add_assoc]
  exact hsecond

/-- Nothing is left for the second reader. -/
theorem Accepts.bind_nil (hr : Accepts r t rest a) (hf : Accepts (f a) [] rest b) :
    Accepts (r >>= f) t rest b := by
  have h := Accepts.bind (u := []) hr hf
  rwa [List.append_nil] at h

theorem accepts_peek_bind {f : Option Char → Read β} (hf : Accepts (f (t ++ rest).head?) t rest b) :
    Accepts (peek? >>= f) t rest b := fun offset => hf offset

theorem accepts_advance (c : Char) (rest : Text) : Accepts advance [c] rest () := by
  intro offset
  simp [advance, Text.size]

theorem accepts_advance_bind {f : Unit → Read β} {c : Char} (hf : Accepts (f ()) t rest b) :
    Accepts (advance >>= f) (c :: t) rest b :=
  (accepts_advance c (t ++ rest)).bind hf

theorem accepts_takeWhile {p : Char → Bool} (ht : ∀ c ∈ t, p c) (hrest : ¬ rest.head?.any p) :
    Accepts (takeWhile p) t rest t := by
  intro offset
  have htake : rest.takeWhile p = [] := by
    cases rest with
    | nil => rfl
    | cons c rest => exact List.takeWhile_cons_of_neg (by simpa using hrest)
  have hdrop : rest.dropWhile p = rest := by
    cases rest with
    | nil => rfl
    | cons c rest => exact List.dropWhile_cons_of_neg (by simpa using hrest)
  simp only [takeWhile, List.takeWhile_append_of_pos ht, List.dropWhile_append_of_pos ht, htake,
    hdrop, List.append_nil]

/-! ## Between tokens -/

theorem accepts_token_bind {f : Option Char → Read β} {blank : Text}
    (hblank : ∀ c ∈ blank, isSpace c) (hnext : ¬ (t ++ rest).head?.any isSpace)
    (hf : Accepts (f (t ++ rest).head?) t rest b) :
    Accepts (token? >>= f) (blank ++ t) rest b := by
  rw [token?, bind_assoc]
  exact (accepts_takeWhile hblank hnext).bind (accepts_peek_bind hf)

theorem accepts_valueStart_bind {f : Char → Read β} {c : Char} (blank : Text)
    (hblank : ∀ c ∈ blank, isSpace c) (hnext : ¬ isSpace c)
    (hf : Accepts (f c) (c :: t) rest b) :
    Accepts (valueStart >>= f) (blank ++ c :: t) rest b := by
  rw [valueStart, bind_assoc]
  refine accepts_token_bind hblank (by simpa using hnext) ?_
  exact hf

theorem accepts_word (t rest : Text) : Accepts (word t) t rest () := by
  induction t with
  | nil => exact accepts_pure () rest
  | cons c t ih =>
      rw [word]
      refine accepts_peek_bind ?_
      rw [List.cons_append, List.head?_cons, if_pos rfl]
      exact accepts_advance_bind ih

theorem accepts_colon (rest : Text) : Accepts colon ":" rest () := by
  change Accepts colon ([] ++ [':']) rest ()
  exact accepts_token_bind (by simp) (by simp [isSpace]) (accepts_advance ':' rest)

/-- A text that a reader takes as a whole is what it reads. -/
theorem Accepts.run_eq (hr : Accepts r t [] a) : run r t = .ok a := by
  have hall : Accepts (do let a ← r; finish; return a) t [] a := by
    have hfinish : Accepts (do finish; return a) [] [] a := fun _ => rfl
    exact hr.bind_nil hfinish
  have h := hall 0
  rw [List.append_nil] at h
  rw [run, h]

/-! ## Texts in quotes -/

theorem hexDigit?_digitChar {n : Nat} (hn : n < 16) :
    Literal.hexDigit? (Nat.digitChar n) = some n := by
  revert n
  decide

theorem utf8Size_digitChar {n : Nat} (hn : n < 16) : (Nat.digitChar n).utf8Size = 1 := by
  revert n
  decide

/-- The number that stands in an escape is the number of the character. -/
theorem accepts_fourDigits {n : Nat} (hn : n < 256) (rest : Text) :
    Accepts fourDigits ['0', '0', Nat.digitChar (n / 16), Nat.digitChar (n % 16)] rest n := by
  have hhigh : n / 16 < 16 := by omega
  have hlow : n % 16 < 16 := by omega
  have hsize : Text.size ['0', '0', Nat.digitChar (n / 16), Nat.digitChar (n % 16)] = 4 := by
    have hzero : '0'.utf8Size = 1 := rfl
    simp [Text.size, hzero, utf8Size_digitChar hhigh, utf8Size_digitChar hlow]
  have hvalue : Literal.hex? ['0', '0', Nat.digitChar (n / 16), Nat.digitChar (n % 16)] = some n := by
    have hzero : Literal.hexDigit? '0' = some 0 := rfl
    simp [Literal.hex?, hzero, hexDigit?_digitChar hhigh, hexDigit?_digitChar hlow]
    omega
  intro offset
  simp only [fourDigits, List.cons_append, List.nil_append, List.take_succ_cons, List.take_zero,
    List.drop_succ_cons, List.drop_zero, hsize, hvalue, Nat.lt_irrefl, if_false]

/-- Control characters are written by number. -/
theorem accepts_unicodeEscape {c : Char} (hc : c.toNat < 0x20) (rest : Text) :
    Accepts unicodeEscape ['0', '0', Nat.digitChar (c.toNat / 16), Nat.digitChar (c.toNat % 16)]
      rest c := by
  have htrailing : Literal.isTrailing c.toNat = false := by simp [Literal.isTrailing]; omega
  have hleading : Literal.isLeading c.toNat = false := by simp [Literal.isLeading]; omega
  rw [unicodeEscape]
  refine (accepts_fourDigits (by omega) rest).bind_nil ?_
  simp only [htrailing, hleading, Bool.false_eq_true, if_false, Char.ofNat_toNat]
  exact accepts_pure c rest

/-- A character is written as a letter behind a backslash, by number, or as itself. -/
theorem writtenChar_cases (c : Char) :
    (∃ x, Literal.writtenChar c = ['\\', x] ∧ x ≠ 'u' ∧ Literal.escaped? x = some c) ∨
      (c.toNat < 0x20 ∧ Literal.writtenChar c =
        ['\\', 'u', '0', '0', Nat.digitChar (c.toNat / 16), Nat.digitChar (c.toNat % 16)]) ∨
      (Literal.writtenChar c = [c] ∧ c ≠ '"' ∧ c ≠ '\\' ∧ ¬ c.toNat < 0x20) := by
  unfold Literal.writtenChar
  split
  case h_8 c hquote hbackslash _ _ _ _ _ =>
    split
    case isTrue hcontrol => exact .inr (.inl ⟨hcontrol, rfl⟩)
    case isFalse hcontrol => exact .inr (.inr ⟨rfl, hquote, hbackslash, hcontrol⟩)
  all_goals exact .inl ⟨_, rfl, by decide, rfl⟩

/-- One character of a text in quotes. -/
theorem accepts_textWithin_writtenChar {fuel : Nat} (c : Char)
    (h : Accepts (textWithin fuel) t rest u) :
    Accepts (textWithin (fuel + 1)) (Literal.writtenChar c ++ t) rest (c :: u) := by
  have hmore : Accepts (do return c :: (← textWithin fuel)) t rest (c :: u) :=
    h.bind_nil (accepts_pure _ rest)
  rw [textWithin]
  refine accepts_peek_bind ?_
  rcases writtenChar_cases c with ⟨x, hwritten, hx, hescaped⟩ | ⟨hcontrol, hwritten⟩ |
    ⟨hwritten, hquote, hbackslash, hplain⟩
  · rw [hwritten]
    have hescape : Accepts escape [x] (t ++ rest) c := by
      refine accepts_peek_bind ?_
      simp only [List.cons_append, List.head?_cons, hescaped]
      exact accepts_advance_bind (accepts_pure c _)
    exact accepts_advance_bind (hescape.bind hmore)
  · rw [hwritten]
    have hescape : Accepts escape
        ['u', '0', '0', Nat.digitChar (c.toNat / 16), Nat.digitChar (c.toNat % 16)]
        (t ++ rest) c :=
      accepts_peek_bind (accepts_advance_bind (accepts_unicodeEscape hcontrol _))
    exact accepts_advance_bind (hescape.bind hmore)
  · rw [hwritten]
    simp only [List.cons_append, List.nil_append, List.head?_cons, hplain]
    exact accepts_advance_bind hmore

theorem accepts_textWithin {fuel : Nat} (hfuel : t.length < fuel) (rest : Text) :
    Accepts (textWithin fuel) (t.flatMap Literal.writtenChar ++ ['"']) rest t := by
  induction t generalizing fuel with
  | nil =>
      obtain ⟨fuel, rfl⟩ := Nat.exists_eq_succ_of_ne_zero (Nat.ne_of_gt hfuel)
      rw [textWithin]
      exact accepts_peek_bind (accepts_advance_bind (accepts_pure [] rest))
  | cons c t ih =>
      obtain ⟨fuel, rfl⟩ := Nat.exists_eq_succ_of_ne_zero (Nat.ne_of_gt (Nat.zero_lt_of_lt hfuel))
      rw [List.flatMap_cons, List.append_assoc]
      exact accepts_textWithin_writtenChar c (ih (Nat.lt_of_succ_lt_succ hfuel))

theorem length_le_length_written (t : Text) :
    t.length ≤ (t.flatMap Literal.writtenChar).length := by
  induction t with
  | nil => exact Nat.le_refl 0
  | cons c t ih =>
      have hone : 1 ≤ (Literal.writtenChar c).length := by
        rcases writtenChar_cases c with ⟨x, h, -⟩ | ⟨-, h⟩ | ⟨h, -⟩ <;> simp [h]
      simp only [List.flatMap_cons, List.length_append, List.length_cons]
      omega

/-- A text in quotes is read, behind its opening quote, as the text. -/
theorem accepts_text (t rest : Text) :
    Accepts text (t.flatMap Literal.writtenChar ++ ['"']) rest t := by
  intro offset
  have hlength := length_le_length_written t
  exact accepts_textWithin (by simp only [List.length_append]; omega) rest offset

/-! ## Whole numbers -/

/-- Behind a whole number nothing may stand that would go on with it. -/
def EndsNumber (rest : Text) : Prop :=
  ∀ c ∈ rest.head?, c.isDigit = false ∧ c ≠ '.' ∧ c ≠ 'e' ∧ c ≠ 'E'

/-- Reading digits only adds to a number. -/
theorem le_ofDigitChars (t : Text) (n : Nat) : n ≤ Nat.ofDigitChars 10 t n := by
  induction t generalizing n with
  | nil => exact Nat.le_refl n
  | cons c t ih =>
      have h := ih (10 * n + (c.toNat - '0'.toNat))
      simp only [Nat.ofDigitChars, List.foldl_cons] at h ⊢
      omega

theorem numberGather_append {limit n count : Nat} (ht : ∀ c ∈ t, c.isDigit)
    (hlimit : Nat.ofDigitChars 10 t n ≤ limit) (hrest : EndsNumber rest) :
    Number.gather limit (t ++ rest) n count =
      (Nat.ofDigitChars 10 t n, count + t.length) := by
  induction t generalizing n count with
  | nil =>
      cases rest with
      | nil => rfl
      | cons c rest => simp [Number.gather, (hrest c rfl).1, Nat.ofDigitChars]
  | cons c t ih =>
      have hdigit : c.isDigit = true := ht c List.mem_cons_self
      have hfold : Nat.ofDigitChars 10 (c :: t) n =
          Nat.ofDigitChars 10 t (10 * n + Number.digit c) := rfl
      rw [hfold] at hlimit ⊢
      have hle : 10 * n + Number.digit c ≤ limit := Nat.le_trans (le_ofDigitChars t _) hlimit
      rw [List.cons_append, Number.gather, if_pos (by simp [hdigit, hle]),
        ih (fun d hd => ht d (List.mem_cons_of_mem c hd)) hlimit, List.length_cons,
        Nat.add_right_comm, Nat.add_assoc]

/-- Digits take one octet each. -/
theorem size_eq_length_of_isDigit (ht : ∀ c ∈ t, c.isDigit) : Text.size t = t.length := by
  induction t with
  | nil => rfl
  | cons c t ih =>
      have hone : c.utf8Size = 1 := by
        have hdigit : c.isDigit = true := ht c List.mem_cons_self
        simp only [Char.isDigit, Bool.and_eq_true, decide_eq_true_eq] at hdigit
        have hle : c.val ≤ 0x7F := UInt32.le_trans hdigit.2 (by decide)
        simp [Char.utf8Size, hle]
      have htail := ih fun d hd => ht d (List.mem_cons_of_mem c hd)
      simp only [Text.size, List.foldr_cons, List.length_cons] at htail ⊢
      omega

theorem accepts_gather {limit n : Nat} (ht : ∀ c ∈ t, c.isDigit)
    (hlimit : Nat.ofDigitChars 10 t n ≤ limit) (hrest : EndsNumber rest) :
    Accepts (gather limit n) t rest (Nat.ofDigitChars 10 t n, t.length) := by
  intro offset
  simp only [gather, numberGather_append ht hlimit hrest, Nat.zero_add, List.drop_left,
    size_eq_length_of_isDigit ht]

/-- A decimal number begins with a zero only if it is zero. -/
theorem exists_decimal_eq_cons {n : Nat} (hn : n ≠ 0) :
    ∃ c t, Text.decimal n = c :: t ∧ c ≠ '0' := by
  induction n using Nat.strongRecOn with
  | ind n ih =>
      by_cases hsmall : n < 10
      · have hdigit : ∀ n < 10, n ≠ 0 → Nat.digitChar n ≠ '0' := by decide
        exact ⟨Nat.digitChar n, [], Nat.toDigits_of_lt_base hsmall, hdigit n hsmall hn⟩
      · obtain ⟨c, t, ht, hc⟩ := ih (n / 10) (by omega) (by omega)
        refine ⟨c, t ++ [Nat.digitChar (n % 10)], ?_, hc⟩
        rw [Text.decimal, Nat.toDigits_of_base_le (by decide) (by omega), ← Text.decimal, ht]
        rfl

theorem isDigit_of_mem_decimal {n : Nat} : ∀ c ∈ Text.decimal n, c.isDigit = true :=
  fun _ => Nat.isDigit_of_mem_toDigits (by decide) (by decide)

theorem accepts_afterWhole {n : Nat} (hrest : EndsNumber rest) :
    Accepts (afterWhole false n 0) [] rest (.natural n) := by
  refine accepts_peek_bind ?_
  split
  case h_1 h => exact absurd rfl (hrest _ h).2.1
  case h_2 h => exact absurd rfl (hrest _ h).2.2.1
  case h_3 h => exact absurd rfl (hrest _ h).2.2.2
  case h_4 => exact accepts_pure _ rest

/-- A whole number of 64 bits is read as the number. -/
theorem accepts_signed {n : Nat} (hn : n ≤ Number.largest) (hrest : EndsNumber rest) :
    Accepts signed (Text.decimal n) rest (.natural n) := by
  have hnodigit : ¬ rest.head?.any Char.isDigit := by
    cases rest with
    | nil => simp
    | cons c rest => simpa using (hrest c rfl).1
  by_cases hzero : n = 0
  · subst hzero
    refine accepts_peek_bind (accepts_peek_bind (accepts_advance_bind (accepts_peek_bind ?_)))
    rw [List.nil_append, if_neg hnodigit]
    exact accepts_afterWhole hrest
  · obtain ⟨c, t, ht, hc⟩ := exists_decimal_eq_cons hzero
    have hdigits : ∀ d ∈ c :: t, d.isDigit = true := ht ▸ isDigit_of_mem_decimal
    have hdigit : c.isDigit = true := hdigits c List.mem_cons_self
    have hminus : some c ≠ some '-' := by
      rintro ⟨⟩
      exact absurd hdigit (by decide)
    have hvalue : Nat.ofDigitChars 10 (c :: t) 0 = n := by
      rw [← ht]
      exact Nat.ofDigitChars_toDigits (by decide) (by decide)
    rw [ht, signed]
    refine accepts_peek_bind ?_
    rw [List.cons_append, List.head?_cons, if_neg hminus, number]
    refine accepts_peek_bind ?_
    simp only [List.cons_append, List.head?_cons, hdigit, if_true]
    have hlimit : Nat.ofDigitChars 10 (c :: t) 0 ≤ Number.largest := by rwa [hvalue]
    have hgather := accepts_gather hdigits hlimit hrest
    rw [hvalue] at hgather
    refine hgather.bind_nil ?_
    have htake : Accepts (takeWhile Char.isDigit) [] rest [] :=
      accepts_takeWhile (by simp) hnodigit
    exact htake.bind_nil (accepts_afterWhole hrest)

end Json.Read

end Letterpress
