import LuaGlue.Proofs.Json.Value
import LuaGlue.Proofs.Text.Lines

namespace LuaGlue.Json

section Strings

theorem readHex_append {n : Nat} {digits : List Char} (h : Hex n digits) (rest : List Char) :
    readHex (digits ++ rest) = .ok (n, rest) := by
  cases h with
  | mk ha hb hc hd => simp only [List.cons_append, List.nil_append, readHex, ha, hb, hc, hd]

/-- However a character is spelled, it is read, and what stands behind it is read next. -/
theorem unquote_spells {c : Char} {spelled : List Char} (h : Spells c spelled) (rest : List Char) :
    unquote (spelled ++ rest) = (unquote rest).map fun (text, rest) => (c :: text, rest) := by
  cases h with
  | plain hquote hslash hcontrol => exact unquote_of_plain hquote hslash hcontrol rest
  | @letter letter _ h =>
    have hletter : unescape (letter :: rest) = .ok (c, rest) := by
      simp only [letterEscapes, List.mem_cons, Prod.mk.injEq, List.not_mem_nil, or_false] at h
      rcases h with ⟨rfl, rfl⟩ | ⟨rfl, rfl⟩ | ⟨rfl, rfl⟩ | ⟨rfl, rfl⟩ | ⟨rfl, rfl⟩ | ⟨rfl, rfl⟩ |
        ⟨rfl, rfl⟩ | ⟨rfl, rfl⟩ <;> rfl
    exact unquote_of_unescape hletter
  | number h hlow hhigh =>
    rw [List.cons_append, List.cons_append]
    apply unquote_of_unescape
    rw [unescape_number, readNumbered, readHex_append h]
    simp only [hlow, hhigh, Bool.false_eq_true, if_false]
  | @halves high low first second hfirst hsecond hhigh hlow =>
    -- A number is not in both ranges.
    have hnotLow : isLowHalf high = false := by
      simp only [isHighHalf, isLowHalf, Bool.and_eq_true, Bool.and_eq_false_iff, decide_eq_true_eq,
        decide_eq_false_iff_not] at hhigh ⊢
      omega
    rw [List.cons_append, List.cons_append, List.append_assoc, List.cons_append, List.cons_append]
    apply unquote_of_unescape
    rw [unescape_number, readNumbered, readHex_append hfirst]
    simp only [hnotLow, hhigh, Bool.false_eq_true, if_false, if_true]
    rw [readLowHalf, readHex_append hsecond]
    simp only [hlow, if_true]

theorem unquote_spelledOut {cs spelled : List Char} (h : SpelledOut cs spelled) (rest : List Char) :
    unquote (spelled ++ rest) = .ok (cs, rest) := by
  induction h with
  | nil => rw [List.singleton_append, unquote]
  | cons h _ ih => rw [List.append_assoc, unquote_spells h, ih, Except.map]

end Strings

section Numbers

/-- What does not continue a number that stands before it. A string ends by itself, but a number
only before such a text. -/
def EndsNumber (rest : List Char) : Prop :=
  ∀ c ∈ rest.head?, c.isDigit = false ∧ c ≠ '.' ∧ c ≠ 'e' ∧ c ≠ 'E'

variable {cs rest : List Char}

theorem digits_append (h : ∀ c ∈ cs, c.isDigit = true)
    (hrest : ∀ c ∈ rest.head?, c.isDigit = false) :
    digits (cs ++ rest) = (cs, rest) := by
  obtain ⟨htake, hdrop⟩ := Text.takeWhile_append_of_head? h hrest
  rw [digits, htake, hdrop]

theorem fraction?_append {fraction point : List Char} (h : Fraction fraction point)
    (hdigit : ∀ c ∈ rest.head?, c.isDigit = false) (hpoint : ∀ c ∈ rest.head?, c ≠ '.') :
    fraction? (point ++ rest) = .ok (fraction, rest) := by
  cases h with
  | none =>
    rw [List.nil_append]
    unfold fraction?
    split
    · exact absurd rfl (hpoint _ rfl)
    · rfl
  | point h =>
    obtain ⟨hne, hall⟩ := h
    rw [List.cons_append, fraction?, digits_append hall hdigit]
    split
    · rename_i heq
      cases heq
      exact absurd rfl hne
    · rfl

theorem Digits.exists_cons (h : Digits cs) : ∃ c rest, cs = c :: rest ∧ c.isDigit = true := by
  obtain ⟨hne, hall⟩ := h
  obtain ⟨c, rest, rfl⟩ := List.exists_cons_of_ne_nil hne
  exact ⟨c, rest, rfl, hall c List.mem_cons_self⟩

/-- No sign is left out before the digits of an exponent: a digit is none. -/
theorem exponent?_append {exponent : Option Int} {power : List Char} (h : Exponent exponent power)
    (hrest : EndsNumber rest) : exponent? (power ++ rest) = .ok (exponent, rest) := by
  have hdigits : ∀ {cs : List Char}, Digits cs → digits (cs ++ rest) = (cs, rest) :=
    fun h => digits_append h.2 fun c hc => (hrest c hc).1
  cases h with
  | none =>
    rw [List.nil_append]
    cases rest with
    | nil => rfl
    | cons c rest =>
      obtain ⟨-, -, hlower, hupper⟩ := hrest c rfl
      have hnot : ¬ (c = 'e' ∨ c = 'E') := by
        rintro (rfl | rfl)
        · exact hlower rfl
        · exact hupper rfl
      unfold exponent?
      exact if_neg hnot
  | plain he h =>
    have hread := hdigits h
    obtain ⟨c, cs, rfl, hc⟩ := h.exists_cons
    have hplus : c ≠ '+' := by
      rintro rfl
      cases hc
    have hminus : c ≠ '-' := by
      rintro rfl
      cases hc
    rw [List.cons_append, exponent?, if_pos he]
    · simp only [hread]
      rfl
    · intro rest heq
      cases heq
      exact hplus rfl
    · intro rest heq
      cases heq
      exact hminus rfl
  | plus he h =>
    have hread := hdigits h
    obtain ⟨c, cs, rfl, hc⟩ := h.exists_cons
    rw [List.cons_append, List.cons_append, exponent?, if_pos he]
    simp only [hread]
    rfl
  | minus he h =>
    have hread := hdigits h
    obtain ⟨c, cs, rfl, hc⟩ := h.exists_cons
    rw [List.cons_append, List.cons_append, exponent?, if_pos he]
    simp only [hread]
    rfl

/-- Behind the digits of a number stands its fraction, its exponent, or what ends it. -/
theorem Exponent.head?_append {exponent : Option Int} {power : List Char}
    (h : Exponent exponent power) (hrest : EndsNumber rest) :
    ∀ c ∈ (power ++ rest).head?, c.isDigit = false ∧ c ≠ '.' := by
  have hletter : ∀ e : Char, e = 'e' ∨ e = 'E' → e.isDigit = false ∧ e ≠ '.' := by
    rintro e (rfl | rfl) <;> decide
  intro c hc
  cases h with
  | none => exact ⟨(hrest c hc).1, (hrest c hc).2.1⟩
  | plain he _ =>
    cases hc
    exact hletter _ he
  | plus he _ =>
    cases hc
    exact hletter _ he
  | minus he _ =>
    cases hc
    exact hletter _ he

theorem Numeral.exists_cons {negative : Bool} {number : Number} (h : Numeral negative number cs) :
    ∃ c rest, cs = c :: rest ∧ c.isDigit = true := by
  cases h with
  | mk hwhole =>
    obtain ⟨c, rest, rfl, hc⟩ := hwhole.exists_cons
    exact ⟨c, _, rfl, hc⟩

theorem readNumber_append {negative : Bool} {number : Number} (h : Numeral negative number cs)
    (hrest : EndsNumber rest) : readNumber negative (cs ++ rest) = .ok (number, rest) := by
  cases h with
  | @mk whole fraction point power exponent hwhole hzero hfraction hexponent hnumber =>
    have hpower := hexponent.head?_append hrest
    have hpoint : ∀ c ∈ (point ++ (power ++ rest)).head?, c.isDigit = false := by
      intro c hc
      cases hfraction with
      | none => exact (hpower c hc).1
      | point _ =>
        cases hc
        rfl
    have hdigits := digits_append hwhole.2 hpoint
    have hfractionRead := fraction?_append hfraction (fun c hc => (hpower c hc).1)
      fun c hc => (hpower c hc).2
    have hexponentRead := exponent?_append hexponent hrest
    rw [List.append_assoc, List.append_assoc]
    unfold readNumber
    rw [hdigits]
    split
    · rename_i heq
      cases heq
      exact absurd rfl hwhole.1
    · rename_i heq
      cases heq
      cases hzero _ rfl
    · rename_i heq
      cases heq
      rw [hfractionRead]
      simp only [bind, Except.bind, hexponentRead, hnumber]

end Numbers

theorem shapeOf_digit {c : Char} (hc : c.isDigit = true) (rest : List Char) :
    shapeOf (c :: rest) = (readNumber false (c :: rest)).map fun (number, _) => number.shape := by
  unfold shapeOf
  split
  case h_8 heq => cases heq
  case h_9 heq =>
    cases heq
    exact if_pos hc
  all_goals
    rename_i heq
    cases heq
    cases hc

/-- The kind of a value is seen from its front, whatever stands behind it. -/
theorem shapeOf_append {value : Value} {cs rest : List Char} (h : Written value cs)
    (hrest : EndsNumber rest) : shapeOf (cs ++ rest) = .ok value.shape := by
  cases h with
  | null => rfl
  | ofTrue => rfl
  | ofFalse => rfl
  | number h =>
    obtain ⟨c, cs, rfl, hc⟩ := h.exists_cons
    rw [List.cons_append, shapeOf_digit hc, ← List.cons_append, readNumber_append h hrest]
    rfl
  | negative h =>
    rw [List.cons_append, shapeOf, readNumber_append h hrest]
    rfl
  | text h =>
    rw [List.cons_append, shapeOf, unquote_spelledOut h rest]
    simp only [Except.map, String.ofList_toList, Value.shape]
  | list _ => rfl
  | object _ => rfl

end LuaGlue.Json
