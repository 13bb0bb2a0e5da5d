import LuaGlue.Proofs.Text.Lines
import LuaGlue.Token.Lexer

namespace LuaGlue.Token

/-- A part of a gap. The body of a comment ends at the first `*/` behind the opening, so there is
none in it. -/
inductive GapPart where
  | blank (c : Char) (isBlank : isBlank c = true)
  | comment (body : List Char) (noClose : ¬ ['*', '/'] <:+: body)

def GapPart.chars : GapPart → List Char
  | blank c _ => [c]
  | comment body _ => '/' :: '*' :: body ++ ['*', '/']

/-- Blanks and closed comments in any order, also none at all. -/
abbrev Gap := List GapPart

def Gap.chars (gap : Gap) : List Char :=
  gap.flatMap GapPart.chars

/-- Tokens, each with the gap behind it, as a text. -/
def spell : List (Token × Gap) → List Char
  | [] => []
  | (t, gap) :: rest => t.text.toList ++ Gap.chars gap ++ spell rest

/-- A list of tokens with a gap before it and one behind each of them. It says which blanks and
comments stand around the tokens, and not how a text is read. -/
structure Layout where
  front : Gap
  parts : List (Token × Gap)

namespace Layout

def chars (l : Layout) : List Char :=
  Gap.chars l.front ++ spell l.parts

def source (l : Layout) : String :=
  String.ofList l.chars

def tokens (l : Layout) : List Token :=
  l.parts.map Prod.fst

end Layout

/-- The tokens that a text can contain. -/
def Lexable : Token → Prop
  | punct c => isPunct c = true
  | word w => w ≠ "" ∧ ∀ c ∈ w.toList, isWordChar c = true

instance : DecidablePred Lexable
  | punct c => inferInstanceAs (Decidable (isPunct c = true))
  | word w =>
    have := List.decidableBAll (isWordChar · = true) w.toList
    inferInstanceAs (Decidable (w ≠ "" ∧ ∀ c ∈ w.toList, isWordChar c = true))

/-- Before this text behind it, a token can be told apart. -/
structure Stands (t : Token) (behind : List Char) : Prop where
  lexable : t.Lexable
  /-- A word is followed by a blank, by punctuation or by the end of the text. -/
  maximal : ∀ w, t = .word w → ∀ c ∈ behind.head?, isWordChar c = false
  /-- The token does not start where a comment does. -/
  no_comment : ¬ ['/', '*'] <+: t.text.toList ++ behind

/-- Each of the tokens stands before what follows it, up to the end of `tail`. -/
def StandBefore (tail : List Char) : List (Token × Gap) → Prop
  | [] => True
  | (t, gap) :: rest => t.Stands (Gap.chars gap ++ spell rest ++ tail) ∧ StandBefore tail rest

theorem afterComment?_append {body : List Char} (h : ¬ ['*', '/'] <:+: body) (rest : List Char) :
    afterComment? (body ++ '*' :: '/' :: rest) = some rest := by
  induction body with
  | nil => rw [List.nil_append, afterComment?]
  | cons c body ih =>
    rw [List.infix_cons_iff, not_or] at h
    have hopen : ∀ more, c = '*' → body ++ '*' :: '/' :: rest = '/' :: more → False := by
      rintro more rfl hmore
      cases body with
      | nil => cases hmore
      | cons d body =>
        obtain ⟨rfl, -⟩ := List.cons.inj hmore
        exact h.1 ⟨body, rfl⟩
    rw [List.cons_append, afterComment?.eq_3 _ _ hopen]
    exact ih h.2

theorem exists_body_of_afterComment? {cs rest : List Char} (h : afterComment? cs = some rest) :
    ∃ body, ¬ ['*', '/'] <:+: body ∧ cs = body ++ '*' :: '/' :: rest := by
  fun_induction afterComment? cs with
  | case1 => cases h
  | case2 more =>
    cases h
    exact ⟨[], by simp, rfl⟩
  | case3 c cs hopen ih =>
    obtain ⟨body, hbody, rfl⟩ := ih h
    refine ⟨c :: body, ?_, rfl⟩
    rw [List.infix_cons_iff, not_or]
    refine ⟨?_, hbody⟩
    rintro ⟨more, hmore⟩
    obtain ⟨rfl, rfl⟩ := List.cons.inj hmore
    exact hopen _ rfl rfl

theorem noClose_of_afterComment? {cs : List Char} (h : afterComment? cs = none) :
    ¬ ['*', '/'] <:+: cs := by
  fun_induction afterComment? cs with
  | case1 => simp
  | case2 => cases h
  | case3 c cs hopen ih =>
    rw [List.infix_cons_iff, not_or]
    refine ⟨?_, ih h⟩
    rintro ⟨more, hmore⟩
    obtain ⟨rfl, rfl⟩ := List.cons.inj hmore
    exact hopen _ rfl rfl

theorem skipGap?_chars_append (gap : Gap) (rest : List Char) :
    skipGap? (Gap.chars gap ++ rest) = skipGap? rest := by
  induction gap with
  | nil => rfl
  | cons part gap ih =>
    rw [Gap.chars, List.flatMap_cons, List.append_assoc]
    cases part with
    | blank c hblank => exact (skipGap?_blank hblank _).trans ih
    | comment body hclose =>
      have hafter := afterComment?_append hclose (Gap.chars gap ++ rest)
      simp only [GapPart.chars, List.cons_append, List.append_assoc, List.nil_append]
      rw [skipGap?_comment]
      exact (congrArg (Option.bind · skipGap?) hafter).trans ih

/-- The text is a gap and what is left of it, which starts no gap. -/
theorem exists_gap_of_skipGap? {cs rest : List Char} (h : skipGap? cs = some rest) :
    ∃ gap, cs = Gap.chars gap ++ rest ∧
      ∀ c more, rest = c :: more → isBlank c = false ∧ ¬ ['/', '*'] <+: rest := by
  fun_induction skipGap? cs with
  | case1 =>
    cases h
    exact ⟨[], rfl, by simp⟩
  | case2 => cases h
  | case3 body after hafter ih =>
    obtain ⟨inner, hclose, rfl⟩ := exists_body_of_afterComment? hafter
    obtain ⟨gap, rfl, hrest⟩ := ih h
    refine ⟨.comment inner hclose :: gap, ?_, hrest⟩
    simp [Gap.chars, GapPart.chars]
  | case4 c cs hopen hblank ih =>
    obtain ⟨gap, rfl, hrest⟩ := ih h
    exact ⟨.blank c hblank :: gap, rfl, hrest⟩
  | case5 c cs hopen hblank =>
    cases h
    refine ⟨[], rfl, fun d more hmore => ?_⟩
    obtain ⟨rfl, rfl⟩ := List.cons.inj hmore
    refine ⟨by simpa using hblank, ?_⟩
    rintro ⟨body, hbody⟩
    obtain ⟨rfl, rfl⟩ := List.cons.inj hbody
    exact hopen _ rfl rfl

/-- A gap that does not end leads into a comment without an end. -/
theorem exists_gap_of_skipGap?_eq_none {cs : List Char} (h : skipGap? cs = none) :
    ∃ gap body, cs = Gap.chars gap ++ '/' :: '*' :: body ∧ ¬ ['*', '/'] <:+: body := by
  fun_induction skipGap? cs with
  | case1 => cases h
  | case2 body hafter => exact ⟨[], body, rfl, noClose_of_afterComment? hafter⟩
  | case3 body after hafter ih =>
    obtain ⟨inner, hclose, rfl⟩ := exists_body_of_afterComment? hafter
    obtain ⟨gap, body, rfl, hbody⟩ := ih h
    refine ⟨.comment inner hclose :: gap, body, ?_, hbody⟩
    simp [Gap.chars, GapPart.chars]
  | case4 c cs hopen hblank ih =>
    obtain ⟨gap, body, rfl, hbody⟩ := ih h
    exact ⟨.blank c hblank :: gap, body, rfl, hbody⟩
  | case5 => cases h

theorem isBlank_eq_false_of_isPunct {c : Char} (h : isPunct c = true) : isBlank c = false := by
  simp only [isPunct, Bool.or_eq_true, decide_eq_true_eq] at h
  rcases h with (((((((rfl | rfl) | rfl) | rfl) | rfl) | rfl) | rfl) | rfl) | rfl <;> rfl

theorem isWordChar_eq_true_iff {c : Char} :
    isWordChar c = true ↔ isBlank c = false ∧ isPunct c = false := by
  simp [isWordChar]

theorem Lexable.text_ne_empty {t : Token} (h : t.Lexable) : t.text ≠ "" := by
  cases t with
  | punct c => exact String.singleton_ne_empty
  | word w => exact h.1

/-- No token contains a blank. -/
theorem Lexable.isBlank_eq_false {t : Token} (h : t.Lexable) :
    ∀ c ∈ t.text.toList, isBlank c = false := by
  intro c hc
  cases t with
  | punct d =>
    obtain rfl : c = d := by simpa [text] using hc
    exact isBlank_eq_false_of_isPunct h
  | word w => exact (isWordChar_eq_true_iff.1 (h.2 c hc)).1

theorem not_isWordChar_of_mem_head?_dropWhile (cs : List Char) :
    ∀ c ∈ (cs.dropWhile isWordChar).head?, isWordChar c = false := by
  intro c hc
  have h := List.head?_dropWhile_not isWordChar cs
  rw [hc] at h
  simpa using h

/-- What is cut off at the end of a gap stands before the rest. -/
theorem stands_cut {c : Char} {rest : List Char} (hblank : isBlank c = false)
    (hcomment : ¬ ['/', '*'] <+: c :: rest) :
    (cut c rest).1.text.toList ++ (cut c rest).2 = c :: rest ∧
    (cut c rest).1.Stands (cut c rest).2 := by
  have hchars : (cut c rest).1.text.toList ++ (cut c rest).2 = c :: rest := by
    unfold cut
    split
    · simp [text]
    · simp [text, List.takeWhile_append_dropWhile]
  refine ⟨hchars, ?_, ?_, by rwa [hchars]⟩
  · unfold cut
    split
    · assumption
    · rename_i hpunct
      refine ⟨by simp, fun d hd => ?_⟩
      rw [String.toList_ofList] at hd
      rcases List.mem_cons.1 hd with rfl | hd
      · exact isWordChar_eq_true_iff.2 ⟨hblank, by simpa using hpunct⟩
      · exact List.all_eq_true.1 List.all_takeWhile d hd
  · unfold cut
    split
    · intro w hw
      cases hw
    · exact fun _ _ => not_isWordChar_of_mem_head?_dropWhile rest

/-- A word stands before what cannot belong to it, and a lone slash not before a star. -/
theorem Stands.word {w : String} {behind : List Char} (hlexable : Lexable (.word w))
    (hbehind : ∀ c ∈ behind.head?, isWordChar c = false ∧ (w = "/" → c ≠ '*')) :
    Stands (.word w) behind := by
  refine ⟨hlexable, fun _ _ c hc => (hbehind c hc).1, ?_⟩
  rintro ⟨more, hmore⟩
  obtain ⟨hne, hchars⟩ := hlexable
  change '/' :: '*' :: more = w.toList ++ behind at hmore
  cases hw : w.toList with
  | nil => exact hne (String.toList_eq_nil_iff.1 hw)
  | cons c cs =>
    rw [hw] at hmore hchars
    obtain ⟨rfl, hrest⟩ := List.cons.inj hmore
    cases cs with
    | nil =>
      -- The word is a lone slash, and the star would be the first character behind it.
      have hslash : w = "/" := String.toList_inj.1 hw
      have hstar : '*' ∈ behind.head? := (congrArg List.head? hrest).symm
      exact (hbehind '*' hstar).2 hslash rfl
    | cons d cs =>
      obtain ⟨rfl, -⟩ := List.cons.inj hrest
      have hstar := hchars '*' (List.mem_cons_of_mem _ List.mem_cons_self)
      cases hstar

theorem Stands.punct {p : Char} (hlexable : Lexable (.punct p)) (behind : List Char) :
    Stands (.punct p) behind := by
  refine ⟨hlexable, ?_, ?_⟩
  · intro w hw
    cases hw
  · rintro ⟨more, hmore⟩
    obtain ⟨rfl, -⟩ : '/' = p ∧ '*' :: more = behind := by simpa [text] using hmore
    cases hlexable

/-- A token that stands before a text is cut off from it. -/
theorem Stands.cut {t : Token} {behind : List Char} (h : t.Stands behind) :
    ∃ c rest, t.text.toList ++ behind = c :: rest ∧ isBlank c = false ∧
      cut c rest = (t, behind) := by
  obtain ⟨hlexable, hmaximal, -⟩ := h
  cases t with
  | punct c =>
    have hpunct : isPunct c = true := hlexable
    refine ⟨c, behind, by simp [text], isBlank_eq_false_of_isPunct hpunct, ?_⟩
    rw [Token.cut, if_pos hpunct]
  | word w =>
    obtain ⟨hne, hchars⟩ := hlexable
    cases hw : w.toList with
    | nil => exact absurd (String.toList_eq_nil_iff.1 hw) hne
    | cons c cs =>
      rw [hw] at hchars
      obtain ⟨hblank, hpunct⟩ := isWordChar_eq_true_iff.1 (hchars c List.mem_cons_self)
      obtain ⟨htake, hdrop⟩ := Text.takeWhile_append_of_head?
        (fun d hd => hchars d (List.mem_cons_of_mem c hd)) (hmaximal w rfl)
      refine ⟨c, cs ++ behind, by simp [text, hw], hblank, ?_⟩
      rw [Token.cut, hpunct, if_neg Bool.false_ne_true, htake, hdrop, ← hw, String.ofList_toList]

theorem lexChars_gap_append (gap : Gap) (rest : List Char) :
    lexChars (Gap.chars gap ++ rest) = lexChars rest :=
  lexChars_congr (skipGap?_chars_append gap rest)

theorem Stands.lexChars {t : Token} {behind : List Char} (h : t.Stands behind) :
    lexChars (t.text.toList ++ behind) =
      ⟨t :: (lexChars behind).tokens, (lexChars behind).unclosed⟩ := by
  obtain ⟨c, rest, hchars, hblank, hcut⟩ := h.cut
  have hcomment := h.no_comment
  rw [hchars] at hcomment
  rw [hchars, lexChars_of_eq_cons (skipGap?_token hblank hcomment), hcut]

theorem lexChars_spell_append {tail : List Char} {parts : List (Token × Gap)}
    (h : StandBefore tail parts) :
    lexChars (spell parts ++ tail) =
      ⟨parts.map Prod.fst ++ (lexChars tail).tokens, (lexChars tail).unclosed⟩ := by
  induction parts with
  | nil => rfl
  | cons part parts ih =>
    obtain ⟨t, gap⟩ := part
    obtain ⟨hstands, hrest⟩ := h
    have hgap := lexChars_gap_append gap (spell parts ++ tail)
    rw [← List.append_assoc] at hgap
    rw [spell, List.append_assoc, List.append_assoc, ← List.append_assoc (Gap.chars gap),
      hstands.lexChars, hgap, ih hrest]
    rfl

/-- The tokens of a layout are read before those of the text behind it. -/
theorem Layout.lexChars_append {l : Layout} {tail : List Char} (h : StandBefore tail l.parts) :
    lexChars (l.chars ++ tail) =
      ⟨l.tokens ++ (lexChars tail).tokens, (lexChars tail).unclosed⟩ := by
  rw [chars, List.append_assoc, lexChars_gap_append, lexChars_spell_append h]
  rfl

/-- The end of a text that is not part of any layout: nothing, or a comment without an end. -/
inductive Tail : List Char → Bool → Prop where
  | nothing : Tail [] false
  | comment (body : List Char) (noClose : ¬ ['*', '/'] <:+: body) :
      Tail ('/' :: '*' :: body) true

/-- Every text is a layout of its tokens with a tail. -/
theorem exists_layout (cs : List Char) :
    ∃ (l : Layout) (tail : List Char), cs = l.chars ++ tail ∧
      StandBefore tail l.parts ∧ (lexChars cs).tokens = l.tokens ∧
      Tail tail (lexChars cs).unclosed := by
  fun_induction lexChars cs with
  | case1 cs hskip =>
    obtain ⟨gap, body, rfl, hbody⟩ := exists_gap_of_skipGap?_eq_none hskip
    exact ⟨⟨gap, []⟩, _, by simp [Layout.chars, spell], trivial, rfl, .comment body hbody⟩
  | case2 cs hskip =>
    obtain ⟨gap, rfl, -⟩ := exists_gap_of_skipGap? hskip
    exact ⟨⟨gap, []⟩, [], by simp [Layout.chars, spell], trivial, rfl, .nothing⟩
  | case3 cs c rest hskip behind ih =>
    obtain ⟨gap, rfl, hstart⟩ := exists_gap_of_skipGap? hskip
    obtain ⟨hblank, hcomment⟩ := hstart c rest rfl
    obtain ⟨hchars, hstands⟩ := stands_cut hblank hcomment
    obtain ⟨l, tail, hbehind, hparts, htokens, htail⟩ := ih
    refine ⟨⟨gap, ((cut c rest).1, l.front) :: l.parts⟩, tail, ?_, ⟨?_, hparts⟩, ?_, htail⟩
    · rw [← hchars, hbehind]
      simp [Layout.chars, spell]
    · rw [hbehind] at hstands
      exact hstands
    · exact congrArg _ htokens

/-- The text is a layout of tokens with a comment behind it that is not closed. -/
def EndsInComment (source : String) : Prop :=
  ∃ (l : Layout) (body : List Char), source.toList = l.chars ++ '/' :: '*' :: body ∧
    StandBefore ('/' :: '*' :: body) l.parts ∧ ¬ ['*', '/'] <:+: body

theorem unclosed_iff_endsInComment (source : String) :
    (lex source).unclosed = true ↔ EndsInComment source := by
  constructor
  · intro hunclosed
    obtain ⟨l, tail, hchars, hparts, -, htail⟩ := exists_layout source.toList
    rw [lex] at hunclosed
    rw [hunclosed] at htail
    cases htail with
    | comment body hbody => exact ⟨l, body, hchars, hparts, hbody⟩
  · rintro ⟨l, body, hchars, hparts, hbody⟩
    have hafter : afterComment? body = none := by
      cases hrest : afterComment? body with
      | none => rfl
      | some rest =>
        obtain ⟨inner, -, rfl⟩ := exists_body_of_afterComment? hrest
        exact absurd ⟨inner, rest, by simp⟩ hbody
    have hskip : skipGap? ('/' :: '*' :: body) = none := by
      rw [skipGap?_comment, hafter]
      rfl
    rw [lex, hchars, Layout.lexChars_append hparts, lexChars_of_eq_none hskip]

theorem StandBefore.lexable {tail : List Char} {parts : List (Token × Gap)}
    (h : StandBefore tail parts) : ∀ t ∈ parts.map Prod.fst, t.Lexable := by
  induction parts with
  | nil => simp
  | cons part parts ih =>
    obtain ⟨t, gap⟩ := part
    obtain ⟨hstands, hrest⟩ := h
    exact List.forall_mem_cons.2 ⟨hstands.lexable, ih hrest⟩

theorem lexable_of_mem_lex {source : String} {t : Token} (h : t ∈ (lex source).tokens) :
    t.Lexable := by
  obtain ⟨l, tail, -, hparts, htokens, -⟩ := exists_layout source.toList
  rw [lex, htokens] at h
  exact hparts.lexable t h

end LuaGlue.Token
