import LuaGlue.Proofs.Token.Layout

namespace LuaGlue.Token

/-- The text is a layout of tokens with a comment behind it that is closed by the last two
characters. -/
def EndsBehindComment (source : String) : Prop :=
  ∃ (l : Layout) (body : List Char), source.toList = l.chars ++ ('/' :: '*' :: body ++ ['*', '/']) ∧
    StandBefore ('/' :: '*' :: body ++ ['*', '/']) l.parts ∧ ¬ ['*', '/'] <:+: body

/-- Nothing leads over the border between two texts, provided that the first one does not end inside
a comment. Only a slash at the end needs more than a look at the characters next to the border: it
may close a comment, end a word or be about to open a comment. -/
inductive Border (first second : String) : Prop where
  | nothingBefore (h : first = "")
  | behindBlank {c : Char} (h : c ∈ first.toList.getLast?) (hblank : isBlank c = true)
  | behindPunct {c : Char} (h : c ∈ first.toList.getLast?) (hpunct : isPunct c = true)
  | behindComment (h : EndsBehindComment first)
  | nothingBehind (h : second = "")
  | beforeBlank {c : Char} (h : c ∈ second.toList.head?) (hblank : isBlank c = true)

/-- A token before the end of a text is told apart already. At the very end a word could go on, and
a lone slash could open a comment. -/
theorem Stands.append {t : Token} {behind more : List Char} (h : t.Stands behind)
    (hend : behind = [] → ∀ w, t = .word w → ∀ c ∈ more.head?, isBlank c = true) :
    t.Stands (behind ++ more) := by
  refine ⟨h.lexable, fun w hw c hc => ?_, fun hcomment => ?_⟩
  · cases behind with
    | nil => simp [isWordChar, hend rfl w hw c hc]
    | cons d behind => exact h.maximal w hw c hc
  rw [← List.append_assoc] at hcomment
  by_cases hlength : 2 ≤ (t.text.toList ++ behind).length
  · exact h.no_comment
      (List.prefix_of_prefix_length_le hcomment (List.prefix_append _ more) hlength)
  · have hpos : 0 < t.text.toList.length :=
      List.length_pos_iff.2 (mt String.toList_eq_nil_iff.1 h.lexable.text_ne_empty)
    rw [List.length_append] at hlength
    obtain rfl : behind = [] := List.length_eq_zero_iff.1 (by omega)
    obtain ⟨c, hc⟩ := List.length_eq_one_iff.1 (by omega : t.text.toList.length = 1)
    rw [hc] at hcomment
    obtain ⟨rfl, more, rfl⟩ := List.cons_prefix_cons.1 hcomment
    cases t with
    | punct p =>
      obtain rfl : p = '/' := by simpa [text] using hc
      cases h.lexable
    | word w =>
      have hblank := hend rfl w rfl '*' rfl
      cases hblank

/-- Tokens stand before more of a text, unless a word ends at the very end and no blank follows. -/
theorem StandBefore.append {tail more : List Char} {parts : List (Token × Gap)}
    (h : StandBefore tail parts)
    (hend : tail = [] → ∀ c ∈ (spell parts).getLast?, isWordChar c = true →
      ∀ d ∈ more.head?, isBlank d = true) :
    StandBefore (tail ++ more) parts := by
  induction parts with
  | nil => trivial
  | cons part parts ih =>
    obtain ⟨t, gap⟩ := part
    obtain ⟨hstands, hrest⟩ := h
    have hlast : ∀ c ∈ (spell parts).getLast?, c ∈ (spell ((t, gap) :: parts)).getLast? := by
      intro c hc
      rw [spell, List.getLast?_append, Option.mem_def.1 hc]
      rfl
    refine ⟨?_, ih hrest fun htail c hc => hend htail c (hlast c hc)⟩
    rw [← List.append_assoc]
    apply hstands.append
    rintro hnil w rfl
    rw [List.append_eq_nil_iff, List.append_eq_nil_iff] at hnil
    obtain ⟨⟨hgap, hspell⟩, htail⟩ := hnil
    have hspelled : spell ((word w, gap) :: parts) = w.toList := by
      rw [spell, hgap, hspell, List.append_nil, List.append_nil, text]
    have hne : w.toList ≠ [] := mt String.toList_eq_nil_iff.1 hstands.lexable.text_ne_empty
    rw [hspelled] at hend
    exact hend htail _ (List.getLast?_eq_some_getLast hne)
      (hstands.lexable.2 _ (List.getLast_mem hne))

theorem exists_layout_of_closed {source : String} (h : ¬ EndsInComment source) :
    ∃ l : Layout, source.toList = l.chars ∧ StandBefore [] l.parts ∧
      lex source = ⟨l.tokens, false⟩ := by
  rw [← unclosed_iff_endsInComment, Bool.not_eq_true] at h
  obtain ⟨l, tail, hchars, hparts, htokens, htail⟩ := exists_layout source.toList
  rw [lex] at h ⊢
  rw [h] at htail
  cases htail
  rw [List.append_nil] at hchars
  refine ⟨l, hchars, hparts, ?_⟩
  rw [← htokens, ← h]

theorem lex_append_of_end {first second : String} (hclosed : ¬ EndsInComment first)
    (hend : ∀ c ∈ first.toList.getLast?, isWordChar c = true →
      ∀ d ∈ second.toList.head?, isBlank d = true) :
    lex (first ++ second) =
      ⟨(lex first).tokens ++ (lex second).tokens, (lex second).unclosed⟩ := by
  obtain ⟨l, hchars, hparts, hfirst⟩ := exists_layout_of_closed hclosed
  have hlast : ∀ c ∈ (spell l.parts).getLast?, c ∈ first.toList.getLast? := by
    intro c hc
    rw [hchars, Layout.chars, List.getLast?_append, Option.mem_def.1 hc]
    rfl
  have hstands : StandBefore second.toList l.parts :=
    hparts.append fun _ c hc => hend c (hlast c hc)
  rw [lex, String.toList_append, hchars, Layout.lexChars_append hstands, hfirst, lex]

theorem EndsBehindComment.lex_append {first : String} (h : EndsBehindComment first)
    (second : String) :
    lex (first ++ second) =
      ⟨(lex first).tokens ++ (lex second).tokens, (lex second).unclosed⟩ := by
  obtain ⟨l, body, hchars, hparts, hbody⟩ := h
  have hcomment : Gap.chars [.comment body hbody] = '/' :: '*' :: body ++ ['*', '/'] :=
    List.append_nil _
  have hread : ∀ rest, lexChars (first.toList ++ rest) =
      ⟨l.tokens ++ (lexChars rest).tokens, (lexChars rest).unclosed⟩ := by
    intro rest
    have hstands : StandBefore ('/' :: '*' :: body ++ ['*', '/'] ++ rest) l.parts :=
      hparts.append fun hnil => absurd hnil (List.cons_ne_nil _ _)
    rw [hchars, List.append_assoc, Layout.lexChars_append hstands, ← hcomment,
      lexChars_gap_append]
  have hfirst := hread []
  have hskip : skipGap? [] = some [] := by rw [skipGap?]
  rw [lexChars_of_eq_nil hskip, List.append_nil, List.append_nil] at hfirst
  rw [lex, String.toList_append, hread, lex, hfirst, lex]

theorem Border.lex_append {first second : String} (h : Border first second)
    (hclosed : ¬ EndsInComment first) :
    lex (first ++ second) =
      ⟨(lex first).tokens ++ (lex second).tokens, (lex second).unclosed⟩ := by
  cases h with
  | behindComment h => exact h.lex_append second
  | nothingBefore h =>
    refine lex_append_of_end hclosed fun c hc => ?_
    rw [h] at hc
    cases hc
  | behindBlank h hblank =>
    refine lex_append_of_end hclosed fun c hc hword => ?_
    cases Option.mem_unique h hc
    simp [isWordChar, hblank] at hword
  | behindPunct h hpunct =>
    refine lex_append_of_end hclosed fun c hc hword => ?_
    cases Option.mem_unique h hc
    simp [isWordChar, hpunct] at hword
  | nothingBehind h =>
    refine lex_append_of_end hclosed fun _ _ _ d hd => ?_
    rw [h] at hd
    cases hd
  | beforeBlank h hblank =>
    refine lex_append_of_end hclosed fun _ _ _ d hd => ?_
    cases Option.mem_unique h hd
    exact hblank

/-- Texts on different lines are read one after the other, if no comment leads from the first into
the second. -/
theorem lex_append_newline {first : String} (h : (lex first).unclosed = false) (second : String) :
    lex (first ++ "\n" ++ second) =
      ⟨(lex first).tokens ++ (lex second).tokens, (lex second).unclosed⟩ := by
  have hclosed : ¬ EndsInComment first := by
    rw [← unclosed_iff_endsInComment, h]
    exact Bool.false_ne_true
  have hborder : Border first ("\n" ++ second) := by
    refine .beforeBlank (c := '\n') ?_ rfl
    rw [String.toList_append]
    exact rfl
  have hskip : lex ("\n" ++ second) = lex second := by
    rw [lex, lex, String.toList_append]
    exact lexChars_congr (skipGap?_blank rfl _)
  rw [String.append_assoc, hborder.lex_append hclosed, hskip]

end LuaGlue.Token
