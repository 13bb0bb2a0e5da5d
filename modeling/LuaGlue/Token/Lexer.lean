import LuaGlue.Token

namespace LuaGlue.Token

/-- The text behind the first `*/`, which closes a comment; comments do not nest. -/
def afterComment? : List Char → Option (List Char)
  | [] => none
  | '*' :: '/' :: rest => some rest
  | _ :: rest => afterComment? rest

theorem length_lt_of_afterComment? {cs rest : List Char} (h : afterComment? cs = some rest) :
    rest.length < cs.length := by
  fun_induction afterComment? cs with
  | case1 => cases h
  | case2 => cases h; simp only [List.length_cons]; omega
  | case3 c cs _ ih => exact Nat.lt_succ_of_lt (ih h)

/-- The text behind the gap it starts with, or nothing if that gap ends inside a comment. A gap is
made of blanks and closed comments. A comment is only recognised where a token may start, so
`a/*c*/` begins with the word `a/`. -/
def skipGap? : List Char → Option (List Char)
  | [] => some []
  | '/' :: '*' :: body =>
    match _ : afterComment? body with
    | none => none
    | some rest => skipGap? rest
  | c :: rest => if isBlank c then skipGap? rest else some (c :: rest)
termination_by cs => cs.length
decreasing_by
  · have := length_lt_of_afterComment? ‹afterComment? body = some rest›
    simp only [List.length_cons]
    omega
  · simp

theorem skipGap?_comment (body : List Char) :
    skipGap? ('/' :: '*' :: body) = (afterComment? body).bind skipGap? := by
  rw [skipGap?]
  split <;> simp_all

theorem skipGap?_blank {c : Char} (h : isBlank c = true) (rest : List Char) :
    skipGap? (c :: rest) = skipGap? rest := by
  have hopen : ∀ body, c = '/' → rest = '*' :: body → False := by
    rintro body rfl
    cases h
  rw [skipGap?.eq_3 _ _ hopen, if_pos h]

/-- What is neither a blank nor the start of a comment ends a gap. -/
theorem skipGap?_token {c : Char} {rest : List Char} (hblank : isBlank c = false)
    (hcomment : ¬ ['/', '*'] <+: c :: rest) : skipGap? (c :: rest) = some (c :: rest) := by
  have hopen : ∀ body, c = '/' → rest = '*' :: body → False := by
    rintro body rfl rfl
    exact hcomment ⟨body, rfl⟩
  rw [skipGap?.eq_3 _ _ hopen, hblank, if_neg Bool.false_ne_true]

theorem length_le_of_skipGap? {cs rest : List Char} (h : skipGap? cs = some rest) :
    rest.length ≤ cs.length := by
  fun_induction skipGap? cs with
  | case1 => cases h; exact Nat.le_refl _
  | case2 => cases h
  | case3 body after hafter ih =>
    have := length_lt_of_afterComment? hafter
    have := ih h
    simp only [List.length_cons]
    omega
  | case4 c cs _ _ ih => exact Nat.le_succ_of_le (ih h)
  | case5 => cases h; exact Nat.le_refl _

/-- The token that starts with `c`, and what stands behind it. A word is as long as it can be;
its first character may be anything that is not punctuation. -/
def cut (c : Char) (rest : List Char) : Token × List Char :=
  if isPunct c then (.punct c, rest)
  else (.word (String.ofList (c :: rest.takeWhile isWordChar)), rest.dropWhile isWordChar)

private theorem length_dropWhile_le (p : Char → Bool) (cs : List Char) :
    (cs.dropWhile p).length ≤ cs.length :=
  (List.dropWhile_sublist p).length_le

theorem length_cut_le (c : Char) (rest : List Char) : (cut c rest).2.length ≤ rest.length := by
  unfold cut
  split
  · exact Nat.le_refl _
  · exact length_dropWhile_le _ _

/-- The tokens of a text, and whether it ends inside a comment. -/
structure Lexed where
  tokens : List Token
  unclosed : Bool

/-- Reads the whole text: each token leaves a shorter one. An unclosed comment hides the rest of the
text and nothing before it. -/
def lexChars (cs : List Char) : Lexed :=
  match _ : skipGap? cs with
  | none => ⟨[], true⟩
  | some [] => ⟨[], false⟩
  | some (c :: rest) =>
    let behind := lexChars (cut c rest).2
    ⟨(cut c rest).1 :: behind.tokens, behind.unclosed⟩
termination_by cs.length
decreasing_by
  have := length_le_of_skipGap? ‹skipGap? cs = some (c :: rest)›
  have := length_cut_le c rest
  simp only [List.length_cons] at *
  omega

section LexChars

variable {cs rest : List Char} {c : Char}

theorem lexChars_of_eq_none (h : skipGap? cs = none) : lexChars cs = ⟨[], true⟩ := by
  rw [lexChars]
  split <;> simp_all

theorem lexChars_of_eq_nil (h : skipGap? cs = some []) : lexChars cs = ⟨[], false⟩ := by
  rw [lexChars]
  split <;> simp_all

theorem lexChars_of_eq_cons (h : skipGap? cs = some (c :: rest)) :
    lexChars cs =
      ⟨(cut c rest).1 :: (lexChars (cut c rest).2).tokens, (lexChars (cut c rest).2).unclosed⟩ := by
  rw [lexChars]
  split <;> simp_all

/-- Gaps at the front of a text do not matter. -/
theorem lexChars_congr {ds : List Char} (h : skipGap? cs = skipGap? ds) :
    lexChars cs = lexChars ds := by
  cases hskip : skipGap? ds with
  | none => rw [lexChars_of_eq_none hskip, lexChars_of_eq_none (h.trans hskip)]
  | some behind =>
    cases behind with
    | nil => rw [lexChars_of_eq_nil hskip, lexChars_of_eq_nil (h.trans hskip)]
    | cons c rest => rw [lexChars_of_eq_cons hskip, lexChars_of_eq_cons (h.trans hskip)]

end LexChars

@[inherit_doc lexChars]
def lex (source : String) : Lexed :=
  lexChars source.toList

end LuaGlue.Token
