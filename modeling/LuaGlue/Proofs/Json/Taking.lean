import LuaGlue.Json.Strings

namespace LuaGlue.Json

variable {α β : Type}

/-- A reader takes a text as a value: whatever stands behind the text, that is left, and where the
text is cut off, it is truncated. -/
structure Takes (read : List Char → Except Error (α × List Char)) (text : List Char)
    (value : α) : Prop where
  append_eq : ∀ rest, read (text ++ rest) = .ok (value, rest)
  cut_eq : ∀ front rest, front ++ rest = text → rest ≠ [] → read front = .error .truncated

variable {read : List Char → Except Error (α × List Char)} {text more : List Char} {value : α}

theorem Takes.map (h : Takes read text value) (f : α → β) :
    Takes (fun cs => (read cs).map fun (value, rest) => (f value, rest)) text (f value) where
  append_eq rest := by simp only [h.append_eq, Except.map]
  cut_eq front rest heq hne := by simp only [h.cut_eq front rest heq hne, Except.map]

/-- Where a text is cut off that is followed by another one, the cut is in the first or in the
second. -/
theorem cut_append {front rest : List Char} (h : front ++ rest = text ++ more) :
    (∃ lost, front ++ lost = text ∧ lost ≠ []) ∨
      ∃ inner, front = text ++ inner ∧ inner ++ rest = more := by
  rcases List.append_eq_append_iff.1 h with ⟨lost, htext, hrest⟩ | ⟨inner, hfront, hmore⟩
  · by_cases hlost : lost = []
    · subst hlost
      refine .inr ⟨[], ?_, hrest⟩
      rw [htext, List.append_nil, List.append_nil]
    · exact .inl ⟨lost, htext.symm, hlost⟩
  · exact .inr ⟨inner, hfront, hmore.symm⟩

theorem cut_cons {c : Char} {front rest : List Char} (h : front ++ rest = c :: text) :
    front = [] ∨ ∃ inner, front = c :: inner ∧ inner ++ rest = text := by
  rcases List.append_eq_cons_iff.1 h with ⟨hfront, -⟩ | ⟨inner, hfront, htext⟩
  · exact .inl hfront
  · exact .inr ⟨inner, hfront, htext.symm⟩

theorem Takes.andThen (next : α → List Char → Except Error (β × List Char)) {result : β}
    (h : Takes read text value) (hnext : Takes (next value) more result) :
    Takes (fun cs => (read cs).bind fun (value, rest) => next value rest) (text ++ more)
      result where
  append_eq rest := by
    rw [List.append_assoc]
    simp only [h.append_eq, Except.bind, hnext.append_eq]
  cut_eq front rest heq hne := by
    rcases cut_append heq with ⟨lost, htext, hlost⟩ | ⟨inner, rfl, hmore⟩
    · simp only [h.cut_eq front lost htext hlost, Except.bind]
    · simp only [h.append_eq, Except.bind, hnext.cut_eq inner rest hmore hne]

/-- A text behind another one that is only passed. -/
theorem Takes.behind {body : List Char → Except Error (α × List Char)} {passed : List Char}
    (h : Takes body text value) (hread : ∀ cs, read (passed ++ cs) = body cs)
    (hcut : ∀ front rest, front ++ rest = passed → rest ≠ [] → read front = .error .truncated) :
    Takes read (passed ++ text) value where
  append_eq rest := by rw [List.append_assoc, hread, h.append_eq]
  cut_eq front rest heq hne := by
    rcases cut_append heq with ⟨lost, hpassed, hlost⟩ | ⟨inner, rfl, htext⟩
    · exact hcut front lost hpassed hlost
    · rw [hread, h.cut_eq inner rest htext hne]

/-- Characters that may stand anywhere between the parts of a text. -/
def Blanks (cs : List Char) : Prop :=
  ∀ c ∈ cs, isBlank c = true

instance (cs : List Char) : Decidable (Blanks cs) :=
  List.decidableBAll (fun c => isBlank c = true) cs

theorem skipBlanks_append {blanks : List Char} (h : Blanks blanks) (cs : List Char) :
    skipBlanks (blanks ++ cs) = skipBlanks cs :=
  List.dropWhile_append_of_pos h

theorem skipBlanks_mark {blanks : List Char} (h : Blanks blanks) {mark : Char}
    (hmark : isBlank mark = false) (cs : List Char) :
    skipBlanks (blanks ++ mark :: cs) = mark :: cs := by
  rw [skipBlanks_append h, skipBlanks, List.dropWhile_cons_of_neg (by simp [hmark])]

theorem Blanks.skipBlanks_eq_nil {blanks : List Char} (h : Blanks blanks) :
    skipBlanks blanks = [] := by
  have hnil := skipBlanks_append h []
  rwa [List.append_nil] at hnil

theorem Blanks.of_prefix {blanks front : List Char} (h : Blanks blanks)
    (hfront : front <+: blanks) : Blanks front :=
  fun c hc => h c (hfront.subset hc)

/-- What is left of blanks and a mark behind them, where they are cut off, is blanks. -/
theorem Blanks.cut_mark {blanks front rest : List Char} (h : Blanks blanks) {mark : Char}
    (heq : front ++ rest = blanks ++ [mark]) (hne : rest ≠ []) : Blanks front := by
  rcases List.prefix_concat_iff.1 ⟨rest, heq⟩ with hall | hfront
  · subst hall
    simp at heq
    exact absurd heq hne
  · exact h.of_prefix hfront

theorem Takes.behindMark {body : List Char → Except Error (α × List Char)} {blanks : List Char}
    {mark : Char} (h : Takes body text value) (hblanks : Blanks blanks)
    (hmark : isBlank mark = false)
    (hnone : ∀ cs, skipBlanks cs = [] → read cs = .error .truncated)
    (hread : ∀ cs rest, skipBlanks cs = mark :: rest → read cs = body rest) :
    Takes read (blanks ++ mark :: text) value := by
  rw [List.append_cons]
  apply h.behind
  · intro cs
    rw [← List.append_cons]
    exact hread _ _ (skipBlanks_mark hblanks hmark cs)
  · intro front rest heq hne
    exact hnone _ (hblanks.cut_mark heq hne).skipBlanks_eq_nil

/-- Blanks behind a whole text change nothing, and a text that is cut off is refused. -/
theorem Takes.finish_eq (h : Takes read text value) {blanks : List Char} (hblanks : Blanks blanks) :
    finish (read (text ++ blanks)) = .ok value := by
  simp only [h.append_eq, finish, hblanks.skipBlanks_eq_nil]
  rfl

theorem Takes.finish_cut (h : Takes read text value) {front : List Char} (hfront : front <+: text)
    (hne : front ≠ text) : finish (read front) = .error .truncated := by
  obtain ⟨rest, heq⟩ := hfront
  have hrest : rest ≠ [] := by
    rintro rfl
    rw [List.append_nil] at heq
    exact hne heq
  rw [h.cut_eq front rest heq hrest, finish]

end LuaGlue.Json
