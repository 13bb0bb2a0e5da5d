import LuaGlue.Text.Lines
import LuaGlue.Token

namespace LuaGlue.Text

/-- A part of a text is found again if the character behind it does not belong to it. -/
theorem takeWhile_append_of_head? {p : Char → Bool} {cs behind : List Char}
    (hcs : ∀ c ∈ cs, p c = true) (hbehind : ∀ c ∈ behind.head?, p c = false) :
    (cs ++ behind).takeWhile p = cs ∧ (cs ++ behind).dropWhile p = behind := by
  rw [List.takeWhile_append_of_pos hcs, List.dropWhile_append_of_pos hcs]
  cases behind with
  | nil => simp
  | cons c behind => simp [hbehind c rfl]

/-- What stands between the line feeds of a text. Behind the last line feed there is one line more,
which is empty for a text that is written line by line. -/
def lines (text : String) : List String :=
  (text.toList.splitOn '\n').map String.ofList

def OneLine (s : String) : Prop :=
  '\n' ∉ s.toList

instance : DecidablePred OneLine :=
  fun s => inferInstanceAs (Decidable ('\n' ∉ s.toList))

/-- A text that is written line by line is split into the same lines, if none of them contains a
line feed itself. -/
theorem lines_ofLines {parts : List String} (h : ∀ line ∈ parts, OneLine line) :
    lines (ofLines parts) = parts ++ [""] := by
  induction parts with
  | nil => rfl
  | cons line rest ih =>
    have hrest := ih fun other hother => h other (List.mem_cons_of_mem _ hother)
    have hsplit : (ofLines (line :: rest)).toList.splitOn '\n' =
        line.toList :: (ofLines rest).toList.splitOn '\n' := by
      rw [ofLines, String.toList_append, String.toList_append, List.append_assoc]
      exact List.splitOn_append_cons_self_of_not_mem (h line List.mem_cons_self) _
    rw [lines, hsplit, List.map_cons, String.ofList_toList, List.cons_append]
    exact congrArg (line :: ·) hrest

@[simp]
theorem oneLine_append {first second : String} :
    OneLine (first ++ second) ↔ OneLine first ∧ OneLine second := by
  simp [OneLine, not_or]

/-- A number is written with digits only. -/
theorem notMem_repr {c : Char} (hc : c.isDigit = false) (n : Nat) : c ∉ n.repr.toList := by
  intro hmem
  rw [Nat.toList_repr] at hmem
  rw [Nat.isDigit_of_mem_toDigits (by decide) (by decide) hmem] at hc
  cases hc

@[simp]
theorem oneLine_repr (n : Nat) : OneLine n.repr :=
  notMem_repr (by decide) n

theorem notMem_intercalate {c : Char} {separator : String} {parts : List String}
    (hseparator : c ∉ separator.toList) (h : ∀ part ∈ parts, c ∉ part.toList) :
    c ∉ (String.intercalate separator parts).toList := by
  induction parts with
  | nil => exact List.not_mem_nil
  | cons part rest ih =>
    have hpart := h part List.mem_cons_self
    have hrest := ih fun other hother => h other (List.mem_cons_of_mem _ hother)
    cases rest with
    | nil => simpa using hpart
    | cons next rest =>
      rw [String.intercalate_cons_cons, String.toList_append, String.toList_append,
        List.mem_append, List.mem_append, not_or, not_or]
      exact ⟨⟨hpart, hseparator⟩, hrest⟩

theorem oneLine_intercalate {separator : String} {parts : List String}
    (hseparator : OneLine separator) (h : ∀ part ∈ parts, OneLine part) :
    OneLine (String.intercalate separator parts) :=
  notMem_intercalate hseparator h

/-- Without blanks a text contains neither a space nor a line feed. -/
def Unbroken (s : String) : Prop :=
  ∀ c ∈ s.toList, Token.isBlank c = false

instance : DecidablePred Unbroken :=
  fun s => List.decidableBAll (Token.isBlank · = false) s.toList

namespace Unbroken

variable {s : String}

theorem oneLine (h : Unbroken s) : OneLine s :=
  fun hmem => absurd (h _ hmem) (by decide)

theorem space_notMem (h : Unbroken s) : ' ' ∉ s.toList :=
  fun hmem => absurd (h _ hmem) (by decide)

theorem join {parts : List String} (h : ∀ part ∈ parts, Unbroken part) :
    Unbroken (String.join parts) := by
  intro c hc
  rw [String.toList_join, List.mem_flatMap] at hc
  obtain ⟨part, hpart, hmem⟩ := hc
  exact h part hpart c hmem

end Unbroken

end LuaGlue.Text
