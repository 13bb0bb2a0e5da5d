import Mathlib.Data.List.Chain
import LuaGlue.Generate
import LuaGlue.Proofs.Token.Layout

namespace LuaGlue.Token

/-- Every text is read to its end. It consists of the tokens that are read, of gaps around them, and
of a tail, which is empty or a comment that is not closed. Each token stands before what follows it:
it is one punctuation character, or a word that cannot be longer, and no comment starts with it. A
tail that is not empty is recorded, once. -/
theorem exists_layout_of_lex (source : String) :
    ∃ (l : Layout) (tail : List Char),
      source.toList = l.chars ++ tail ∧ (lex source).tokens = l.tokens ∧
      StandBefore tail l.parts ∧
      (tail = [] ∨ ∃ body, tail = '/' :: '*' :: body ∧ ¬ ['*', '/'] <:+: body) ∧
      (lex source).records = if tail = [] then [] else [.unclosedComment] := by
  obtain ⟨l, tail, hchars, hparts, htokens, htail⟩ := exists_layout source.toList
  refine ⟨l, tail, hchars, htokens, hparts, ?_⟩
  rw [Lexed.records, lex]
  generalize (lexChars source.toList).unclosed = unclosed at htail
  cases htail with
  | nothing => exact ⟨.inl rfl, rfl⟩
  | comment body hbody => exact ⟨.inr ⟨body, rfl, hbody⟩, rfl⟩

/-- Empty, or with a blank at the front. -/
def Gap.StartsBlank : Gap → Prop
  | [] => True
  | .blank .. :: _ => True
  | .comment .. :: _ => False

/-- Two tokens that are read as something else if nothing stands between them: two words are one
word, and a slash before a star opens a comment. -/
def Merge : Token → Token → Prop
  | word _, word _ => True
  | word w, punct c => w = "/" ∧ c = '*'
  | punct _, _ => False

namespace Layout

/-- A layout in which no gap is in the way of a token. A comment cannot touch a word before it, since
it would become part of the word. -/
structure Admissible (l : Layout) : Prop where
  lexable : ∀ part ∈ l.parts, part.1.Lexable
  behind_word : ∀ part ∈ l.parts, ∀ w, part.1 = .word w → Gap.StartsBlank part.2
  apart : l.parts.IsChain fun first second => Merge first.1 second.1 → first.2 ≠ []

/-- Behind a word stands no character that could belong to it, and behind a lone slash no star. -/
private theorem head?_behind_word {w : String} {gap : Gap} {rest : List (Token × Gap)}
    (hgap : Gap.StartsBlank gap) (hlexable : ∀ part ∈ rest, part.1.Lexable)
    (hapart : ∀ part ∈ rest.head?, Merge (.word w) part.1 → gap ≠ []) :
    ∀ c ∈ (Gap.chars gap ++ spell rest).head?, isWordChar c = false ∧ (w = "/" → c ≠ '*') := by
  intro c hc
  cases gap with
  | cons part gap =>
    cases part with
    | blank b hblank =>
      obtain rfl : b = c := Option.some.inj hc
      refine ⟨by simp [isWordChar, hblank], ?_⟩
      rintro - rfl
      cases hblank
    | comment body hclose => exact hgap.elim
  | nil =>
    cases rest with
    | nil => cases hc
    | cons part rest =>
      obtain ⟨t, gap⟩ := part
      have hmerge : ¬ Merge (.word w) t := fun h => hapart _ rfl h rfl
      have ht : t.Lexable := hlexable _ List.mem_cons_self
      cases t with
      | word v => exact absurd trivial hmerge
      | punct p =>
        obtain rfl : p = c := by simpa [Gap.chars, spell, text] using hc
        have hpunct : isPunct p = true := ht
        exact ⟨by simp [isWordChar, hpunct], fun hslash hstar => hmerge ⟨hslash, hstar⟩⟩

theorem Admissible.standBefore {l : Layout} (h : l.Admissible) : StandBefore [] l.parts := by
  obtain ⟨front, parts⟩ := l
  obtain ⟨hlexable, hword, hapart⟩ := h
  induction parts with
  | nil => trivial
  | cons part rest ih =>
    obtain ⟨t, gap⟩ := part
    have hrest : ∀ part ∈ rest, part.1.Lexable :=
      fun part hpart => hlexable part (List.mem_cons_of_mem _ hpart)
    have hwords : ∀ part ∈ rest, ∀ w, part.1 = .word w → Gap.StartsBlank part.2 :=
      fun part hpart => hword part (List.mem_cons_of_mem _ hpart)
    have ht : t.Lexable := hlexable _ List.mem_cons_self
    rw [List.isChain_cons] at hapart
    refine ⟨?_, ih hrest hwords hapart.2⟩
    rw [List.append_nil]
    cases t with
    | punct p => exact .punct ht _
    | word w =>
      exact .word ht (head?_behind_word (hword _ List.mem_cons_self w rfl) hrest hapart.1)

/-- An admissible layout is read as its tokens, and no comment is left open. -/
theorem Admissible.lex_eq {l : Layout} (h : l.Admissible) : lex l.source = ⟨l.tokens, false⟩ := by
  have hskip : skipGap? [] = some [] := by rw [skipGap?]
  have hchars := lexChars_append h.standBefore
  rw [List.append_nil, lexChars_of_eq_nil hskip, List.append_nil] at hchars
  rw [lex, source, String.toList_ofList, hchars]

end Layout

end Token

open Token

/-- Nothing of a text reaches a listener but its tokens and whether a comment is left open. -/
theorem Listener.run_congr {σ : Type} (hear : Listener σ) (s : σ) {first second : String}
    (h : lex first = lex second) : hear.run s first = hear.run s second := by
  simp only [Listener.run, Hearing.feedText, h]

/-- Reading undoes every admissible layout, whatever its gaps are. So a listener and the generated
text are the same for all admissible layouts of the same tokens. -/
theorem lex_admissible_layout {l : Layout} (h : l.Admissible) :
    (lex l.source).tokens = l.tokens ∧ (lex l.source).unclosed = false ∧
    ∀ other : Layout, other.Admissible → other.tokens = l.tokens →
      (∀ (σ : Type) (hear : Listener σ) (s : σ),
        hear.run s other.source = hear.run s l.source) ∧
      ∀ settings sink, generate settings sink other.source = generate settings sink l.source := by
  rw [h.lex_eq]
  refine ⟨rfl, rfl, fun other hother htokens => ?_⟩
  have hsame : lex other.source = lex l.source := by rw [hother.lex_eq, h.lex_eq, htokens]
  refine ⟨fun σ hear s => hear.run_congr s hsame, fun settings sink => ?_⟩
  simp only [generate, Listener.run_congr _ _ hsame]

/-- Comments may touch punctuation but not the word before them. A star behind a lone slash needs a
gap, a slash at the end of a longer word does not. -/
theorem lex_admissible_layout_slashes :
    ∃ l : Layout, l.Admissible ∧ l.source = "/***/a/*\x07/*x*/ / */*/*/" ∧
      (lex l.source).tokens = [.word "a/", .punct '*', .word "/", .punct '*'] := by
  let l : Layout :=
    { front := [.comment ['*'] (by decide)]
      parts :=
        [(.word "a/", []),
         (.punct '*', [.blank '\x07' rfl, .comment ['x'] (by decide), .blank ' ' rfl]),
         (.word "/", [.blank ' ' rfl]),
         (.punct '*', [.comment ['/'] (by decide)])] }
  have hadmissible : l.Admissible := by
    refine ⟨?_, ?_, ?_⟩
    · decide
    · simp [l, Gap.StartsBlank]
    · simp [l, Merge]
  exact ⟨l, hadmissible, by decide, (lex_admissible_layout hadmissible).1⟩

end LuaGlue
