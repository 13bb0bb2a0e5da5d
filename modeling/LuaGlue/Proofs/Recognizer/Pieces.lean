import LuaGlue.Proofs.Recognizer.Told
import LuaGlue.Proofs.Token.Border

namespace LuaGlue.Hearing

open Token

variable {σ : Type} {hear : Listener σ} {first second : String}

/-- What is told of tokens behind others depends on those only by where they lead, and nothing is
told behind an error. -/
theorem told_append (h : Hearing σ) (first second : List Token) :
    h.told hear (first ++ second) =
      h.told hear first ++
        if (h.feedAll hear first).error.isSome then []
        else (h.feedAll hear first).state.told hear second := by
  induction first generalizing h with
  | nil => rfl
  | cons token first ih =>
    rw [List.cons_append, feedAll]
    cases hfed : (h.feed hear token).error with
    | some e =>
      rw [told_of_error hfed, told_of_error hfed, Outcome.andThen_of_error hfed, hfed,
        Option.isSome_some, if_pos rfl, List.append_nil]
    | none =>
      rw [told_of_error_eq_none hfed, told_of_error_eq_none hfed, ih,
        Outcome.andThen_of_error_eq_none hfed, List.append_assoc]

/-- Behind its tokens, a text without an open comment leaves nothing. -/
theorem feedText_of_closed (hclosed : ¬ EndsInComment first) (h : Hearing σ) :
    h.feedText hear first = h.feedAll hear (lex first).tokens := by
  rw [← unclosed_iff_endsInComment, Bool.not_eq_true] at hclosed
  have hrecords : (lex first).records = [] := by
    rw [Lexed.records, hclosed]
    rfl
  rw [feedText, hrecords]
  exact Outcome.andThen_nothing _

theorem feedText_append (hclosed : ¬ EndsInComment first) (hborder : Border first second)
    (h : Hearing σ) :
    h.feedText hear (first ++ second) =
      (h.feedText hear first).andThen fun h => h.feedText hear second := by
  rw [feedText_of_closed hclosed, feedText, hborder.lex_append hclosed, feedAll_append,
    Outcome.andThen_assoc]
  rfl

/-- Reading a text in two pieces is reading it as a whole, unless the first piece ends inside a
comment or something leads over the border. The tokens of the pieces follow one another. So every
recognizer, wherever it is, and every listener go through the same states, are told the same events
and stop at the same error. -/
theorem feed_in_pieces (hclosed : ¬ EndsInComment first) (hborder : Border first second) :
    (lex (first ++ second)).tokens = (lex first).tokens ++ (lex second).tokens ∧
    (lex (first ++ second)).unclosed = (lex second).unclosed ∧
    ∀ (σ : Type) (hear : Listener σ) (h : Hearing σ),
      h.feedText hear (first ++ second) =
        ((h.feedText hear first).andThen fun h => h.feedText hear second) ∧
      (∀ k, h.feedAll hear ((lex (first ++ second)).tokens.take k) =
        (h.feedAll hear ((lex first).tokens.take k)).andThen fun h =>
          h.feedAll hear ((lex second).tokens.take (k - (lex first).tokens.length))) ∧
      h.told hear (lex (first ++ second)).tokens =
        h.told hear (lex first).tokens ++
          if (h.feedText hear first).error.isSome then []
          else (h.feedText hear first).state.told hear (lex second).tokens := by
  have hlex := hborder.lex_append hclosed
  refine ⟨by rw [hlex], by rw [hlex], fun σ hear h =>
    ⟨feedText_append hclosed hborder h, fun k => ?_, ?_⟩⟩
  · rw [hlex, List.take_append, feedAll_append]
  · rw [hlex, told_append, feedText_of_closed hclosed]

/-- The border is right behind a comment whose body is a star, and a star comes next. -/
theorem feed_in_pieces_comment :
    ¬ EndsInComment "class A\x7bint /***/" ∧ Border "class A\x7bint /***/" "*f()\x7d" ∧
    (lex ("class A\x7bint /***/" ++ "*f()\x7d")).tokens =
      [.word "class", .word "A", .punct '{', .word "int", .punct '*', .word "f", .punct '(',
        .punct ')', .punct '}'] ∧
    told (Listener.recorder [1]) ⟨{}, []⟩ (lex ("class A\x7bint /***/" ++ "*f()\x7d")).tokens =
      [.classStart "A", .method { returns := "int*", name := "f" }] := by
  have hclosed : ¬ EndsInComment "class A\x7bint /***/" := by
    rw [← unclosed_iff_endsInComment]
    decide +kernel
  have hborder : Border "class A\x7bint /***/" "*f()\x7d" := by
    let parts : List (Token × Gap) :=
      [(.word "class", [.blank ' ' rfl]), (.word "A", []), (.punct '{', []),
        (.word "int", [.blank ' ' rfl])]
    refine .behindComment ⟨⟨[], parts⟩, ['*'], by decide, ⟨?_, ?_, ?_, ?_, trivial⟩, by decide⟩
    · exact .word (by decide) fun c hc => by cases hc; decide
    · exact .word (by decide) fun c hc => by cases hc; decide
    · exact .punct (by decide) _
    · exact .word (by decide) fun c hc => by cases hc; decide
  obtain ⟨htokens, -, hfed⟩ := feed_in_pieces hclosed hborder
  obtain ⟨-, -, htold⟩ := hfed _ (Listener.recorder [1]) ⟨{}, []⟩
  exact ⟨hclosed, hborder, htokens.trans (by decide +kernel), htold.trans (by decide +kernel)⟩

end LuaGlue.Hearing
