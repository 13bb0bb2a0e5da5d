import LuaGlue.Proofs.Grammar.Acceptance

namespace LuaGlue

namespace Recognizer

/-- Tokens that end a description where it breaks off. Behind `static` a method has to be declared
before the class may end. -/
def completion (r : Recognizer) : List Token :=
  match r.place with
  | .outside => []
  | .className => [.word "C", .punct '{', .punct '}']
  | .classHead => [.punct '{', .punct '}']
  | .nativeName => [.word "C", .punct ']', .punct '{', .punct '}']
  | .nativeNameEnd => [.punct ']', .punct '{', .punct '}']
  | .memberType =>
    if r.signature.isStatic then [.word "void", .word "f", .punct '(', .punct ')', .punct '}']
    else [.punct '}']
  | .memberName => [.word "f", .punct '(', .punct ')', .punct '}']
  | .paramsOpen => [.punct '(', .punct ')', .punct '}']
  | .param | .paramEnd => [.punct ')', .punct '}']

/-- All the tokens are taken if nothing is refused, and they lead to the end of a description. -/
def Completes (r : Recognizer) (tokens : List Token) : Prop :=
  ∃ events last, r.Reads tokens events last ∧ last.place = .outside

variable {r after refused : Recognizer} {t : Token} {ts : List Token} {event : Event}

theorem Completes.next (hstep : r.step t = .next after) (h : after.Completes ts) :
    r.Completes (t :: ts) := by
  obtain ⟨events, last, hreads, hlast⟩ := h
  exact ⟨events, last, .next hstep hreads, hlast⟩

theorem Completes.tell (hstep : r.step t = .tell event after refused) (h : after.Completes ts) :
    r.Completes (t :: ts) := by
  obtain ⟨events, last, hreads, hlast⟩ := h
  exact ⟨event :: events, last, .tell hstep hreads, hlast⟩

private theorem completes_memberType (hplace : r.place = .memberType)
    (hstatic : r.signature.isStatic = false) : r.Completes [.punct '}'] := by
  have hstep : r.step (.punct '}') = .tell .classEnd { r with place := .outside } r := by
    rw [step_memberType hplace, if_pos rfl, hstatic]
    rfl
  exact .tell hstep ⟨[], _, .nil _, rfl⟩

private theorem completes_params (hplace : r.place = .param ∨ r.place = .paramEnd) :
    r.Completes [.punct ')', .punct '}'] := by
  rcases hplace with hplace | hplace
  · exact .tell (step_param hplace _) (completes_memberType rfl rfl)
  · exact .tell (step_paramEnd hplace _) (completes_memberType rfl rfl)

private theorem completes_paramsOpen (hplace : r.place = .paramsOpen) :
    r.Completes [.punct '(', .punct ')', .punct '}'] :=
  .next (step_paramsOpen hplace _) (completes_params (.inl rfl))

private theorem completes_memberName (hplace : r.place = .memberName) :
    r.Completes [.word "f", .punct '(', .punct ')', .punct '}'] :=
  .next (step_memberName hplace _) (completes_paramsOpen rfl)

private theorem completes_classHead (hplace : r.place = .classHead) :
    r.Completes [.punct '{', .punct '}'] :=
  .next (step_classHead hplace _) (completes_memberType rfl rfl)

private theorem completes_nativeNameEnd (hplace : r.place = .nativeNameEnd) :
    r.Completes [.punct ']', .punct '{', .punct '}'] :=
  .next (step_nativeNameEnd hplace _) (completes_classHead rfl)

/-- The completion leads to the end of a description from every place, also from those that no
tokens lead to. -/
theorem completes_completion (r : Recognizer) : r.Completes r.completion := by
  rw [completion]
  cases hplace : r.place with
  | outside => exact ⟨[], r, .nil r, hplace⟩
  | className => exact .tell (step_className hplace _) (completes_classHead rfl)
  | classHead => exact completes_classHead hplace
  | nativeName => exact .tell (step_nativeName hplace _) (completes_nativeNameEnd rfl)
  | nativeNameEnd => exact completes_nativeNameEnd hplace
  | memberType =>
    cases hstatic : r.signature.isStatic with
    | false => exact completes_memberType hplace hstatic
    | true => exact .next (step_memberType hplace _) (completes_memberName rfl)
  | memberName => exact completes_memberName hplace
  | paramsOpen => exact completes_paramsOpen hplace
  | param => exact completes_params (.inl hplace)
  | paramEnd => exact completes_params (.inr hplace)

/-- A rejected token is either unexpected where it stands, or it makes a constructor static. -/
theorem error_of_reject {e : Error} (hstep : r.step t = .reject e) :
    (∃ expected, e = .unexpectedToken r.place t expected) ∨ e = .staticCtor r.className := by
  cases rejects_of_step hstep with
  | staticCtor => exact .inr rfl
  | outside | nativeNameAgain | nativeNameEnd | danglingStatic | paramsOpen => exact .inl ⟨_, rfl⟩

end Recognizer

namespace Hearing

open Grammar

variable {σ : Type} (hear : Listener σ)

/-- The tokens are taken, and the description may end behind them. -/
def Accepts (h : Hearing σ) (tokens : List Token) : Prop :=
  ((h.feedAll hear tokens).andThen finish).error = none

theorem error_feedAll_singleton (h : Hearing σ) (token : Token) :
    (h.feedAll hear [token]).error = (h.feed hear token).error :=
  ((h.feed hear token).andThen_records []).2

variable {hear} {h : Hearing σ} {token : Token}

theorem accepts_append_iff {first second : List Token} :
    h.Accepts hear (first ++ second) ↔
      (h.feedAll hear first).error = none ∧ (h.feedAll hear first).state.Accepts hear second := by
  rw [Accepts, feedAll_append, Outcome.andThen_assoc, Outcome.error_andThen_eq_none_iff]
  rfl

theorem accepts_completion (haccepting : hear.Accepting) (h : Hearing σ) :
    h.Accepts hear h.recognizer.completion := by
  obtain ⟨events, last, hreads, hlast⟩ := h.recognizer.completes_completion
  obtain ⟨herror, -⟩ := finish_of_reads hear hreads hlast h.listener
  exact herror.trans (haccepting.error_hearAll h.listener events)

/-- If a listener refuses nothing, the tokens that are taken are those that can be completed. -/
theorem error_feedAll_eq_none_iff (haccepting : hear.Accepting) (h : Hearing σ)
    (tokens : List Token) :
    (h.feedAll hear tokens).error = none ↔ ∃ more, h.Accepts hear (tokens ++ more) := by
  constructor
  · intro hfed
    exact ⟨_, accepts_append_iff.2 ⟨hfed, accepts_completion haccepting _⟩⟩
  · rintro ⟨more, hmore⟩
    exact (accepts_append_iff.1 hmore).1

theorem error_of_feed (haccepting : hear.Accepting) {e : Error}
    (herror : (h.feed hear token).error = some e) :
    (∃ place expected, e = .unexpectedToken place token expected) ∨
      ∃ wrapper, e = .staticCtor wrapper := by
  cases hstep : h.recognizer.step token with
  | next after =>
    rw [feed_of_next hstep] at herror
    cases herror
  | tell event accepted refused =>
    rw [feed_of_tell hstep, haccepting] at herror
    cases herror
  | reject error =>
    rw [feed_of_reject hstep] at herror
    cases herror
    rcases Recognizer.error_of_reject hstep with ⟨expected, rfl⟩ | rfl
    · exact .inl ⟨_, expected, rfl⟩
    · exact .inr ⟨_, rfl⟩

/-- The tokens that are taken are the beginnings of descriptions. -/
theorem error_feedAll_eq_none_iff_isPrefix (haccepting : hear.Accepting) (s : σ)
    (tokens : List Token) :
    (feedAll hear ⟨{}, s⟩ tokens).error = none ↔
      ∃ classes : List ClassDecl, tokens <+: classes.flatMap ClassDecl.tokens := by
  rw [error_feedAll_eq_none_iff haccepting]
  constructor
  · rintro ⟨more, hmore⟩
    obtain ⟨hfed, hfinish⟩ := Outcome.error_andThen_eq_none_iff.1 hmore
    obtain ⟨events, hreads⟩ := exists_reads_of_feedAll hear hfed
    obtain ⟨classes, hclasses⟩ := Follows.of_reads hreads (Recognizer.finish?_eq_none_iff.1 hfinish)
    exact ⟨classes, more, hclasses⟩
  · rintro ⟨classes, more, hclasses⟩
    obtain ⟨last, hlast, hreads⟩ := reads_classes (r := {}) classes rfl
    obtain ⟨herror, -⟩ := finish_of_reads hear hreads hlast s
    rw [← hclasses] at herror
    exact ⟨more, herror.trans (haccepting.error_hearAll s _)⟩

/-- Whatever a listener does that refuses nothing: a recognizer is never stuck, and it rejects a
token as early as it can. As long as all tokens are taken, some more of them end the description.
The first token that is rejected cannot be followed by anything that makes a description of it,
whereas everything before it can. So the tokens are taken exactly if they begin a description. -/
theorem first_rejection_earliest (haccepting : hear.Accepting) (s : σ) (tokens : List Token) :
    ((feedAll hear ⟨{}, s⟩ tokens).error = none →
      ∃ more, Accepts hear ⟨{}, s⟩ (tokens ++ more)) ∧
    (∀ k e, (hk : k < tokens.length) →
      (feedAll hear ⟨{}, s⟩ (tokens.take k)).error = none →
      (feedAll hear ⟨{}, s⟩ (tokens.take (k + 1))).error = some e →
      ((∃ place expected, e = .unexpectedToken place tokens[k] expected) ∨
        ∃ wrapper, e = .staticCtor wrapper) ∧
      (∃ more, Accepts hear ⟨{}, s⟩ (tokens.take k ++ more)) ∧
      ∀ more, ¬ Accepts hear ⟨{}, s⟩ (tokens.take (k + 1) ++ more)) ∧
    ((feedAll hear ⟨{}, s⟩ tokens).error = none ↔
      ∃ classes : List ClassDecl, tokens <+: classes.flatMap ClassDecl.tokens) := by
  refine ⟨(error_feedAll_eq_none_iff haccepting _ _).1, fun k e hk hbefore herror => ?_,
    error_feedAll_eq_none_iff_isPrefix haccepting s tokens⟩
  refine ⟨?_, (error_feedAll_eq_none_iff haccepting _ _).1 hbefore, fun more hmore => ?_⟩
  · rw [List.take_succ_eq_append_getElem hk, feedAll_append,
      Outcome.andThen_of_error_eq_none hbefore] at herror
    exact error_of_feed haccepting ((error_feedAll_singleton hear _ _).symm.trans herror)
  · rw [(accepts_append_iff.1 hmore).1] at herror
    cases herror

/-- Behind `static` a class may not end, but a method may follow. -/
theorem first_rejection_earliest_dangling_static :
    (Listener.recorder []).Accepting ∧
    (feedAll (Listener.recorder []) ⟨{}, []⟩
      [.word "class", .word "A", .punct '[', .word "B", .punct ']', .punct '{', .word "static",
        .punct '}']).error = some (.unexpectedToken .memberType (.punct '}') .returnType) ∧
    (∃ more, Accepts (Listener.recorder []) ⟨{}, []⟩
      ([.word "class", .word "A", .punct '[', .word "B", .punct ']', .punct '{',
        .word "static"] ++ more)) ∧
    ∀ more, ¬ Accepts (Listener.recorder []) ⟨{}, []⟩
      ([.word "class", .word "A", .punct '[', .word "B", .punct ']', .punct '{', .word "static",
        .punct '}'] ++ more) := by
  have haccepting : (Listener.recorder []).Accepting := fun _ _ => rfl
  have herror : (feedAll (Listener.recorder []) ⟨{}, []⟩
      [.word "class", .word "A", .punct '[', .word "B", .punct ']', .punct '{', .word "static",
        .punct '}']).error = some (.unexpectedToken .memberType (.punct '}') .returnType) := by
    decide
  obtain ⟨-, hrejected, -⟩ := first_rejection_earliest haccepting []
    [.word "class", .word "A", .punct '[', .word "B", .punct ']', .punct '{', .word "static",
      .punct '}']
  obtain ⟨-, hbefore, hbehind⟩ := hrejected 7 _ (by decide) (by decide) herror
  exact ⟨haccepting, herror, hbefore, hbehind⟩

end Hearing

end LuaGlue
