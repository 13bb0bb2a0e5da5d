import LuaGlue.Proofs.Recognizer.Persistence
import LuaGlue.Proofs.Recognizer.Steps

namespace LuaGlue

/-- What shows of feeding a token: the event it tells, its error, and the place behind it. -/
structure Reply where
  told : Option Event
  error : Option Error
  place : Place
  deriving DecidableEq

/-- Does this token hand over the declaration that is being read? -/
def Recognizer.declares (r : Recognizer) (token : Token) : Bool :=
  (r.step token).event?.any Event.isDeclaration

namespace Hearing

variable {σ : Type} (hear : Listener σ)

def reply (h : Hearing σ) (token : Token) : Reply where
  told := (h.recognizer.step token).event?
  error := (h.feed hear token).error
  place := (h.feed hear token).state.recognizer.place

/-- The replies to some tokens, errors passed over. -/
def replies (h : Hearing σ) : List Token → List Reply
  | [] => []
  | token :: rest => h.reply hear token :: replies (h.feed hear token).state rest

/-- All events that are told while tokens are fed, errors passed over. A refused event is told,
too. -/
def toldAll (h : Hearing σ) (tokens : List Token) : List Event :=
  (h.replies hear tokens).filterMap Reply.told

/-- The tokens that do not fail, errors passed over. -/
def survivors (h : Hearing σ) : List Token → List Token
  | [] => []
  | token :: rest =>
    (if (h.feed hear token).error.isSome then [] else [token]) ++
      survivors (h.feed hear token).state rest

theorem toldAll_cons (h : Hearing σ) (token : Token) (rest : List Token) :
    h.toldAll hear (token :: rest) =
      (h.recognizer.step token).event?.toList ++ (h.feed hear token).state.toldAll hear rest := by
  rw [toldAll, replies, List.filterMap_cons]
  cases htold : (h.recognizer.step token).event? with
  | none => simp only [reply, htold]; rfl
  | some event => simp only [reply, htold]; rfl

variable {hear} {h : Hearing σ} {token : Token} {e : Error}

/-- A token fails since it is rejected, or since its event is refused. Only the declaration is gone
then, and only if it was what is refused. -/
theorem feed_error_cases (herror : (h.feed hear token).error = some e) :
    ((h.recognizer.step token).event? = none ∧ (h.feed hear token).state = h) ∨
    ∃ event, (h.recognizer.step token).event? = some event ∧
      (hear h.listener event).error = some e ∧
      ((event.isDeclaration = false ∧ (h.feed hear token).state.recognizer = h.recognizer) ∨
        (event = h.recognizer.signature.event ∧
          (h.recognizer.place = .param ∨ h.recognizer.place = .paramEnd) ∧
          (h.feed hear token).state.recognizer = { h.recognizer with signature := {} })) := by
  cases hstep : h.recognizer.step token with
  | next after =>
    rw [feed_of_next hstep] at herror
    cases herror
  | reject error =>
    rw [feed_of_reject hstep]
    exact .inl ⟨rfl, rfl⟩
  | tell event accepted refused =>
    rw [feed_of_tell hstep] at herror ⊢
    have hrefused : (hear h.listener event).error = some e := herror
    refine .inr ⟨event, rfl, hrefused, ?_⟩
    simp only [hrefused, Option.isSome_some, if_true]
    cases Recognizer.tells_of_step hstep with
    | classStart | nativeName | classEnd => exact .inl ⟨rfl, rfl⟩
    | declaration hplace => exact .inr ⟨rfl, hplace, rfl⟩

theorem survivors_of_error (herror : (h.feed hear token).error = some e) (rest : List Token) :
    h.survivors hear (token :: rest) = (h.feed hear token).state.survivors hear rest := by
  rw [survivors, herror]
  rfl

theorem survivors_of_error_eq_none (hnone : (h.feed hear token).error = none) (rest : List Token) :
    h.survivors hear (token :: rest) = token :: (h.feed hear token).state.survivors hear rest := by
  rw [survivors, hnone]
  rfl

/-- To a listener that refuses nothing, a token that fails is no token at all. -/
theorem feed_of_accepting (haccepting : hear.Accepting)
    (herror : (h.feed hear token).error = some e) :
    (h.recognizer.step token).event? = none ∧ (h.feed hear token).state = h := by
  rcases feed_error_cases herror with hrejected | ⟨event, -, hrefused, -⟩
  · exact hrejected
  · rw [haccepting] at hrefused
    cases hrefused

theorem session_of_survivors (haccepting : hear.Accepting) (h : Hearing σ) (tokens : List Token) :
    (h.feedAll hear (h.survivors hear tokens)).error = none ∧
    h.persist hear (h.survivors hear tokens) = h.persist hear tokens ∧
    h.toldAll hear (h.survivors hear tokens) = h.toldAll hear tokens := by
  induction tokens generalizing h with
  | nil => exact ⟨rfl, rfl, rfl⟩
  | cons token rest ih =>
    obtain ⟨hfed, hstate, htold⟩ := ih (h.feed hear token).state
    cases herror : (h.feed hear token).error with
    | some e =>
      obtain ⟨hnothing, hsame⟩ := feed_of_accepting haccepting herror
      rw [survivors_of_error herror, persist_cons, toldAll_cons, hnothing]
      rw [hsame] at hfed hstate htold ⊢
      exact ⟨hfed, hstate, htold⟩
    | none =>
      rw [survivors_of_error_eq_none herror, feedAll, Outcome.error_andThen_eq_none_iff,
        persist_cons, persist_cons, toldAll_cons, toldAll_cons, hstate, htold]
      exact ⟨⟨herror, hfed⟩, rfl, rfl⟩

/-- A token that fails leaves the recognizer as it was. Only a declaration that the listener refuses
is gone, while its parameters are still being read. So to a listener that refuses nothing, feeding
tokens with their errors passed over is feeding those that do not fail, and none of them fails then:
the same events are told, and the recognizer and the listener end up the same. -/
theorem failed_tokens_traceless (hear : Listener σ) (h : Hearing σ) :
    (∀ token e, (h.feed hear token).error = some e →
      (h.feed hear token).state.recognizer.place = h.recognizer.place ∧
      (h.feed hear token).state.recognizer.className = h.recognizer.className ∧
      (h.feed hear token).state.recognizer.renamed = h.recognizer.renamed ∧
      (h.recognizer.declares token = false →
        (h.feed hear token).state.recognizer.signature = h.recognizer.signature) ∧
      (h.recognizer.declares token = true →
        (hear h.listener h.recognizer.signature.event).error = some e ∧
        (h.feed hear token).state.recognizer.signature = {} ∧
        (h.recognizer.place = .param ∨ h.recognizer.place = .paramEnd))) ∧
    (hear.Accepting → ∀ tokens,
      (h.feedAll hear (h.survivors hear tokens)).error = none ∧
      h.persist hear (h.survivors hear tokens) = h.persist hear tokens ∧
      h.toldAll hear (h.survivors hear tokens) = h.toldAll hear tokens) := by
  refine ⟨fun token e herror => ?_, fun haccepting => session_of_survivors haccepting h⟩
  rw [Recognizer.declares]
  rcases feed_error_cases herror with ⟨hnothing, hsame⟩ | ⟨event, hevent, hrefused, hcases⟩
  · rw [hnothing, hsame]
    exact ⟨rfl, rfl, rfl, fun _ => rfl, nofun⟩
  rw [hevent, Option.any_some]
  rcases hcases with ⟨hother, hsame⟩ | ⟨rfl, hplace, hafter⟩
  · rw [hother, hsame]
    exact ⟨rfl, rfl, rfl, fun _ => rfl, nofun⟩
  · rw [Signature.isDeclaration_event, hafter]
    exact ⟨rfl, rfl, rfl, nofun, fun _ => ⟨hrefused, rfl, hplace⟩⟩

/-- A method is refused at the end of its parameters, and a class is read on behind a `static` that
nothing may follow, a second native name and a brace too many. -/
theorem failed_tokens_traceless_refused_method :
    (feed (Listener.recorder [0]) ⟨{ place := .paramEnd, signature := { params := ["int"] } }, []⟩
      (.punct ')')).error = some .refused ∧
    (feed (Listener.recorder [0]) ⟨{ place := .paramEnd, signature := { params := ["int"] } }, []⟩
      (.punct ')')).state.recognizer.place = .paramEnd ∧
    (feed (Listener.recorder [0]) ⟨{ place := .paramEnd, signature := { params := ["int"] } }, []⟩
      (.punct ')')).state.recognizer.signature = {} ∧
    toldAll (Listener.recorder []) ⟨{}, []⟩
        [.word "class", .word "A", .punct '[', .word "B", .punct ']', .punct '[', .punct '{',
          .word "static", .punct '}', .word "ctor", .word "int", .word "f", .punct '(',
          .punct ')', .punct '}', .punct '}'] =
      toldAll (Listener.recorder []) ⟨{}, []⟩
        [.word "class", .word "A", .punct '[', .word "B", .punct ']', .punct '{',
          .word "static", .word "int", .word "f", .punct '(', .punct ')', .punct '}'] := by
  have hrefused : (feed (Listener.recorder [0])
      ⟨{ place := .paramEnd, signature := { params := ["int"] } }, []⟩ (.punct ')')).error =
        some .refused := by
    decide
  have haccepting : (Listener.recorder []).Accepting := fun _ _ => rfl
  obtain ⟨hfailed, -⟩ := failed_tokens_traceless (Listener.recorder [0])
    ⟨{ place := .paramEnd, signature := { params := ["int"] } }, []⟩
  obtain ⟨hplace, -, -, -, hgone⟩ := hfailed _ _ hrefused
  obtain ⟨-, hsignature, -⟩ := hgone (by decide)
  obtain ⟨-, hsession⟩ := failed_tokens_traceless (Listener.recorder []) ⟨{}, []⟩
  obtain ⟨-, -, htold⟩ := hsession haccepting
    [.word "class", .word "A", .punct '[', .word "B", .punct ']', .punct '[', .punct '{',
      .word "static", .punct '}', .word "ctor", .word "int", .word "f", .punct '(',
      .punct ')', .punct '}', .punct '}']
  exact ⟨hrefused, hplace, hsignature, htold.symm.trans (by decide)⟩

end Hearing

end LuaGlue
