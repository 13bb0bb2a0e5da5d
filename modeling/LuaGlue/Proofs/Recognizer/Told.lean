import LuaGlue.Proofs.Recognizer.Reading

namespace LuaGlue

def Step.event? : Step → Option Event
  | .next _ => none
  | .tell event _ _ => some event
  | .reject _ => none

/-- Does the event declare a constructor or a method? -/
def Event.isDeclaration : Event → Bool
  | .method _ | .ctor _ => true
  | .classStart _ | .nativeName _ | .classEnd => false

theorem Signature.isDeclaration_event (s : Signature) : s.event.isDeclaration = true := by
  unfold Signature.event
  split <;> rfl

namespace Hearing

variable {σ : Type} (hear : Listener σ)

/-- The events a listener is told, in order, up to and with the first one it refuses. Nothing is
told behind an error. -/
def told (h : Hearing σ) : List Token → List Event
  | [] => []
  | token :: rest =>
    (h.recognizer.step token).event?.toList ++
      if (h.feed hear token).error.isSome then [] else told (h.feed hear token).state rest

section Step

variable {hear} {h : Hearing σ} {token : Token}

theorem told_of_error {e : Error} (hfed : (h.feed hear token).error = some e)
    (rest : List Token) :
    h.told hear (token :: rest) = (h.recognizer.step token).event?.toList := by
  rw [told, hfed, Option.isSome_some, if_pos rfl, List.append_nil]

theorem told_of_error_eq_none (hfed : (h.feed hear token).error = none) (rest : List Token) :
    h.told hear (token :: rest) =
      (h.recognizer.step token).event?.toList ++ (h.feed hear token).state.told hear rest := by
  rw [told, hfed, Option.isSome_none, if_neg Bool.false_ne_true]

end Step

theorem mem_told_of_step {h : Hearing σ} {token : Token} {event : Event}
    (hevent : (h.recognizer.step token).event? = some event) (rest : List Token) :
    event ∈ h.told hear (token :: rest) := by
  rw [told, hevent]
  exact List.mem_append_left _ List.mem_cons_self

theorem mem_told_of_rest {h : Hearing σ} {token : Token} {rest : List Token} {event : Event}
    (hfed : (h.feed hear token).error = none)
    (hevent : event ∈ (h.feed hear token).state.told hear rest) :
    event ∈ h.told hear (token :: rest) := by
  rw [told_of_error_eq_none hfed]
  exact List.mem_append_right _ hevent

theorem feedAll_append (h : Hearing σ) (first second : List Token) :
    h.feedAll hear (first ++ second) =
      (h.feedAll hear first).andThen fun h => h.feedAll hear second := by
  induction first generalizing h with
  | nil => rw [List.nil_append, feedAll, Outcome.andThen_of_error_eq_none rfl]; rfl
  | cons token first ih =>
    rw [List.cons_append, feedAll, feedAll, Outcome.andThen_assoc]
    congr 1
    funext h
    exact ih h

/-- The end of a description changes nothing, and may only be the first error. -/
theorem andThen_finish (outcome : Outcome (Hearing σ)) :
    (outcome.andThen finish).error = outcome.error.or outcome.state.recognizer.finish? ∧
    (outcome.andThen finish).state = outcome.state := by
  cases herror : outcome.error with
  | some e =>
    rw [Outcome.andThen_of_error herror]
    exact ⟨herror, rfl⟩
  | none =>
    rw [Outcome.andThen_of_error_eq_none herror]
    exact ⟨rfl, rfl⟩

/-- A listener that takes all events of a run is told all of them. -/
theorem told_of_reads {r last : Recognizer} {tokens : List Token} {events : List Event}
    (h : r.Reads tokens events last) {s : σ} (hheard : (hear.hearAll s events).error = none) :
    (⟨r, s⟩ : Hearing σ).told hear tokens = events := by
  induction h generalizing s with
  | nil => rfl
  | next hstep _ ih =>
    rw [told, feed_of_next hstep, hstep]
    exact ih hheard
  | tell hstep _ ih =>
    rw [Listener.hearAll, Outcome.error_andThen_eq_none_iff] at hheard
    obtain ⟨hnone, hrest⟩ := hheard
    rw [told, feed_of_tell hstep, hstep, hnone]
    exact congrArg (_ :: ·) (ih hrest)

end Hearing

/-- The events that a listener is told of a description. -/
def Listener.told {σ : Type} (hear : Listener σ) (state : σ) (source : String) : List Event :=
  Hearing.told hear ⟨{}, state⟩ (Token.lex source).tokens

end LuaGlue
