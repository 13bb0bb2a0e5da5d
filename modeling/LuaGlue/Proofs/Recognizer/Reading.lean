import LuaGlue.Listener

namespace LuaGlue

namespace Recognizer

/-- All the tokens are taken, they tell these events, none of which is refused, and the recognizer
is the last one behind them. -/
inductive Reads : Recognizer → List Token → List Event → Recognizer → Prop where
  | nil (r : Recognizer) : Reads r [] [] r
  | next {r after last : Recognizer} {t : Token} {ts : List Token} {es : List Event}
      (hstep : r.step t = .next after) (hrest : Reads after ts es last) : Reads r (t :: ts) es last
  | tell {r after refused last : Recognizer} {t : Token} {ts : List Token} {e : Event}
      {es : List Event} (hstep : r.step t = .tell e after refused)
      (hrest : Reads after ts es last) : Reads r (t :: ts) (e :: es) last

namespace Reads

theorem append {r middle last : Recognizer} {ts us : List Token} {es fs : List Event}
    (hfirst : Reads r ts es middle) (hsecond : Reads middle us fs last) :
    Reads r (ts ++ us) (es ++ fs) last := by
  induction hfirst with
  | nil => exact hsecond
  | next hstep _ ih => exact .next hstep (ih hsecond)
  | tell hstep _ ih => exact .tell hstep (ih hsecond)

end Reads

end Recognizer

namespace Listener

variable {σ : Type} (hear : Listener σ)

/-- Hears events in order, up to the first one that is refused. -/
def hearAll (state : σ) : List Event → Outcome σ
  | [] => ⟨state, [], none⟩
  | event :: rest => (hear state event).andThen fun state => hearAll state rest

/-- A listener that refuses no event. -/
def Accepting : Prop :=
  ∀ state event, (hear state event).error = none

theorem hearAll_append (state : σ) (first second : List Event) :
    hear.hearAll state (first ++ second) =
      (hear.hearAll state first).andThen fun state => hear.hearAll state second := by
  induction first generalizing state with
  | nil => rw [List.nil_append, hearAll, Outcome.andThen_of_error_eq_none rfl]; rfl
  | cons event first ih =>
    rw [List.cons_append, hearAll, hearAll, Outcome.andThen_assoc]
    congr 1
    funext state
    exact ih state

variable {hear}

theorem Accepting.error_hearAll (haccepting : hear.Accepting) (state : σ) (events : List Event) :
    (hear.hearAll state events).error = none := by
  induction events generalizing state with
  | nil => rfl
  | cons event events ih =>
    rw [hearAll, Outcome.error_andThen_eq_none_iff]
    exact ⟨haccepting state event, ih _⟩

/-- Without a refusal every event is heard. -/
theorem Accepting.state_hearAll (haccepting : hear.Accepting) (state : σ) (events : List Event) :
    (hear.hearAll state events).state =
      events.foldl (fun state event => (hear state event).state) state := by
  induction events generalizing state with
  | nil => rfl
  | cons event events ih =>
    rw [hearAll, Outcome.andThen_of_error_eq_none (haccepting state event), List.foldl_cons]
    exact ih _

end Listener

namespace Hearing

variable {σ : Type} (hear : Listener σ)

/-- Feeding the tokens of a run does to a listener what hearing its events does, and it stops with
the first refusal. -/
theorem feedAll_of_reads {r last : Recognizer} {tokens : List Token} {events : List Event}
    (h : r.Reads tokens events last) (s : σ) :
    (Hearing.feedAll hear ⟨r, s⟩ tokens).error = (hear.hearAll s events).error ∧
    (Hearing.feedAll hear ⟨r, s⟩ tokens).state.listener = (hear.hearAll s events).state ∧
    ((hear.hearAll s events).error = none →
      (Hearing.feedAll hear ⟨r, s⟩ tokens).state.recognizer = last) := by
  induction h generalizing s with
  | nil => exact ⟨rfl, rfl, fun _ => rfl⟩
  | next hstep _ ih =>
    rw [feedAll, feed_of_next hstep, Outcome.andThen_of_error_eq_none rfl]
    exact ih s
  | @tell r after refused last t ts e es hstep _ ih =>
    rw [feedAll, feed_of_tell hstep, Listener.hearAll]
    cases herror : (hear s e).error with
    | some error =>
      rw [Outcome.andThen_of_error rfl, Outcome.andThen_of_error herror]
      exact ⟨herror.symm, rfl, fun hnone => by simp [herror] at hnone⟩
    | none =>
      rw [Outcome.andThen_of_error_eq_none rfl, Outcome.andThen_of_error_eq_none herror]
      exact ih (hear s e).state

/-- A run that ends between two classes also ends a description. -/
theorem finish_of_reads {r last : Recognizer} {tokens : List Token} {events : List Event}
    (h : r.Reads tokens events last) (hlast : last.place = .outside) (s : σ) :
    ((Hearing.feedAll hear ⟨r, s⟩ tokens).andThen Hearing.finish).error =
      (hear.hearAll s events).error ∧
    ((Hearing.feedAll hear ⟨r, s⟩ tokens).andThen Hearing.finish).state.listener =
      (hear.hearAll s events).state := by
  obtain ⟨herror, hstate, hrecognizer⟩ := feedAll_of_reads hear h s
  cases hheard : (hear.hearAll s events).error with
  | some error =>
    rw [hheard] at herror
    rw [Outcome.andThen_of_error herror]
    exact ⟨herror, hstate⟩
  | none =>
    rw [hheard] at herror
    rw [Outcome.andThen_of_error_eq_none herror]
    refine ⟨Recognizer.finish?_eq_none_iff.2 ?_, hstate⟩
    rw [hrecognizer hheard, hlast]

/-- Without an error all tokens were taken. -/
theorem exists_reads_of_feedAll {r : Recognizer} {s : σ} {tokens : List Token}
    (h : (Hearing.feedAll hear ⟨r, s⟩ tokens).error = none) :
    ∃ events, r.Reads tokens events (Hearing.feedAll hear ⟨r, s⟩ tokens).state.recognizer := by
  induction tokens generalizing r s with
  | nil => exact ⟨[], .nil r⟩
  | cons t ts ih =>
    rw [feedAll, Outcome.error_andThen_eq_none_iff] at h
    obtain ⟨hfeed, hrest⟩ := h
    rw [feedAll, Outcome.andThen_of_error_eq_none hfeed]
    cases hstep : r.step t with
    | next after =>
      rw [feed_of_next hstep] at hrest ⊢
      obtain ⟨events, hreads⟩ := ih hrest
      exact ⟨events, .next hstep hreads⟩
    | tell event after refused =>
      have hnone : (hear s event).error = none := by
        rw [feed_of_tell hstep] at hfeed
        exact hfeed
      rw [feed_of_tell hstep] at hrest ⊢
      simp only [hnone, Option.isSome_none, Bool.false_eq_true, if_false] at hrest ⊢
      obtain ⟨events, hreads⟩ := ih hrest
      exact ⟨event :: events, .tell hstep hreads⟩
    | reject error =>
      rw [feed_of_reject hstep] at hfeed
      cases hfeed

end Hearing

end LuaGlue
