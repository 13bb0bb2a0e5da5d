import LuaGlue.Proofs.Recognizer.Told

namespace LuaGlue

/-- The same listener, which also keeps the events that it takes. -/
def Listener.noting {σ : Type} (hear : Listener σ) : Listener (σ × List Event) :=
  fun state event =>
    let heard := hear state.1 event
    heard.map fun after => (after, if heard.error.isSome then state.2 else state.2 ++ [event])

namespace Hearing

variable {σ : Type} (hear : Listener σ)

/-- Feeds tokens one after another, errors passed over: the next token is fed to what an error has
left. -/
def persist (h : Hearing σ) (tokens : List Token) : Hearing σ :=
  tokens.foldl (fun h token => (h.feed hear token).state) h

/-- The events that a listener takes while tokens are fed, errors passed over. -/
def taken (h : Hearing σ) (tokens : List Token) : List Event :=
  (persist hear.noting ⟨h.recognizer, (h.listener, [])⟩ tokens).listener.2

/-- The event of a token, if the listener takes it. -/
def taken? (h : Hearing σ) (token : Token) : Option Event :=
  (h.recognizer.step token).event?.filter fun event => (hear h.listener event).error.isNone

section Taken

variable {h : Hearing σ} {token : Token}

theorem taken?_of_next {after : Recognizer} (hstep : h.recognizer.step token = .next after) :
    h.taken? hear token = none := by
  rw [taken?, hstep]
  rfl

theorem taken?_of_tell {event : Event} {accepted refused : Recognizer}
    (hstep : h.recognizer.step token = .tell event accepted refused) :
    h.taken? hear token =
      if (hear h.listener event).error.isSome then none else some event := by
  rw [taken?, hstep]
  cases herror : (hear h.listener event).error <;> simp [Step.event?, Option.filter, herror]

theorem taken?_of_reject {error : Error} (hstep : h.recognizer.step token = .reject error) :
    h.taken? hear token = none := by
  rw [taken?, hstep]
  rfl

end Taken

theorem persist_cons (h : Hearing σ) (token : Token) (rest : List Token) :
    h.persist hear (token :: rest) = (h.feed hear token).state.persist hear rest :=
  rfl

theorem persist_append (h : Hearing σ) (first second : List Token) :
    h.persist hear (first ++ second) = (h.persist hear first).persist hear second :=
  List.foldl_append

private theorem feed_noting (r : Recognizer) (s : σ) (notes : List Event) (token : Token) :
    (feed hear.noting ⟨r, (s, notes)⟩ token).state =
      ⟨(feed hear ⟨r, s⟩ token).state.recognizer,
        ((feed hear ⟨r, s⟩ token).state.listener, notes ++ (taken? hear ⟨r, s⟩ token).toList)⟩ := by
  cases hstep : r.step token with
  | next after =>
    rw [feed_of_next hstep, feed_of_next hstep, taken?_of_next hear hstep]
    simp
  | tell event accepted refused =>
    rw [feed_of_tell hstep, feed_of_tell hstep, taken?_of_tell hear hstep]
    cases herror : (hear s event).error <;> simp [Listener.noting, Outcome.map, herror]
  | reject e =>
    rw [feed_of_reject hstep, feed_of_reject hstep, taken?_of_reject hear hstep]
    simp

/-- A listener that keeps what it takes is told the same as before, and answers the same. -/
theorem persist_noting (r : Recognizer) (s : σ) (notes : List Event) (tokens : List Token) :
    persist hear.noting ⟨r, (s, notes)⟩ tokens =
      ⟨(persist hear ⟨r, s⟩ tokens).recognizer,
        ((persist hear ⟨r, s⟩ tokens).listener, notes ++ taken hear ⟨r, s⟩ tokens)⟩ := by
  induction tokens generalizing r s notes with
  | nil => rw [taken]; simp [persist]
  | cons token rest ih =>
    have htaken : taken hear ⟨r, s⟩ (token :: rest) = (taken? hear ⟨r, s⟩ token).toList ++
        (feed hear ⟨r, s⟩ token).state.taken hear rest := by
      rw [taken, persist_cons, feed_noting, ih, List.nil_append]
    rw [persist_cons, persist_cons, feed_noting, ih, htaken, List.append_assoc]

theorem taken_nil (h : Hearing σ) : h.taken hear [] = [] :=
  rfl

theorem taken_cons (h : Hearing σ) (token : Token) (rest : List Token) :
    h.taken hear (token :: rest) =
      (h.taken? hear token).toList ++ (h.feed hear token).state.taken hear rest := by
  rw [taken, persist_cons, feed_noting, persist_noting, List.nil_append]

theorem taken_singleton (h : Hearing σ) (token : Token) :
    h.taken hear [token] = (h.taken? hear token).toList := by
  rw [taken_cons]
  exact List.append_nil _

theorem taken_append (h : Hearing σ) (first second : List Token) :
    h.taken hear (first ++ second) =
      h.taken hear first ++ (h.persist hear first).taken hear second := by
  induction first generalizing h with
  | nil => rfl
  | cons token first ih =>
    rw [List.cons_append, taken_cons, taken_cons, persist_cons, ih, List.append_assoc]

end Hearing

end LuaGlue
