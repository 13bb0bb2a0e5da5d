import LuaGlue.Listener
import LuaGlue.Sink

namespace LuaGlue

/-- Where the output is in a kind of state. -/
structure OutputView (σ : Type) where
  /-- What has been written. -/
  bytes : σ → ByteArray
  /-- The second state is the first one, but for a limit on its output that has not been
  exceeded. -/
  Limits : Nat → σ → σ → Prop

namespace OutputView

variable {σ : Type} (view : OutputView σ) (n : Nat)

/-- The second outcome is what a limit makes of the first one. It is either the same, also in its
error, or it is the error that the sink is full, and then the output is cut off at the limit. -/
def Cuts (full limited : Outcome σ) : Prop :=
  (view.Limits n full.state limited.state ∧ limited.records = full.records ∧
    limited.error = full.error) ∨
  (n < (view.bytes full.state).size ∧
    view.bytes limited.state = (view.bytes full.state).extract 0 n ∧
    limited.error = some .sinkFull)

/-- An action that streams its output. It only ever appends to what was written, and a limit shows
nowhere but in the output: as long as the limit is not exceeded the action does what it does without
one, and it stops as soon as it is exceeded. -/
structure Streams (action : σ → Outcome σ) : Prop where
  appends : ∀ s, ∃ more, view.bytes (action s).state = view.bytes s ++ more
  cuts : ∀ {s limited}, view.Limits n s limited → view.Cuts n (action s) (action limited)

variable {view n} {action second : σ → Outcome σ}

/-- An action that leaves the state as it is, and decides the rest by something that is the same
under a limit. -/
theorem Streams.of_state_eq (hstate : ∀ s, (action s).state = s)
    (hsame : ∀ {s limited}, view.Limits n s limited →
      (action limited).records = (action s).records ∧
      (action limited).error = (action s).error) :
    view.Streams n action where
  appends s := ⟨.empty, by rw [hstate, ByteArray.append_empty]⟩
  cuts {s limited} h := by
    refine .inl ⟨?_, hsame h⟩
    rw [hstate, hstate]
    exact h

/-- An action may depend on a part of the state that is the same under a limit. -/
theorem Streams.of_part {π : Type} {actions : π → σ → Outcome σ} (part : σ → π)
    (hpart : ∀ {s limited}, view.Limits n s limited → part limited = part s)
    (hactions : ∀ x, view.Streams n (actions x)) :
    view.Streams n fun s => actions (part s) s where
  appends s := (hactions (part s)).appends s
  cuts {s limited} h := by
    rw [hpart h]
    exact (hactions (part s)).cuts h

/-- What was cut off stays cut off, since nothing is written behind an error, and what is appended
without a limit is behind the cut. -/
theorem Streams.andThen (hfirst : view.Streams n action) (hsecond : view.Streams n second) :
    view.Streams n fun s => (action s).andThen second where
  appends s := by
    obtain ⟨more, hmore⟩ := hfirst.appends s
    cases herror : (action s).error with
    | some e =>
      rw [Outcome.andThen_of_error herror]
      exact ⟨more, hmore⟩
    | none =>
      obtain ⟨rest, hrest⟩ := hsecond.appends (action s).state
      rw [Outcome.andThen_of_error_eq_none herror]
      exact ⟨more ++ rest, by rw [hrest, hmore, ByteArray.append_assoc]⟩
  cuts {s limited} h := by
    rcases hfirst.cuts h with ⟨hlimits, hrecords, herror⟩ | ⟨hlt, hbytes, herror⟩
    · cases hfull : (action s).error with
      | some e =>
        rw [Outcome.andThen_of_error hfull, Outcome.andThen_of_error (herror.trans hfull)]
        exact .inl ⟨hlimits, hrecords, herror⟩
      | none =>
        rw [Outcome.andThen_of_error_eq_none hfull,
          Outcome.andThen_of_error_eq_none (herror.trans hfull)]
        rcases hsecond.cuts hlimits with ⟨hlimits', hrecords', herror'⟩ | hcut
        · refine .inl ⟨hlimits', ?_, herror'⟩
          simp only [hrecords, hrecords']
        · exact .inr hcut
    · -- The limit stops the first action, whether or not the second one takes place without it.
      rw [Outcome.andThen_of_error herror]
      cases hfull : (action s).error with
      | some e =>
        rw [Outcome.andThen_of_error hfull]
        exact .inr ⟨hlt, hbytes, herror⟩
      | none =>
        obtain ⟨rest, hrest⟩ := hsecond.appends (action s).state
        rw [Outcome.andThen_of_error_eq_none hfull]
        refine .inr ⟨?_, ?_, herror⟩
        · rw [hrest, ByteArray.size_append]
          omega
        · rw [hrest, Sink.extract_append_of_le (Nat.le_of_lt hlt), hbytes]

/-- A recognizer with its listener, where only the listener writes. -/
def hearing (view : OutputView σ) : OutputView (Hearing σ) where
  bytes h := view.bytes h.listener
  Limits n full limited :=
    view.Limits n full.listener limited.listener ∧ limited.recognizer = full.recognizer

section Hearing

variable {hear : Listener σ}

theorem Streams.feed (hhear : ∀ event, view.Streams n (hear · event)) (t : Token) :
    view.hearing.Streams n (Hearing.feed hear · t) where
  appends h := by
    cases hstep : h.recognizer.step t with
    | next after =>
      rw [Hearing.feed_of_next hstep]
      exact ⟨.empty, ByteArray.append_empty.symm⟩
    | tell event accepted refused =>
      rw [Hearing.feed_of_tell hstep]
      exact (hhear event).appends h.listener
    | reject e =>
      rw [Hearing.feed_of_reject hstep]
      exact ⟨.empty, ByteArray.append_empty.symm⟩
  cuts {h limited} hlimits := by
    obtain ⟨hlistener, hrecognizer⟩ := hlimits
    cases hstep : h.recognizer.step t with
    | next after =>
      rw [Hearing.feed_of_next hstep, Hearing.feed_of_next (hrecognizer ▸ hstep), hrecognizer]
      exact .inl ⟨⟨hlistener, rfl⟩, rfl, rfl⟩
    | tell event accepted refused =>
      rw [Hearing.feed_of_tell hstep, Hearing.feed_of_tell (hrecognizer ▸ hstep), hrecognizer]
      rcases (hhear event).cuts hlistener with ⟨hheard, hrecords, herror⟩ | hcut
      · refine .inl ⟨⟨hheard, ?_⟩, congrArg (_ :: ·) hrecords, herror⟩
        simp only [herror]
      · exact .inr hcut
    | reject e =>
      rw [Hearing.feed_of_reject hstep, Hearing.feed_of_reject (hrecognizer ▸ hstep), hrecognizer]
      exact .inl ⟨⟨hlistener, hrecognizer⟩, rfl, rfl⟩

theorem Streams.feedAll (hhear : ∀ event, view.Streams n (hear · event)) (ts : List Token) :
    view.hearing.Streams n (Hearing.feedAll hear · ts) := by
  induction ts with
  | nil => exact .of_state_eq (fun _ => rfl) fun _ => ⟨rfl, rfl⟩
  | cons t ts ih => exact (Streams.feed hhear t).andThen ih

/-- Reading a description streams what its listener streams. -/
theorem Streams.run (hhear : ∀ event, view.Streams n (hear · event)) (source : String) :
    view.Streams n fun s => (hear.run s source).map Hearing.listener := by
  have hunclosed : view.hearing.Streams n fun h => ⟨h, (Token.lex source).records, none⟩ :=
    .of_state_eq (fun _ => rfl) fun _ => ⟨rfl, rfl⟩
  have hfinish : view.hearing.Streams n Hearing.finish := by
    refine .of_state_eq (fun _ => rfl) fun hlimits => ⟨rfl, ?_⟩
    simp only [Hearing.finish, hlimits.2]
  have hstreams :=
    ((Streams.feedAll hhear (Token.lex source).tokens).andThen hunclosed).andThen hfinish
  refine ⟨fun s => hstreams.appends ⟨{}, s⟩, fun {s limited} hlimits => ?_⟩
  have hstart : view.hearing.Limits n ⟨{}, s⟩ ⟨{}, limited⟩ := ⟨hlimits, rfl⟩
  rcases hstreams.cuts hstart with ⟨hlimits', hsame⟩ | hcut
  · exact .inl ⟨hlimits'.1, hsame⟩
  · exact .inr hcut

end Hearing

end OutputView

end LuaGlue
