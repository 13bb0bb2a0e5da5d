import LuaGlue.Proofs.Recognizer.Told

namespace LuaGlue

namespace Hearing

variable {σ : Type} {hear : Listener σ} {h : Hearing σ} {token : Token}

/-- A token is recorded with its place, in front of what the listener records. -/
theorem records_feed (hear : Listener σ) (h : Hearing σ) (token : Token) :
    (h.feed hear token).records =
      .fed h.recognizer.place token ::
        (h.recognizer.step token).event?.toList.flatMap fun event =>
          (hear h.listener event).records := by
  cases hstep : h.recognizer.step token with
  | next after =>
    rw [feed_of_next hstep]
    rfl
  | tell event accepted refused =>
    rw [feed_of_tell hstep]
    exact congrArg _ (List.flatMap_singleton _ _).symm
  | reject e =>
    rw [feed_of_reject hstep]
    rfl

theorem feedAll_of_error {e : Error} (herror : (h.feed hear token).error = some e)
    (rest : List Token) : h.feedAll hear (token :: rest) = h.feed hear token := by
  rw [feedAll, Outcome.andThen_of_error herror]

theorem feedAll_of_error_eq_none (hnone : (h.feed hear token).error = none)
    (rest : List Token) :
    h.feedAll hear (token :: rest) =
      { (h.feed hear token).state.feedAll hear rest with
        records := (h.feed hear token).records ++
          ((h.feed hear token).state.feedAll hear rest).records } := by
  rw [feedAll, Outcome.andThen_of_error_eq_none hnone]

/-- Where a listener records no tokens itself, each token has its record if the tokens before it were
read without an error. The record names the place that these have led to. -/
theorem fed_records (hquiet : ∀ s event, (hear s event).records.filter Record.isFed = [])
    (h : Hearing σ) (tokens : List Token) (k : Nat) :
    ((h.feedAll hear tokens).records.filter Record.isFed)[k]? =
      if (h.feedAll hear (tokens.take k)).error = none then
        tokens[k]?.map (.fed (h.feedAll hear (tokens.take k)).state.recognizer.place)
      else none := by
  induction tokens generalizing h k with
  | nil => simp [feedAll]
  | cons token rest ih =>
    have hfed : (h.feed hear token).records.filter Record.isFed =
        [.fed h.recognizer.place token] := by
      rw [records_feed, List.filter_cons_of_pos rfl]
      cases (h.recognizer.step token).event? with
      | none => rfl
      | some event => simp [hquiet]
    cases hfirst : (h.feed hear token).error with
    | some e =>
      rw [feedAll_of_error hfirst, hfed]
      cases k with
      | zero => rfl
      | succ k =>
        rw [List.take_succ_cons, feedAll_of_error hfirst, hfirst, if_neg (by simp)]
        rfl
    | none =>
      rw [feedAll_of_error_eq_none hfirst, List.filter_append, hfed]
      cases k with
      | zero => rfl
      | succ k =>
        rw [List.take_succ_cons, feedAll_of_error_eq_none hfirst]
        exact ih (h.feed hear token).state k

/-- What is found in the log of a hearing, if it can be told from each event what is found in its
records. -/
theorem filterMap_records {β : Type} {find : Record → Option β} {told : Event → List β}
    (hfed : ∀ place token, find (.fed place token) = none)
    (hhear : ∀ s event, (hear s event).records.filterMap find = told event) (h : Hearing σ)
    (tokens : List Token) :
    (h.feedAll hear tokens).records.filterMap find = (h.told hear tokens).flatMap told := by
  induction tokens generalizing h with
  | nil => rfl
  | cons token rest ih =>
    have hfirst : (h.feed hear token).records.filterMap find =
        (h.recognizer.step token).event?.toList.flatMap told := by
      rw [records_feed, List.filterMap_cons_none (hfed _ _), List.filterMap_flatMap]
      simp only [hhear]
    cases herror : (h.feed hear token).error with
    | some e => rw [feedAll_of_error herror, told_of_error herror, hfirst]
    | none =>
      rw [feedAll_of_error_eq_none herror, told_of_error_eq_none herror, List.filterMap_append,
        hfirst, ih, List.flatMap_append]

end Hearing

end LuaGlue
