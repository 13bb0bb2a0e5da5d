import LuaGlue.Proofs.Recognizer.Alike
import LuaGlue.Proofs.Recognizer.Session

namespace LuaGlue

namespace Recognizer

/-- Outside of a declaration nothing is left of one. Where a declaration starts, it may already be
static. -/
structure Tidy (r : Recognizer) : Prop where
  signature_eq : ¬ r.place.InBody → r.signature = {}
  signature_start : r.place = .memberType → r.signature = { isStatic := r.signature.isStatic }

variable {r after accepted refused : Recognizer} {t : Token} {event : Event}

/-- In the middle of a declaration anything may have been collected of it. -/
theorem Tidy.of_inBody (hbody : r.place.InBody) (hplace : r.place ≠ .memberType) : r.Tidy :=
  ⟨fun hnot => absurd hbody hnot, fun hstart => absurd hstart hplace⟩

theorem Tidy.of_not_inBody (hnot : ¬ r.place.InBody) (hsignature : r.signature = {}) : r.Tidy where
  signature_eq _ := hsignature
  signature_start hstart := by
    rw [hstart] at hnot
    exact absurd trivial hnot

theorem Tidy.next (h : r.Tidy) (hmoves : r.Moves t after) : after.Tidy := by
  cases hmoves with
  | classKeyword hplace | nativeNameStart hplace | nativeNameEnd hplace =>
    exact .of_not_inBody id (h.signature_eq (by rw [hplace]; exact id))
  | bodyStart => exact ⟨fun _ => rfl, fun _ => rfl⟩
  | passedOver | semicolon => exact h
  | staticKeyword hplace =>
    refine ⟨fun hnot => ?_, fun _ => ?_⟩
    · rw [hplace] at hnot
      exact absurd trivial hnot
    · rw [h.signature_start hplace]
  | indirection hplace | modifier hplace =>
    exact .of_inBody (by rw [hplace]; trivial) (by rw [hplace]; decide)
  | ctorKeyword | returns | name | paramsStart | param | comma =>
    exact .of_inBody trivial nofun

/-- A class can only end behind a complete declaration, so nothing is left of one. -/
theorem Tidy.tell (h : r.Tidy) (htells : r.Tells t event accepted refused) :
    accepted.Tidy ∧ refused.Tidy := by
  cases htells with
  | classStart hplace | nativeName hplace =>
    have hsignature := h.signature_eq (by rw [hplace]; exact id)
    exact ⟨.of_not_inBody id hsignature, h⟩
  | classEnd hplace hstatic =>
    have hsignature := h.signature_start hplace
    rw [hstatic] at hsignature
    exact ⟨.of_not_inBody id hsignature, h⟩
  | declaration hplace =>
    refine ⟨⟨fun _ => rfl, fun _ => rfl⟩, .of_inBody ?_ ?_⟩
    · rcases hplace with hplace | hplace <;> rw [hplace] <;> trivial
    · rcases hplace with hplace | hplace <;> rw [hplace] <;> decide

end Recognizer

namespace Hearing

variable {σ : Type} (hear : Listener σ) {h g : Hearing σ}

theorem tidy_feed (htidy : h.recognizer.Tidy) (t : Token) :
    (h.feed hear t).state.recognizer.Tidy := by
  cases hstep : h.recognizer.step t with
  | next after =>
    rw [feed_of_next hstep]
    exact htidy.next (Recognizer.moves_of_step hstep)
  | tell event accepted refused =>
    obtain ⟨haccepted, hrefused⟩ := htidy.tell (Recognizer.tells_of_step hstep)
    rw [feed_of_tell hstep]
    dsimp only
    split
    · exact hrefused
    · exact haccepted
  | reject e =>
    rw [feed_of_reject hstep]
    exact htidy

theorem tidy_persist (htidy : h.recognizer.Tidy) (tokens : List Token) :
    (h.persist hear tokens).recognizer.Tidy := by
  induction tokens generalizing h with
  | nil => exact htidy
  | cons token rest ih => exact ih (tidy_feed hear htidy token)

/-- Two recognizers that are alike, told to listeners in the same state. -/
structure Alike (h g : Hearing σ) : Prop where
  recognizer : h.recognizer.Alike g.recognizer
  listener : h.listener = g.listener

/-- The same shows of a token where recognizers are alike, and they are alike behind it. -/
theorem Alike.feed (halike : h.Alike g) (t : Token) :
    h.reply hear t = g.reply hear t ∧ (h.feed hear t).state.Alike (g.feed hear t).state := by
  obtain ⟨r, s⟩ := h
  obtain ⟨r', s'⟩ := g
  obtain ⟨hrecognizer, rfl⟩ := halike
  have hstep := hrecognizer.step t
  generalize hone : r.step t = one at hstep
  generalize hother : r'.step t = other at hstep
  simp only [reply, hone, hother]
  cases hstep with
  | next hafter =>
    rw [feed_of_next hone, feed_of_next hother]
    exact ⟨congrArg (Reply.mk none none) hafter.place_eq, hafter, rfl⟩
  | tell event haccepted hrefused =>
    rw [feed_of_tell hone, feed_of_tell hother]
    dsimp only
    split
    · exact ⟨congrArg (Reply.mk (some event) _) hrefused.place_eq, hrefused, rfl⟩
    · exact ⟨congrArg (Reply.mk (some event) _) haccepted.place_eq, haccepted, rfl⟩
  | reject e =>
    rw [feed_of_reject hone, feed_of_reject hother]
    exact ⟨congrArg (Reply.mk none (some e)) hrecognizer.place_eq, hrecognizer, rfl⟩

theorem Alike.session (halike : h.Alike g) (tokens : List Token) :
    h.replies hear tokens = g.replies hear tokens ∧
    (h.persist hear tokens).Alike (g.persist hear tokens) := by
  induction tokens generalizing h g with
  | nil => exact ⟨rfl, halike⟩
  | cons token rest ih =>
    obtain ⟨hreply, hafter⟩ := halike.feed hear token
    obtain ⟨hreplies, hend⟩ := ih hafter
    rw [replies, replies, hreply, hreplies]
    exact ⟨rfl, hend⟩

/-- A recognizer that is back between two classes is as good as a new one. Whatever was fed to it
before, to whichever listener and with whichever errors passed over, nothing is left of a
declaration, and from there on it shows the same for every token: the events it tells, the errors,
the places, and whether the description may end. -/
theorem session_of_outside {τ : Type} (former : Listener τ) (t : τ) (before : List Token)
    (houtside : (persist former ⟨{}, t⟩ before).recognizer.place = .outside) (s : σ)
    (tokens : List Token) :
    (persist former ⟨{}, t⟩ before).recognizer.signature = {} ∧
    replies hear ⟨(persist former ⟨{}, t⟩ before).recognizer, s⟩ tokens =
      replies hear ⟨{}, s⟩ tokens ∧
    (persist hear ⟨(persist former ⟨{}, t⟩ before).recognizer, s⟩ tokens).listener =
      (persist hear ⟨{}, s⟩ tokens).listener ∧
    (persist hear ⟨(persist former ⟨{}, t⟩ before).recognizer, s⟩ tokens).finish.error =
      (persist hear ⟨{}, s⟩ tokens).finish.error := by
  have hnew : ({} : Recognizer).Tidy := .of_not_inBody id rfl
  have htidy : (persist former ⟨{}, t⟩ before).recognizer.Tidy :=
    tidy_persist former (h := ⟨{}, t⟩) hnew before
  have halike : Alike ⟨(persist former ⟨{}, t⟩ before).recognizer, s⟩ ⟨{}, s⟩ :=
    ⟨.of_not_inClass houtside (by rw [houtside]; exact id), rfl⟩
  obtain ⟨hreplies, hend⟩ := halike.session hear tokens
  refine ⟨htidy.signature_eq ?_, hreplies, hend.listener, hend.recognizer.finish?_eq⟩
  rw [houtside]
  exact id

/-- Behind a renamed class in which a method was refused, the next class may have a native name of
its own, and a static constructor is blamed on it. -/
theorem session_of_outside_refused_method :
    (persist (Listener.recorder [2]) ⟨{}, []⟩
      [.word "class", .word "A", .punct '[', .word "B", .punct ']', .punct '{', .word "int",
        .word "f", .punct '(', .punct ')', .punct ')', .punct '}']).recognizer =
      { className := "A", renamed := true } ∧
    replies Listener.silent ⟨(persist (Listener.recorder [2]) ⟨{}, []⟩
        [.word "class", .word "A", .punct '[', .word "B", .punct ']', .punct '{', .word "int",
          .word "f", .punct '(', .punct ')', .punct ')', .punct '}']).recognizer, ()⟩
        [.word "class", .word "C", .punct '[', .word "D", .punct ']', .punct '{', .word "static",
          .word "ctor"] =
      [⟨none, none, .className⟩, ⟨some (.classStart "C"), none, .classHead⟩,
        ⟨none, none, .nativeName⟩, ⟨some (.nativeName "D"), none, .nativeNameEnd⟩,
        ⟨none, none, .classHead⟩, ⟨none, none, .memberType⟩, ⟨none, none, .memberType⟩,
        ⟨none, some (.staticCtor "C"), .memberType⟩] := by
  have hleft : (persist (Listener.recorder [2]) ⟨{}, []⟩
      [.word "class", .word "A", .punct '[', .word "B", .punct ']', .punct '{', .word "int",
        .word "f", .punct '(', .punct ')', .punct ')', .punct '}']).recognizer =
      { className := "A", renamed := true } := by
    decide
  obtain ⟨-, hreplies, -⟩ := session_of_outside Listener.silent (Listener.recorder [2]) []
    [.word "class", .word "A", .punct '[', .word "B", .punct ']', .punct '{', .word "int",
      .word "f", .punct '(', .punct ')', .punct ')', .punct '}']
    (by rw [hleft]) ()
    [.word "class", .word "C", .punct '[', .word "D", .punct ']', .punct '{', .word "static",
      .word "ctor"]
  exact ⟨hleft, hreplies.trans (by decide)⟩

end Hearing

end LuaGlue
