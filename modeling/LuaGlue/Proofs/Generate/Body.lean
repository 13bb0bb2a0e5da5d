import LuaGlue.Generate
import LuaGlue.Proofs.Grammar.Reading
import LuaGlue.Proofs.Recognizer.Told

namespace LuaGlue

namespace Binder

@[simp]
theorem records_writeLines (b : Binder) (lines : List String) :
    (b.writeLines lines).records = [] := by
  induction lines generalizing b with
  | nil => rfl
  | cons line rest ih =>
    have hwrite : (b.write (line ++ "\n")).records = [] := Sink.records_write _ _
    rw [writeLines]
    cases herror : (b.write (line ++ "\n")).error with
    | some e => rw [Outcome.andThen_of_error herror, hwrite]
    | none => rw [Outcome.andThen_of_error_eq_none herror, hwrite, ih]; rfl

/-- The head is written, and nothing else has happened. -/
theorem exists_opened_eq (settings : Settings) :
    ∃ sink : Sink, opened settings = { fresh none with sink } ∧ sink.limit = none ∧
      sink.bytes = (Glue.prelude settings).toUTF8 := by
  obtain ⟨sink, hlimit, hbytes, hstate, -⟩ := writeLines_of_limit_eq_none
    (b := fresh none) rfl (Glue.preludeLines settings)
  exact ⟨sink, hstate, hlimit, hbytes.trans ByteArray.empty_append⟩

/-- The head is written, and nothing is recorded. -/
theorem opened_spec (settings : Settings) :
    (opened settings).registry.entries = [] ∧ (opened settings).sink.limit = none ∧
    (opened settings).sink.bytes = (Glue.prelude settings).toUTF8 := by
  obtain ⟨sink, hopened, hlimit, hbytes⟩ := exists_opened_eq settings
  rw [hopened]
  exact ⟨rfl, hlimit, hbytes⟩

end Binder

/-- What stands between the head and the registration. Without a limit neither of these can fail, so
reading the description decides the error and the registry. -/
def generateBody (settings : Settings) (source : String) : Outcome Binder :=
  ((Binder.hear settings.aliases).run (.opened settings) source).map Hearing.listener

/-- The tokens of a description, read by a binder that has written the head. -/
def fedTokens (settings : Settings) (source : String) : Outcome (Hearing Binder) :=
  Hearing.feedAll (Binder.hear settings.aliases) ⟨{}, .opened settings⟩ (Token.lex source).tokens

theorem generateBody_eq_fedTokens (settings : Settings) (source : String) :
    (generateBody settings source).error =
      (fedTokens settings source).error.or
        (fedTokens settings source).state.recognizer.finish? ∧
    (generateBody settings source).state = (fedTokens settings source).state.listener := by
  obtain ⟨herror, hstate⟩ := (Binder.hear settings.aliases).run_eq (.opened settings) source
  obtain ⟨hfinish, hkept⟩ := Hearing.andThen_finish (fedTokens settings source)
  exact ⟨herror.trans hfinish, congrArg Hearing.listener (hstate.trans hkept)⟩

theorem generate_eq_body (settings : Settings) (source : String) :
    generate settings (.ofLimit none) source =
      (generateBody settings source).andThen fun b =>
        b.writeLines (Glue.registrationLines settings b.registry) := by
  obtain ⟨-, -, -, -, herror⟩ := Binder.writeLines_of_limit_eq_none
    (b := { sink := .ofLimit none }) rfl (Glue.preludeLines settings)
  rw [generate, Outcome.andThen_of_error_eq_none herror, Binder.records_writeLines]
  rfl

theorem generate_of_body_error {settings : Settings} {source : String} {e : Error}
    (h : (generateBody settings source).error = some e) :
    generate settings (.ofLimit none) source = generateBody settings source := by
  rw [generate_eq_body, Outcome.andThen_of_error h]

/-- Behind the body only the registration is written. -/
theorem generate_of_body {settings : Settings} {source : String}
    (h : (generateBody settings source).error = none)
    (hlimit : (generateBody settings source).state.sink.limit = none) :
    (generate settings (.ofLimit none) source).error = none ∧
    (generate settings (.ofLimit none) source).state.registry =
      (generateBody settings source).state.registry ∧
    (generate settings (.ofLimit none) source).state.sink.bytes =
      (generateBody settings source).state.sink.bytes ++
        (Glue.registration settings (generateBody settings source).state.registry).toUTF8 := by
  obtain ⟨sink, -, hbytes, hstate, herror⟩ := Binder.writeLines_of_limit_eq_none hlimit
    (Glue.registrationLines settings (generateBody settings source).state.registry)
  rw [generate_eq_body, Outcome.andThen_of_error_eq_none h, hstate]
  exact ⟨herror, rfl, hbytes⟩

end LuaGlue
