import LuaGlue.Glue.Function
import LuaGlue.Listener
import LuaGlue.Registry
import LuaGlue.Sink

namespace LuaGlue

/-- The listener that writes glue: the class that is being wrapped, what has been recorded so far,
and what has been written. Before the first class both of its names are empty. -/
structure Binder where
  names : Glue.ClassNames := {}
  registry : Registry := {}
  sink : Sink := {}

namespace Binder

def write (b : Binder) (text : String) : Outcome Binder :=
  (b.sink.write text).map fun sink => { b with sink }

/-- Writes some lines, each of them by itself: the first one that does not fit ends the writing. -/
def writeLines (b : Binder) : List String → Outcome Binder
  | [] => ⟨b, [], none⟩
  | line :: rest => (b.write (line ++ "\n")).andThen fun b => b.writeLines rest

/-- With an unlimited sink all lines are written, and nothing else changes. -/
theorem writeLines_of_limit_eq_none {b : Binder} (h : b.sink.limit = none) (lines : List String) :
    ∃ sink : Sink, sink.limit = none ∧
      sink.bytes = b.sink.bytes ++ (Text.ofLines lines).toUTF8 ∧
      (b.writeLines lines).state = { b with sink } ∧ (b.writeLines lines).error = none := by
  induction lines generalizing b with
  | nil => exact ⟨b.sink, h, by simp [Text.ofLines], rfl, rfl⟩
  | cons line rest ih =>
    obtain ⟨hbytes, hnone⟩ := Sink.write_of_limit_eq_none h (line ++ "\n")
    obtain ⟨sink, hlimit, hrest, hstate, herror⟩ :=
      ih (b := (b.write (line ++ "\n")).state) ((Sink.limit_write _ _).trans h)
    have hwrite : (b.write (line ++ "\n")).error = none := hnone
    rw [writeLines, Outcome.andThen_of_error_eq_none hwrite]
    refine ⟨sink, hlimit, ?_, hstate, herror⟩
    rw [hrest, Text.ofLines]
    refine (congrArg (· ++ _) hbytes).trans ?_
    simp only [String.toUTF8_eq_toByteArray, String.toByteArray_append, ByteArray.append_assoc]

/-- Wraps a declaration: records its member, writes its glue function and then logs the symbol.
The member stays recorded if the function cannot be written. -/
def define (b : Binder) (member : String) (function : Glue.Function) : Outcome Binder :=
  match b.registry.addMember b.names.wrapper member with
  | .error e => ⟨b, [], some e⟩
  | .ok registry =>
    ({ b with registry }.writeLines function.lines).andThen fun b =>
      ⟨b, [.emitted function.symbol], none⟩

section Define

variable {b : Binder} {member : String} {function : Glue.Function}

theorem define_of_error {e : Error}
    (hadd : b.registry.addMember b.names.wrapper member = .error e) :
    b.define member function = ⟨b, [], some e⟩ := by
  rw [define, hadd]

theorem define_of_ok {registry : Registry}
    (hadd : b.registry.addMember b.names.wrapper member = .ok registry) :
    b.define member function =
      ({ b with registry }.writeLines function.lines).andThen fun b =>
        ⟨b, [.emitted function.symbol], none⟩ := by
  rw [define, hadd]

end Define

/-- A class is recorded before its members; one that is recorded already is refused, and the
current class stays. A constructor is always recorded under the same name, a method under its
member name. -/
def hear (aliases : AliasTable) : Listener Binder :=
  fun b event =>
    match event with
    | .classStart wrapper =>
      match b.registry.addClass wrapper with
      | .error e => ⟨b, [.wrapping wrapper], some e⟩
      | .ok registry => ⟨{ b with registry, names := .plain wrapper }, [.wrapping wrapper], none⟩
    | .nativeName native =>
      ⟨{ b with names.native := native }, [.native b.names.wrapper native], none⟩
    | .method s => b.define s.memberName (.ofMethod aliases b.names s)
    | .ctor s => b.define Signature.ctorName (.ofCtor aliases b.names s)
    | .classEnd => ⟨b, [], none⟩

end Binder

end LuaGlue
