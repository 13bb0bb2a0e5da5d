import LuaGlue.Proofs.Generate.Body
import LuaGlue.Proofs.Output.Streaming

namespace LuaGlue

namespace Binder

/-- Two binders that differ in the limits of their sinks, and in nothing else. -/
structure Limits (n : Nat) (full limited : Binder) : Prop where
  unlimited : full.sink.limit = none
  limit_eq : limited.sink.limit = some n
  bytes_eq : limited.sink.bytes = full.sink.bytes
  names_eq : limited.names = full.names
  registry_eq : limited.registry = full.registry

/-- The output of a binder is what is in its sink. -/
def view : OutputView Binder where
  bytes b := b.sink.bytes
  Limits := Limits

variable {n : Nat}

/-- A text that does not fit is written up to the limit. -/
theorem streams_write (text : String) : view.Streams n (write · text) where
  appends b := by
    cases hlimit : b.sink.limit with
    | none => exact ⟨_, (Sink.write_of_limit_eq_none hlimit text).1⟩
    | some m =>
      have hfits : b.sink.bytes.extract 0 m = b.sink.bytes :=
        Sink.extract_of_size_le (b.sink.size_le m hlimit)
      have hwritten := (Sink.write_of_limit_eq_some hlimit text).1
      rw [ByteArray.extract_append, Nat.zero_sub, hfits] at hwritten
      exact ⟨_, hwritten⟩
  cuts {b limited} h := by
    obtain ⟨hall, hnone⟩ := Sink.write_of_limit_eq_none h.unlimited text
    obtain ⟨hfits, herror⟩ := Sink.write_of_limit_eq_some h.limit_eq text
    rw [h.bytes_eq, ← hall] at hfits herror
    have hfull : (b.write text).state.sink.limit = none :=
      (Sink.limit_write _ _).trans h.unlimited
    have hlimit : (limited.write text).state.sink.limit = some n :=
      (Sink.limit_write _ _).trans h.limit_eq
    by_cases hle : (b.write text).state.sink.bytes.size ≤ n
    · have hbytes := hfits.trans (Sink.extract_of_size_le hle)
      have hrecords : (limited.write text).records = (b.write text).records :=
        (Sink.records_write _ _).trans (Sink.records_write _ _).symm
      have hsame := (herror.trans (if_pos hle)).trans hnone.symm
      exact .inl ⟨⟨hfull, hlimit, hbytes, h.names_eq, h.registry_eq⟩, hrecords, hsame⟩
    · have hlt : n < (b.write text).state.sink.bytes.size := by omega
      exact .inr ⟨hlt, hfits, herror.trans (if_neg hle)⟩

theorem streams_writeLines (lines : List String) : view.Streams n (writeLines · lines) := by
  induction lines with
  | nil => exact .of_state_eq (fun _ => rfl) fun _ => ⟨rfl, rfl⟩
  | cons line rest ih => exact (streams_write (line ++ "\n")).andThen ih

/-- What a definition does up to its output depends on nothing a limit changes. -/
theorem streams_define (member : String) (function : Glue.Function) :
    view.Streams n (define · member function) := by
  have hwrite : view.Streams n fun b => (b.writeLines function.lines).andThen fun b =>
      ⟨b, [.emitted function.symbol], none⟩ :=
    (streams_writeLines function.lines).andThen
      (.of_state_eq (fun _ => rfl) fun _ => ⟨rfl, rfl⟩)
  constructor
  · intro b
    cases hadd : b.registry.addMember b.names.wrapper member with
    | error e =>
      rw [define_of_error hadd]
      exact ⟨.empty, ByteArray.append_empty.symm⟩
    | ok registry =>
      rw [define_of_ok hadd]
      exact hwrite.appends { b with registry }
  · intro b limited h
    have hsame : limited.registry.addMember limited.names.wrapper member =
        b.registry.addMember b.names.wrapper member := by rw [h.names_eq, h.registry_eq]
    cases hadd : b.registry.addMember b.names.wrapper member with
    | error e =>
      rw [define_of_error hadd, define_of_error (hsame.trans hadd)]
      exact .inl ⟨h, rfl, rfl⟩
    | ok registry =>
      rw [define_of_ok hadd, define_of_ok (hsame.trans hadd)]
      have hstart : Limits n { b with registry } { limited with registry } :=
        ⟨h.unlimited, h.limit_eq, h.bytes_eq, h.names_eq, rfl⟩
      exact hwrite.cuts hstart

theorem streams_hear (aliases : AliasTable) (event : Event) :
    view.Streams n (hear aliases · event) := by
  cases event with
  | classStart wrapper =>
    constructor
    · intro b
      refine ⟨.empty, ?_⟩
      simp only [hear]
      split <;> exact ByteArray.append_empty.symm
    · intro b limited h
      simp only [hear, h.registry_eq]
      split
      · exact .inl ⟨h, rfl, rfl⟩
      · exact .inl ⟨⟨h.unlimited, h.limit_eq, h.bytes_eq, rfl, rfl⟩, rfl, rfl⟩
  | nativeName name =>
    constructor
    · exact fun b => ⟨.empty, ByteArray.append_empty.symm⟩
    · intro b limited h
      simp only [hear, h.names_eq]
      exact .inl ⟨⟨h.unlimited, h.limit_eq, h.bytes_eq, rfl, h.registry_eq⟩, rfl, rfl⟩
  | method s =>
    have hdefine : ∀ names, view.Streams n
        (define · s.memberName (.ofMethod aliases names s)) :=
      fun names => streams_define s.memberName (.ofMethod aliases names s)
    exact .of_part names Limits.names_eq hdefine
  | ctor s =>
    have hdefine : ∀ names, view.Streams n
        (define · Signature.ctorName (.ofCtor aliases names s)) :=
      fun names => streams_define Signature.ctorName (.ofCtor aliases names s)
    exact .of_part names Limits.names_eq hdefine
  | classEnd => exact .of_state_eq (fun _ => rfl) fun _ => ⟨rfl, rfl⟩

theorem streams_registration (settings : Settings) :
    view.Streams n fun b => b.writeLines (Glue.registrationLines settings b.registry) := by
  have hwrite : ∀ registry, view.Streams n
      (writeLines · (Glue.registrationLines settings registry)) :=
    fun registry => streams_writeLines (Glue.registrationLines settings registry)
  exact .of_part registry Limits.registry_eq hwrite

end Binder

/-- Generating to a sink with a limit gives what generating without one gives, if that fits: the
same bytes, registry and error. Otherwise it gives as many of the bytes as the limit allows and ends
with the error of the sink, also where there would be another one later. -/
theorem generate_ofLimit (settings : Settings) (source : String) (n : Nat) :
    ((generate settings (.ofLimit none) source).state.sink.bytes.size ≤ n →
      (generate settings (.ofLimit (some n)) source).state.sink.bytes =
        (generate settings (.ofLimit none) source).state.sink.bytes ∧
      (generate settings (.ofLimit (some n)) source).state.registry =
        (generate settings (.ofLimit none) source).state.registry ∧
      (generate settings (.ofLimit (some n)) source).error =
        (generate settings (.ofLimit none) source).error) ∧
    (n < (generate settings (.ofLimit none) source).state.sink.bytes.size →
      (generate settings (.ofLimit (some n)) source).state.sink.bytes =
        (generate settings (.ofLimit none) source).state.sink.bytes.extract 0 n ∧
      (generate settings (.ofLimit (some n)) source).error = some .sinkFull) := by
  have hstreams : Binder.view.Streams n fun b =>
      ((b.writeLines (Glue.preludeLines settings)).andThen fun b =>
        ((Binder.hear settings.aliases).run b source).map Hearing.listener).andThen fun b =>
          b.writeLines (Glue.registrationLines settings b.registry) :=
    ((Binder.streams_writeLines _).andThen
      (.run (Binder.streams_hear settings.aliases) source)).andThen
        (Binder.streams_registration settings)
  have hstart : Binder.view.Limits n { sink := .ofLimit none } { sink := .ofLimit (some n) } :=
    ⟨rfl, rfl, rfl, rfl, rfl⟩
  rcases hstreams.cuts hstart with ⟨hsame, -, herror⟩ | ⟨hlt, hbytes, herror⟩
  · refine ⟨fun _ => ⟨hsame.bytes_eq, hsame.registry_eq, herror⟩, fun hlt => ?_⟩
    have hle := Sink.size_le _ n hsame.limit_eq
    rw [hsame.bytes_eq] at hle
    exact absurd hlt (Nat.not_lt_of_le hle)
  · exact ⟨fun hle => absurd hlt (Nat.not_lt_of_le hle), fun _ => ⟨hbytes, herror⟩⟩

/-- The class that is declared twice is only noticed if there is room for the head. -/
theorem generate_ofLimit_repeated_class :
    (generate {} (.ofLimit none) "class A { } class A { }").state.sink.bytes.size = 836 ∧
    (generate {} (.ofLimit (some 836)) "class A { } class A { }").error =
      some (.duplicateClass "A") ∧
    (generate {} (.ofLimit (some 835)) "class A { } class A { }").error = some .sinkFull := by
  have hsize :
      (generate {} (.ofLimit none) "class A { } class A { }").state.sink.bytes.size = 836 := by
    decide +kernel
  have herror : (generate {} (.ofLimit none) "class A { } class A { }").error =
      some (.duplicateClass "A") := by
    decide +kernel
  obtain ⟨-, -, hsame⟩ :=
    (generate_ofLimit {} "class A { } class A { }" 836).1 (Nat.le_of_eq hsize)
  obtain ⟨-, hfull⟩ :=
    (generate_ofLimit {} "class A { } class A { }" 835).2 (by rw [hsize]; decide)
  exact ⟨hsize, hsame.trans herror, hfull⟩

section Limited

variable {settings : Settings} {limit : Option Nat} {source : String}

/-- Writes the head to a sink with this limit. -/
def Binder.writeHead (settings : Settings) (limit : Option Nat) : Outcome Binder :=
  (Binder.fresh limit).writeLines (Glue.preludeLines settings)

theorem generate_eq_writeHead (settings : Settings) (limit : Option Nat) (source : String) :
    generate settings (.ofLimit limit) source =
      ((Binder.writeHead settings limit).andThen fun b =>
        ((Binder.hear settings.aliases).run b source).map Hearing.listener).andThen fun b =>
          b.writeLines (Glue.registrationLines settings b.registry) :=
  rfl

theorem generate_of_head_error {e : Error} (h : (Binder.writeHead settings limit).error = some e) :
    generate settings (.ofLimit limit) source = Binder.writeHead settings limit := by
  rw [generate_eq_writeHead, Outcome.andThen_of_error h, Outcome.andThen_of_error h]

theorem generate_of_head (h : (Binder.writeHead settings limit).error = none) :
    generate settings (.ofLimit limit) source =
      (((Binder.hear settings.aliases).run (Binder.writeHead settings limit).state source).map
        Hearing.listener).andThen fun b =>
          b.writeLines (Glue.registrationLines settings b.registry) := by
  have hrecords : (Binder.writeHead settings limit).records = [] :=
    Binder.records_writeLines _ _
  rw [generate_eq_writeHead, Outcome.andThen_of_error_eq_none h, hrecords]
  rfl

/-- What is generated without an error was read without one. -/
theorem run_of_generate (h : (generate settings (.ofLimit limit) source).error = none) :
    ((Binder.hear settings.aliases).run (Binder.writeHead settings limit).state source).error =
      none := by
  cases hhead : (Binder.writeHead settings limit).error with
  | some e =>
    rw [generate_of_head_error hhead, hhead] at h
    cases h
  | none =>
    rw [generate_of_head hhead, Outcome.error_andThen_eq_none_iff] at h
    exact h.1

/-- A sink that is not filled shows nowhere. -/
theorem generate_of_limited (h : (generate settings (.ofLimit limit) source).error = none) :
    (generate settings (.ofLimit none) source).error = none ∧
    (generate settings (.ofLimit limit) source).state.registry =
      (generate settings (.ofLimit none) source).state.registry := by
  cases limit with
  | none => exact ⟨h, rfl⟩
  | some n =>
    have hhead : Binder.view.Streams n fun b => (b.writeLines (Glue.preludeLines settings)).andThen
        fun b => ((Binder.hear settings.aliases).run b source).map Hearing.listener :=
      (Binder.streams_writeLines _).andThen (.run (Binder.streams_hear settings.aliases) source)
    have hstart : Binder.view.Limits n (.fresh none) (.fresh (some n)) :=
      ⟨rfl, rfl, rfl, rfl, rfl⟩
    rcases (hhead.andThen (Binder.streams_registration settings)).cuts hstart with
      ⟨hsame, -, herror⟩ | ⟨-, -, herror⟩
    · exact ⟨herror.symm.trans h, hsame.registry_eq⟩
    · cases herror.symm.trans h

end Limited

end LuaGlue
