import LuaGlue.Proofs.Generate.Body

namespace LuaGlue

/-- The types an alias is asked for when an event is heard. Nothing is returned as `void`. -/
def Event.asked : Event → List String
  | .method s => s.params ++ if s.returnsVoid then [] else [s.returns]
  | .ctor s => s.params
  | .classStart _ | .nativeName _ | .classEnd => []

/-- Two tables give the same for every type they are asked for when these events are heard. -/
def AliasTable.AgreeOn (aliases others : AliasTable) (events : List Event) : Prop :=
  ∀ event ∈ events, ∀ type ∈ event.asked, aliases.resolve type = others.resolve type

namespace Glue

theorem arguments_congr {declared declared' taken taken' : String → String} {params : List String}
    (hdeclared : ∀ type ∈ params, declared type = declared' type)
    (htaken : ∀ type ∈ params, taken type = taken' type) (start : Nat) :
    arguments start params declared taken = arguments start params declared' taken' := by
  refine List.map_congr_left fun entry hentry => ?_
  have hmem := List.fst_mem_of_mem_zipIdx hentry
  simp only [hdeclared _ hmem, htaken _ hmem]

namespace Function

variable {aliases others : AliasTable} {s : Signature}

theorem ofCtor_congr
    (h : ∀ type ∈ Event.asked (.ctor s), aliases.resolve type = others.resolve type)
    (names : ClassNames) : ofCtor aliases names s = ofCtor others names s := by
  have hargs : arguments 1 s.params id aliases.resolve = arguments 1 s.params id others.resolve :=
    arguments_congr (fun _ _ => rfl) h 1
  rw [ofCtor, ofCtor, hargs]

theorem ofMethod_congr
    (h : ∀ type ∈ Event.asked (.method s), aliases.resolve type = others.resolve type)
    (names : ClassNames) : ofMethod aliases names s = ofMethod others names s := by
  have hparams : ∀ type ∈ s.params, aliases.resolve type = others.resolve type := fun type htype =>
    h type (List.mem_append_left _ htype)
  have hargs := arguments_congr hparams hparams
  cases hvoid : s.returnsVoid with
  | true => simp only [ofMethod, hargs, hvoid, if_true]
  | false =>
    have hreturns : aliases.resolve s.returns = others.resolve s.returns := by
      apply h
      simp [Event.asked, hvoid]
    simp only [ofMethod, hargs, hreturns]

end Function

end Glue

namespace Binder

/-- Two binders are in the same class and have the same record. If `agree` holds, they have also
written the same behind their heads. -/
structure Parallel (agree : Prop) (head head' : ByteArray) (b c : Binder) : Prop where
  unlimited : b.sink.limit = none
  unlimited_other : c.sink.limit = none
  names_eq : b.names = c.names
  registry_eq : b.registry = c.registry
  bytes_eq : ∃ written written', b.sink.bytes = head ++ written ∧
    c.sink.bytes = head' ++ written' ∧ (agree → written = written')

namespace Parallel

variable {agree : Prop} {head head' : ByteArray} {b c : Binder}

theorem writeLines (h : Parallel agree head head' b c) {lines lines' : List String}
    (hlines : agree → lines = lines') :
    (b.writeLines lines).error = none ∧ (c.writeLines lines').error = none ∧
    Parallel agree head head' (b.writeLines lines).state (c.writeLines lines').state := by
  obtain ⟨sink, hlimit, hbytes, hstate, herror⟩ := writeLines_of_limit_eq_none h.unlimited lines
  obtain ⟨sink', hlimit', hbytes', hstate', herror'⟩ :=
    writeLines_of_limit_eq_none h.unlimited_other lines'
  obtain ⟨written, written', hwritten, hwritten', hagree⟩ := h.bytes_eq
  rw [hstate, hstate']
  refine ⟨herror, herror', hlimit, hlimit', h.names_eq, h.registry_eq, ?_⟩
  refine ⟨written ++ (Text.ofLines lines).toUTF8, written' ++ (Text.ofLines lines').toUTF8, ?_, ?_,
    fun hsame => ?_⟩
  · rw [hbytes, hwritten, ByteArray.append_assoc]
  · rw [hbytes', hwritten', ByteArray.append_assoc]
  · rw [hagree hsame, hlines hsame]

theorem define (h : Parallel agree head head' b c) (member : String)
    {function function' : Glue.Function} (hfunction : agree → function = function') :
    (b.define member function).error = (c.define member function').error ∧
    Parallel agree head head' (b.define member function).state
      (c.define member function').state := by
  have hadd : c.registry.addMember c.names.wrapper member =
      b.registry.addMember b.names.wrapper member := by
    rw [h.registry_eq, h.names_eq]
  cases hresult : b.registry.addMember b.names.wrapper member with
  | error e =>
    rw [define_of_error hresult, define_of_error (hadd.trans hresult)]
    exact ⟨rfl, h⟩
  | ok registry =>
    have hrecorded : Parallel agree head head' { b with registry } { c with registry } :=
      ⟨h.unlimited, h.unlimited_other, h.names_eq, rfl, h.bytes_eq⟩
    obtain ⟨herror, herror', hwritten⟩ :=
      hrecorded.writeLines fun hsame => congrArg Glue.Function.lines (hfunction hsame)
    rw [define_of_ok hresult, define_of_ok (hadd.trans hresult),
      Outcome.andThen_of_error_eq_none herror, Outcome.andThen_of_error_eq_none herror']
    exact ⟨rfl, hwritten⟩

variable {aliases others : AliasTable}

/-- An event ends alike for both binders. Their glue for it differs at most in what their tables
give for the types they are asked for. -/
theorem hear (h : Parallel agree head head' b c) {event : Event}
    (hasked : agree → ∀ type ∈ event.asked, aliases.resolve type = others.resolve type) :
    (Binder.hear aliases b event).error = (Binder.hear others c event).error ∧
    Parallel agree head head' (Binder.hear aliases b event).state
      (Binder.hear others c event).state := by
  cases event with
  | classStart wrapper =>
    simp only [Binder.hear, h.registry_eq]
    split
    · exact ⟨rfl, h⟩
    · exact ⟨rfl, h.unlimited, h.unlimited_other, rfl, rfl, h.bytes_eq⟩
  | nativeName native =>
    refine ⟨rfl, h.unlimited, h.unlimited_other, ?_, h.registry_eq, h.bytes_eq⟩
    simp only [Binder.hear, h.names_eq]
  | method s =>
    refine h.define s.memberName fun hsame => ?_
    rw [h.names_eq, Glue.Function.ofMethod_congr (hasked hsame)]
  | ctor s =>
    refine h.define Signature.ctorName fun hsame => ?_
    rw [h.names_eq, Glue.Function.ofCtor_congr (hasked hsame)]
  | classEnd => exact ⟨rfl, h⟩

end Parallel

end Binder

namespace Hearing

/-- Two runs are at the same point of a description. -/
structure Parallel (agree : Prop) (head head' : ByteArray) (h g : Hearing Binder) : Prop where
  recognizer_eq : h.recognizer = g.recognizer
  listener : Binder.Parallel agree head head' h.listener g.listener

namespace Parallel

variable {agree : Prop} {head head' : ByteArray} {h g : Hearing Binder}
  {aliases others : AliasTable}

theorem feed (hparallel : Parallel agree head head' h g) {token : Token}
    (hasked : agree → ∀ event, (h.recognizer.step token).event? = some event →
      ∀ type ∈ event.asked, aliases.resolve type = others.resolve type) :
    (h.feed (Binder.hear aliases) token).error = (g.feed (Binder.hear others) token).error ∧
    Parallel agree head head' (h.feed (Binder.hear aliases) token).state
      (g.feed (Binder.hear others) token).state := by
  obtain ⟨r, b⟩ := h
  obtain ⟨r', c⟩ := g
  obtain ⟨hrecognizer, hlistener⟩ := hparallel
  obtain rfl : r = r' := hrecognizer
  cases hstep : r.step token with
  | next after =>
    rw [feed_of_next hstep, feed_of_next hstep]
    exact ⟨rfl, rfl, hlistener⟩
  | tell event accepted refused =>
    obtain ⟨herror, hheard⟩ := hlistener.hear fun hsame =>
      hasked hsame event (congrArg Step.event? hstep)
    rw [feed_of_tell hstep, feed_of_tell hstep]
    exact ⟨herror, by simp only [herror], hheard⟩
  | reject e =>
    rw [feed_of_reject hstep, feed_of_reject hstep]
    exact ⟨rfl, rfl, hlistener⟩

/-- The runs hear the same to their ends. -/
theorem feedAll (hparallel : Parallel agree head head' h g) (tokens : List Token)
    (hasked : agree → aliases.AgreeOn others (h.told (Binder.hear aliases) tokens)) :
    (h.feedAll (Binder.hear aliases) tokens).error =
      (g.feedAll (Binder.hear others) tokens).error ∧
    h.told (Binder.hear aliases) tokens = g.told (Binder.hear others) tokens ∧
    Parallel agree head head' (h.feedAll (Binder.hear aliases) tokens).state
      (g.feedAll (Binder.hear others) tokens).state := by
  induction tokens generalizing h g with
  | nil =>
    rw [Hearing.feedAll, Hearing.feedAll, told, told]
    exact ⟨rfl, rfl, hparallel⟩
  | cons token tokens ih =>
    obtain ⟨herror, hafter⟩ := hparallel.feed fun hsame event hevent =>
      hasked hsame event (mem_told_of_step _ hevent tokens)
    rw [Hearing.feedAll, Hearing.feedAll]
    cases hfed : (h.feed (Binder.hear aliases) token).error with
    | some e =>
      have hfed' := herror.symm.trans hfed
      rw [Outcome.andThen_of_error hfed, Outcome.andThen_of_error hfed', told_of_error hfed,
        told_of_error hfed', hparallel.recognizer_eq]
      exact ⟨herror, rfl, hafter⟩
    | none =>
      have hfed' := herror.symm.trans hfed
      obtain ⟨hrest, htold, hend⟩ := ih hafter fun hsame event hevent =>
        hasked hsame event (mem_told_of_rest _ hfed hevent)
      rw [Outcome.andThen_of_error_eq_none hfed, Outcome.andThen_of_error_eq_none hfed',
        told_of_error_eq_none hfed, told_of_error_eq_none hfed', hparallel.recognizer_eq, htold]
      exact ⟨hrest, rfl, hend⟩

end Parallel

end Hearing

/-- What a binder hears of a description, whatever else the settings say. -/
def generateTold (settings : Settings) (source : String) : List Event :=
  (Binder.hear settings.aliases).told (.opened settings) source

/-- The bodies under two settings end alike and record the same. They are the same text if the
tables agree on what they are asked for. -/
theorem generateBody_parallel (settings others : Settings) (source : String) :
    (generateBody settings source).error = (generateBody others source).error ∧
    generateTold settings source = generateTold others source ∧
    Binder.Parallel (settings.aliases.AgreeOn others.aliases (generateTold settings source))
      (Glue.prelude settings).toUTF8 (Glue.prelude others).toUTF8
      (generateBody settings source).state (generateBody others source).state := by
  obtain ⟨herror, hstate⟩ := generateBody_eq_fedTokens settings source
  obtain ⟨herror', hstate'⟩ := generateBody_eq_fedTokens others source
  have hopened : Binder.Parallel
      (settings.aliases.AgreeOn others.aliases (generateTold settings source))
      (Glue.prelude settings).toUTF8 (Glue.prelude others).toUTF8
      (.opened settings) (.opened others) := by
    obtain ⟨sink, heq, hlimit, hbytes⟩ := Binder.exists_opened_eq settings
    obtain ⟨sink', heq', hlimit', hbytes'⟩ := Binder.exists_opened_eq others
    rw [heq, heq']
    refine ⟨hlimit, hlimit', rfl, rfl, .empty, .empty, ?_, ?_, fun _ => rfl⟩
    · exact hbytes.trans ByteArray.append_empty.symm
    · exact hbytes'.trans ByteArray.append_empty.symm
  have hstart : Hearing.Parallel
      (settings.aliases.AgreeOn others.aliases (generateTold settings source))
      (Glue.prelude settings).toUTF8 (Glue.prelude others).toUTF8
      ⟨{}, .opened settings⟩ ⟨{}, .opened others⟩ := ⟨rfl, hopened⟩
  obtain ⟨hfed, htold, hend⟩ := hstart.feedAll (Token.lex source).tokens id
  rw [herror, herror', hstate, hstate']
  refine ⟨?_, htold, hend.listener⟩
  exact congr (congrArg Option.or hfed)
    (congrArg Recognizer.finish? hend.recognizer_eq)

/-- Both texts are a head, a middle part and, if there is no error, a registration. -/
theorem generate_parallel (settings others : Settings) (source : String) :
    (generate settings (.ofLimit none) source).error =
      (generate others (.ofLimit none) source).error ∧
    (generate settings (.ofLimit none) source).state.registry =
      (generate others (.ofLimit none) source).state.registry ∧
    ∃ glue glue',
      (settings.aliases.AgreeOn others.aliases (generateTold settings source) → glue = glue') ∧
      ((generate settings (.ofLimit none) source).error = none →
        (generate settings (.ofLimit none) source).state.sink.bytes =
          (Glue.prelude settings).toUTF8 ++ glue ++ (Glue.registration settings
            (generate settings (.ofLimit none) source).state.registry).toUTF8 ∧
        (generate others (.ofLimit none) source).state.sink.bytes =
          (Glue.prelude others).toUTF8 ++ glue' ++ (Glue.registration others
            (generate others (.ofLimit none) source).state.registry).toUTF8) ∧
      ((generate settings (.ofLimit none) source).error ≠ none →
        (generate settings (.ofLimit none) source).state.sink.bytes =
          (Glue.prelude settings).toUTF8 ++ glue ∧
        (generate others (.ofLimit none) source).state.sink.bytes =
          (Glue.prelude others).toUTF8 ++ glue') := by
  obtain ⟨herror, -, hbody⟩ := generateBody_parallel settings others source
  obtain ⟨glue, glue', hwritten, hwritten', hagree⟩ := hbody.bytes_eq
  cases hended : (generateBody settings source).error with
  | none =>
    obtain ⟨hnone, hregistry, hbytes⟩ := generate_of_body hended hbody.unlimited
    obtain ⟨hnone', hregistry', hbytes'⟩ :=
      generate_of_body (herror.symm.trans hended) hbody.unlimited_other
    rw [hwritten] at hbytes
    rw [hwritten'] at hbytes'
    rw [hnone, hnone', hregistry, hregistry']
    exact ⟨rfl, hbody.registry_eq, glue, glue', hagree, fun _ => ⟨hbytes, hbytes'⟩,
      fun hne => absurd rfl hne⟩
  | some e =>
    rw [generate_of_body_error hended, generate_of_body_error (herror.symm.trans hended)]
    refine ⟨herror, hbody.registry_eq, glue, glue', hagree, fun hnone => ?_,
      fun _ => ⟨hwritten, hwritten'⟩⟩
    rw [hended] at hnone
    cases hnone

/-- Each setting shows in its own part of the text. Under any two settings a description ends alike,
records the same and tells the same. The text behind the head is that of the other settings if they
have other includes and usings only; the text before the registration, which is all of it after an
error, if they have another registering function and interpreter only; the whole text, if they have
another alias table only and the tables agree on the types they are asked for. -/
theorem generate_noninterference (settings others : Settings) (source : String) :
    ((generate settings (.ofLimit none) source).error =
        (generate others (.ofLimit none) source).error ∧
      (generate settings (.ofLimit none) source).state.registry =
        (generate others (.ofLimit none) source).state.registry ∧
      generateTold settings source = generateTold others source) ∧
    (others = { settings with includes := others.includes, usings := others.usings } →
      ∃ behind,
        (generate settings (.ofLimit none) source).state.sink.bytes =
          (Glue.prelude settings).toUTF8 ++ behind ∧
        (generate others (.ofLimit none) source).state.sink.bytes =
          (Glue.prelude others).toUTF8 ++ behind) ∧
    (others = { settings with
        registerFunction := others.registerFunction, interpreter := others.interpreter } →
      ∃ before,
        ((generate settings (.ofLimit none) source).error = none →
          (generate settings (.ofLimit none) source).state.sink.bytes =
            before ++ (Glue.registration settings
              (generate settings (.ofLimit none) source).state.registry).toUTF8 ∧
          (generate others (.ofLimit none) source).state.sink.bytes =
            before ++ (Glue.registration others
              (generate others (.ofLimit none) source).state.registry).toUTF8) ∧
        ((generate settings (.ofLimit none) source).error ≠ none →
          (generate settings (.ofLimit none) source).state.sink.bytes = before ∧
          (generate others (.ofLimit none) source).state.sink.bytes = before)) ∧
    (others = { settings with aliases := others.aliases } →
      settings.aliases.AgreeOn others.aliases (generateTold settings source) →
      (generate settings (.ofLimit none) source).state.sink.bytes =
        (generate others (.ofLimit none) source).state.sink.bytes) := by
  obtain ⟨-, htold, -⟩ := generateBody_parallel settings others source
  obtain ⟨herror, hregistry, glue, glue', hglue, hdone, hfailed⟩ :=
    generate_parallel settings others source
  refine ⟨⟨herror, hregistry, htold⟩, fun hsame => ?_, fun hsame => ?_, fun hsame hagree => ?_⟩
  · have haliases : others.aliases = settings.aliases := by rw [hsame]
    have hregistration : Glue.registration others = Glue.registration settings := by
      rw [hsame]
      rfl
    obtain rfl := hglue fun _ _ _ _ => by rw [haliases]
    by_cases hnone : (generate settings (.ofLimit none) source).error = none
    · obtain ⟨hbytes, hbytes'⟩ := hdone hnone
      rw [← hregistry, hregistration] at hbytes'
      rw [ByteArray.append_assoc] at hbytes hbytes'
      exact ⟨_, hbytes, hbytes'⟩
    · exact ⟨glue, hfailed hnone⟩
  · have haliases : others.aliases = settings.aliases := by rw [hsame]
    have hprelude : Glue.prelude others = Glue.prelude settings := by
      rw [hsame]
      rfl
    obtain rfl := hglue fun _ _ _ _ => by rw [haliases]
    rw [hprelude] at hdone hfailed
    exact ⟨_, hdone, hfailed⟩
  · have hprelude : Glue.prelude others = Glue.prelude settings := by
      rw [hsame]
      rfl
    have hregistration : Glue.registration others = Glue.registration settings := by
      rw [hsame]
      rfl
    obtain rfl := hglue hagree
    rw [hprelude, hregistration, ← hregistry] at hdone
    rw [hprelude] at hfailed
    by_cases hnone : (generate settings (.ofLimit none) source).error = none
    · obtain ⟨hbytes, hbytes'⟩ := hdone hnone
      exact hbytes.trans hbytes'.symm
    · obtain ⟨hbytes, hbytes'⟩ := hfailed hnone
      exact hbytes.trans hbytes'.symm

/-- Settings without a head, with other names in the registration, and with other aliases for `bool`
and `char`, which this class does not ask for. The other description declares its method twice. -/
theorem generate_noninterference_one_class :
    (∃ behind,
      (generate {} (.ofLimit none) "class A { ctor(int) void f(double) }").state.sink.bytes =
        (Glue.prelude {}).toUTF8 ++ behind ∧
      (generate { includes := [], usings := [] } (.ofLimit none)
        "class A { ctor(int) void f(double) }").state.sink.bytes =
          (Glue.prelude { includes := [], usings := [] }).toUTF8 ++ behind) ∧
    (∃ before,
      (generate {} (.ofLimit none) "class A { ctor(int) void f(double) }").state.sink.bytes =
        before ++ (Glue.registration {} (generate {} (.ofLimit none)
          "class A { ctor(int) void f(double) }").state.registry).toUTF8 ∧
      (generate { interpreter := "lua" } (.ofLimit none)
        "class A { ctor(int) void f(double) }").state.sink.bytes =
          before ++ (Glue.registration { interpreter := "lua" }
            (generate { interpreter := "lua" } (.ofLimit none)
              "class A { ctor(int) void f(double) }").state.registry).toUTF8) ∧
    (generate {} (.ofLimit none) "class A { void f() void f() }").state.sink.bytes =
      (generate { interpreter := "lua" } (.ofLimit none)
        "class A { void f() void f() }").state.sink.bytes ∧
    (generate {} (.ofLimit none) "class A { ctor(int) void f(double) }").state.sink.bytes =
      (generate { aliases := .ofList [("char", "int"), ("double", "lua_Number"),
        ("int", "lua_Integer")] } (.ofLimit none)
          "class A { ctor(int) void f(double) }").state.sink.bytes := by
  have hended :
      (generate {} (.ofLimit none) "class A { ctor(int) void f(double) }").error = none := by
    decide +kernel
  have htwice : (generate {} (.ofLimit none) "class A { void f() void f() }").error ≠ none := by
    decide +kernel
  have htold : generateTold {} "class A { ctor(int) void f(double) }" =
      [.classStart "A", .ctor { params := ["int"], isCtor := true },
        .method { returns := "void", name := "f", params := ["double"] }, .classEnd] := by
    decide +kernel
  obtain ⟨-, hhead, -⟩ := generate_noninterference {} { includes := [], usings := [] }
    "class A { ctor(int) void f(double) }"
  obtain ⟨-, -, hnames, -⟩ := generate_noninterference {} { interpreter := "lua" }
    "class A { ctor(int) void f(double) }"
  obtain ⟨-, -, hfailed, -⟩ := generate_noninterference {} { interpreter := "lua" }
    "class A { void f() void f() }"
  obtain ⟨-, -, -, haliases⟩ := generate_noninterference {}
    { aliases := .ofList [("char", "int"), ("double", "lua_Number"), ("int", "lua_Integer")] }
    "class A { ctor(int) void f(double) }"
  refine ⟨hhead rfl, ?_, ?_, haliases rfl ?_⟩
  · obtain ⟨before, hdone, -⟩ := hnames rfl
    exact ⟨before, hdone hended⟩
  · obtain ⟨before, -, hwritten⟩ := hfailed rfl
    obtain ⟨hbytes, hbytes'⟩ := hwritten htwice
    exact hbytes.trans hbytes'.symm
  · rw [htold, AliasTable.AgreeOn]
    decide +kernel

end LuaGlue
