import LuaGlue.Proofs.Binder.History

namespace LuaGlue

/-- A listener that is told some events, errors passed over. -/
def Listener.persist {σ : Type} (hear : Listener σ) (state : σ) (events : List Event) : σ :=
  events.foldl (fun state event => (hear state event).state) state

namespace Binder

variable (aliases : AliasTable)

/-- The definitions that a binder accepts from some calls, in order. -/
def accepted (b : Binder) : List Event → List (String × Glue.Function)
  | [] => []
  | call :: rest =>
    (b.accepted? aliases call).toList ++ accepted (hear aliases b call).state rest

/-- The glue of some definitions. -/
def glueOf (definitions : List (String × Glue.Function)) : ByteArray :=
  (String.join (definitions.map fun definition => definition.2.text)).toUTF8

/-- The registry has the members of some definitions, and the sink has their glue up to its
limit. -/
structure InStep (limit : Option Nat) (definitions : List (String × Glue.Function))
    (b : Binder) : Prop where
  limit_eq : b.sink.limit = limit
  current : b.IsCurrent
  members_eq : b.registry.entries.flatMap ClassEntry.members = definitions.map Prod.fst
  bytes_eq : b.sink.bytes = Sink.cut limit (glueOf definitions)

variable {limit : Option Nat} {definitions : List (String × Glue.Function)} {b : Binder}

theorem glueOf_append (first second : List (String × Glue.Function)) :
    glueOf (first ++ second) = glueOf first ++ glueOf second := by
  simp [glueOf]

theorem glueOf_singleton (definition : String × Glue.Function) :
    glueOf [definition] = definition.2.text.toUTF8 := by
  simp [glueOf]

theorem glueOf_concat (definitions : List (String × Glue.Function))
    (definition : String × Glue.Function) :
    glueOf (definitions ++ [definition]) = glueOf definitions ++ definition.2.text.toUTF8 := by
  rw [glueOf_append, glueOf_singleton]

theorem InStep.keeps (h : InStep limit definitions b) : Keeps limit (glueOf definitions) b :=
  ⟨h.limit_eq, h.current, h.bytes_eq⟩

theorem InStep.of_keeps (h : Keeps limit (glueOf definitions) b)
    (hmembers : b.registry.declarations.map Prod.snd = definitions.map Prod.fst) :
    InStep limit definitions b :=
  ⟨h.limit_eq, h.current, b.registry.map_snd_declarations.symm.trans hmembers, h.bytes_eq⟩

theorem InStep.map_snd_declarations (h : InStep limit definitions b) :
    b.registry.declarations.map Prod.snd = definitions.map Prod.fst :=
  b.registry.map_snd_declarations.trans h.members_eq

/-- What a call can do: it is refused as a duplicate and changes nothing, or it is a definition and
is accepted, or it defines nothing. -/
theorem InStep.hear_cases (h : InStep limit definitions b) (call : Event) :
    (b.accepted? aliases call = none ∧ (hear aliases b call).state = b ∧
      ∃ e, (hear aliases b call).error = some e ∧ e.IsDuplicate) ∨
    (∃ definition, b.accepted? aliases call = some definition ∧
      InStep limit (definitions ++ [definition]) (hear aliases b call).state ∧
      (hear aliases b call).error =
        if Sink.overflows limit (glueOf (definitions ++ [definition])) then some .sinkFull
        else none) ∨
    (b.accepted? aliases call = none ∧ InStep limit definitions (hear aliases b call).state ∧
      (hear aliases b call).error = none) := by
  cases h.keeps.answers aliases call with
  | duplicate hnone hsame _ herror hduplicate => exact .inl ⟨hnone, hsame, _, herror, hduplicate⟩
  | @defined member function hsome hkeeps hdeclarations _ herror =>
    have hglue : glueOf (definitions ++ [(member, function)]) =
        glueOf definitions ++ function.text.toUTF8 := glueOf_concat _ _
    rw [← hglue] at hkeeps herror
    refine .inr (.inl ⟨_, hsome, .of_keeps hkeeps ?_, herror⟩)
    rw [hdeclarations, List.map_append, h.map_snd_declarations, List.map_append]
    rfl
  | other hnone hkeeps hdeclarations _ herror =>
    refine .inr (.inr ⟨hnone, .of_keeps hkeeps ?_, herror⟩)
    rw [hdeclarations, h.map_snd_declarations]

theorem InStep.hear (h : InStep limit definitions b) (call : Event) :
    InStep limit (definitions ++ (b.accepted? aliases call).toList)
      (hear aliases b call).state := by
  rcases h.hear_cases aliases call with
    ⟨hnone, hsame, -⟩ | ⟨definition, hsome, hafter, -⟩ | ⟨hnone, hafter, -⟩
  · rwa [hnone, hsame, Option.toList_none, List.append_nil]
  · rwa [hsome]
  · rwa [hnone, Option.toList_none, List.append_nil]

theorem InStep.persist (h : InStep limit definitions b) (calls : List Event) :
    InStep limit (definitions ++ b.accepted aliases calls)
      ((Binder.hear aliases).persist b calls) := by
  induction calls generalizing b definitions with
  | nil => rwa [accepted, List.append_nil]
  | cons call rest ih =>
    rw [accepted, ← List.append_assoc]
    exact ih (h.hear aliases call)

/-- What is accepted of some calls is decided by them and by the calls before. -/
theorem InStep.accepted_eq (h : InStep limit definitions b) {before : List Event}
    (hreflects : Reflects before b) (calls : List Event) :
    b.accepted aliases calls = History.accepted aliases before calls ∧
    Reflects (before ++ calls) ((Binder.hear aliases).persist b calls) := by
  induction calls generalizing b definitions before with
  | nil =>
    rw [List.append_nil]
    exact ⟨rfl, hreflects⟩
  | cons call rest ih =>
    obtain ⟨haccepted, hafter⟩ :=
      ih (h.hear aliases call) (hreflects.hear aliases h.current call)
    rw [List.append_assoc, List.singleton_append] at hafter
    rw [accepted, History.accepted, haccepted, hreflects.accepted?_eq aliases h.current]
    exact ⟨rfl, hafter⟩

/-- A new binder behind some calls, errors passed over. No description needs to stand behind them:
definitions may come before any class, names may be repeated, and calls may go on behind failures
and behind a full sink. -/
def called (aliases : AliasTable) (limit : Option Nat) (calls : List Event) : Binder :=
  (hear aliases).persist (fresh limit) calls

theorem inStep_fresh (limit : Option Nat) : InStep limit [] (fresh limit) := by
  refine ⟨rfl, .inl ⟨rfl, rfl⟩, rfl, ?_⟩
  cases limit with
  | none => rfl
  | some n => exact (Sink.extract_of_size_le (Nat.zero_le n)).symm

theorem inStep_called (aliases : AliasTable) (limit : Option Nat) (calls : List Event) :
    InStep limit ((fresh limit).accepted aliases calls) (called aliases limit calls) :=
  (inStep_fresh limit).persist aliases calls

/-- Whatever calls a new binder is given: its class is the last one of the registry, and its names
are the ones that the calls say, that is, those of the class that was started last, with the real
name that was last given to it. A definition is accepted if and only if its member is new among the
calls since that start. The members of the registry are those of the accepted definitions in the
order of the calls, and the output is their glue up to the limit, each under the names that were
current at its call. A call only fails as a duplicate, and then it changes nothing, or since the
sink is full. That happens exactly for an accepted definition whose glue does not fit behind the
glue before it. -/
theorem calls_in_step (aliases : AliasTable) (limit : Option Nat) (calls : List Event) :
    (called aliases limit calls).IsCurrent ∧
    (called aliases limit calls).names = History.names calls ∧
    (∀ call, (called aliases limit calls).accepted? aliases call =
      History.accepted? aliases calls call) ∧
    (fresh limit).accepted aliases calls = History.accepted aliases [] calls ∧
    (called aliases limit calls).registry.entries.flatMap ClassEntry.members =
      (History.accepted aliases [] calls).map Prod.fst ∧
    (called aliases limit calls).sink.bytes =
      Sink.cut limit (glueOf (History.accepted aliases [] calls)) ∧
    (∀ call e, (hear aliases (called aliases limit calls) call).error = some e →
      (e.IsDuplicate ∧
        (hear aliases (called aliases limit calls) call).state = called aliases limit calls) ∨
      e = .sinkFull) ∧
    ∀ call, (hear aliases (called aliases limit calls) call).error = some .sinkFull ↔
      ∃ definition, History.accepted? aliases calls call = some definition ∧
        Sink.overflows limit
          (glueOf (History.accepted aliases [] calls ++ [definition])) = true := by
  obtain ⟨haccepted, hreflects⟩ :=
    (inStep_fresh limit).accepted_eq aliases (reflects_fresh limit) calls
  have h := inStep_called aliases limit calls
  rw [haccepted] at h
  have hdecided : ∀ call, (called aliases limit calls).accepted? aliases call =
      History.accepted? aliases calls call := hreflects.accepted?_eq aliases h.current
  refine ⟨h.current, hreflects.names_eq, hdecided, haccepted, h.members_eq, h.bytes_eq,
    fun call e herror => ?_, fun call => ?_⟩
  · rcases h.hear_cases aliases call with
      ⟨-, hsame, e', herror', hduplicate⟩ | ⟨definition, -, -, hfails⟩ | ⟨-, -, hnone⟩
    · obtain rfl : e' = e := Option.some.inj (herror'.symm.trans herror)
      exact .inl ⟨hduplicate, hsame⟩
    · rw [herror] at hfails
      split at hfails <;> cases hfails
      exact .inr rfl
    · rw [herror] at hnone
      cases hnone
  · rw [← hdecided]
    rcases h.hear_cases aliases call with
      ⟨hnone, -, e, herror, hduplicate⟩ | ⟨definition, hsome, -, hfails⟩ | ⟨hnone, -, herror⟩
    · rw [hnone, herror]
      refine iff_of_false ?_ ?_
      · rintro ⟨rfl⟩
        exact hduplicate
      · rintro ⟨_, hsome, -⟩
        cases hsome
    · rw [hsome, hfails]
      simp
    · rw [hnone, herror]
      simp

/-- A constructor before any class, a class whose method does not fit although its real name is
written, and a class that is declared twice. -/
theorem calls_in_step_full_sink :
    (called .standard (some 162) [.ctor {}, .classStart "A", .nativeName "N",
      .method { name := "f" }]).names = ⟨"A", "N"⟩ ∧
    (called .standard (some 162) [.ctor {}, .classStart "A", .nativeName "N",
        .method { name := "f" }]).sink.bytes =
      Sink.cut (some 162) (glueOf [("ctor", .ofCtor .standard {} {}),
        ("f", .ofMethod .standard ⟨"A", "N"⟩ { name := "f" })]) ∧
    (called .standard (some 162) [.ctor {}, .classStart "A", .nativeName "N",
      .method { name := "f" }]).registry.entries = [⟨"", ["ctor"]⟩, ⟨"A", ["f"]⟩] ∧
    (hear .standard (called .standard (some 162) [.ctor {}, .classStart "A", .nativeName "N",
      .method { name := "f" }]) (.classStart "A")).error = some (.duplicateClass "A") ∧
    (hear .standard (called .standard (some 162) [.ctor {}, .classStart "A", .nativeName "N",
        .method { name := "f" }]) (.classStart "A")).state =
      called .standard (some 162) [.ctor {}, .classStart "A", .nativeName "N",
        .method { name := "f" }] := by
  have haccepted : History.accepted .standard [] [.ctor {}, .classStart "A", .nativeName "N",
      .method { name := "f" }] = [("ctor", .ofCtor .standard {} {}),
        ("f", .ofMethod .standard ⟨"A", "N"⟩ { name := "f" })] := by
    decide +kernel
  have herror : (hear .standard (called .standard (some 162) [.ctor {}, .classStart "A",
      .nativeName "N", .method { name := "f" }]) (.classStart "A")).error =
        some (.duplicateClass "A") := by
    decide +kernel
  obtain ⟨-, hnames, -, -, -, hbytes, hfails, -⟩ :=
    calls_in_step .standard (some 162) [.ctor {}, .classStart "A", .nativeName "N",
      .method { name := "f" }]
  rw [haccepted] at hbytes
  obtain ⟨-, hsame⟩ | hfull := hfails _ _ herror
  · exact ⟨hnames.trans (by decide +kernel), hbytes, by decide +kernel, herror, hsame⟩
  · cases hfull

end Binder

end LuaGlue
