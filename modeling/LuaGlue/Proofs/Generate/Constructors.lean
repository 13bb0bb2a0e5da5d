import LuaGlue.Proofs.Generate.Correspondence
import LuaGlue.Proofs.Generate.Limit

namespace LuaGlue

open Grammar

namespace Signature

variable {s told : Signature}

theorem event_eq_ctor_iff : s.event = .ctor told ↔ s = told ∧ s.isCtor = true := by
  cases hctor : s.isCtor <;> simp [event, hctor]

theorem event_eq_method_iff : s.event = .method told ↔ s = told ∧ s.isCtor = false := by
  cases hctor : s.isCtor <;> simp [event, hctor]

end Signature

namespace Grammar.ClassDecl

/-- A constructor of the class is told. -/
def DeclaresCtor (c : ClassDecl) : Prop :=
  ∃ s, Event.ctor s ∈ c.events

/-- A method of the class is told that has this name. Where the name of a method is expected, `ctor`
is a name like any other. -/
def NamesMethod (c : ClassDecl) (name : String) : Prop :=
  ∃ s, Event.method s ∈ c.events ∧ s.name = name

variable {c : ClassDecl}

/-- A class has exactly its own declarations told. -/
theorem mem_events_iff {event : Event} (h : event.isDeclaration = true) :
    event ∈ c.events ↔ ∃ s ∈ c.declarations, s.event = event := by
  have hheader : ∀ other ∈ c.header, other.isDeclaration = false := by
    rw [header]
    cases c.native <;> simp [Event.isDeclaration]
  rw [events_eq, List.mem_append, List.mem_append, ← List.mem_map]
  constructor
  · rintro ((hmem | hmem) | hmem)
    · rw [hheader event hmem] at h
      cases h
    · exact hmem
    · rw [List.mem_singleton.1 hmem] at h
      cases h
  · exact fun hmem => .inl (.inr hmem)

theorem declaresCtor_iff : c.DeclaresCtor ↔ ∃ s ∈ c.declarations, s.isCtor = true := by
  constructor
  · rintro ⟨told, htold⟩
    obtain ⟨s, hs, hevent⟩ := (mem_events_iff rfl).1 htold
    exact ⟨s, hs, (Signature.event_eq_ctor_iff.1 hevent).2⟩
  · rintro ⟨s, hs, hctor⟩
    exact ⟨s, (mem_events_iff rfl).2 ⟨s, hs, Signature.event_eq_ctor_iff.2 ⟨rfl, hctor⟩⟩⟩

theorem namesMethod_iff {name : String} :
    c.NamesMethod name ↔ ∃ s ∈ c.declarations, s.isCtor = false ∧ s.name = name := by
  constructor
  · rintro ⟨told, htold, hname⟩
    obtain ⟨s, hs, hevent⟩ := (mem_events_iff rfl).1 htold
    obtain ⟨rfl, hctor⟩ := Signature.event_eq_method_iff.1 hevent
    exact ⟨s, hs, hctor, hname⟩
  · rintro ⟨s, hs, hctor, hname⟩
    have hevent := Signature.event_eq_method_iff.2 ⟨rfl, hctor⟩
    exact ⟨s, (mem_events_iff rfl).2 ⟨s, hs, hevent⟩, hname⟩

/-- What it means for a class that a member is recorded under the name of constructors. -/
structure CtorRecorded (aliases : AliasTable) (c : ClassDecl) : Prop where
  mem_iff : Signature.ctorName ∈ c.entry.members ↔
    c.DeclaresCtor ∨ c.NamesMethod Signature.ctorName
  count_le_one : c.entry.members.count Signature.ctorName ≤ 1
  /-- A declared constructor takes the name. -/
  of_declares : c.DeclaresCtor →
    c.entry.members.count Signature.ctorName = 1 ∧ ¬ c.NamesMethod Signature.ctorName
  means_ctor_iff : (Signature.ctorName ∈ c.entry.members ↔ c.DeclaresCtor) ↔
    ¬ c.NamesMethod Signature.ctorName
  /-- There is one symbol for both, and what stands behind it constructs the native class only if a
  constructor is declared. -/
  glue : ∀ s ∈ c.declarations, s.memberName = Signature.ctorName →
    (s.glue aliases c.names).symbol = Glue.symbol c.name.text Signature.ctorName ∧
    ((s.glue aliases c.names).action = .construct c.names.native ↔ c.DeclaresCtor)

/-- A declaration is recorded under the name either as a constructor or as a method of this
name. -/
theorem ctorName_mem_members_iff :
    Signature.ctorName ∈ c.entry.members ↔
      c.DeclaresCtor ∨ c.NamesMethod Signature.ctorName := by
  rw [declaresCtor_iff, namesMethod_iff, entry, List.mem_map]
  constructor
  · rintro ⟨s, hs, hname⟩
    cases hctor : s.isCtor with
    | true => exact .inl ⟨s, hs, hctor⟩
    | false =>
      rw [Signature.memberName, hctor] at hname
      exact .inr ⟨s, hs, hctor, hname⟩
  · rintro (⟨s, hs, hctor⟩ | ⟨s, hs, hctor, hname⟩)
    · exact ⟨s, hs, by rw [Signature.memberName, hctor, if_pos rfl]⟩
    · exact ⟨s, hs, by rw [Signature.memberName, hctor, hname]; rfl⟩

/-- No member is recorded twice, be it as a constructor or as a method. -/
theorem not_namesMethod_of_declaresCtor (hnodup : c.entry.members.Nodup) (h : c.DeclaresCtor) :
    ¬ c.NamesMethod Signature.ctorName := by
  obtain ⟨s, hs, hctor⟩ := declaresCtor_iff.1 h
  intro hmethod
  obtain ⟨other, hother, hother_ctor, hname⟩ := namesMethod_iff.1 hmethod
  have hsame : s.memberName = other.memberName := by
    rw [Signature.memberName, Signature.memberName, hctor, hother_ctor, hname]
    rfl
  obtain rfl : s = other := List.inj_on_of_nodup_map hnodup hs hother hsame
  rw [hctor] at hother_ctor
  cases hother_ctor

theorem action_eq_construct_iff (aliases : AliasTable) (names : Glue.ClassNames) (s : Signature) :
    (s.glue aliases names).action = .construct names.native ↔ s.isCtor = true := by
  cases hctor : s.isCtor with
  | true => simp [Signature.glue, hctor, Glue.Function.ofCtor]
  | false => cases hvoid : s.returnsVoid <;>
      simp [Signature.glue, hctor, hvoid, Glue.Function.ofMethod]

theorem ctorRecorded_of_nodup (aliases : AliasTable) (hnodup : c.entry.members.Nodup) :
    c.CtorRecorded aliases := by
  have hcount := List.nodup_iff_count_le_one.1 hnodup Signature.ctorName
  refine ⟨ctorName_mem_members_iff, hcount, fun hdeclares => ⟨?_, ?_⟩, ⟨?_, ?_⟩, ?_⟩
  · have hmem := ctorName_mem_members_iff.2 (.inl hdeclares)
    have hpos := List.count_pos_iff.2 hmem
    omega
  · exact not_namesMethod_of_declaresCtor hnodup hdeclares
  · intro hmeans hmethod
    have hdeclares := hmeans.1 (ctorName_mem_members_iff.2 (.inr hmethod))
    exact not_namesMethod_of_declaresCtor hnodup hdeclares hmethod
  · intro hmethod
    rw [ctorName_mem_members_iff, or_iff_left hmethod]
  · intro s hs hname
    refine ⟨by rw [Signature.symbol_glue, hname]; rfl, ?_⟩
    rw [action_eq_construct_iff]
    refine ⟨fun hctor => declaresCtor_iff.2 ⟨s, hs, hctor⟩, fun hdeclares => ?_⟩
    -- Otherwise the declaration would be a method with the name of the constructor.
    by_contra hctor
    rw [Bool.not_eq_true] at hctor
    rw [Signature.memberName, hctor] at hname
    exact not_namesMethod_of_declaresCtor hnodup hdeclares (namesMethod_iff.2 ⟨s, hs, hctor, hname⟩)

end Grammar.ClassDecl

/-- What is recorded as the constructor of a class, where generating succeeds. The name `ctor` is
recorded for a constructor or for a method of that name, for one of them only, and once. So it means
the constructor exactly in the classes that have no method of that name, and only there what is
registered under it constructs the native class. -/
theorem generate_ctor_recorded {settings : Settings} {limit : Option Nat} {source : String}
    (h : (generate settings (.ofLimit limit) source).error = none) :
    ∃ classes : List ClassDecl, classes.flatMap ClassDecl.tokens = (Token.lex source).tokens ∧
      (Binder.hear settings.aliases).told (Binder.writeHead settings limit).state source =
        classes.flatMap ClassDecl.events ∧
      (generate settings (.ofLimit limit) source).state.registry.entries =
        classes.map ClassDecl.entry ∧
      ∀ c ∈ classes, c.CtorRecorded settings.aliases := by
  obtain ⟨hnone, hregistry⟩ := generate_of_limited h
  obtain ⟨classes, htree, -, hentries, -⟩ := exists_tree_of_generate hnone
  obtain ⟨others, hothers, htold⟩ := Listener.exists_tree_of_run (run_of_generate h)
  obtain rfl : classes = others := tokens_injective (htree.trans hothers.symm)
  rw [← hregistry] at hentries
  refine ⟨classes, htree, htold, hentries, fun c hc => ?_⟩
  have hentry : c.entry ∈ (generate settings (.ofLimit limit) source).state.registry.entries :=
    hentries ▸ List.mem_map_of_mem hc
  exact ClassDecl.ctorRecorded_of_nodup _ (Registry.distinct_members _ _ hentry)

/-- A class with a constructor between two methods, and room for all of its glue. -/
theorem generate_ctor_recorded_between_methods :
    ∃ c : ClassDecl, c.tokens = (Token.lex "class A { void f() ctor(int) void g() }").tokens ∧
      c.entry.members = ["f", "ctor", "g"] ∧ c.DeclaresCtor ∧
      ¬ c.NamesMethod Signature.ctorName := by
  have hnone : (generate { includes := [], usings := [] } (.ofLimit (some 1000))
      "class A { void f() ctor(int) void g() }").error = none := by
    decide +kernel
  obtain ⟨classes, htree, htold, hentries, hrecorded⟩ := generate_ctor_recorded hnone
  have hclass : (generate { includes := [], usings := [] } (.ofLimit (some 1000))
      "class A { void f() ctor(int) void g() }").state.registry.entries =
        [⟨"A", ["f", "ctor", "g"]⟩] := by
    decide +kernel
  obtain ⟨c, rfl, hentry⟩ := List.map_eq_singleton_iff.1 (hentries.symm.trans hclass)
  rw [List.flatMap_singleton] at htree htold
  have hdeclares : c.DeclaresCtor := by
    refine ⟨{ params := ["int"], isCtor := true }, ?_⟩
    rw [← htold]
    decide +kernel
  have hmembers : c.entry.members = ["f", "ctor", "g"] := by rw [hentry]
  exact ⟨c, htree, hmembers, hdeclares,
    ((hrecorded c List.mem_cons_self).of_declares hdeclares).2⟩

/-- A class without a constructor, for which one is recorded. What is registered under its name
calls a method. -/
theorem generate_method_named_ctor :
    (generate {} (.ofLimit none) "class A { void ctor() }").error = none ∧
    (generate {} (.ofLimit none) "class A { void ctor() }").state.registry.entries =
      [⟨"A", ["ctor"]⟩] ∧
    (Binder.hear .standard).told (Binder.writeHead {} none).state "class A { void ctor() }" =
      [.classStart "A", .method { returns := "void", name := "ctor" }, .classEnd] ∧
    ((Binder.hear .standard).run (.fresh none)
        "class A { void ctor() }").state.listener.sink.bytes =
      (Text.ofLines
        ["int _A_ctor(lua_State* L) \x7b",
          "  assert(lua_gettop(L) == 1);",
          "  A* obj = luaGet<A*>(L, 1);",
          "  obj->ctor();",
          "  return 0;",
          "\x7d",
          ""]).toUTF8 := by
  decide +kernel

end LuaGlue
