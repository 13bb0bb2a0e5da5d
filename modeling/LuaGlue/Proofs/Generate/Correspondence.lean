import LuaGlue.Proofs.Generate.Body
import LuaGlue.Proofs.Generate.Translation
import LuaGlue.Proofs.Glue.Lines
import LuaGlue.Proofs.Glue.Scan
import LuaGlue.Proofs.Grammar.Acceptance
import LuaGlue.Proofs.Token.Layout

namespace LuaGlue

open Grammar

/-- The body of a text that is generated for a tree agrees with the translation of the tree. -/
theorem generateBody_agrees (settings : Settings) {source : String} {classes : List ClassDecl}
    (htree : classes.flatMap ClassDecl.tokens = (Token.lex source).tokens) :
    Agrees (Binder.Holds (classes.map ClassDecl.entry)) (generateBody settings source)
      (translate settings.aliases [] (classes.flatMap ClassDecl.introductions)
        (Glue.prelude settings)) := by
  obtain ⟨hregistry, hlimit, hbytes⟩ := Binder.opened_spec settings
  have hopened : Binder.Holds [] (.opened settings) (Glue.prelude settings) :=
    ⟨hlimit, hbytes, hregistry⟩
  exact hopened.agrees_run settings.aliases htree

/-- What a description without an error is translated to. -/
theorem exists_tree_of_generate {settings : Settings} {source : String}
    (h : (generate settings (.ofLimit none) source).error = none) :
    ∃ classes : List ClassDecl, classes.flatMap ClassDecl.tokens = (Token.lex source).tokens ∧
      (Binder.hear settings.aliases).told (.opened settings) source =
        classes.flatMap ClassDecl.events ∧
      (generate settings (.ofLimit none) source).state.registry.entries =
        classes.map ClassDecl.entry ∧
      (generate settings (.ofLimit none) source).state.sink.bytes =
        (Glue.prelude settings ++
          (glueText settings.aliases (classes.flatMap ClassDecl.introductions) ++
            Glue.registration settings
              (generate settings (.ofLimit none) source).state.registry)).toUTF8 := by
  have hbody : (generateBody settings source).error = none := by
    rw [generate_eq_body, Outcome.error_andThen_eq_none_iff] at h
    exact h.1
  obtain ⟨classes, htree, htold⟩ := Listener.exists_tree_of_run hbody
  have hagrees := generateBody_agrees settings htree
  -- A repetition would have ended the translation with an error.
  have hnodup : ((classes.flatMap ClassDecl.introductions).map Introduction.key).Nodup := by
    by_contra hrepeated
    rw [← List.nil_append (List.map _ _)] at hrepeated
    obtain ⟨before, x, behind, -, -, -, htranslate⟩ :=
      exists_repetition_of_not_nodup List.nodup_nil hrepeated (Glue.prelude settings)
    have herror := hagrees.error_eq
    rw [htranslate, hbody] at herror
    cases herror
  have hholds := hagrees.post hbody
  obtain ⟨-, hregistry, hwritten⟩ := generate_of_body hbody hholds.unlimited
  rw [hregistry, hwritten, hholds.bytes_eq, translate_of_nodup hnodup]
  refine ⟨classes, htree, htold, hholds.entries_eq, ?_⟩
  simp only [String.toUTF8_eq_toByteArray, String.toByteArray_append, ByteArray.append_assoc]

namespace Introduction

variable (aliases : AliasTable)

/-- The lines of the glue of what is introduced. -/
def lines : Introduction → List String
  | wrapped _ => []
  | declared names s => (s.glue aliases names).lines

/-- The class and the member that a declaration records. -/
def member? : Introduction → Option (String × String)
  | wrapped _ => none
  | declared names s => some (names.wrapper, s.memberName)

def Plain : Introduction → Prop
  | wrapped names => names.Plain
  | declared names s => names.Plain ∧ s.Plain

theorem ofLines_flatMap_lines (xs : List Introduction) :
    Text.ofLines (xs.flatMap (lines aliases)) = glueText aliases xs := by
  induction xs with
  | nil => rfl
  | cons x xs ih =>
    rw [List.flatMap_cons, Text.ofLines_append, ih, glueText_cons]
    cases x <;> rfl

/-- Each declaration has one head line, with the symbol of the member it records. -/
theorem headLines_flatMap_lines (xs : List Introduction) :
    Text.headLines (xs.flatMap (lines aliases)) =
      (xs.filterMap member?).map fun d =>
        "int " ++ Glue.symbol d.1 d.2 ++ "(lua_State* L) \x7b" := by
  induction xs with
  | nil => rfl
  | cons x xs ih =>
    rw [List.flatMap_cons, Text.headLines_append, ih]
    cases x with
    | wrapped names => rfl
    | declared names s =>
      rw [lines, Glue.Function.headLines_lines, Glue.Function.headLine, Signature.symbol_glue]
      rfl

variable {aliases}

theorem Plain.oneLine_of_mem_lines {x : Introduction} (h : x.Plain)
    (htargets : ∀ entry ∈ aliases.entries, Text.OneLine entry.2) :
    ∀ line ∈ x.lines aliases, Text.OneLine line := by
  cases x with
  | wrapped names => exact List.forall_mem_nil _
  | declared names s => exact (h.2.glue h.1 htargets).oneLine_of_mem_lines

/-- No line of a glue function starts as the registration function does. -/
theorem ne_of_mem_lines {x : Introduction} {line : String} (h : line ∈ x.lines aliases)
    (rest : String) : line ≠ "void " ++ rest := by
  rintro rfl
  cases x with
  | wrapped names => cases h
  | declared names s =>
    rw [lines, Glue.Function.lines_eq, List.mem_cons] at h
    rcases h with hhead | hbody
    · have hchars := congrArg String.toList hhead
      simp [Glue.Function.headLine] at hchars
    · have hback := Glue.Function.setBack_of_mem_bodyLines _ _ hbody
      have hstart : ['v'] <+: ("void " ++ rest).toList := by simp
      exact hback.not_isPrefix (by decide) hstart

end Introduction

namespace Grammar.ClassDecl

theorem plain_of_mem_introductions {c : ClassDecl} (h : Unbroken c.tokens) :
    ∀ x ∈ c.introductions, x.Plain := by
  rw [introductions, List.forall_mem_cons, List.forall_mem_map]
  exact ⟨plain_names h, fun s hs => ⟨plain_names h, plain_of_mem_declarations h s hs⟩⟩

theorem filterMap_member?_introductions (c : ClassDecl) :
    c.introductions.filterMap Introduction.member? =
      c.entry.members.map (c.entry.wrapper, ·) := by
  rw [introductions, List.filterMap_cons_none rfl, List.filterMap_map, entry, List.map_map]
  exact congrFun List.filterMap_eq_map _

theorem countP_isDeclaration_events (c : ClassDecl) :
    c.events.countP Event.isDeclaration =
      (c.introductions.filterMap Introduction.member?).length := by
  have hheader : c.header.countP Event.isDeclaration = 0 := by
    rw [header]
    cases c.native <;> rfl
  have hdeclarations : (c.declarations.map Signature.event).countP Event.isDeclaration =
      c.declarations.length := by
    rw [List.countP_map, List.countP_eq_length]
    intro s _
    cases hctor : s.isCtor <;> simp [Signature.event, Event.isDeclaration, hctor]
  rw [c.events_eq, List.countP_append, List.countP_append, hheader, hdeclarations,
    c.filterMap_member?_introductions, List.length_map, entry, List.length_map]
  simp [Event.isDeclaration]

end Grammar.ClassDecl

namespace Grammar

variable (classes : List ClassDecl)

theorem filterMap_member?_introductions {r : Registry}
    (h : r.entries = classes.map ClassDecl.entry) :
    (classes.flatMap ClassDecl.introductions).filterMap Introduction.member? = r.declarations := by
  rw [Registry.declarations, h, List.filterMap_flatMap, List.flatMap_map]
  simp only [ClassDecl.filterMap_member?_introductions]

theorem countP_isDeclaration_events :
    (classes.flatMap ClassDecl.events).countP Event.isDeclaration =
      ((classes.flatMap ClassDecl.introductions).filterMap Introduction.member?).length := by
  rw [List.filterMap_flatMap, List.countP_flatMap, List.length_flatMap]
  exact congrArg List.sum (List.map_congr_left fun c _ => c.countP_isDeclaration_events)

/-- No token of a text contains a blank. -/
theorem unbroken_tokens {classes : List ClassDecl} {source : String}
    (htree : classes.flatMap ClassDecl.tokens = (Token.lex source).tokens) :
    ∀ c ∈ classes, Unbroken c.tokens := by
  intro c hc t ht
  have hmem : t ∈ (Token.lex source).tokens := htree ▸ List.mem_flatMap.2 ⟨c, hc, ht⟩
  exact (Token.lexable_of_mem_lex hmem).isBlank_eq_false

end Grammar

section Lines

variable (settings : Settings) (xs : List Introduction) (registry : Registry)

/-- The lines behind the head: those of the glue functions, those of the registration, and what
stands behind the last line feed. -/
def generatedLines : List String :=
  xs.flatMap (Introduction.lines settings.aliases) ++ Glue.registrationLines settings registry ++
    [""]

theorem headLines_generatedLines :
    Text.headLines (generatedLines settings xs registry) =
      (xs.filterMap Introduction.member?).map fun d =>
        "int " ++ Glue.symbol d.1 d.2 ++ "(lua_State* L) \x7b" := by
  have hend : Text.headLines [""] = [] := Text.headLines_eq_nil (by simp [Text.SetBack])
  rw [generatedLines, Text.headLines_append, Text.headLines_append,
    Glue.headLines_registrationLines, hend, Introduction.headLines_flatMap_lines,
    List.append_nil, List.append_nil]

theorem registrationPart_generatedLines :
    Glue.registrationPart settings (generatedLines settings xs registry) =
      Glue.registrationLines settings registry ++ [""] := by
  refine Glue.registrationPart_append settings registry (fun line hline => ?_) [""]
  obtain ⟨x, -, hmem⟩ := List.mem_flatMap.1 hline
  rw [String.append_assoc]
  exact Introduction.ne_of_mem_lines hmem _

variable {settings xs registry}

theorem lines_glueText_append (hsettings : settings.OneLine) (hxs : ∀ x ∈ xs, x.Plain)
    (hregistry : ∀ entry ∈ registry.entries, entry.Plain) :
    Text.lines (glueText settings.aliases xs ++ Glue.registration settings registry) =
      generatedLines settings xs registry := by
  rw [← Introduction.ofLines_flatMap_lines, Glue.registration, ← Text.ofLines_append]
  refine Text.lines_ofLines (List.forall_mem_append.2 ⟨fun line hline => ?_, ?_⟩)
  · obtain ⟨x, hx, hmem⟩ := List.mem_flatMap.1 hline
    exact (hxs x hx).oneLine_of_mem_lines hsettings.targets line hmem
  · exact Glue.oneLine_of_mem_registrationLines hsettings hregistry

end Lines

/-- Definitions and registrations correspond. Let no string of the settings that is written behind
the head contain a line feed, and let a description be generated without an error. Then, of the
lines behind the head, those that start with `int ` are the heads of the glue functions of the
registry, one for each declaration that was told. The registration takes the same symbols in the
same order, each of them below the line of its own class. Names, types and alias targets are
arbitrary: none of them can look like a head line, or hide one. -/
theorem generate_definitions_registered {settings : Settings} (hsettings : settings.OneLine)
    {source : String} (h : (generate settings (.ofLimit none) source).error = none) :
    ∃ text,
      (generate settings (.ofLimit none) source).state.sink.bytes =
        (Glue.prelude settings ++ text).toUTF8 ∧
      Text.headLines (Text.lines text) =
        (generate settings (.ofLimit none) source).state.registry.symbols.map
          (fun symbol => "int " ++ symbol ++ "(lua_State* L) \x7b") ∧
      (Text.headLines (Text.lines text)).length =
        ((Binder.hear settings.aliases).told (.opened settings) source).countP
          Event.isDeclaration ∧
      Glue.takenSymbols settings.interpreter none
          (Glue.registrationPart settings (Text.lines text)) =
        (generate settings (.ofLimit none) source).state.registry.declarations.map
          (fun d => (some d.1, Glue.symbol d.1 d.2)) ∧
      (Glue.takenSymbols settings.interpreter none
          (Glue.registrationPart settings (Text.lines text))).map Prod.snd =
        (generate settings (.ofLimit none) source).state.registry.symbols := by
  obtain ⟨classes, htree, htold, hentries, hbytes⟩ := exists_tree_of_generate h
  generalize (generate settings (.ofLimit none) source).state = final at hentries hbytes ⊢
  have htokens := unbroken_tokens htree
  have hxs : ∀ x ∈ classes.flatMap ClassDecl.introductions, x.Plain := by
    intro x hx
    obtain ⟨c, hc, hmem⟩ := List.mem_flatMap.1 hx
    exact ClassDecl.plain_of_mem_introductions (htokens c hc) x hmem
  have hregistry : ∀ entry ∈ final.registry.entries, entry.Plain := by
    rw [hentries, List.forall_mem_map]
    exact fun c hc => ClassDecl.plain_entry (htokens c hc)
  have hmembers := filterMap_member?_introductions classes hentries
  have htaken := Glue.takenSymbols_registrationLines settings hregistry
  refine ⟨_, hbytes, ?_⟩
  rw [lines_glueText_append hsettings hxs hregistry, headLines_generatedLines,
    registrationPart_generatedLines, htaken, htold, countP_isDeclaration_events, hmembers,
    Registry.symbols, List.map_map, List.map_map, List.length_map]
  exact ⟨rfl, rfl, rfl, rfl⟩

/-- The type that is written for `int` looks like the head of a definition, and the interpreter like
the start of one. A class and its method are named `int`, another class is named `&`. -/
theorem generate_definitions_registered_misleading_names :
    ∃ settings : Settings, ∃ text,
      settings.aliases.resolve "int" = "int _B_m(lua_State* L) \x7b" ∧
      settings.interpreter = "int " ∧
      (generate settings (.ofLimit none)
        "class int { int int(int) } class & { ctor(int) }").state.sink.bytes =
          (Glue.prelude settings ++ text).toUTF8 ∧
      Text.headLines (Text.lines text) =
        ["int _int_int(lua_State* L) \x7b", "int _&_ctor(lua_State* L) \x7b"] ∧
      Glue.takenSymbols settings.interpreter none
          (Glue.registrationPart settings (Text.lines text)) =
        [(some "int", "_int_int"), (some "&", "_&_ctor")] := by
  let settings : Settings :=
    { aliases := .ofList [("int", "int _B_m(lua_State* L) \x7b")], interpreter := "int " }
  have hsettings : settings.OneLine := ⟨by decide +kernel, by decide +kernel, by decide +kernel⟩
  have hnone : (generate settings (.ofLimit none)
      "class int { int int(int) } class & { ctor(int) }").error = none := by
    decide +kernel
  have hdeclarations : (generate settings (.ofLimit none)
      "class int { int int(int) } class & { ctor(int) }").state.registry.declarations =
        [("int", "int"), ("&", "ctor")] := by
    decide +kernel
  obtain ⟨text, hbytes, hheads, -, htaken, -⟩ := generate_definitions_registered hsettings hnone
  rw [Registry.symbols, hdeclarations] at hheads
  rw [hdeclarations] at htaken
  exact ⟨settings, text, by decide +kernel, rfl, hbytes, hheads, htaken⟩

end LuaGlue
