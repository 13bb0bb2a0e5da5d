import LuaGlue.Generate
import LuaGlue.Proofs.Grammar.Reading
import LuaGlue.Proofs.Translation.Reference

namespace LuaGlue

open Grammar

/-- The outcome for a binder ends as the translation does and has written the same text. If there is
no error, `post` holds between the two states. A binder that hears the events of a part of the tree
agrees with the translation of that part, given that its registry holds what the translation has
seen and its sink what has been translated. -/
structure Agrees (post : Binder → String → Prop) (outcome : Outcome Binder)
    (translation : Outcome String) : Prop where
  error_eq : outcome.error = translation.error
  bytes_eq : outcome.state.sink.bytes = translation.state.toUTF8
  post : outcome.error = none → post outcome.state translation.state

/-- Records do not matter. -/
theorem Agrees.congr {post : Binder → String → Prop} {outcome other : Outcome Binder}
    {translation : Outcome String} (h : Agrees post outcome translation)
    (herror : other.error = outcome.error) (hstate : other.state = outcome.state) :
    Agrees post other translation where
  error_eq := herror.trans h.error_eq
  bytes_eq := hstate ▸ h.bytes_eq
  post hnone := hstate ▸ h.post (herror.symm.trans hnone)

theorem Agrees.andThen {middle post : Binder → String → Prop} {outcome : Outcome Binder}
    {translation : Outcome String} {next : Binder → Outcome Binder}
    {rest : String → Outcome String} (h : Agrees middle outcome translation)
    (hrest : ∀ b text, middle b text → Agrees post (next b) (rest text)) :
    Agrees post (outcome.andThen next) (translation.andThen rest) := by
  cases herror : outcome.error with
  | some e =>
    rw [Outcome.andThen_of_error herror, Outcome.andThen_of_error (h.error_eq.symm.trans herror)]
    exact ⟨h.error_eq, h.bytes_eq, fun hnone => by simp [herror] at hnone⟩
  | none =>
    rw [Outcome.andThen_of_error_eq_none herror,
      Outcome.andThen_of_error_eq_none (h.error_eq.symm.trans herror)]
    have hnext := hrest _ _ (h.post herror)
    exact ⟨hnext.error_eq, hnext.bytes_eq, hnext.post⟩

namespace Binder

/-- What has been recorded and written, with an unlimited sink. -/
structure Holds (entries : List ClassEntry) (b : Binder) (text : String) : Prop where
  unlimited : b.sink.limit = none
  bytes_eq : b.sink.bytes = text.toUTF8
  entries_eq : b.registry.entries = entries

/-- In the body of a class: its entry is the last one and has some of its members. -/
structure Wraps (names : Glue.ClassNames) (front : List ClassEntry) (members : List String)
    (b : Binder) (text : String) : Prop extends
    Holds (front ++ [⟨names.wrapper, members⟩]) b text where
  names_eq : b.names = names

variable (aliases : AliasTable) {entries front : List ClassEntry} {names : Glue.ClassNames}
  {members : List String} {b : Binder} {text : String}

theorem Holds.writeLines (h : Holds entries b text) (lines : List String) :
    (b.writeLines lines).error = none ∧ (b.writeLines lines).state.names = b.names ∧
    (b.writeLines lines).state.registry = b.registry ∧
    Holds entries (b.writeLines lines).state (text ++ Text.ofLines lines) := by
  obtain ⟨sink, hlimit, hbytes, hstate, herror⟩ := writeLines_of_limit_eq_none h.unlimited lines
  rw [hstate]
  refine ⟨herror, rfl, rfl, hlimit, ?_, h.entries_eq⟩
  rw [hbytes, h.bytes_eq]
  simp only [String.toUTF8_eq_toByteArray, String.toByteArray_append]

/-- A constructor and a method are wrapped alike. -/
theorem hear_event (s : Signature) :
    hear aliases b s.event = b.define s.memberName (s.glue aliases b.names) := by
  cases hctor : s.isCtor with
  | true => simp [hear, Signature.event, Signature.memberName, Signature.glue, hctor]
  | false => simp [hear, Signature.event, Signature.glue, hctor]

namespace Wraps

theorem mem_entries (h : Wraps names front members b text) :
    ⟨names.wrapper, members⟩ ∈ b.registry.entries := by
  rw [h.entries_eq]
  exact List.mem_append_right _ List.mem_cons_self

theorem map_extend (h : Wraps names front members b text) (member : String) :
    b.registry.entries.map (ClassEntry.extend names.wrapper member) =
      front ++ [⟨names.wrapper, members ++ [member]⟩] :=
  Registry.map_extend_last h.entries_eq member

theorem hear_of_mem (h : Wraps names front members b text) {s : Signature}
    (hmem : s.memberName ∈ members) :
    hear aliases b s.event =
      ⟨b, [], some (.duplicateMember names.wrapper s.memberName)⟩ := by
  have hadd := Registry.addMember_of_mem h.mem_entries hmem
  rw [← h.names_eq] at hadd
  rw [hear_event, define_of_error hadd, h.names_eq]

theorem hear_of_notMem (h : Wraps names front members b text) {s : Signature}
    (hmem : s.memberName ∉ members) :
    (hear aliases b s.event).error = none ∧
    Wraps names front (members ++ [s.memberName]) (hear aliases b s.event).state
      (text ++ (s.glue aliases names).text) := by
  obtain ⟨registry, hadd, hentries⟩ := Registry.exists_addMember_of_notMem h.mem_entries hmem
  rw [h.map_extend] at hentries
  have hholds : Holds (front ++ [⟨names.wrapper, members ++ [s.memberName]⟩])
      { b with registry } text := ⟨h.unlimited, h.bytes_eq, hentries⟩
  obtain ⟨herror, hnames, -, hwritten⟩ := hholds.writeLines (s.glue aliases names).lines
  rw [← h.names_eq] at hadd
  have hhear : hear aliases b s.event =
      ({ b with registry }.writeLines (s.glue aliases names).lines).andThen fun b =>
        ⟨b, [.emitted (s.glue aliases names).symbol], none⟩ := by
    rw [hear_event, define_of_ok hadd, h.names_eq]
  rw [hhear, Outcome.andThen_of_error_eq_none herror]
  exact ⟨rfl, hwritten, hnames.trans h.names_eq⟩

/-- The declarations of a class are wrapped one after another, up to the first one whose member is
already there. -/
theorem agrees_declarations (h : Wraps names front members b text) (ds : List Signature) :
    Agrees (Wraps names front (members ++ ds.map Signature.memberName))
      ((hear aliases).hearAll b (ds.map Signature.event))
      (translate aliases (ClassEntry.allKeys (front ++ [⟨names.wrapper, members⟩]))
        (ds.map (.declared names)) text) := by
  induction ds generalizing b members text with
  | nil =>
    rw [List.map_nil, List.append_nil]
    exact ⟨rfl, h.bytes_eq, fun _ => h⟩
  | cons s ds ih =>
    have hkey : (Introduction.declared names s).key ∈
        ClassEntry.allKeys (front ++ [⟨names.wrapper, members⟩]) ↔ s.memberName ∈ members := by
      rw [← h.entries_eq]
      exact Registry.mem_allKeys_some_iff h.mem_entries
    simp only [List.map_cons, Listener.hearAll, translate]
    by_cases hmem : s.memberName ∈ members
    · rw [if_pos (hkey.2 hmem), h.hear_of_mem aliases hmem, Outcome.andThen_of_error rfl]
      exact ⟨rfl, h.bytes_eq, fun hnone => by cases hnone⟩
    · obtain ⟨herror, hwraps⟩ := h.hear_of_notMem aliases hmem
      have hseen : ClassEntry.allKeys (front ++ [⟨names.wrapper, members⟩]) ++
          [(Introduction.declared names s).key] =
            ClassEntry.allKeys (front ++ [⟨names.wrapper, members ++ [s.memberName]⟩]) := by
        simp [ClassEntry.allKeys, ClassEntry.keys, Introduction.key]
      rw [if_neg (mt hkey.1 hmem), Outcome.andThen_of_error_eq_none herror, hseen]
      have hrest := ih hwraps
      rw [List.append_assoc] at hrest
      exact ⟨hrest.error_eq, hrest.bytes_eq, hrest.post⟩

end Wraps

/-- The end of a class changes nothing. -/
theorem andThen_classEnd (outcome : Outcome Binder) :
    (outcome.andThen fun b => (hear aliases).hearAll b [.classEnd]).error = outcome.error ∧
    (outcome.andThen fun b => (hear aliases).hearAll b [.classEnd]).state = outcome.state := by
  cases herror : outcome.error with
  | some e =>
    rw [Outcome.andThen_of_error herror]
    exact ⟨herror, rfl⟩
  | none =>
    rw [Outcome.andThen_of_error_eq_none herror]
    exact ⟨rfl, rfl⟩

namespace Holds

/-- A new class is entered with both of its names, whatever names the binder had before. -/
theorem wraps_header (h : Holds entries b text) (c : ClassDecl)
    (hnew : c.name.text ∉ entries.map ClassEntry.wrapper) :
    ((hear aliases).hearAll b c.header).error = none ∧
    Wraps c.names entries [] ((hear aliases).hearAll b c.header).state text := by
  rw [← h.entries_eq] at hnew
  obtain ⟨registry, hadd, hentries⟩ := Registry.exists_addClass_of_notMem hnew
  rw [h.entries_eq] at hentries
  have hstart : hear aliases b (.classStart c.name.text) =
      ⟨{ b with registry, names := .plain c.name.text }, [.wrapping c.name.text], none⟩ := by
    simp only [hear, hadd]
  rw [ClassDecl.header, Listener.hearAll, hstart, Outcome.andThen_of_error_eq_none rfl]
  cases hnative : c.native with
  | none =>
    have hnames : c.names = .plain c.name.text := by simp [ClassDecl.names, hnative]; rfl
    exact ⟨rfl, ⟨h.unlimited, h.bytes_eq, hnames ▸ hentries⟩, hnames.symm⟩
  | some n =>
    have hnames : c.names = ⟨c.name.text, n.name.text⟩ := by simp [ClassDecl.names, hnative]
    exact ⟨rfl, ⟨h.unlimited, h.bytes_eq, hnames ▸ hentries⟩, hnames.symm⟩

/-- A class that is there already is refused before anything of it is wrapped. -/
theorem hearAll_of_mem (h : Holds entries b text) {c : ClassDecl}
    (hmem : c.name.text ∈ entries.map ClassEntry.wrapper) :
    (hear aliases).hearAll b c.events =
      ⟨b, [.wrapping c.name.text], some (.duplicateClass c.name.text)⟩ := by
  have hadd := Registry.addClass_of_mem (h.entries_eq ▸ hmem)
  have hstart : hear aliases b (.classStart c.name.text) =
      ⟨b, [.wrapping c.name.text], some (.duplicateClass c.name.text)⟩ := by
    simp only [hear, hadd]
  rw [ClassDecl.events, ClassDecl.header, List.cons_append, List.cons_append, Listener.hearAll,
    hstart, Outcome.andThen_of_error rfl]

theorem agrees_class (h : Holds entries b text) (c : ClassDecl) :
    Agrees (Holds (entries ++ [c.entry])) ((hear aliases).hearAll b c.events)
      (translate aliases (ClassEntry.allKeys entries) c.introductions text) := by
  have hkey : (Introduction.wrapped c.names).key ∈ ClassEntry.allKeys entries ↔
      c.name.text ∈ entries.map ClassEntry.wrapper := ClassEntry.mem_allKeys_none_iff
  rw [ClassDecl.introductions, translate]
  by_cases hmem : c.name.text ∈ entries.map ClassEntry.wrapper
  · rw [if_pos (hkey.2 hmem), h.hearAll_of_mem aliases hmem]
    exact ⟨rfl, h.bytes_eq, fun hnone => by cases hnone⟩
  · obtain ⟨herror, hwraps⟩ := h.wraps_header aliases c hmem
    have hseen : ClassEntry.allKeys entries ++ [(Introduction.wrapped c.names).key] =
        ClassEntry.allKeys (entries ++ [⟨c.names.wrapper, []⟩]) := by
      simp [ClassEntry.allKeys, ClassEntry.keys, Introduction.key]
    have hbody := hwraps.agrees_declarations aliases c.declarations
    -- The translation has nothing for the end of a class, so it is taken off first.
    obtain ⟨herror', hstate⟩ := andThen_classEnd aliases
      ((hear aliases).hearAll b (c.header ++ c.declarations.map Signature.event))
    rw [if_neg (mt hkey.1 hmem), hseen, Introduction.glue, String.append_empty, c.events_eq,
      Listener.hearAll_append]
    rw [Listener.hearAll_append, Outcome.andThen_of_error_eq_none herror] at herror' hstate ⊢
    have hclass := hbody.congr herror' hstate
    exact ⟨hclass.error_eq, hclass.bytes_eq, fun hnone => (hclass.post hnone).toHolds⟩

theorem agrees_classes (h : Holds entries b text) (classes : List ClassDecl) :
    Agrees (Holds (entries ++ classes.map ClassDecl.entry))
      ((hear aliases).hearAll b (classes.flatMap ClassDecl.events))
      (translate aliases (ClassEntry.allKeys entries) (classes.flatMap ClassDecl.introductions)
        text) := by
  induction classes generalizing b entries text with
  | nil =>
    rw [List.map_nil, List.append_nil]
    exact ⟨rfl, h.bytes_eq, fun _ => h⟩
  | cons c classes ih =>
    have hseen : ClassEntry.allKeys entries ++ c.introductions.map Introduction.key =
        ClassEntry.allKeys (entries ++ [c.entry]) := by
      rw [ClassEntry.allKeys_append, c.map_key_introductions]
      simp [ClassEntry.allKeys]
    rw [List.flatMap_cons, List.flatMap_cons, List.map_cons, List.append_cons,
      Listener.hearAll_append, translate_append, hseen]
    exact (h.agrees_class aliases c).andThen fun b text h => ih h

theorem agrees_run (h : Holds entries b text) {source : String} {classes : List ClassDecl}
    (htree : classes.flatMap ClassDecl.tokens = (Token.lex source).tokens) :
    Agrees (Holds (entries ++ classes.map ClassDecl.entry))
      (((hear aliases).run b source).map Hearing.listener)
      (translate aliases (ClassEntry.allKeys entries) (classes.flatMap ClassDecl.introductions)
        text) := by
  obtain ⟨herror, hlistener⟩ := Listener.run_of_tree (hear aliases) htree b
  exact (h.agrees_classes aliases classes).congr herror hlistener

end Holds

end Binder

/-- The text generated for a description with a tree is the translation of the tree, whatever blanks
and comments stand between its tokens. If all names are distinct, it is the head, then the glue of
each declaration, then the registration of the classes in the order of the description. Otherwise
the first name that is repeated decides the error, and the text is the head and the glue of what
stands before the repetition. -/
theorem generate_of_tree (settings : Settings) {source : String} {classes : List ClassDecl}
    (htree : classes.flatMap ClassDecl.tokens = (Token.lex source).tokens) :
    (Distinct classes →
      (generate settings (.ofLimit none) source).error = none ∧
      (generate settings (.ofLimit none) source).state.registry.entries =
        classes.map ClassDecl.entry ∧
      (generate settings (.ofLimit none) source).state.sink.bytes =
        (Glue.prelude settings ++
          glueText settings.aliases (classes.flatMap ClassDecl.introductions) ++
          Glue.registration settings
            (generate settings (.ofLimit none) source).state.registry).toUTF8) ∧
    (¬ Distinct classes →
      ∃ before x behind, classes.flatMap ClassDecl.introductions = before ++ x :: behind ∧
        (before.map Introduction.key).Nodup ∧ x.key ∈ before.map Introduction.key ∧
        (generate settings (.ofLimit none) source).error = some x.duplicate ∧
        (generate settings (.ofLimit none) source).state.sink.bytes =
          (Glue.prelude settings ++ glueText settings.aliases before).toUTF8) := by
  have hempty : Binder.Holds [] { sink := .ofLimit none } "" := ⟨rfl, rfl, rfl⟩
  obtain ⟨hhead, -, -, hholds⟩ := hempty.writeLines (Glue.preludeLines settings)
  rw [String.empty_append] at hholds
  have hbody : Agrees (Binder.Holds (classes.map ClassDecl.entry))
      ((Binder.writeLines { sink := .ofLimit none } (Glue.preludeLines settings)).andThen fun b =>
        ((Binder.hear settings.aliases).run b source).map Hearing.listener)
      (translate settings.aliases [] (classes.flatMap ClassDecl.introductions)
        (Glue.prelude settings)) := by
    rw [Outcome.andThen_of_error_eq_none hhead]
    exact (hholds.agrees_run settings.aliases htree).congr rfl rfl
  rw [← nodup_map_key_introductions_iff, ← List.nil_append (List.map _ _), generate]
  generalize
    (Binder.writeLines { sink := .ofLimit none } (Glue.preludeLines settings)).andThen _ = body
    at hbody ⊢
  constructor
  · intro hdistinct
    rw [translate_of_nodup hdistinct] at hbody
    obtain ⟨herror, -, hregistry, hwritten⟩ := (hbody.post hbody.error_eq).writeLines
      (Glue.registrationLines settings body.state.registry)
    rw [Outcome.andThen_of_error_eq_none hbody.error_eq]
    refine ⟨herror, hwritten.entries_eq, hwritten.bytes_eq.trans ?_⟩
    rw [hregistry]
    rfl
  · intro hrepeated
    obtain ⟨before, x, behind, hsplit, hnodup, hmem, htranslate⟩ :=
      exists_repetition_of_not_nodup List.nodup_nil hrepeated (Glue.prelude settings)
    rw [htranslate] at hbody
    rw [Outcome.andThen_of_error hbody.error_eq]
    exact ⟨before, x, behind, hsplit, hnodup, hmem, hbody.error_eq, hbody.bytes_eq⟩

/-- A comment in a class shows nowhere, and a class that is written twice is refused. -/
theorem generate_of_tree_one_class :
    ∃ c : ClassDecl,
      [c].flatMap ClassDecl.tokens = (Token.lex "class A [N] { ctor(int) /* f() */ }").tokens ∧
      Distinct [c] ∧ ¬ Distinct [c, c] ∧
      (generate {} (.ofLimit none) "class A [N] { ctor(int) /* f() */ }").error = none ∧
      (generate {} (.ofLimit none) "class A [N] { ctor(int) /* f() */ }").state.registry.entries =
        [⟨"A", ["ctor"]⟩] ∧
      (generate {} (.ofLimit none)
        "class A [N] { ctor(int) } class A [N] { ctor(int) }").error ≠ none := by
  let c : ClassDecl :=
    { name := .word "A"
      skipped := []
      native := some ⟨.word "N", [], by decide⟩
      items := [.ctor (.listed ⟨.word "int", [], by decide, by decide⟩ [] false)]
      skipped_ok := by decide }
  have hone : [c].flatMap ClassDecl.tokens =
      (Token.lex "class A [N] { ctor(int) /* f() */ }").tokens := by decide +kernel
  have htwo : [c, c].flatMap ClassDecl.tokens =
      (Token.lex "class A [N] { ctor(int) } class A [N] { ctor(int) }").tokens := by
    decide +kernel
  have hdistinct : Distinct [c] := ⟨by decide, by decide⟩
  have hrepeated : ¬ Distinct [c, c] := fun h => absurd h.names (by decide)
  obtain ⟨herror, hentries, -⟩ := (generate_of_tree {} hone).1 hdistinct
  obtain ⟨_, _, _, -, -, -, hduplicate, -⟩ := (generate_of_tree {} htwo).2 hrepeated
  refine ⟨c, hone, hdistinct, hrepeated, herror, hentries, ?_⟩
  rw [hduplicate]
  exact Option.some_ne_none _

end LuaGlue
