import LuaGlue.Proofs.Generate.Body
import LuaGlue.Proofs.Grammar.Reading
import LuaGlue.Proofs.Recognizer.Alike
import LuaGlue.Proofs.Recognizer.Told
import LuaGlue.Proofs.Token.Border

namespace LuaGlue

namespace Registry

variable {front : List ClassEntry} {whole alone : Registry} {wrapper : String}

/-- Classes recorded before do not matter to the record of a new class. -/
theorem addClass_behind (h : whole.entries = front ++ alone.entries)
    (hnew : wrapper ∉ front.map ClassEntry.wrapper) :
    (∃ e, whole.addClass wrapper = .error e ∧ alone.addClass wrapper = .error e) ∨
    ∃ after after', whole.addClass wrapper = .ok after ∧ alone.addClass wrapper = .ok after' ∧
      after.entries = front ++ after'.entries := by
  by_cases hmem : wrapper ∈ alone.entries.map ClassEntry.wrapper
  · have hwhole : wrapper ∈ whole.entries.map ClassEntry.wrapper := by
      rw [h, List.map_append]
      exact List.mem_append_right _ hmem
    exact .inl ⟨_, addClass_of_mem hwhole, addClass_of_mem hmem⟩
  · have hwhole : wrapper ∉ whole.entries.map ClassEntry.wrapper := by
      rw [h, List.map_append, List.mem_append, not_or]
      exact ⟨hnew, hmem⟩
    obtain ⟨after, hadd, hentries⟩ := exists_addClass_of_notMem hwhole
    obtain ⟨after', hadd', hentries'⟩ := exists_addClass_of_notMem hmem
    refine .inr ⟨after, after', hadd, hadd', ?_⟩
    rw [hentries, hentries', h, List.append_assoc]

/-- Classes recorded before do not matter to the record of a member of another class. -/
theorem addMember_behind (h : whole.entries = front ++ alone.entries)
    (hnew : wrapper ∉ front.map ClassEntry.wrapper) (member : String) :
    (∃ e, whole.addMember wrapper member = .error e ∧ alone.addMember wrapper member = .error e) ∨
    ∃ after after', whole.addMember wrapper member = .ok after ∧
      alone.addMember wrapper member = .ok after' ∧ after.entries = front ++ after'.entries := by
  cases hfound : alone.members? wrapper with
  | none =>
    have hmem := members?_eq_none_iff.1 hfound
    have hwhole : wrapper ∉ whole.entries.map ClassEntry.wrapper := by
      rw [h, List.map_append, List.mem_append, not_or]
      exact ⟨hnew, hmem⟩
    obtain ⟨after, hadd, hentries⟩ := exists_addMember_of_unknown hwhole member
    obtain ⟨after', hadd', hentries'⟩ := exists_addMember_of_unknown hmem member
    refine .inr ⟨after, after', hadd, hadd', ?_⟩
    rw [hentries, hentries', h, List.append_assoc]
  | some members =>
    have hentry := mem_of_members?_eq_some hfound
    have hwhole : ⟨wrapper, members⟩ ∈ whole.entries := h ▸ List.mem_append_right _ hentry
    by_cases hmem : member ∈ members
    · exact .inl ⟨_, addMember_of_mem hwhole hmem, addMember_of_mem hentry hmem⟩
    · obtain ⟨after, hadd, hentries⟩ := exists_addMember_of_notMem hwhole hmem
      obtain ⟨after', hadd', hentries'⟩ := exists_addMember_of_notMem hentry hmem
      refine .inr ⟨after, after', hadd, hadd', ?_⟩
      rw [hentries, hentries', h, List.map_append, ClassEntry.map_extend_of_notMem hnew]

end Registry

/-- What a binder has recorded and written when a description begins. -/
structure Start where
  entries : List ClassEntry
  bytes : ByteArray

namespace Binder

/-- Since `start`, the binder `whole` has done what the binder `alone` has done behind a head, where
nothing was recorded. -/
structure Behind (start : Start) (head : ByteArray) (whole alone : Binder) : Prop where
  unlimited : whole.sink.limit = none
  unlimited_alone : alone.sink.limit = none
  entries_eq : whole.registry.entries = start.entries ++ alone.registry.entries
  bytes_eq : ∃ written, whole.sink.bytes = start.bytes ++ written ∧ alone.sink.bytes = head ++ written

/-- Both binders are in the same class, which was not recorded at the start. -/
def SameClass (start : Start) (whole alone : Binder) : Prop :=
  whole.names = alone.names ∧ alone.names.wrapper ∉ start.entries.map ClassEntry.wrapper

namespace Behind

variable {start : Start} {head : ByteArray} {whole alone : Binder}

theorem writeLines (h : Behind start head whole alone) (lines : List String) :
    (whole.writeLines lines).error = none ∧ (alone.writeLines lines).error = none ∧
    (whole.writeLines lines).state.names = whole.names ∧
    (alone.writeLines lines).state.names = alone.names ∧
    Behind start head (whole.writeLines lines).state (alone.writeLines lines).state := by
  obtain ⟨sink, hlimit, hbytes, hstate, herror⟩ := writeLines_of_limit_eq_none h.unlimited lines
  obtain ⟨sink', hlimit', hbytes', hstate', herror'⟩ :=
    writeLines_of_limit_eq_none h.unlimited_alone lines
  obtain ⟨written, hwhole, halone⟩ := h.bytes_eq
  rw [hstate, hstate']
  refine ⟨herror, herror', rfl, rfl, hlimit, hlimit', h.entries_eq, ?_⟩
  refine ⟨written ++ (Text.ofLines lines).toUTF8, ?_, ?_⟩
  · rw [hbytes, hwhole, ByteArray.append_assoc]
  · rw [hbytes', halone, ByteArray.append_assoc]

theorem define (h : Behind start head whole alone) (hclass : SameClass start whole alone)
    (member : String) (function : Glue.Function) :
    (whole.define member function).error = (alone.define member function).error ∧
    Behind start head (whole.define member function).state (alone.define member function).state ∧
    SameClass start (whole.define member function).state (alone.define member function).state := by
  obtain ⟨hnames, hnew⟩ := hclass
  rcases Registry.addMember_behind h.entries_eq hnew member with
    ⟨e, hadd, hadd'⟩ | ⟨after, after', hadd, hadd', hentries⟩
  · rw [← hnames] at hadd
    rw [define_of_error hadd, define_of_error hadd']
    exact ⟨rfl, h, hnames, hnew⟩
  · rw [← hnames] at hadd
    have hrecorded : Behind start head { whole with registry := after }
        { alone with registry := after' } :=
      ⟨h.unlimited, h.unlimited_alone, hentries, h.bytes_eq⟩
    obtain ⟨herror, herror', hkept, hkept', hwritten⟩ := hrecorded.writeLines function.lines
    rw [define_of_ok hadd, define_of_ok hadd', Outcome.andThen_of_error_eq_none herror,
      Outcome.andThen_of_error_eq_none herror']
    refine ⟨rfl, hwritten, ?_⟩
    rw [SameClass]
    exact ⟨hkept.trans (hnames.trans hkept'.symm), by rwa [hkept']⟩

/-- An event does the same to both binders. It may be the start of a class that was not recorded
before; any other event must find both of them in the same class. -/
theorem hear (aliases : AliasTable) (h : Behind start head whole alone) {event : Event}
    (hnew : ∀ name, event = .classStart name → name ∉ start.entries.map ClassEntry.wrapper)
    (hclass : (∃ name, event = .classStart name) ∨ SameClass start whole alone) :
    (Binder.hear aliases whole event).error = (Binder.hear aliases alone event).error ∧
    Behind start head (Binder.hear aliases whole event).state
      (Binder.hear aliases alone event).state ∧
    ((Binder.hear aliases alone event).error = none ∨ SameClass start whole alone →
      SameClass start (Binder.hear aliases whole event).state
        (Binder.hear aliases alone event).state) := by
  cases event with
  | classStart name =>
    simp only [Binder.hear]
    rcases Registry.addClass_behind h.entries_eq (hnew name rfl) with
      ⟨e, hadd, hadd'⟩ | ⟨after, after', hadd, hadd', hentries⟩
    · rw [hadd, hadd']
      refine ⟨rfl, h, ?_⟩
      rintro (hnone | hsame)
      · cases hnone
      · exact hsame
    · rw [hadd, hadd']
      have hrecorded := hnew name rfl
      exact ⟨rfl, ⟨h.unlimited, h.unlimited_alone, hentries, h.bytes_eq⟩, fun _ => ⟨rfl, hrecorded⟩⟩
  | nativeName native =>
    obtain ⟨name, hname⟩ | ⟨hnames, hrecorded⟩ := hclass
    · cases hname
    · refine ⟨rfl, ⟨h.unlimited, h.unlimited_alone, h.entries_eq, h.bytes_eq⟩, fun _ => ?_⟩
      refine ⟨?_, hrecorded⟩
      simp only [Binder.hear, hnames]
  | method s =>
    obtain ⟨name, hname⟩ | hsame := hclass
    · cases hname
    · obtain ⟨herror, hbehind, hafter⟩ := h.define hsame s.memberName
        (.ofMethod aliases alone.names s)
      simp only [Binder.hear, hsame.1]
      exact ⟨herror, hbehind, fun _ => hafter⟩
  | ctor s =>
    obtain ⟨name, hname⟩ | hsame := hclass
    · cases hname
    · obtain ⟨herror, hbehind, hafter⟩ := h.define hsame Signature.ctorName
        (.ofCtor aliases alone.names s)
      simp only [Binder.hear, hsame.1]
      exact ⟨herror, hbehind, fun _ => hafter⟩
  | classEnd =>
    obtain ⟨name, hname⟩ | hsame := hclass
    · cases hname
    · exact ⟨rfl, h, fun _ => hsame⟩

end Behind

end Binder

namespace Hearing

/-- A run that began at `start` is where a run that began with nothing is. -/
structure Behind (start : Start) (head : ByteArray) (whole alone : Hearing Binder) : Prop where
  recognizer : whole.recognizer.Alike alone.recognizer
  listener : Binder.Behind start head whole.listener alone.listener
  sameClass : alone.recognizer.place.InClass →
    Binder.SameClass start whole.listener alone.listener

namespace Behind

variable {aliases : AliasTable} {start : Start} {head : ByteArray} {whole alone : Hearing Binder}

/-- A token does the same in both runs, unless it starts a class that was recorded before. -/
theorem feed (h : Behind start head whole alone) {t : Token}
    (hnew : ∀ name, (alone.recognizer.step t).event? = some (.classStart name) →
      name ∉ start.entries.map ClassEntry.wrapper) :
    (whole.feed (Binder.hear aliases) t).error = (alone.feed (Binder.hear aliases) t).error ∧
    Behind start head (whole.feed (Binder.hear aliases) t).state
      (alone.feed (Binder.hear aliases) t).state := by
  have halike := h.recognizer.step t
  cases hstep : alone.recognizer.step t with
  | next after =>
    rw [hstep] at halike
    generalize hwhole : whole.recognizer.step t = step at halike
    cases halike with
    | next hafter =>
      rw [feed_of_next hwhole, feed_of_next hstep]
      refine ⟨rfl, hafter, h.listener, fun hin => h.sameClass ?_⟩
      exact Recognizer.inClass_of_next hstep hin
  | reject error =>
    rw [hstep] at halike
    generalize hwhole : whole.recognizer.step t = step at halike
    cases halike with
    | reject =>
      rw [feed_of_reject hwhole, feed_of_reject hstep]
      exact ⟨rfl, h⟩
  | tell event accepted refused =>
    rw [hstep] at halike
    generalize hwhole : whole.recognizer.step t = step at halike
    cases halike with
    | tell _ haccepted hrefused =>
      rw [feed_of_tell hwhole, feed_of_tell hstep]
      have hplace := Recognizer.classStart_or_inClass_of_tell hstep
      have hclass : (∃ name, event = .classStart name) ∨
          Binder.SameClass start whole.listener alone.listener := by
        rcases hplace with ⟨name, hname, -, -⟩ | hin
        · exact .inl ⟨name, hname⟩
        · exact .inr (h.sameClass hin)
      have hnames : ∀ name, event = .classStart name →
          name ∉ start.entries.map ClassEntry.wrapper := by
        rintro name rfl
        exact hnew name (by rw [hstep]; rfl)
      obtain ⟨herror, hbehind, hafter⟩ := h.listener.hear aliases hnames hclass
      rw [herror]
      cases hrefusal : (Binder.hear aliases alone.listener event).error with
      | none => exact ⟨rfl, haccepted, hbehind, fun _ => hafter (.inl hrefusal)⟩
      | some e =>
        refine ⟨rfl, hrefused, hbehind, fun hin => ?_⟩
        rcases hplace with ⟨name, -, rfl, hclassName⟩ | hbefore
        · -- A refused class is not entered.
          have hin : alone.recognizer.place.InClass := hin
          rw [hclassName] at hin
          exact hin.elim
        · exact hafter (.inr (h.sameClass hbefore))

theorem feedAll (h : Behind start head whole alone) {tokens : List Token}
    (hnew : ∀ name, .classStart name ∈ alone.told (Binder.hear aliases) tokens →
      name ∉ start.entries.map ClassEntry.wrapper) :
    (whole.feedAll (Binder.hear aliases) tokens).error =
      (alone.feedAll (Binder.hear aliases) tokens).error ∧
    Behind start head (whole.feedAll (Binder.hear aliases) tokens).state
      (alone.feedAll (Binder.hear aliases) tokens).state := by
  induction tokens generalizing whole alone with
  | nil => exact ⟨rfl, h⟩
  | cons t tokens ih =>
    obtain ⟨herror, hbehind⟩ := h.feed fun name hname => hnew name (mem_told_of_step _ hname _)
    rw [Hearing.feedAll, Hearing.feedAll]
    cases hfed : (alone.feed (Binder.hear aliases) t).error with
    | some e =>
      rw [Outcome.andThen_of_error hfed, Outcome.andThen_of_error (herror.trans hfed)]
      exact ⟨herror, hbehind⟩
    | none =>
      rw [Outcome.andThen_of_error_eq_none hfed,
        Outcome.andThen_of_error_eq_none (herror.trans hfed)]
      exact ih hbehind fun name hname => hnew name (mem_told_of_rest _ hfed hname)

end Behind

end Hearing

section GenerateBody

/-- At the start, a reader behind another description is where a reader of its own is. -/
private theorem behind_start {settings : Settings} {start : Start} {h : Hearing Binder}
    (hplace : h.recognizer.place = .outside) (hlimit : h.listener.sink.limit = none)
    (hentries : h.listener.registry.entries = start.entries)
    (hbytes : h.listener.sink.bytes = start.bytes) :
    Hearing.Behind start (Glue.prelude settings).toUTF8 h ⟨{}, .opened settings⟩ := by
  obtain ⟨hregistry, hlimit', hbytes'⟩ := Binder.opened_spec settings
  refine ⟨.of_not_inClass hplace (by rw [hplace]; exact id), ⟨hlimit, hlimit', ?_, ?_⟩, False.elim⟩
  · rw [hregistry, hentries]
    exact (List.append_nil _).symm
  · refine ⟨.empty, ?_, ?_⟩
    · rw [hbytes, ByteArray.append_empty]
    · rw [hbytes', ByteArray.append_empty]

/-- The body only appends to the head, and never to a limit. -/
theorem generateBody_written (settings : Settings) (source : String) :
    (generateBody settings source).state.sink.limit = none ∧
    ∃ written, (generateBody settings source).state.sink.bytes =
      (Glue.prelude settings).toUTF8 ++ written := by
  obtain ⟨hregistry, hlimit, hbytes⟩ := Binder.opened_spec settings
  have hstart : Hearing.Behind ⟨[], (Glue.prelude settings).toUTF8⟩ (Glue.prelude settings).toUTF8
      ⟨{}, .opened settings⟩ ⟨{}, .opened settings⟩ :=
    behind_start rfl hlimit hregistry hbytes
  have hbehind : Hearing.Behind ⟨[], (Glue.prelude settings).toUTF8⟩
      (Glue.prelude settings).toUTF8 (fedTokens settings source).state (fedTokens settings source).state :=
    (hstart.feedAll fun _ _ => List.not_mem_nil).2
  obtain ⟨written, hwritten, -⟩ := hbehind.listener.bytes_eq
  rw [(generateBody_eq_fedTokens settings source).2]
  exact ⟨hbehind.listener.unlimited, written, hwritten⟩

/-- Behind a description without an error, the body of a second one is what it is alone. -/
theorem generateBody_append {settings : Settings} {first second : String}
    (hfirst : (generateBody settings first).error = none)
    (hclosed : (Token.lex first).unclosed = false)
    (hnew : ∀ name,
      .classStart name ∈ (Binder.hear settings.aliases).told (.opened settings) second →
        name ∉ (generateBody settings first).state.registry.entries.map ClassEntry.wrapper) :
    (generateBody settings (first ++ "\n" ++ second)).error = (generateBody settings second).error ∧
    (generateBody settings (first ++ "\n" ++ second)).state.registry.entries =
      (generateBody settings first).state.registry.entries ++
        (generateBody settings second).state.registry.entries ∧
    ∃ written,
      (generateBody settings second).state.sink.bytes =
        (Glue.prelude settings).toUTF8 ++ written ∧
      (generateBody settings (first ++ "\n" ++ second)).state.sink.bytes =
        (generateBody settings first).state.sink.bytes ++ written := by
  obtain ⟨herror₁, hstate₁⟩ := generateBody_eq_fedTokens settings first
  obtain ⟨herror₂, hstate₂⟩ := generateBody_eq_fedTokens settings second
  obtain ⟨herror, hstate⟩ := generateBody_eq_fedTokens settings (first ++ "\n" ++ second)
  obtain ⟨hlimit, -⟩ := generateBody_written settings first
  rw [herror₁, Option.or_eq_none_iff] at hfirst
  obtain ⟨hfed, hfinish⟩ := hfirst
  have hplace := Recognizer.finish?_eq_none_iff.1 hfinish
  rw [hstate₁] at hlimit hnew ⊢
  have hjoined : fedTokens settings (first ++ "\n" ++ second) =
      (fedTokens settings first).andThen fun h =>
        h.feedAll (Binder.hear settings.aliases) (Token.lex second).tokens := by
    rw [fedTokens, Token.lex_append_newline hclosed]
    exact Hearing.feedAll_append _ _ _ _
  rw [Outcome.andThen_of_error_eq_none hfed] at hjoined
  have hstart : Hearing.Behind
      ⟨(fedTokens settings first).state.listener.registry.entries,
        (fedTokens settings first).state.listener.sink.bytes⟩
      (Glue.prelude settings).toUTF8 (fedTokens settings first).state ⟨{}, .opened settings⟩ :=
    behind_start hplace hlimit rfl rfl
  obtain ⟨hsame, hbehind⟩ := hstart.feedAll hnew
  rw [herror, hstate, herror₂, hstate₂, hjoined]
  refine ⟨?_, hbehind.listener.entries_eq, ?_⟩
  · exact congr (congrArg Option.or hsame) hbehind.recognizer.finish?_eq
  · obtain ⟨written, hwhole, halone⟩ := hbehind.listener.bytes_eq
    exact ⟨written, halone, hwhole⟩

end GenerateBody

/-- Generating is compositional. Let a description be generated without an error, and not end inside a
comment, and let a second one, read alone, start no class that the first one declares. Then both
together, on lines of their own, end as the second one does alone, also in its error. The registries
and the parts between the head and the registration follow one another. If there is an error, what
the second one has written behind its head is written behind the first one. -/
theorem generate_append (settings : Settings) {first second : String}
    (hfirst : (generate settings (.ofLimit none) first).error = none)
    (hclosed : (Token.lex first).unclosed = false)
    (hnew : ∀ name,
      .classStart name ∈ (Binder.hear settings.aliases).told (.opened settings) second →
        name ∉ (generate settings (.ofLimit none) first).state.registry.entries.map
          ClassEntry.wrapper) :
    (generate settings (.ofLimit none) (first ++ "\n" ++ second)).error =
      (generate settings (.ofLimit none) second).error ∧
    (generate settings (.ofLimit none) (first ++ "\n" ++ second)).state.registry.entries =
      (generate settings (.ofLimit none) first).state.registry.entries ++
        (generate settings (.ofLimit none) second).state.registry.entries ∧
    ∃ glue more,
      (generate settings (.ofLimit none) first).state.sink.bytes =
        (Glue.prelude settings).toUTF8 ++ glue ++
          (Glue.registration settings
            (generate settings (.ofLimit none) first).state.registry).toUTF8 ∧
      ((generate settings (.ofLimit none) second).error = none →
        (generate settings (.ofLimit none) second).state.sink.bytes =
          (Glue.prelude settings).toUTF8 ++ more ++
            (Glue.registration settings
              (generate settings (.ofLimit none) second).state.registry).toUTF8 ∧
        (generate settings (.ofLimit none) (first ++ "\n" ++ second)).state.sink.bytes =
          (Glue.prelude settings).toUTF8 ++ (glue ++ more) ++
            (Glue.registration settings
              (generate settings (.ofLimit none)
                (first ++ "\n" ++ second)).state.registry).toUTF8) ∧
      ((generate settings (.ofLimit none) second).error ≠ none →
        (generate settings (.ofLimit none) second).state.sink.bytes =
          (Glue.prelude settings).toUTF8 ++ more ∧
        (generate settings (.ofLimit none) (first ++ "\n" ++ second)).state.sink.bytes =
          (Glue.prelude settings).toUTF8 ++ (glue ++ more)) := by
  obtain ⟨hlimit₁, glue, hglue⟩ := generateBody_written settings first
  obtain ⟨hlimit₂, -⟩ := generateBody_written settings second
  obtain ⟨hlimit, -⟩ := generateBody_written settings (first ++ "\n" ++ second)
  have hbody₁ : (generateBody settings first).error = none := by
    rw [generate_eq_body, Outcome.error_andThen_eq_none_iff] at hfirst
    exact hfirst.1
  obtain ⟨-, hregistry₁, hbytes₁⟩ := generate_of_body hbody₁ hlimit₁
  rw [hregistry₁] at hnew ⊢
  obtain ⟨herror, hentries, more, hmore, hwritten⟩ := generateBody_append hbody₁ hclosed hnew
  rw [hglue] at hbytes₁ hwritten
  rw [ByteArray.append_assoc] at hwritten
  cases hbody₂ : (generateBody settings second).error with
  | none =>
    have hbody := herror.trans hbody₂
    obtain ⟨herror₂, hregistry₂, hbytes₂⟩ := generate_of_body hbody₂ hlimit₂
    obtain ⟨herror', hregistry, hbytes⟩ := generate_of_body hbody hlimit
    rw [hmore] at hbytes₂
    rw [hwritten] at hbytes
    rw [herror₂, herror', hregistry₂, hregistry]
    exact ⟨rfl, hentries, glue, more, hbytes₁, fun _ => ⟨hbytes₂, hbytes⟩,
      fun hne => absurd rfl hne⟩
  | some e =>
    have hbody := herror.trans hbody₂
    rw [generate_of_body_error hbody₂, generate_of_body_error hbody]
    refine ⟨herror, hentries, glue, more, hbytes₁, fun hnone => ?_, fun _ => ⟨hmore, hwritten⟩⟩
    rw [hbody₂] at hnone
    cases hnone

/-- The second description ends with a member that is declared twice, behind the glue of the first
one. -/
theorem generate_append_repeated_member :
    (generate {} (.ofLimit none) "class A { ctor() }").error = none ∧
    (generate {} (.ofLimit none) "class A { ctor() }\nclass B { void f() void f() }").error =
      some (.duplicateMember "B" "f") ∧
    (generate {} (.ofLimit none)
      "class A { ctor() }\nclass B { void f() void f() }").state.registry.entries =
        [⟨"A", ["ctor"]⟩, ⟨"B", ["f"]⟩] := by
  have hfirst : (generate {} (.ofLimit none) "class A { ctor() }").error = none := by
    decide +kernel
  have hclosed : (Token.lex "class A { ctor() }").unclosed = false := by decide +kernel
  have hnew : ∀ name,
      .classStart name ∈
        (Binder.hear ({} : Settings).aliases).told (.opened {}) "class B { void f() void f() }" →
      name ∉ (generate {} (.ofLimit none) "class A { ctor() }").state.registry.entries.map
        ClassEntry.wrapper := by
    have htold : (Binder.hear ({} : Settings).aliases).told (.opened {})
        "class B { void f() void f() }" =
          [.classStart "B", .method { returns := "void", name := "f" },
            .method { returns := "void", name := "f" }] := by
      decide +kernel
    have hentries : (generate {} (.ofLimit none) "class A { ctor() }").state.registry.entries =
        [⟨"A", ["ctor"]⟩] := by
      decide +kernel
    simp [htold, hentries]
  obtain ⟨herror, hentries, -⟩ := generate_append {} hfirst hclosed hnew
  refine ⟨hfirst, herror.trans ?_, hentries.trans ?_⟩
  · decide +kernel
  · decide +kernel

end LuaGlue
