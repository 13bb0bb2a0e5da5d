import LuaGlue.Generate
import LuaGlue.Proofs.Generate.Body
import LuaGlue.Proofs.Glue.Symbol
import LuaGlue.Proofs.Log.Lines

namespace LuaGlue

namespace Sink

/-- What a limit leaves of some bytes. -/
def cut (limit : Option Nat) (bytes : ByteArray) : ByteArray :=
  match limit with
  | none => bytes
  | some n => bytes.extract 0 n

/-- Are these bytes more than a limit allows? -/
def overflows (limit : Option Nat) (bytes : ByteArray) : Bool :=
  limit.any (· < bytes.size)

section Cut

variable {limit : Option Nat} {bytes : ByteArray}

theorem cut_append_of_overflows (h : overflows limit bytes = true) (more : ByteArray) :
    cut limit (bytes ++ more) = cut limit bytes := by
  cases limit with
  | none => cases h
  | some n => exact extract_append_of_le (Nat.le_of_lt (by simpa [overflows] using h)) more

theorem overflows_append (h : overflows limit bytes = true) (more : ByteArray) :
    overflows limit (bytes ++ more) = true := by
  cases limit with
  | none => cases h
  | some n =>
    simp only [overflows, Option.any_some, decide_eq_true_eq, ByteArray.size_append] at h ⊢
    omega

/-- What a limit allows is not cut off. -/
theorem exists_cut_append_eq (h : overflows limit bytes = false) (more : ByteArray) :
    ∃ behind, cut limit (bytes ++ more) = bytes ++ behind := by
  cases limit with
  | none => exact ⟨more, rfl⟩
  | some n =>
    have hsize : bytes.size ≤ n := by simpa [overflows] using h
    refine ⟨more.extract 0 (n - bytes.size), ?_⟩
    rw [cut, ByteArray.extract_append, Nat.zero_sub, extract_of_size_le hsize]

end Cut

private theorem size_toUTF8_pos {text : String} (h : text ≠ "") : 0 < text.toUTF8.size := by
  rw [String.toUTF8_eq_toByteArray, String.size_toByteArray]
  exact Nat.pos_of_ne_zero (mt String.utf8ByteSize_eq_zero_iff.1 h)

/-- A sink that holds what its limit leaves of `all` goes on like that. Behind its limit it takes
nothing more. -/
theorem write_of_bytes_eq_cut {sink : Sink} {limit : Option Nat} {all : ByteArray}
    (hlimit : sink.limit = limit) (h : sink.bytes = cut limit all) {text : String}
    (htext : text ≠ "") :
    (sink.write text).state.bytes = cut limit (all ++ text.toUTF8) ∧
    (sink.write text).error =
      if overflows limit (all ++ text.toUTF8) then some .sinkFull else none := by
  cases limit with
  | none =>
    obtain ⟨hbytes, herror⟩ := write_of_limit_eq_none hlimit text
    exact ⟨hbytes.trans (congrArg (· ++ _) h), herror⟩
  | some n =>
    obtain ⟨hbytes, herror⟩ := write_of_limit_eq_some hlimit text
    have hsize : ∀ bytes : ByteArray, overflows (some n) bytes = true ↔ ¬ bytes.size ≤ n := by
      simp [overflows]
    rw [cut] at h ⊢
    by_cases hfits : all.size ≤ n
    · rw [extract_of_size_le hfits] at h
      rw [h] at hbytes herror
      refine ⟨hbytes, herror.trans ?_⟩
      simp only [hsize, ite_not]
    -- The sink is full up to its limit, and a text that is not empty does not fit.
    · have hfull : sink.bytes.size = n := by
        rw [h, ByteArray.size_extract]
        omega
      have hpos := size_toUTF8_pos htext
      have hmore : ¬ (sink.bytes ++ text.toUTF8).size ≤ n := by
        rw [ByteArray.size_append]
        omega
      have hmore' : ¬ (all ++ text.toUTF8).size ≤ n := by
        rw [ByteArray.size_append]
        omega
      rw [if_neg hmore] at herror
      rw [if_pos ((hsize _).2 hmore')]
      refine ⟨hbytes.trans ?_, herror⟩
      rw [extract_append_of_le (Nat.le_of_eq hfull.symm), extract_append_of_le (by omega),
        extract_of_size_le (Nat.le_of_eq hfull), h]

end Sink

/-- Some lines are written as one text, up to the limit. -/
theorem Binder.writeLines_of_bytes_eq_cut {b : Binder} {limit : Option Nat} {all : ByteArray}
    (hlimit : b.sink.limit = limit) (h : b.sink.bytes = Sink.cut limit all)
    (lines : List String) :
    ∃ sink : Sink, sink.limit = limit ∧
      sink.bytes = Sink.cut limit (all ++ (Text.ofLines lines).toUTF8) ∧
      (b.writeLines lines).state = { b with sink } ∧
      (lines ≠ [] → (b.writeLines lines).error =
        if Sink.overflows limit (all ++ (Text.ofLines lines).toUTF8) then some .sinkFull
        else none) := by
  induction lines generalizing b all with
  | nil => exact ⟨b.sink, hlimit, by simpa [Text.ofLines] using h, rfl, fun hne => absurd rfl hne⟩
  | cons line rest ih =>
    have hline : line ++ "\n" ≠ "" := by simp
    have hall : all ++ (line ++ "\n").toUTF8 ++ (Text.ofLines rest).toUTF8 =
        all ++ (Text.ofLines (line :: rest)).toUTF8 := by
      simp [Text.ofLines, ByteArray.append_assoc]
    obtain ⟨hbytes, herror⟩ := Sink.write_of_bytes_eq_cut hlimit h hline
    have hkept := (Sink.limit_write b.sink (line ++ "\n")).trans hlimit
    rw [← hall, writeLines]
    cases hover : Sink.overflows limit (all ++ (line ++ "\n").toUTF8) with
    | true =>
      rw [hover, if_pos rfl] at herror
      have hwrite : (b.write (line ++ "\n")).error = some .sinkFull := herror
      rw [Outcome.andThen_of_error hwrite, Sink.cut_append_of_overflows hover,
        Sink.overflows_append hover, if_pos rfl]
      exact ⟨_, hkept, hbytes, rfl, fun _ => hwrite⟩
    | false =>
      rw [hover, if_neg Bool.false_ne_true] at herror
      have hwrite : (b.write (line ++ "\n")).error = none := herror
      obtain ⟨sink, hsink, hrest, hstate, hfails⟩ :=
        ih (b := (b.write (line ++ "\n")).state) hkept hbytes
      rw [Outcome.andThen_of_error_eq_none hwrite]
      refine ⟨sink, hsink, hrest, hstate, fun _ => ?_⟩
      cases rest with
      | nil =>
        have hempty : (Text.ofLines []).toUTF8 = .empty := rfl
        rw [hempty, ByteArray.append_empty, hover]
        rfl
      | cons next rest => exact hfails (List.cons_ne_nil _ _)

/-- Errors that say that a name is taken. -/
def Error.IsDuplicate : Error → Prop
  | duplicateClass _ | duplicateMember .. => True
  | unexpectedToken .. | unexpectedEnd _ | staticCtor _ | sinkFull | refused => False

/-- What a call of a binder defines in a class of these names: the member it records, and the glue
it writes. -/
def Event.definition? (aliases : AliasTable) (names : Glue.ClassNames) :
    Event → Option (String × Glue.Function)
  | .method s => some (s.memberName, .ofMethod aliases names s)
  | .ctor s => some (Signature.ctorName, .ofCtor aliases names s)
  | .classStart _ | .nativeName _ | .classEnd => none

/-- Behind its class, each member is declared by itself. -/
theorem Registry.map_snd_declarations (r : Registry) :
    r.declarations.map Prod.snd = r.entries.flatMap ClassEntry.members := by
  rw [declarations, List.map_flatMap]
  simp only [List.map_map, Function.comp_def, List.map_id']

theorem Registry.mem_declarations_iff {r : Registry} {wrapper member : String} :
    (wrapper, member) ∈ r.declarations ↔
      ∃ members, ⟨wrapper, members⟩ ∈ r.entries ∧ member ∈ members := by
  rw [declarations, List.mem_flatMap]
  constructor
  · rintro ⟨entry, hentry, hdeclared⟩
    obtain ⟨other, hother, heq⟩ := List.mem_map.1 hdeclared
    obtain ⟨rfl, rfl⟩ := Prod.mk.inj heq
    exact ⟨entry.members, hentry, hother⟩
  · rintro ⟨members, hentry, hmember⟩
    exact ⟨_, hentry, List.mem_map_of_mem hmember⟩

namespace Binder

variable (aliases : AliasTable)

/-- The definition of a call, if its member can be recorded. -/
def accepted? (b : Binder) (call : Event) : Option (String × Glue.Function) :=
  (call.definition? aliases b.names).filter fun definition =>
    (b.registry.addMember b.names.wrapper definition.1).isOk

/-- The current class is the one that was recorded last. Before anything is recorded it has no
name. -/
def IsCurrent (b : Binder) : Prop :=
  b.registry.entries = [] ∧ b.names.wrapper = "" ∨
    ∃ front members, b.registry.entries = front ++ [⟨b.names.wrapper, members⟩]

variable {limit : Option Nat} {all : ByteArray} {b : Binder}

theorem IsCurrent.addMember (h : b.IsCurrent) (member : String) :
    ((b.names.wrapper, member) ∈ b.registry.declarations ∧
      b.registry.addMember b.names.wrapper member =
        .error (.duplicateMember b.names.wrapper member)) ∨
    ((b.names.wrapper, member) ∉ b.registry.declarations ∧
      ∃ registry, b.registry.addMember b.names.wrapper member = .ok registry ∧
        IsCurrent { b with registry } ∧
        registry.declarations = b.registry.declarations ++ [(b.names.wrapper, member)] ∧
        registry.entries.map ClassEntry.wrapper =
          if b.registry.entries = [] then [""] else b.registry.entries.map ClassEntry.wrapper) := by
  rcases h with ⟨hempty, hname⟩ | ⟨front, members, hlast⟩
  -- A definition before any class makes an entry without a name, which is then the current one.
  · have hunknown : b.names.wrapper ∉ b.registry.entries.map ClassEntry.wrapper := by
      rw [hempty]
      exact List.not_mem_nil
    obtain ⟨after, hadd, hentries⟩ := Registry.exists_addMember_of_unknown hunknown member
    refine .inr ⟨?_, after, hadd, .inr ⟨_, _, hentries⟩, ?_, ?_⟩
    · rw [Registry.declarations, hempty]
      exact List.not_mem_nil
    · rw [Registry.declarations, hentries, List.flatMap_append, List.flatMap_singleton]
      rfl
    · rw [hentries, hempty, hname]
      rfl
  · have hentry : ⟨b.names.wrapper, members⟩ ∈ b.registry.entries := by
      rw [hlast]
      exact List.mem_append_right _ List.mem_cons_self
    by_cases hmem : member ∈ members
    · exact .inl ⟨Registry.mem_declarations_iff.2 ⟨members, hentry, hmem⟩,
        Registry.addMember_of_mem hentry hmem⟩
    · have hnew : (b.names.wrapper, member) ∉ b.registry.declarations := by
        rw [Registry.mem_declarations_iff]
        rintro ⟨others, hothers, hmember⟩
        have hsame := (Registry.members?_eq_some_of_mem hothers).symm.trans
          (Registry.members?_eq_some_of_mem hentry)
        exact hmem (Option.some.inj hsame ▸ hmember)
      obtain ⟨after, hadd, hentries⟩ := Registry.exists_addMember_of_notMem hentry hmem
      rw [Registry.map_extend_last hlast] at hentries
      refine .inr ⟨hnew, after, hadd, .inr ⟨_, _, hentries⟩, ?_, ?_⟩
      · rw [Registry.declarations, Registry.declarations, hentries, hlast, List.flatMap_append,
          List.flatMap_append, List.flatMap_singleton, List.flatMap_singleton, List.map_append,
          List.append_assoc]
        rfl
      · rw [hentries, if_neg (List.ne_nil_of_mem hentry), hlast, List.map_append, List.map_append]
        rfl

/-- A class that is new becomes the current one. -/
theorem isCurrent_addClass (b : Binder) (wrapper : String) :
    (wrapper ∈ b.registry.entries.map ClassEntry.wrapper ∧
      b.registry.addClass wrapper = .error (.duplicateClass wrapper)) ∨
    (wrapper ∉ b.registry.entries.map ClassEntry.wrapper ∧
      ∃ registry, b.registry.addClass wrapper = .ok registry ∧
        IsCurrent { b with registry, names := .plain wrapper } ∧
        registry.declarations = b.registry.declarations ∧
        registry.entries.map ClassEntry.wrapper =
          b.registry.entries.map ClassEntry.wrapper ++ [wrapper]) := by
  by_cases hmem : wrapper ∈ b.registry.entries.map ClassEntry.wrapper
  · exact .inl ⟨hmem, Registry.addClass_of_mem hmem⟩
  · obtain ⟨after, hadd, hentries⟩ := Registry.exists_addClass_of_notMem hmem
    refine .inr ⟨hmem, after, hadd, .inr ⟨_, _, hentries⟩, ?_, ?_⟩
    · rw [Registry.declarations, hentries, List.flatMap_append, List.flatMap_singleton]
      exact List.append_nil _
    · rw [hentries, List.map_append]
      rfl

section ClassStart

variable {wrapper : String}

theorem hear_classStart_of_error {e : Error} (hadd : b.registry.addClass wrapper = .error e) :
    hear aliases b (.classStart wrapper) = ⟨b, [.wrapping wrapper], some e⟩ := by
  simp only [hear, hadd]

theorem hear_classStart_of_ok {registry : Registry}
    (hadd : b.registry.addClass wrapper = .ok registry) :
    hear aliases b (.classStart wrapper) =
      ⟨{ b with registry, names := .plain wrapper }, [.wrapping wrapper], none⟩ := by
  simp only [hear, hadd]

end ClassStart

/-- The sink has what its limit leaves of `all`, and the current class is the last one. -/
structure Keeps (limit : Option Nat) (all : ByteArray) (b : Binder) : Prop where
  limit_eq : b.sink.limit = limit
  current : b.IsCurrent
  bytes_eq : b.sink.bytes = Sink.cut limit all

/-- A definition is refused before anything of it is recorded. Once it is recorded it is written, as
far as it fits, and if it fits it is logged. -/
theorem Keeps.define (h : Keeps limit all b) (member : String) (function : Glue.Function) :
    ((b.registry.addMember b.names.wrapper member).isOk = false ∧
      b.define member function = ⟨b, [], some (.duplicateMember b.names.wrapper member)⟩) ∨
    ((b.registry.addMember b.names.wrapper member).isOk = true ∧
      Keeps limit (all ++ function.text.toUTF8) (b.define member function).state ∧
      (b.define member function).state.registry.declarations =
        b.registry.declarations ++ [(b.names.wrapper, member)] ∧
      (b.define member function).records =
        (if Sink.overflows limit (all ++ function.text.toUTF8) then []
        else [.emitted function.symbol]) ∧
      (b.define member function).error =
        if Sink.overflows limit (all ++ function.text.toUTF8) then some .sinkFull else none) := by
  rcases h.current.addMember member with
    ⟨-, hadd⟩ | ⟨-, registry, hadd, hcurrent, hdeclarations, -⟩
  · rw [define_of_error hadd, hadd]
    exact .inl ⟨rfl, rfl⟩
  · have hlines : function.lines ≠ [] := by simp [Glue.Function.lines]
    obtain ⟨sink, hlimit, hbytes, hstate, herror⟩ :=
      writeLines_of_bytes_eq_cut (b := { b with registry }) h.limit_eq h.bytes_eq function.lines
    have hfails := herror hlines
    have hrecords := records_writeLines { b with registry } function.lines
    have hglue : (Text.ofLines function.lines).toUTF8 = function.text.toUTF8 := rfl
    rw [hglue] at hbytes hfails
    rw [define_of_ok hadd, hadd]
    refine .inr ⟨rfl, ?_⟩
    cases hover : Sink.overflows limit (all ++ function.text.toUTF8) with
    | true =>
      rw [hover] at hfails
      rw [Outcome.andThen_of_error hfails, hstate]
      exact ⟨⟨hlimit, hcurrent, hbytes⟩, hdeclarations, hrecords, hfails⟩
    | false =>
      rw [hover] at hfails
      rw [Outcome.andThen_of_error_eq_none hfails, hstate, hrecords]
      exact ⟨⟨hlimit, hcurrent, hbytes⟩, hdeclarations, rfl, rfl⟩

/-- What a call can do to a binder that has written `all`: it is refused as a duplicate and changes
nothing, or it is a definition and is accepted, or it defines nothing. Only a definition that is
written completely is logged as such. -/
inductive Answers (limit : Option Nat) (all : ByteArray) (b : Binder) (call : Event) : Prop where
  | duplicate {e : Error} (haccepted : b.accepted? aliases call = none)
      (hstate : (hear aliases b call).state = b)
      (hemitted : (hear aliases b call).records.filterMap Record.emitted? = [])
      (herror : (hear aliases b call).error = some e) (hduplicate : e.IsDuplicate)
  | defined {member : String} {function : Glue.Function}
      (haccepted : b.accepted? aliases call = some (member, function))
      (hkeeps : Keeps limit (all ++ function.text.toUTF8) (hear aliases b call).state)
      (hdeclarations : (hear aliases b call).state.registry.declarations =
        b.registry.declarations ++ [(b.names.wrapper, member)])
      (hemitted : (hear aliases b call).records.filterMap Record.emitted? =
        if Sink.overflows limit (all ++ function.text.toUTF8) then [] else [function.symbol])
      (herror : (hear aliases b call).error =
        if Sink.overflows limit (all ++ function.text.toUTF8) then some .sinkFull else none)
  | other (haccepted : b.accepted? aliases call = none)
      (hkeeps : Keeps limit all (hear aliases b call).state)
      (hdeclarations : (hear aliases b call).state.registry.declarations =
        b.registry.declarations)
      (hemitted : (hear aliases b call).records.filterMap Record.emitted? = [])
      (herror : (hear aliases b call).error = none)

theorem Keeps.answers_define (h : Keeps limit all b) {call : Event} {member : String}
    {function : Glue.Function}
    (hcall : call.definition? aliases b.names = some (member, function))
    (hhear : hear aliases b call = b.define member function) :
    Answers aliases limit all b call := by
  have haccepted : b.accepted? aliases call =
      if (b.registry.addMember b.names.wrapper member).isOk then some (member, function)
      else none := by
    rw [accepted?, hcall]
    rfl
  rcases h.define member function with
    ⟨hadd, hdefine⟩ | ⟨hadd, hkeeps, hdeclarations, hrecords, herror⟩
  · rw [hadd] at haccepted
    rw [hdefine] at hhear
    have herror : (hear aliases b call).error =
        some (.duplicateMember b.names.wrapper member) := by rw [hhear]
    exact .duplicate haccepted (by rw [hhear]) (by rw [hhear]; rfl) herror trivial
  · rw [hadd] at haccepted
    rw [← hhear] at hkeeps hdeclarations hrecords herror
    refine .defined haccepted hkeeps hdeclarations ?_ herror
    rw [hrecords]
    split <;> rfl

theorem Keeps.answers (h : Keeps limit all b) (call : Event) :
    Answers aliases limit all b call := by
  cases call with
  | classStart wrapper =>
    rcases isCurrent_addClass b wrapper with
      ⟨-, hadd⟩ | ⟨-, registry, hadd, hcurrent, hdeclarations, -⟩
    · have hhear := hear_classStart_of_error aliases hadd
      have herror : (hear aliases b (.classStart wrapper)).error =
          some (.duplicateClass wrapper) := by rw [hhear]
      exact .duplicate rfl (by rw [hhear]) (by rw [hhear]; rfl) herror trivial
    · have hhear := hear_classStart_of_ok aliases hadd
      refine .other rfl ?_ (by rw [hhear]; exact hdeclarations) (by rw [hhear]; rfl) (by rw [hhear])
      rw [hhear]
      exact ⟨h.limit_eq, hcurrent, h.bytes_eq⟩
  | nativeName native => exact .other rfl ⟨h.limit_eq, h.current, h.bytes_eq⟩ rfl rfl rfl
  | method s => exact h.answers_define aliases rfl rfl
  | ctor s => exact h.answers_define aliases rfl rfl
  | classEnd => exact .other rfl h rfl rfl rfl

end Binder

end LuaGlue
