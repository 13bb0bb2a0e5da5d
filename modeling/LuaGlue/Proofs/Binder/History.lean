import LuaGlue.Proofs.Binder.Writing

namespace LuaGlue

namespace Event

/-- The class that is started. -/
def classStart? : Event → Option String
  | classStart wrapper => some wrapper
  | nativeName _ | method _ | ctor _ | classEnd => none

/-- The real name that is given. -/
def nativeName? : Event → Option String
  | nativeName native => some native
  | classStart _ | method _ | ctor _ | classEnd => none

/-- The member that is defined. -/
def member? : Event → Option String
  | method s => some s.memberName
  | ctor _ => some Signature.ctorName
  | classStart _ | nativeName _ | classEnd => none

/-- The class that a call records if nothing has been recorded before it. A definition is then in a
class without a name. -/
def firstClass? (call : Event) : Option String :=
  call.classStart?.or (call.member?.map fun _ => "")

end Event

namespace History

/-- The classes that some calls record: those that are started, and the one without a name if a
definition comes before them. -/
def classes (calls : List Event) : List String :=
  (calls.findSome? Event.firstClass?).toList ++ calls.filterMap Event.classStart?

/-- The class that a call starts behind other calls. One that is recorded is not started again. -/
def started? (before : List Event) (call : Event) : Option String :=
  call.classStart?.filter (· ∉ classes before)

/-- The class that is started last, with the calls since. -/
def lastStart? (before : List Event) : List Event → Option (String × List Event)
  | [] => none
  | call :: rest =>
    (lastStart? (before ++ [call]) rest).or ((started? before call).map (·, rest))

/-- The current class, with the calls since it was started. Until a class is started the current one
has no name. -/
def current (calls : List Event) : String × List Event :=
  (lastStart? [] calls).getD ("", calls)

/-- The names of the current class. The real name is the last one that was given since the class was
started, and before one is given it is the name of the class. -/
def names (calls : List Event) : Glue.ClassNames where
  wrapper := (current calls).1
  native := ((current calls).2.reverse.findSome? Event.nativeName?).getD (current calls).1

/-- The members that are defined in the current class, the repeated ones included. -/
def members (calls : List Event) : List String :=
  (current calls).2.filterMap Event.member?

/-- What a call defines behind other calls, under the names that are current there. A member that
the current class has is not defined again. -/
def accepted? (aliases : AliasTable) (before : List Event) (call : Event) :
    Option (String × Glue.Function) :=
  (call.definition? aliases (names before)).filter fun definition =>
    definition.1 ∉ members before

/-- What some calls define behind other calls, in order. -/
def accepted (aliases : AliasTable) (before : List Event) :
    List Event → List (String × Glue.Function)
  | [] => []
  | call :: rest =>
    (accepted? aliases before call).toList ++ accepted aliases (before ++ [call]) rest

section Concat

variable {calls : List Event} {call : Event} {wrapper : String}

theorem started?_eq_some_iff :
    started? calls call = some wrapper ↔
      call.classStart? = some wrapper ∧ wrapper ∉ classes calls := by
  simp [started?, Option.filter_eq_some_iff]

theorem started?_eq_none_iff :
    started? calls call = none ↔
      ∀ wrapper, call.classStart? = some wrapper → wrapper ∈ classes calls := by
  simp [started?, Option.filter_eq_none_iff]

private theorem filterMap_singleton {β : Type} (f : Event → Option β) (call : Event) :
    [call].filterMap f = (f call).toList := by
  rw [List.filterMap_eq_flatMap_toList, List.flatMap_singleton]

theorem lastStart?_concat (before calls : List Event) (call : Event) :
    lastStart? before (calls ++ [call]) =
      ((started? (before ++ calls) call).map (·, [])).or
        ((lastStart? before calls).map fun start => (start.1, start.2 ++ [call])) := by
  induction calls generalizing before with
  | nil => simp [lastStart?]
  | cons first rest ih =>
    rw [List.cons_append, lastStart?, ih, lastStart?, Option.map_or, Option.map_map,
      Option.or_assoc, List.append_assoc]
    rfl

theorem current_concat_of_started (h : started? calls call = some wrapper) :
    current (calls ++ [call]) = (wrapper, []) := by
  rw [current, lastStart?_concat, List.nil_append, h]
  rfl

/-- A call that starts no class is one more of the calls since the last start. -/
theorem current_concat_of_not_started (h : started? calls call = none) :
    current (calls ++ [call]) = ((current calls).1, (current calls).2 ++ [call]) := by
  rw [current, lastStart?_concat, List.nil_append, h, current]
  cases lastStart? [] calls <;> rfl

theorem names_concat_of_started (h : started? calls call = some wrapper) :
    names (calls ++ [call]) = .plain wrapper := by
  rw [names, current_concat_of_started h]
  rfl

theorem names_concat_of_not_started (h : started? calls call = none) :
    names (calls ++ [call]) =
      { names calls with native := call.nativeName?.getD (names calls).native } := by
  rw [names, current_concat_of_not_started h, List.reverse_append, List.reverse_singleton,
    List.singleton_append, List.findSome?_cons]
  cases call.nativeName? <;> rfl

theorem members_concat_of_started (h : started? calls call = some wrapper) :
    members (calls ++ [call]) = [] := by
  rw [members, current_concat_of_started h]
  rfl

theorem members_concat_of_not_started (h : started? calls call = none) :
    members (calls ++ [call]) = members calls ++ call.member?.toList := by
  rw [members, current_concat_of_not_started h, List.filterMap_append, filterMap_singleton]
  rfl

theorem classes_eq_nil_iff : classes calls = [] ↔ calls.findSome? Event.firstClass? = none := by
  rw [classes, List.append_eq_nil_iff, Option.toList_eq_nil_iff, and_iff_left_iff_imp]
  intro hnone
  rw [List.findSome?_eq_none_iff] at hnone
  refine List.filterMap_eq_nil_iff.2 fun call hcall => ?_
  exact (Option.or_eq_none_iff.1 (hnone call hcall)).1

/-- One more call records a class if it starts one, and the first call that does more than name or
close a class records one in any case. -/
theorem mem_classes_concat :
    wrapper ∈ classes (calls ++ [call]) ↔
      wrapper ∈ classes calls ∨ call.classStart? = some wrapper ∨
        classes calls = [] ∧ call.firstClass? = some wrapper := by
  rw [classes_eq_nil_iff, classes, classes, List.findSome?_append, List.findSome?_singleton,
    List.filterMap_append, filterMap_singleton]
  simp only [List.mem_append, Option.mem_toList]
  cases calls.findSome? Event.firstClass? with
  | none =>
    rw [Option.none_or]
    tauto
  | some first => simp [or_assoc]

theorem mem_classes_concat_of_started {other : String} (h : started? calls call = some wrapper) :
    other ∈ classes (calls ++ [call]) ↔ other ∈ classes calls ∨ other = wrapper := by
  obtain ⟨hstart, -⟩ := started?_eq_some_iff.1 h
  rw [mem_classes_concat, Event.firstClass?, hstart, Option.some_or, Option.some_inj, eq_comm]
  tauto

/-- A class start that is refused names no new class, and a definition records a class only if
nothing has been recorded before it. -/
theorem mem_classes_concat_of_not_started (h : started? calls call = none) :
    wrapper ∈ classes (calls ++ [call]) ↔
      wrapper ∈ classes calls ∨ classes calls = [] ∧ call.member?.isSome = true ∧ wrapper = "" := by
  rw [mem_classes_concat]
  cases call with
  | classStart other =>
    have hknown : other ∈ classes calls := started?_eq_none_iff.1 h other rfl
    have hsame : other = wrapper → wrapper ∈ classes calls := fun heq => heq ▸ hknown
    simp only [Event.classStart?, Event.member?, Event.firstClass?, Option.some_or,
      Option.some_inj, Option.isSome_none]
    tauto
  | method | ctor =>
    simp [Event.classStart?, Event.member?, Event.firstClass?, eq_comm (a := "")]
  | nativeName | classEnd =>
    simp [Event.classStart?, Event.member?, Event.firstClass?]

end Concat

end History

namespace Binder

/-- What is written does not matter for what else a binder holds. -/
theorem exists_state_writeLines (b : Binder) (lines : List String) :
    ∃ sink : Sink, (b.writeLines lines).state = { b with sink } := by
  induction lines generalizing b with
  | nil => exact ⟨b.sink, rfl⟩
  | cons line rest ih =>
    rw [writeLines]
    cases herror : (b.write (line ++ "\n")).error with
    | some e =>
      rw [Outcome.andThen_of_error herror]
      exact ⟨_, rfl⟩
    | none =>
      rw [Outcome.andThen_of_error_eq_none herror]
      exact ih _

theorem exists_state_define_of_ok {b : Binder} {member : String} {registry : Registry}
    (hadd : b.registry.addMember b.names.wrapper member = .ok registry)
    (function : Glue.Function) :
    ∃ sink : Sink, (b.define member function).state = { b with registry, sink } := by
  obtain ⟨sink, hstate⟩ := exists_state_writeLines { b with registry } function.lines
  refine ⟨sink, ?_⟩
  rw [define_of_ok hadd, (Outcome.andThen_records _ _).1, hstate]

/-- The names of a binder, the classes of its registry and the members of its current class are
those that the calls before say. -/
structure Reflects (calls : List Event) (b : Binder) : Prop where
  names_eq : b.names = History.names calls
  mem_classes : ∀ wrapper,
    wrapper ∈ b.registry.entries.map ClassEntry.wrapper ↔ wrapper ∈ History.classes calls
  mem_members : ∀ member,
    (b.names.wrapper, member) ∈ b.registry.declarations ↔ member ∈ History.members calls

namespace Reflects

variable {calls : List Event} {b : Binder} {call : Event}

theorem entries_eq_nil_iff (h : Reflects calls b) :
    b.registry.entries = [] ↔ History.classes calls = [] := by
  rw [← List.map_eq_nil_iff, List.eq_nil_iff_forall_not_mem, List.eq_nil_iff_forall_not_mem]
  exact forall_congr' fun wrapper => not_congr (h.mem_classes wrapper)

/-- A call that starts a class. -/
theorem started {wrapper : String} (h : Reflects calls b)
    (hstart : History.started? calls call = some wrapper) {after : Binder}
    (hnames : after.names = .plain wrapper)
    (hclasses : after.registry.entries.map ClassEntry.wrapper =
      b.registry.entries.map ClassEntry.wrapper ++ [wrapper])
    (hdeclarations : after.registry.declarations = b.registry.declarations) :
    Reflects (calls ++ [call]) after := by
  refine ⟨?_, fun other => ?_, fun member => ?_⟩
  · rw [hnames, History.names_concat_of_started hstart]
  · rw [hclasses, History.mem_classes_concat_of_started hstart, List.mem_append,
      List.mem_singleton, h.mem_classes]
  · rw [hnames, hdeclarations, History.members_concat_of_started hstart]
    refine iff_of_false (fun hdeclared => ?_) List.not_mem_nil
    obtain ⟨members, hentry, -⟩ := Registry.mem_declarations_iff.1 hdeclared
    obtain ⟨-, hnew⟩ := History.started?_eq_some_iff.1 hstart
    exact hnew ((h.mem_classes wrapper).1 (List.mem_map_of_mem hentry))

/-- A call that starts no class. -/
theorem not_started (h : Reflects calls b) (hstart : History.started? calls call = none)
    {after : Binder}
    (hnames : after.names = { b.names with native := call.nativeName?.getD b.names.native })
    (hclasses : ∀ wrapper, wrapper ∈ after.registry.entries.map ClassEntry.wrapper ↔
      wrapper ∈ b.registry.entries.map ClassEntry.wrapper ∨
        b.registry.entries = [] ∧ call.member?.isSome = true ∧ wrapper = "")
    (hmembers : ∀ member, (b.names.wrapper, member) ∈ after.registry.declarations ↔
      (b.names.wrapper, member) ∈ b.registry.declarations ∨ call.member? = some member) :
    Reflects (calls ++ [call]) after := by
  refine ⟨?_, fun wrapper => ?_, fun member => ?_⟩
  · rw [hnames, History.names_concat_of_not_started hstart, h.names_eq]
  · rw [hclasses, h.mem_classes, h.entries_eq_nil_iff,
      History.mem_classes_concat_of_not_started hstart]
  · rw [hnames, hmembers, h.mem_members, History.members_concat_of_not_started hstart,
      List.mem_append, Option.mem_toList]

/-- A call that names nothing new leaves the registry. -/
theorem nothing_new (h : Reflects calls b) (hstart : History.started? calls call = none)
    {after : Binder}
    (hnames : after.names = { b.names with native := call.nativeName?.getD b.names.native })
    (hregistry : after.registry = b.registry)
    (hknown : ∀ member, call.member? = some member →
      (b.names.wrapper, member) ∈ b.registry.declarations) :
    Reflects (calls ++ [call]) after := by
  refine h.not_started hstart hnames (fun wrapper => ?_) fun member => ?_
  · rw [hregistry, iff_self_or]
    rintro ⟨hempty, hdefines, -⟩
    obtain ⟨member, hmember⟩ := Option.isSome_iff_exists.1 hdefines
    have hdeclared := hknown member hmember
    rw [Registry.declarations, hempty] at hdeclared
    cases hdeclared
  · rw [hregistry, iff_self_or]
    exact hknown member

theorem define (h : Reflects calls b) (hcurrent : b.IsCurrent)
    (hstart : History.started? calls call = none) (hnative : call.nativeName? = none)
    {member : String} (hmember : call.member? = some member) (function : Glue.Function) :
    Reflects (calls ++ [call]) (b.define member function).state := by
  have hnames : b.names = { b.names with native := call.nativeName?.getD b.names.native } := by
    rw [hnative]
    rfl
  rcases hcurrent.addMember member with
    ⟨hknown, hadd⟩ | ⟨-, registry, hadd, -, hdeclarations, hclasses⟩
  · rw [define_of_error hadd]
    refine h.nothing_new hstart hnames rfl fun other hother => ?_
    obtain rfl : member = other := Option.some.inj (hmember.symm.trans hother)
    exact hknown
  · obtain ⟨sink, hstate⟩ := exists_state_define_of_ok hadd function
    rw [hstate]
    refine h.not_started hstart hnames (fun wrapper => ?_) fun other => ?_
    · rw [hclasses, hmember]
      split
      · rename_i hempty
        simp [hempty]
      · rename_i hsome
        simp [hsome]
    · rw [hdeclarations, hmember, List.mem_append, List.mem_singleton]
      simp [eq_comm]

/-- What the calls say about a binder, one more of them says about it behind that one. -/
theorem hear (aliases : AliasTable) (h : Reflects calls b) (hcurrent : b.IsCurrent)
    (call : Event) : Reflects (calls ++ [call]) (hear aliases b call).state := by
  cases call with
  | classStart wrapper =>
    rcases isCurrent_addClass b wrapper with
      ⟨hknown, hadd⟩ | ⟨hnew, registry, hadd, -, hdeclarations, hclasses⟩
    · rw [hear_classStart_of_error aliases hadd]
      have hstart : History.started? calls (.classStart wrapper) = none :=
        History.started?_eq_none_iff.2 fun other hother =>
          Option.some.inj hother ▸ (h.mem_classes wrapper).1 hknown
      exact h.nothing_new hstart rfl rfl fun _ hmember => by cases hmember
    · rw [hear_classStart_of_ok aliases hadd]
      have hstart : History.started? calls (.classStart wrapper) = some wrapper :=
        History.started?_eq_some_iff.2 ⟨rfl, mt (h.mem_classes wrapper).2 hnew⟩
      exact h.started hstart rfl hclasses hdeclarations
  | nativeName native => exact h.nothing_new rfl rfl rfl fun _ hmember => by cases hmember
  | classEnd => exact h.nothing_new rfl rfl rfl fun _ hmember => by cases hmember
  | method s => exact h.define hcurrent rfl rfl rfl _
  | ctor s => exact h.define hcurrent rfl rfl rfl _

/-- What is accepted is decided by the calls before. -/
theorem accepted?_eq (aliases : AliasTable) (h : Reflects calls b) (hcurrent : b.IsCurrent)
    (call : Event) : b.accepted? aliases call = History.accepted? aliases calls call := by
  rw [accepted?, History.accepted?, ← h.names_eq]
  refine congrArg (Option.filter · _) (funext fun definition => ?_)
  rw [Bool.eq_iff_iff, decide_eq_true_iff, ← h.mem_members]
  rcases hcurrent.addMember definition.1 with ⟨hknown, hadd⟩ | ⟨hnew, registry, hadd, -⟩
  · rw [hadd]
    exact iff_of_false Bool.false_ne_true (not_not_intro hknown)
  · rw [hadd]
    exact iff_of_true rfl hnew

end Reflects

theorem reflects_fresh (limit : Option Nat) : Reflects [] (fresh limit) :=
  ⟨rfl, fun _ => Iff.rfl, fun _ => iff_of_false List.not_mem_nil List.not_mem_nil⟩

end Binder

end LuaGlue
