import LuaGlue.Proofs.Grammar.Plain
import LuaGlue.Settings

namespace LuaGlue

/-- A line that is empty, or starts with a space or with a closing brace. All lines of a glue
function but the first one are set back, whatever types and names are written into them. -/
def Text.SetBack (line : String) : Prop :=
  ∀ c ∈ line.toList.head?, c = ' ' ∨ c = '\x7d'

/-- The line starts with something else. -/
theorem Text.SetBack.not_isPrefix {line : String} (h : SetBack line) {c : Char} {rest : List Char}
    (hc : c ≠ ' ' ∧ c ≠ '\x7d') : ¬ c :: rest <+: line.toList := by
  rintro ⟨behind, hline⟩
  have hor : c = ' ' ∨ c = '\x7d' := h c (by rw [← hline]; rfl)
  exact hor.elim hc.1 hc.2

/-- The lines that start like a definition. -/
def Text.headLines (lines : List String) : List String :=
  lines.filter (·.startsWith "int ")

@[simp]
theorem Text.headLines_append (first second : List String) :
    headLines (first ++ second) = headLines first ++ headLines second :=
  List.filter_append _ _

theorem Text.headLines_eq_nil {lines : List String} (h : ∀ line ∈ lines, SetBack line) :
    headLines lines = [] := by
  refine List.filter_eq_nil_iff.2 fun line hline => ?_
  rw [String.startsWith_string_iff]
  exact (h line hline).not_isPrefix (by decide)

namespace Glue

/-- No line feed in what an action writes, its arguments apart. -/
def Action.Plain : Action → Prop
  | construct type => Text.OneLine type
  | call callee => Text.OneLine callee
  | push type callee => Text.OneLine type ∧ Text.OneLine callee

namespace Function

/-- No line feed in the types and names that a glue function is laid out from. -/
structure Plain (f : Function) : Prop where
  symbol : Text.OneLine f.symbol
  receiver : ∀ type ∈ f.receiver, Text.OneLine type
  args : ∀ a ∈ f.args, Text.OneLine a.declared ∧ Text.OneLine a.taken
  action : f.action.Plain

/-- The lines behind the first one. -/
def bodyLines (f : Function) : List String :=
  f.depthLines ++ f.receiverLines ++ f.args.map Argument.line ++ f.action.lines f.callArgs ++
    ["\x7d", ""]

theorem lines_eq (f : Function) : f.lines = f.headLine :: f.bodyLines := by
  simp [lines, bodyLines]

theorem setBack_of_mem_bodyLines (f : Function) : ∀ line ∈ f.bodyLines, Text.SetBack line := by
  have haction : ∀ line ∈ f.action.lines f.callArgs, Text.SetBack line := by
    cases f.action <;> simp [Action.lines, Text.SetBack]
  have hend : ∀ line ∈ ["\x7d", ""], Text.SetBack line := by simp [Text.SetBack]
  simp only [bodyLines, depthLines, receiverLines, List.forall_mem_append, List.forall_mem_map]
  refine ⟨⟨⟨⟨?_, ?_⟩, ?_⟩, haction⟩, hend⟩
  · simp [Text.SetBack]
  · simp [Text.SetBack]
  · simp [Argument.line, Text.SetBack]

theorem startsWith_headLine (f : Function) : f.headLine.startsWith "int " := by
  simp [String.startsWith_string_iff, headLine]

@[simp]
theorem headLines_lines (f : Function) : Text.headLines f.lines = [f.headLine] := by
  rw [lines_eq, Text.headLines, List.filter_cons, if_pos f.startsWith_headLine]
  exact congrArg _ (Text.headLines_eq_nil f.setBack_of_mem_bodyLines)

end Function

theorem Action.oneLine_of_mem_lines {action : Action} (h : action.Plain) {args : String}
    (hargs : Text.OneLine args) : ∀ line ∈ action.lines args, Text.OneLine line := by
  cases action with
  | construct type =>
    have htype : Text.OneLine type := h
    simp +decide [lines, htype, hargs]
  | call callee =>
    have hcallee : Text.OneLine callee := h
    simp +decide [lines, hcallee, hargs]
  | push type callee =>
    obtain ⟨htype, hcallee⟩ : Text.OneLine type ∧ Text.OneLine callee := h
    simp +decide [lines, htype, hcallee, hargs]

theorem exists_type_of_mem_arguments {start : Nat} {params : List String}
    {declared taken : String → String} {a : Argument}
    (h : a ∈ arguments start params declared taken) :
    ∃ type ∈ params, a.declared = declared type ∧ a.taken = taken type := by
  obtain ⟨⟨type, slot⟩, htype, rfl⟩ := List.mem_map.1 h
  exact ⟨type, List.fst_mem_of_mem_zipIdx htype, rfl, rfl⟩

theorem Argument.oneLine_line {a : Argument} (hdeclared : Text.OneLine a.declared)
    (htaken : Text.OneLine a.taken) : Text.OneLine a.line := by
  simp +decide [line, var, hdeclared, htaken]

namespace Function

theorem oneLine_callArgs (f : Function) : Text.OneLine f.callArgs := by
  refine Text.oneLine_intercalate (by decide) (List.forall_mem_map.2 fun a _ => ?_)
  simp +decide [Argument.var]

theorem Plain.oneLine_of_mem_lines {f : Function} (h : f.Plain) :
    ∀ line ∈ f.lines, Text.OneLine line := by
  have haction := Action.oneLine_of_mem_lines h.action f.oneLine_callArgs
  have hargs : ∀ a ∈ f.args, Text.OneLine a.line := fun a ha =>
    Argument.oneLine_line (h.args a ha).1 (h.args a ha).2
  simp only [lines, headLine, depthLines, receiverLines, List.forall_mem_append,
    List.forall_mem_map]
  refine ⟨⟨⟨⟨⟨?_, ?_⟩, ?_⟩, hargs⟩, haction⟩, by decide⟩
  · simp +decide [h.symbol]
  · simp +decide
  · simpa +decide using h.receiver

end Function

end Glue

/-- The strings that are written behind the head contain no line feed. -/
structure Settings.OneLine (settings : Settings) : Prop where
  targets : ∀ entry ∈ settings.aliases.entries, Text.OneLine entry.2
  registerFunction : Text.OneLine settings.registerFunction
  interpreter : Text.OneLine settings.interpreter

theorem AliasTable.oneLine_resolve {aliases : AliasTable}
    (htargets : ∀ entry ∈ aliases.entries, Text.OneLine entry.2) {type : String}
    (htype : Text.OneLine type) : Text.OneLine (aliases.resolve type) := by
  unfold resolve
  cases hlookup : aliases.entries.lookup type with
  | none => exact htype
  | some target =>
    obtain ⟨before, behind, hentries, -⟩ := List.lookup_eq_some_iff.1 hlookup
    exact htargets (type, target) (by simp [hentries])

namespace Signature

variable {aliases : AliasTable} {names : Glue.ClassNames} {s : Signature}

theorem symbol_glue : (s.glue aliases names).symbol = Glue.symbol names.wrapper s.memberName := by
  cases hctor : s.isCtor with
  | true => simp [glue, memberName, hctor, Glue.Function.ofCtor]
  | false => simp [glue, memberName, hctor, Glue.Function.ofMethod]

private theorem Plain.ofCtor (h : s.Plain) (hnames : names.Plain)
    (htargets : ∀ entry ∈ aliases.entries, Text.OneLine entry.2) :
    (Glue.Function.ofCtor aliases names s).Plain where
  symbol := by
    simp +decide [Glue.Function.ofCtor, Glue.symbol, hnames.wrapper.oneLine]
  receiver := by simp [Glue.Function.ofCtor]
  args := by
    intro a ha
    obtain ⟨type, htype, hdeclared, htaken⟩ := Glue.exists_type_of_mem_arguments ha
    rw [hdeclared, htaken]
    exact ⟨h.params type htype, AliasTable.oneLine_resolve htargets (h.params type htype)⟩
  action := hnames.native.oneLine

private theorem Plain.ofMethod (h : s.Plain) (hnames : names.Plain)
    (htargets : ∀ entry ∈ aliases.entries, Text.OneLine entry.2) :
    (Glue.Function.ofMethod aliases names s).Plain where
  symbol := by
    simp +decide [Glue.Function.ofMethod, Glue.symbol, hnames.wrapper.oneLine, h.name.oneLine]
  receiver := by
    cases hstatic : s.isStatic <;>
      simp [Glue.Function.ofMethod, hstatic, hnames.native.oneLine]
  args := by
    intro a ha
    obtain ⟨type, htype, hdeclared, htaken⟩ := Glue.exists_type_of_mem_arguments ha
    rw [hdeclared, htaken]
    have hresolved := AliasTable.oneLine_resolve htargets (h.params type htype)
    exact ⟨hresolved, hresolved⟩
  action := by
    have hresolved := AliasTable.oneLine_resolve htargets h.returns.oneLine
    cases hstatic : s.isStatic <;> cases hvoid : s.returnsVoid <;>
      simp +decide [Glue.Function.ofMethod, Glue.Action.Plain, hstatic, hvoid,
        hnames.native.oneLine, h.name.oneLine, hresolved]

theorem Plain.glue (h : s.Plain) (hnames : names.Plain)
    (htargets : ∀ entry ∈ aliases.entries, Text.OneLine entry.2) :
    (s.glue aliases names).Plain := by
  unfold Signature.glue
  split
  · exact h.ofCtor hnames htargets
  · exact h.ofMethod hnames htargets

end Signature

end LuaGlue
