import Mathlib.Data.List.DropRight
import LuaGlue.Glue.Registration
import LuaGlue.Proofs.Glue.Lines
import LuaGlue.Proofs.Glue.Symbol

namespace LuaGlue

namespace Text

/-- The text between the two ends of a line, if it has these ends. -/
def between? (opening closing line : String) : Option String :=
  ((line.toList.dropPrefix? opening.toList).bind
    (·.dropSuffix? closing.toList)).map String.ofList

theorem between?_append (opening inner closing : String) :
    between? opening closing (opening ++ inner ++ closing) = some inner := by
  have hopening : (opening ++ inner ++ closing).toList.dropPrefix? opening.toList =
      some (inner.toList ++ closing.toList) := by
    rw [String.toList_append, String.toList_append, List.append_assoc]
    exact List.dropPrefix?_append_of_beq _ BEq.rfl
  have hclosing : (inner.toList ++ closing.toList).dropSuffix? closing.toList =
      some inner.toList :=
    List.dropSuffix?_eq_some_iff.2 ⟨closing.toList, rfl, BEq.rfl⟩
  rw [between?, hopening, Option.bind_some, hclosing, Option.map_some, String.ofList_toList]

theorem between?_eq_none {opening line : String} (h : ¬ opening.toList <+: line.toList)
    (closing : String) : between? opening closing line = none := by
  have hopening : line.toList.dropPrefix? opening.toList = none := by
    rw [Option.eq_none_iff_forall_ne_some]
    intro rest hrest
    obtain ⟨front, hline, hfront⟩ := List.dropPrefix?_eq_some_iff.1 hrest
    exact h ⟨rest, by rw [hline, eq_of_beq hfront]⟩
  rw [between?, hopening]
  rfl

/-- What stands behind the last of these characters. -/
def behindLast (c : Char) (line : String) : String :=
  String.ofList (line.toList.rtakeWhile (· ≠ c))

theorem behindLast_eq {c : Char} {line inner : String} (before : List Char)
    (hline : line.toList = before ++ c :: inner.toList) (h : c ∉ inner.toList) :
    behindLast c line = inner := by
  have hinner : ∀ d ∈ inner.toList.reverse, decide (d ≠ c) = true := by
    intro d hd
    rw [decide_eq_true_eq]
    rintro rfl
    exact h (List.mem_reverse.1 hd)
  have hreverse : line.toList.reverse = inner.toList.reverse ++ c :: before.reverse := by
    rw [hline, List.reverse_append, List.reverse_cons, List.append_assoc, List.singleton_append]
  rw [behindLast, List.rtakeWhile, hreverse, List.takeWhile_append_of_pos hinner]
  simp

/-- What stands behind the last space of a line. -/
def lastWord (line : String) : String :=
  String.ofList (line.toList.rtakeWhile (· ≠ ' '))

theorem lastWord_append {word : String} (h : ' ' ∉ word.toList) (before : String) :
    lastWord (before ++ " " ++ word) = word :=
  behindLast_eq before.toList (by simp) h

end Text

namespace Glue

/-- The class that a line registers, if it registers a class. -/
def className? (interpreter line : String) : Option String :=
  Text.between? ("  " ++ interpreter ++ ".registerBase(\"") "\");" line

/-- The symbol that a line takes with `&`, if it registers a member. -/
def takenSymbol? (interpreter line : String) : Option String :=
  if line.startsWith ("  " ++ interpreter ++ ".registerMethod(\"") then
    Text.between? "&" ");" (Text.lastWord line)
  else none

/-- The symbols that are taken in some lines, each with the class whose line is the last one above;
`current` is the class of the lines before. The scan knows nothing of a registry: it looks for lines
that start like a class line or a member line. -/
def takenSymbols (interpreter : String) :
    Option String → List String → List (Option String × String)
  | _, [] => []
  | current, line :: rest =>
    ((takenSymbol? interpreter line).toList.map (current, ·)) ++
      takenSymbols interpreter ((className? interpreter line).or current) rest

/-- From the head of the registration function on. -/
def registrationPart (settings : Settings) (lines : List String) : List String :=
  lines.dropWhile (· ≠ "void " ++ settings.registerFunction ++ "() \x7b")

variable (interpreter : String) {wrapper member : String}

theorem className?_classLine (wrapper : String) :
    className? interpreter (classLine interpreter wrapper) = some wrapper :=
  Text.between?_append _ _ _

theorem className?_memberLine (wrapper member : String) :
    className? interpreter (memberLine interpreter wrapper member) = none := by
  refine Text.between?_eq_none ?_ _
  simp [memberLine, List.prefix_append_right_inj]

theorem takenSymbol?_classLine (wrapper : String) :
    takenSymbol? interpreter (classLine interpreter wrapper) = none := by
  refine if_neg ?_
  simp [String.startsWith_string_iff, classLine, List.prefix_append_right_inj]

theorem takenSymbol?_memberLine (h : ' ' ∉ (symbol wrapper member).toList) :
    takenSymbol? interpreter (memberLine interpreter wrapper member) =
      some (symbol wrapper member) := by
  have hstart : (memberLine interpreter wrapper member).startsWith
      ("  " ++ interpreter ++ ".registerMethod(\"") := by
    simp [String.startsWith_string_iff, memberLine, List.prefix_append_right_inj]
  have hline : memberLine interpreter wrapper member =
      "  " ++ interpreter ++ ".registerMethod(\"" ++ wrapper ++ "\", \"" ++ member ++ "\"," ++ " " ++
        ("&" ++ symbol wrapper member ++ ");") := String.ext (by simp [memberLine])
  have hword : Text.lastWord (memberLine interpreter wrapper member) =
      "&" ++ symbol wrapper member ++ ");" := by
    rw [hline]
    exact Text.lastWord_append (by simp [h]) _
  rw [takenSymbol?, if_pos hstart, hword, Text.between?_append]

/-- Lines that do not start with a space register nothing. -/
theorem takenSymbols_cons_of_head? {line : String} (h : line.toList.head? ≠ some ' ')
    (current : Option String) (rest : List String) :
    takenSymbols interpreter current (line :: rest) = takenSymbols interpreter current rest := by
  have hstart (opening : String) : ¬ ("  " ++ interpreter ++ opening).toList <+: line.toList := by
    rintro ⟨behind, hline⟩
    rw [← hline] at h
    simp at h
  have hclass : className? interpreter line = none := Text.between?_eq_none (hstart _) _
  have htaken : takenSymbol? interpreter line = none :=
    if_neg (by rw [String.startsWith_string_iff]; exact hstart _)
  rw [takenSymbols, hclass, htaken]
  rfl

theorem takenSymbols_eq_nil {lines : List String}
    (h : ∀ line ∈ lines, line.toList.head? ≠ some ' ') (current : Option String) :
    takenSymbols interpreter current lines = [] := by
  induction lines with
  | nil => rfl
  | cons line lines ih =>
    rw [List.forall_mem_cons] at h
    exact (takenSymbols_cons_of_head? interpreter h.1 _ _).trans (ih h.2)

theorem takenSymbols_memberLines {members : List String}
    (h : ∀ member ∈ members, ' ' ∉ (symbol wrapper member).toList) (rest : List String) :
    takenSymbols interpreter (some wrapper)
        (members.map (memberLine interpreter wrapper) ++ rest) =
      members.map (fun member => (some wrapper, symbol wrapper member)) ++
        takenSymbols interpreter (some wrapper) rest := by
  induction members with
  | nil => rfl
  | cons member members ih =>
    rw [List.forall_mem_cons] at h
    rw [List.map_cons, List.cons_append, takenSymbols, takenSymbol?_memberLine _ h.1,
      className?_memberLine, Option.none_or, ih h.2]
    rfl

theorem space_notMem_symbol {entry : ClassEntry} (h : entry.Plain) :
    ∀ member ∈ entry.members, ' ' ∉ (symbol entry.wrapper member).toList := by
  intro member hmember
  have hwrapper := h.wrapper.space_notMem
  have hname := (h.members member hmember).space_notMem
  simp [symbol, hwrapper, hname]

/-- The members of a class are found under its own line, whatever stands above it. -/
theorem takenSymbols_entryLines {entry : ClassEntry} (h : entry.Plain) (current : Option String)
    (rest : List String) :
    takenSymbols interpreter current (entryLines interpreter entry ++ rest) =
      entry.members.map (fun member => (some entry.wrapper, symbol entry.wrapper member)) ++
        takenSymbols interpreter (some entry.wrapper) rest := by
  have hempty : takenSymbols interpreter (some entry.wrapper) ("" :: rest) =
      takenSymbols interpreter (some entry.wrapper) rest :=
    takenSymbols_cons_of_head? interpreter (by simp) _ _
  rw [entryLines, List.append_assoc, List.append_assoc, List.singleton_append, takenSymbols,
    takenSymbol?_classLine, className?_classLine, Option.some_or, List.singleton_append,
    takenSymbols_memberLines _ (space_notMem_symbol h), hempty]
  rfl

theorem takenSymbols_entries {entries : List ClassEntry} (h : ∀ entry ∈ entries, entry.Plain)
    (current : Option String) {rest : List String}
    (hrest : ∀ line ∈ rest, line.toList.head? ≠ some ' ') :
    takenSymbols interpreter current (entries.flatMap (entryLines interpreter) ++ rest) =
      entries.flatMap fun entry =>
        entry.members.map fun member => (some entry.wrapper, symbol entry.wrapper member) := by
  induction entries generalizing current with
  | nil => exact takenSymbols_eq_nil interpreter hrest current
  | cons entry entries ih =>
    rw [List.forall_mem_cons] at h
    rw [List.flatMap_cons, List.append_assoc, takenSymbols_entryLines _ h.1, ih h.2,
      List.flatMap_cons]

theorem takenSymbols_registrationLines (settings : Settings) {registry : Registry}
    (h : ∀ entry ∈ registry.entries, entry.Plain) :
    takenSymbols settings.interpreter none (registrationLines settings registry ++ [""]) =
      registry.declarations.map fun d => (some d.1, symbol d.1 d.2) := by
  have hhead : ("void " ++ settings.registerFunction ++ "() \x7b").toList.head? ≠ some ' ' := by
    simp
  have hend : ∀ line ∈ ["\x7d", "", ""], line.toList.head? ≠ some ' ' := by simp
  have hlines : registrationLines settings registry ++ [""] =
      ("void " ++ settings.registerFunction ++ "() \x7b") ::
        (registry.entries.flatMap (entryLines settings.interpreter) ++ ["\x7d", "", ""]) := by
    simp [registrationLines]
  rw [hlines, takenSymbols_cons_of_head? _ hhead, takenSymbols_entries _ h _ hend,
    Registry.declarations, List.map_flatMap]
  simp only [List.map_map, Function.comp_def]

theorem setBack_of_mem_entryLines (interpreter : String) (entry : ClassEntry) :
    ∀ line ∈ entryLines interpreter entry, Text.SetBack line := by
  simp only [entryLines, List.forall_mem_append, List.forall_mem_map]
  refine ⟨⟨?_, fun member _ => ?_⟩, ?_⟩
  · simp [classLine, Text.SetBack]
  · simp [memberLine, Text.SetBack]
  · simp [Text.SetBack]

theorem headLines_registrationLines (settings : Settings) (registry : Registry) :
    Text.headLines (registrationLines settings registry) = [] := by
  have hhead : Text.headLines ["void " ++ settings.registerFunction ++ "() \x7b"] = [] := by
    simp [Text.headLines, String.startsWith_string_iff]
  have hend : ∀ line ∈ ["\x7d", ""], Text.SetBack line := by simp [Text.SetBack]
  have hentries : ∀ line ∈ registry.entries.flatMap (entryLines settings.interpreter),
      Text.SetBack line := by
    intro line hline
    obtain ⟨entry, -, hmem⟩ := List.mem_flatMap.1 hline
    exact setBack_of_mem_entryLines settings.interpreter entry line hmem
  rw [registrationLines, Text.headLines_append, Text.headLines_append, hhead,
    Text.headLines_eq_nil hentries, Text.headLines_eq_nil hend]
  rfl

theorem oneLine_of_mem_entryLines {interpreter : String} (hinterpreter : Text.OneLine interpreter)
    {entry : ClassEntry} (h : entry.Plain) :
    ∀ line ∈ entryLines interpreter entry, Text.OneLine line := by
  have hwrapper := h.wrapper.oneLine
  simp only [entryLines, List.forall_mem_append, List.forall_mem_map]
  refine ⟨⟨?_, fun member hmember => ?_⟩, by decide⟩
  · simp +decide [classLine, hinterpreter, hwrapper]
  · simp +decide [memberLine, symbol, hinterpreter, hwrapper, (h.members member hmember).oneLine]

theorem oneLine_of_mem_registrationLines {settings : Settings} (hsettings : settings.OneLine)
    {registry : Registry} (h : ∀ entry ∈ registry.entries, entry.Plain) :
    ∀ line ∈ registrationLines settings registry, Text.OneLine line := by
  simp only [registrationLines, List.forall_mem_append]
  refine ⟨⟨?_, fun line hline => ?_⟩, by decide⟩
  · simp +decide [hsettings.registerFunction]
  · obtain ⟨entry, hentry, hmem⟩ := List.mem_flatMap.1 hline
    exact oneLine_of_mem_entryLines hsettings.interpreter (h entry hentry) line hmem

/-- In front of the registration there may be any lines but its head. -/
theorem registrationPart_append (settings : Settings) (registry : Registry) {before : List String}
    (h : ∀ line ∈ before, line ≠ "void " ++ settings.registerFunction ++ "() \x7b")
    (behind : List String) :
    registrationPart settings (before ++ registrationLines settings registry ++ behind) =
      registrationLines settings registry ++ behind := by
  have hbefore : ∀ line ∈ before,
      decide (line ≠ "void " ++ settings.registerFunction ++ "() \x7b") = true := fun line hline =>
    decide_eq_true (h line hline)
  rw [registrationPart, List.append_assoc, List.dropWhile_append_of_pos hbefore]
  simp [registrationLines]

end Glue

end LuaGlue
