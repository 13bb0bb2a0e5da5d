import LuaGlue.Proofs.Glue.Scan

namespace LuaGlue

/-- The number that is written with some digits. -/
def Text.number? (text : String) : Option Nat :=
  if text ≠ "" ∧ text.toList.all Char.isDigit = true then
    some (Nat.ofDigitChars 10 text.toList 0)
  else none

theorem Text.number?_repr (n : Nat) : number? n.repr = some n := by
  have hdigits : n.repr.toList.all Char.isDigit = true := by
    rw [List.all_eq_true, Nat.toList_repr]
    exact fun c hc => Nat.isDigit_of_mem_toDigits (by decide) (by decide) hc
  rw [number?, if_pos ⟨by simp, hdigits⟩, Nat.toList_repr,
    Nat.ofDigitChars_toDigits (by decide) (by decide)]

namespace Glue

/-- What stands behind the last opening parenthesis of a line. No type and no name can mislead a
scan that looks only there. -/
def lastArguments (line : String) : String :=
  Text.behindLast '(' line

/-- The slot that a line reads from the stack. -/
def slot? (line : String) : Option Nat :=
  (Text.between? "L, " ");" (lastArguments line)).bind Text.number?

/-- The depth of the stack that a line asserts. -/
def depth? (line : String) : Option Nat :=
  (Text.between? "L) == " ");" (lastArguments line)).bind Text.number?

/-- The number of a variable such as `p2`. Spaces may stand before it. -/
def varNumber? (cs : List Char) : Option Nat :=
  match cs.dropWhile (· = ' ') with
  | 'p' :: digits => Text.number? (String.ofList digits)
  | _ => none

/-- The numbers of the variables that a line passes on, where it passes on nothing else. -/
def passed? (line : String) : Option (List Nat) :=
  (Text.between? "" ");" (lastArguments line)).bind fun inner =>
    if inner = "" then some [] else (inner.toList.splitOn ',').mapM varNumber?

/-- The name of the variable with a number. -/
def variableName (n : Nat) : String :=
  "p" ++ toString n

/-- What the scans find in some lines. -/
structure Shows (lines : List String) (slots depths : List Nat) (passed : List (List Nat)) :
    Prop where
  slots : lines.filterMap slot? = slots
  depths : lines.filterMap depth? = depths
  passed : lines.filterMap passed? = passed

theorem Shows.append {first second : List String} {slots slots' depths depths' : List Nat}
    {passed passed' : List (List Nat)} (h : Shows first slots depths passed)
    (h' : Shows second slots' depths' passed') :
    Shows (first ++ second) (slots ++ slots') (depths ++ depths') (passed ++ passed') where
  slots := by rw [List.filterMap_append, h.slots, h'.slots]
  depths := by rw [List.filterMap_append, h.depths, h'.depths]
  passed := by rw [List.filterMap_append, h.passed, h'.passed]

theorem shows_nil : Shows [] [] [] [] :=
  ⟨rfl, rfl, rfl⟩

theorem shows_singleton {line : String} {slot depth : Option Nat} {passed : Option (List Nat)}
    (hslot : slot? line = slot) (hdepth : depth? line = depth) (hpassed : passed? line = passed) :
    Shows [line] slot.toList depth.toList passed.toList where
  slots := by rw [List.filterMap_cons, hslot]; cases slot <;> rfl
  depths := by rw [List.filterMap_cons, hdepth]; cases depth <;> rfl
  passed := by rw [List.filterMap_cons, hpassed]; cases passed <;> rfl

section Line

variable {line inner : String}

theorem lastArguments_append (before : String) (h : '(' ∉ inner.toList) :
    lastArguments (before ++ "(" ++ inner) = inner :=
  Text.behindLast_eq before.toList (by simp) h

theorem slot?_eq_none (h : ¬ "L, ".toList <+: (lastArguments line).toList) : slot? line = none := by
  rw [slot?, Text.between?_eq_none h]
  rfl

theorem depth?_eq_none (h : ¬ "L) == ".toList <+: (lastArguments line).toList) :
    depth? line = none := by
  rw [depth?, Text.between?_eq_none h]
  rfl

theorem passed?_eq (h : lastArguments line = inner ++ ");") :
    passed? line = if inner = "" then some [] else (inner.toList.splitOn ',').mapM varNumber? := by
  have hinner : Text.between? "" ");" (inner ++ ");") = some inner := by
    simpa using Text.between?_append "" inner ");"
  rw [passed?, h, hinner, Option.bind_some]

/-- The state of the interpreter is no variable. -/
theorem passed?_eq_none (rest : String) (h : lastArguments line = "L" ++ rest ++ ");") :
    passed? line = none := by
  have hpieces : ∃ piece pieces, ("L" ++ rest).toList.splitOn ',' = ('L' :: piece) :: pieces := by
    obtain ⟨piece, pieces, hsplit⟩ :=
      List.exists_cons_of_ne_nil (List.splitOn_ne_nil ',' rest.toList)
    refine ⟨piece, pieces, ?_⟩
    rw [String.toList_append]
    simp [List.splitOn_cons_eq_if_modifyHead, hsplit]
  obtain ⟨piece, pieces, hsplit⟩ := hpieces
  rw [passed?_eq h, if_neg (by simp), hsplit]
  rfl

/-- A line that hands the state of the interpreter on, together with a value. -/
theorem shows_of_state (inner : String) (h : lastArguments line = "L, " ++ inner ++ ");") :
    Shows [line] (Text.number? inner).toList [] [] := by
  have hslot : slot? line = Text.number? inner := by
    rw [slot?, h, Text.between?_append, Option.bind_some]
  have hdepth : depth? line = none := depth?_eq_none (by rw [h]; simp)
  have hpassed : passed? line = none :=
    passed?_eq_none (", " ++ inner) (by rw [h]; simp [← String.append_assoc])
  exact shows_singleton hslot hdepth hpassed

end Line

section Variables

theorem varNumber?_variableName (n : Nat) : varNumber? (variableName n).toList = some n := by
  have hdigits : (variableName n).toList = 'p' :: n.repr.toList := by simp [variableName]
  rw [varNumber?, hdigits, List.dropWhile_cons_of_neg (by decide)]
  change Text.number? (String.ofList n.repr.toList) = some n
  rw [String.ofList_toList, Text.number?_repr]

theorem varNumber?_space (cs : List Char) : varNumber? (' ' :: cs) = varNumber? cs := by
  rw [varNumber?, List.dropWhile_cons_of_pos (by decide), varNumber?]

theorem notMem_variableName {c : Char} (hdigit : c.isDigit = false) (hc : c ≠ 'p') (n : Nat) :
    c ∉ (variableName n).toList := by
  have hdigits : c ∉ n.repr.toList := Text.notMem_repr hdigit n
  have hname : (variableName n).toList = 'p' :: n.repr.toList := by simp [variableName]
  rw [hname, List.mem_cons, not_or]
  exact ⟨hc, hdigits⟩

/-- The separators are found again, since no name contains one. -/
theorem splitOn_variableNames (n : Nat) (ns : List Nat) :
    (String.intercalate ", " ((n :: ns).map variableName)).toList.splitOn ',' =
      (variableName n).toList :: ns.map fun n => ' ' :: (variableName n).toList := by
  have hcomma (n : Nat) : ',' ∉ (variableName n).toList :=
    notMem_variableName (by decide) (by decide) n
  induction ns generalizing n with
  | nil =>
    rw [List.map_singleton, String.intercalate_singleton, List.splitOn_eq_singleton (hcomma n)]
    rfl
  | cons next ns ih =>
    have hjoined : (String.intercalate ", " ((n :: next :: ns).map variableName)).toList =
        (variableName n).toList ++
          ',' :: ' ' :: (String.intercalate ", " ((next :: ns).map variableName)).toList := by
      simp [String.intercalate_cons_cons]
    rw [hjoined, List.splitOn_append_cons_self_of_not_mem (hcomma n),
      List.splitOn_cons_eq_if_modifyHead, ih]
    rfl

theorem mapM_varNumber? (ns : List Nat) :
    (ns.map fun n => ' ' :: (variableName n).toList).mapM varNumber? = some ns := by
  induction ns with
  | nil => rfl
  | cons n ns ih =>
    rw [List.map_cons, List.mapM_cons, varNumber?_space, varNumber?_variableName, ih]
    rfl

/-- A line that passes on some variables. -/
theorem shows_of_variables {line : String} {ns : List Nat}
    (h : lastArguments line = String.intercalate ", " (ns.map variableName) ++ ");") :
    Shows [line] [] [] [ns] := by
  have hstate : ¬ "L".toList <+: (lastArguments line).toList := by
    rw [h]
    cases ns with
    | nil => simp
    | cons n ns => cases ns <;> simp [String.intercalate_cons_cons, variableName]
  have hslot : slot? line = none :=
    slot?_eq_none fun hprefix => hstate (.trans (by decide) hprefix)
  have hdepth : depth? line = none :=
    depth?_eq_none fun hprefix => hstate (.trans (by decide) hprefix)
  have hpassed : passed? line = some ns := by
    rw [passed?_eq h]
    cases ns with
    | nil => rfl
    | cons n ns =>
      have hne : String.intercalate ", " ((n :: ns).map variableName) ≠ "" := by
        cases ns <;> simp [String.intercalate_cons_cons, variableName]
      rw [if_neg hne, splitOn_variableNames, List.mapM_cons, varNumber?_variableName,
        mapM_varNumber?]
      rfl
  exact shows_singleton hslot hdepth hpassed

end Variables

theorem Argument.shows_line (a : Argument) : Shows [a.line] [a.slot] [] [] := by
  have hslot : '(' ∉ ("L, " ++ toString a.slot ++ ");").toList := by
    have hdigits : '(' ∉ a.slot.repr.toList := Text.notMem_repr (by decide) a.slot
    simpa using hdigits
  have hline : a.line = "  " ++ a.declared ++ " " ++ a.var ++ " = luaGet<" ++ a.taken ++ ">" ++
      "(" ++ ("L, " ++ toString a.slot ++ ");") := String.ext (by simp [line])
  have harguments : lastArguments a.line = "L, " ++ toString a.slot ++ ");" := by
    rw [hline, lastArguments_append _ hslot]
  have hshows := shows_of_state (toString a.slot) harguments
  have hnumber : Text.number? (toString a.slot) = some a.slot := Text.number?_repr a.slot
  rwa [hnumber] at hshows

theorem shows_args (args : List Argument) :
    Shows (args.map Argument.line) (args.map Argument.slot) [] [] := by
  induction args with
  | nil => exact shows_nil
  | cons a args ih => exact a.shows_line.append ih

namespace Action

/-- What is called with the arguments. -/
def target : Action → String
  | construct type => "new " ++ type
  | call callee => callee
  | push _ callee => callee

/-- The front of the line, with the variable that keeps what the target gives back. -/
def kept : Action → String
  | construct type => "  " ++ type ++ " *r = "
  | call _ => "  "
  | push type _ => "  " ++ type ++ " ret = "

def callLine (action : Action) (args : String) : String :=
  action.kept ++ action.target ++ "(" ++ args ++ ");"

/-- The lines behind the call. -/
def resultLines : Action → List String
  | construct type => ["  luaPush<" ++ type ++ "*>(L, r);", "  return 1;"]
  | call _ => ["  return 0;"]
  | push type _ => ["  return luaPush<" ++ type ++ ">(L, ret);"]

theorem lines_eq (action : Action) (args : String) :
    action.lines args = action.callLine args :: action.resultLines := by
  have hcall : action.lines args = (action.lines args).headD "" :: action.resultLines := by
    cases action <;> rfl
  have hfirst : (action.lines args).headD "" = action.callLine args :=
    String.ext (by cases action <;> simp [lines, callLine, kept, target])
  rw [hcall, hfirst]

theorem shows_callLine (action : Action) (ns : List Nat) :
    Shows [action.callLine (String.intercalate ", " (ns.map variableName))] [] [] [ns] := by
  have hnames : '(' ∉ (String.intercalate ", " (ns.map variableName)).toList :=
    Text.notMem_intercalate (by decide) (List.forall_mem_map.2 fun n _ =>
      notMem_variableName (by decide) (by decide) n)
  have hparen : '(' ∉ (String.intercalate ", " (ns.map variableName) ++ ");").toList := by
    rw [String.toList_append, List.mem_append, not_or]
    exact ⟨hnames, by decide⟩
  refine shows_of_variables ?_
  rw [callLine, String.append_assoc, lastArguments_append _ hparen]

/-- What is pushed is no number. -/
theorem shows_pushLine (before : String) {value : String} (h : value = "r" ∨ value = "ret") :
    Shows [before ++ "(" ++ ("L, " ++ value ++ ");")] [] [] [] := by
  have hparen : '(' ∉ ("L, " ++ value ++ ");").toList := by
    rcases h with rfl | rfl <;> decide
  have hshows := shows_of_state value (lastArguments_append before hparen)
  have hnone : Text.number? value = none := by
    rcases h with rfl | rfl <;> decide
  rwa [hnone] at hshows

theorem shows_resultLines (action : Action) : Shows action.resultLines [] [] [] := by
  cases action with
  | construct type =>
    have hreturn : Shows ["  return 1;"] [] [] [] := ⟨by decide, by decide, by decide⟩
    have hpush := shows_pushLine ("  luaPush<" ++ type ++ "*>") (.inl rfl)
    simpa [resultLines, String.append_assoc] using hpush.append hreturn
  | call callee =>
    have hreturn : Shows ["  return 0;"] [] [] [] := ⟨by decide, by decide, by decide⟩
    exact hreturn
  | push type callee =>
    have hpush := shows_pushLine ("  return luaPush<" ++ type ++ ">") (.inr rfl)
    simpa [resultLines, String.append_assoc] using hpush

end Action

namespace Function

theorem shows_headLine (f : Function) : Shows [f.headLine] [] [] [] := by
  have hline : f.headLine = "int " ++ f.symbol ++ "(" ++ "lua_State* L) \x7b" :=
    String.ext (by simp [headLine])
  have harguments : lastArguments f.headLine = "lua_State* L) \x7b" := by
    rw [hline, lastArguments_append _ (by decide)]
  have hslot : slot? f.headLine = none := slot?_eq_none (by rw [harguments]; decide)
  have hdepth : depth? f.headLine = none := depth?_eq_none (by rw [harguments]; decide)
  have hpassed : passed? f.headLine = none := by rw [passed?, harguments]; decide
  exact shows_singleton hslot hdepth hpassed

theorem shows_depthLine (n : Nat) :
    Shows ["  assert(lua_gettop(L) == " ++ toString n ++ ");"] [] [n] [] := by
  have hdigits : '(' ∉ n.repr.toList := Text.notMem_repr (by decide) n
  have hparen : '(' ∉ ("L) == " ++ toString n ++ ");").toList := by simpa using hdigits
  have hline : "  assert(lua_gettop(L) == " ++ toString n ++ ");" =
      "  assert(lua_gettop" ++ "(" ++ ("L) == " ++ toString n ++ ");") := String.ext (by simp)
  have harguments := lastArguments_append "  assert(lua_gettop" hparen
  rw [← hline] at harguments
  have hslot := slot?_eq_none (by rw [harguments]; simp)
  have hdepth : depth? ("  assert(lua_gettop(L) == " ++ toString n ++ ");") = some n := by
    rw [depth?, harguments, Text.between?_append, Option.bind_some]
    exact Text.number?_repr n
  have hpassed := passed?_eq_none (") == " ++ toString n)
    (harguments.trans (String.ext (by simp)))
  exact shows_singleton hslot hdepth hpassed

theorem shows_depthLines (f : Function) : Shows f.depthLines [] f.depth.toList [] := by
  unfold depthLines
  cases f.depth with
  | none => exact shows_nil
  | some n => exact shows_depthLine n

theorem shows_receiverLines (f : Function) :
    Shows f.receiverLines (f.receiver.toList.map fun _ => 1) [] [] := by
  unfold receiverLines
  cases f.receiver with
  | none => exact shows_nil
  | some type =>
    have hline : "  " ++ type ++ "* obj = luaGet<" ++ type ++ "*>(L, 1);" =
        "  " ++ type ++ "* obj = luaGet<" ++ type ++ "*>" ++ "(" ++ ("L, " ++ "1" ++ ");") :=
      String.ext (by simp)
    have hshows := shows_of_state "1"
      (lastArguments_append ("  " ++ type ++ "* obj = luaGet<" ++ type ++ "*>") (by decide))
    have hone : Text.number? "1" = some 1 := Text.number?_repr 1
    rw [← hline, hone] at hshows
    exact hshows

theorem callArgs_eq (f : Function) :
    f.callArgs = String.intercalate ", " ((f.args.map Argument.slot).map variableName) := by
  rw [callArgs, List.map_map]
  rfl

theorem lines_eq_append (f : Function) :
    f.lines = [f.headLine] ++ f.depthLines ++ f.receiverLines ++ f.args.map Argument.line ++
      [f.action.callLine (String.intercalate ", " ((f.args.map Argument.slot).map variableName))] ++
      f.action.resultLines ++ ["\x7d", ""] := by
  rw [lines, Action.lines_eq, callArgs_eq]
  simp

theorem shows_end : Shows ["\x7d", ""] [] [] [] :=
  ⟨by decide, by decide, by decide⟩

/-- A glue function reads the slots of its arguments, and the first one if it has a receiver. It
passes on what it has read for its arguments. -/
theorem shows_lines (f : Function) :
    Shows f.lines ((f.receiver.toList.map fun _ => 1) ++ f.args.map Argument.slot) f.depth.toList
      [f.args.map Argument.slot] := by
  have hargs := ((f.shows_headLine.append f.shows_depthLines).append f.shows_receiverLines).append
    (shows_args f.args)
  have hcall := f.action.shows_callLine (f.args.map Argument.slot)
  have hlines := ((hargs.append hcall).append f.action.shows_resultLines).append shows_end
  rw [lines_eq_append]
  simpa using hlines

/-- The lines that read a slot. -/
def readLines (f : Function) : List String :=
  f.lines.filter fun line => (slot? line).isSome

/-- The lines that pass variables on, and nothing else. -/
def passLines (f : Function) : List String :=
  f.lines.filter fun line => (passed? line).isSome

section Filter

variable {α : Type} {scan : String → Option α} {lines : List String} {found : List α}

theorem filter_eq_nil (h : lines.filterMap scan = []) :
    lines.filter (fun line => (scan line).isSome) = [] := by
  simpa using h

/-- Each of the lines shows something. -/
theorem filter_eq_self (h : lines.filterMap scan = found) (hlength : found.length = lines.length) :
    lines.filter (fun line => (scan line).isSome) = lines :=
  List.filter_eq_self.2 (List.filterMap_length_eq_length.1 ((congrArg _ h).trans hlength))

end Filter

/-- No other lines read a slot. -/
theorem readLines_eq (f : Function) : f.readLines = f.receiverLines ++ f.args.map Argument.line := by
  rw [readLines, lines_eq_append]
  simp only [List.filter_append]
  rw [filter_eq_nil f.shows_headLine.slots, filter_eq_nil f.shows_depthLines.slots,
    filter_eq_self f.shows_receiverLines.slots (by simp [receiverLines]),
    filter_eq_self (shows_args f.args).slots (by simp),
    filter_eq_nil (f.action.shows_callLine _).slots,
    filter_eq_nil f.action.shows_resultLines.slots, filter_eq_nil shows_end.slots]
  simp

/-- No other line passes variables on. -/
theorem passLines_eq (f : Function) :
    f.passLines = [f.action.callLine
      (String.intercalate ", " ((f.args.map Argument.slot).map variableName))] := by
  rw [passLines, lines_eq_append]
  simp only [List.filter_append]
  rw [filter_eq_nil f.shows_headLine.passed, filter_eq_nil f.shows_depthLines.passed,
    filter_eq_nil f.shows_receiverLines.passed, filter_eq_nil (shows_args f.args).passed,
    filter_eq_self (f.action.shows_callLine _).passed rfl,
    filter_eq_nil f.action.shows_resultLines.passed, filter_eq_nil shows_end.passed]
  rfl

/-- A glue function reads its parameters from the slot `first` upwards, and calls the target with
what it has read. -/
structure Marshals (f : Function) (receiver : Option String) (first : Nat)
    (declared taken : String → String) (params : List String) (target : String) : Prop where
  /-- Each variable has the number of its slot. -/
  reads : f.readLines =
    (receiver.toList.map fun type => "  " ++ type ++ "* obj = luaGet<" ++ type ++ "*>(L, 1);") ++
      (params.zipIdx first).map fun p =>
        "  " ++ declared p.1 ++ " " ++ variableName p.2 ++ " = luaGet<" ++ taken p.1 ++ ">(L, " ++
          toString p.2 ++ ");"
  slots : f.lines.filterMap slot? =
    (receiver.toList.map fun _ => 1) ++ List.range' first params.length
  /-- All variables are passed on by one line, once each and in their order. -/
  passed : f.lines.filterMap passed? = [List.range' first params.length]
  calls : ∃ kept, f.passLines = [kept ++ target ++ "(" ++
    String.intercalate ", " ((List.range' first params.length).map variableName) ++ ");"]

theorem marshals_of_args {f : Function} {first : Nat} {params : List String}
    {declared taken : String → String} (h : f.args = arguments first params declared taken) :
    f.Marshals f.receiver first declared taken params f.action.target := by
  have hslots : f.args.map Argument.slot = List.range' first params.length := by
    rw [h, arguments, List.map_map, ← List.zipIdx_map_snd]
    rfl
  refine ⟨?_, ?_, ?_, f.action.kept, ?_⟩
  · rw [readLines_eq, h, arguments, List.map_map]
    rfl
  · rw [f.shows_lines.slots, hslots]
  · rw [f.shows_lines.passed, hslots]
  · rw [passLines_eq, hslots]
    rfl

theorem max?_range' (n : Nat) : (List.range' 1 n).max?.getD 0 = n := by
  cases n with
  | zero => rfl
  | succ n =>
    have hmax : (List.range' 1 (n + 1)).max? = some (n + 1) := by
      refine List.max?_eq_some_iff.2 ⟨?_, fun slot hslot => ?_⟩
      · rw [List.mem_range'_1]
        omega
      · rw [List.mem_range'_1] at hslot
        omega
    rw [hmax, Option.getD_some]

theorem target_ofMethod (aliases : AliasTable) (names : ClassNames) (s : Signature) :
    (ofMethod aliases names s).action.target =
      (if s.isStatic then names.native ++ "::" else "obj->") ++ s.name := by
  cases hvoid : s.returnsVoid <;> simp [ofMethod, hvoid, Action.target]

/-- The slots of a glue function are those of its parameters, and the first one for the object that
a method is called on. A constructor and a static method start at the first slot, and read no
object. What is asserted of the stack is the highest slot that is read, so that every slot up to
there is read once. -/
theorem slots_agree (aliases : AliasTable) (names : ClassNames) (s : Signature) :
    (ofCtor aliases names s).Marshals none 1 id aliases.resolve s.params ("new " ++ names.native) ∧
    (ofCtor aliases names s).lines.filterMap depth? = [] ∧
    (ofMethod aliases names s).Marshals (if s.isStatic then none else some names.native)
      (if s.isStatic then 1 else 2) aliases.resolve aliases.resolve s.params
      ((if s.isStatic then names.native ++ "::" else "obj->") ++ s.name) ∧
    ∃ depth, depth = s.params.length + (if s.isStatic then 1 else 2) - 1 ∧
      (ofMethod aliases names s).lines.filterMap depth? = [depth] ∧
      (ofMethod aliases names s).lines.filterMap slot? = List.range' 1 depth ∧
      ((ofMethod aliases names s).lines.filterMap slot?).max?.getD 0 = depth := by
  have hctor : (ofCtor aliases names s).Marshals none 1 id aliases.resolve s.params
      ("new " ++ names.native) := marshals_of_args rfl
  have hmethod : (ofMethod aliases names s).Marshals (if s.isStatic then none else some names.native)
      (if s.isStatic then 1 else 2) aliases.resolve aliases.resolve s.params
      ((if s.isStatic then names.native ++ "::" else "obj->") ++ s.name) := by
    rw [← target_ofMethod aliases names s]
    exact marshals_of_args rfl
  have hdepth : (ofMethod aliases names s).lines.filterMap depth? =
      [s.params.length + (if s.isStatic then 1 else 2) - 1] := by
    rw [(ofMethod aliases names s).shows_lines.depths]
    cases hstatic : s.isStatic <;> simp [ofMethod, hstatic]
  have hslots : (ofMethod aliases names s).lines.filterMap slot? =
      List.range' 1 (s.params.length + (if s.isStatic then 1 else 2) - 1) := by
    rw [hmethod.slots]
    cases hstatic : s.isStatic with
    | true => simp
    | false => simp [List.range'_succ]
  refine ⟨hctor, (ofCtor aliases names s).shows_lines.depths, hmethod, _, rfl, hdepth, hslots, ?_⟩
  rw [hslots, max?_range']

end Function

end Glue

end LuaGlue
