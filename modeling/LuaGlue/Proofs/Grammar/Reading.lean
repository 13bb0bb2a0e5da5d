import LuaGlue.Proofs.Grammar.Tree
import LuaGlue.Proofs.Recognizer.Reading

namespace LuaGlue.Grammar

open Recognizer (Reads)

variable {r : Recognizer}

theorem Param.type_eq_foldl (p : Param) :
    p.type = p.modifiers.foldl (fun type t => type ++ " " ++ t.text) p.head.text := by
  have hgo : ∀ (ts : List Token) (type : String),
      String.intercalate " " (type :: ts.map Token.text) =
        ts.foldl (fun type t => type ++ " " ++ t.text) type := by
    intro ts
    induction ts with
    | nil => intro type; rfl
    | cons t ts ih => intro type; exact ih (type ++ " " ++ t.text)
  exact hgo p.modifiers p.head.text

private theorem reads_modifiers {ts : List Token}
    (hts : ∀ t ∈ ts, t ≠ .punct ',' ∧ t ≠ .punct ')') (s : Signature) (type : String) :
    Reads { r with place := .paramEnd, signature := s.addParam type } ts []
      { r with
        place := .paramEnd
        signature := s.addParam (ts.foldl (fun type t => type ++ " " ++ t.text) type) } := by
  induction ts generalizing type with
  | nil => exact .nil _
  | cons t ts ih =>
    obtain ⟨hcomma, hclose⟩ := hts t List.mem_cons_self
    refine .next ?_ (ih (fun t ht => hts t (List.mem_cons_of_mem _ ht)) (type ++ " " ++ t.text))
    rw [Recognizer.step_paramEnd rfl, if_neg hcomma, if_neg hclose, Signature.decorate_addParam]

/-- Where a parameter may start, its tokens add it to the declaration. -/
theorem Param.reads (p : Param) (s : Signature) :
    Reads { r with place := .param, signature := s } p.tokens []
      { r with place := .paramEnd, signature := s.addParam p.type } := by
  rw [p.type_eq_foldl]
  refine .next ?_ (reads_modifiers p.modifiers_ne s p.head.text)
  rw [Recognizer.step_param rfl, if_neg p.head_ne]

namespace ParamList

/-- Further parameters and the closing parenthesis behind a first parameter. An extra comma leads
back to where a parameter may start, but the parenthesis is accepted there as well. -/
private theorem reads_behindFirst (more : List Param) (extraComma : Bool) (s : Signature) :
    Reads { r with place := .paramEnd, signature := s }
      (more.flatMap further ++ (if extraComma then [.punct ','] else []) ++ [.punct ')'])
      [({ s with params := s.params ++ more.map Param.type } : Signature).event]
      { r with place := .memberType, signature := {} } := by
  induction more generalizing s with
  | nil =>
    have hcomma : Recognizer.step { r with place := .paramEnd, signature := s } (.punct ',') =
        .next { r with place := .param, signature := s } := by
      rw [Recognizer.step_paramEnd rfl, if_pos rfl]
    simp only [List.flatMap_nil, List.nil_append, List.map_nil, List.append_nil]
    cases extraComma with
    | false => exact .tell (Recognizer.step_paramEnd rfl _) (.nil _)
    | true => exact .next hcomma (.tell (Recognizer.step_param rfl _) (.nil _))
  | cons p more ih =>
    have hrest := (p.reads (r := r) s).append (ih (s.addParam p.type))
    simp only [Signature.addParam, List.append_assoc, List.nil_append, List.cons_append] at hrest
    simp only [List.flatMap_cons, further, List.cons_append, List.append_assoc, List.map_cons]
    refine .next ?_ hrest
    rw [Recognizer.step_paramEnd rfl, if_pos rfl]

/-- From the opening parenthesis on, the parameters complete a declaration. -/
theorem reads (ps : ParamList) (s : Signature) :
    Reads { r with place := .paramsOpen, signature := s }
      (.punct '(' :: ps.tokens ++ [.punct ')'])
      [({ s with params := s.params ++ ps.types } : Signature).event]
      { r with place := .memberType, signature := {} } := by
  refine .next (Recognizer.step_paramsOpen rfl _) ?_
  cases ps with
  | empty =>
    simp only [tokens, types, List.append_nil]
    exact .tell (Recognizer.step_param rfl _) (.nil _)
  | listed first more extraComma =>
    have hrest := (first.reads (r := r) s).append
      (reads_behindFirst more extraComma (s.addParam first.type))
    simpa [tokens, types, Signature.addParam] using hrest

end ParamList

namespace Method

private theorem reads_statics (n : Nat) (b : Bool) :
    Reads { r with place := .memberType, signature := { isStatic := b } }
      (List.replicate n (.word "static")) []
      { r with place := .memberType, signature := { isStatic := b || decide (n ≠ 0) } } := by
  induction n generalizing b with
  | zero => simpa using Reads.nil _
  | succ n ih =>
    refine .next (Recognizer.step_memberType rfl _) ?_
    simpa using ih true

private theorem reads_indirections {ts : List Token} (hts : ∀ t ∈ ts, IsIndirection t)
    (s : Signature) :
    Reads { r with place := .memberName, signature := s } ts []
      { r with
        place := .memberName
        signature := { s with returns := s.returns ++ String.join (ts.map Token.text) } } := by
  induction ts generalizing s with
  | nil => simpa using Reads.nil _
  | cons t ts ih =>
    have hrest := ih (fun t ht => hts t (List.mem_cons_of_mem _ ht))
      { s with returns := s.returns ++ t.text }
    simp only [String.append_assoc] at hrest
    simp only [List.map_cons, String.join_cons]
    refine .next ?_ hrest
    rw [Recognizer.step_memberName rfl]
    rcases hts t List.mem_cons_self with rfl | rfl
    · rfl
    · rfl

/-- A method leaves the recognizer as it was at the start of its declaration. -/
theorem reads (m : Method) (hplace : r.place = .memberType) (hempty : r.signature = {}) :
    Reads r m.tokens [.method m.signature] r := by
  obtain ⟨hclose, hsemicolon, hstatic, hctor⟩ := m.returns_ok
  have hr : r = { r with place := .memberType, signature := {} } := by rw [← hplace, ← hempty]
  have hreturns : Recognizer.step { r with
        place := .memberType, signature := { isStatic := decide (m.statics ≠ 0) } } m.returns =
      .next { r with
        place := .memberName
        signature := { returns := m.returns.text, isStatic := decide (m.statics ≠ 0) } } := by
    rw [Recognizer.step_memberType rfl, if_neg hclose, if_neg hsemicolon, if_neg hstatic,
      if_neg hctor]
  have hname : ∀ s, Recognizer.step { r with place := .memberName, signature := s } m.name =
      .next { r with place := .paramsOpen, signature := { s with name := m.name.text } } := by
    intro s
    rw [Recognizer.step_memberName rfl, if_neg fun h => m.name_ok (.inl h),
      if_neg fun h => m.name_ok (.inr h)]
  have hstatics := reads_statics (r := r) m.statics false
  rw [Bool.false_or, ← hr] at hstatics
  have hrest := hstatics.append <| .next hreturns <|
    (reads_indirections m.indirections_ok _).append <| .next (hname _) (m.params.reads _)
  rw [← hr] at hrest
  simpa [tokens, signature, Signature.event, List.append_assoc] using hrest

end Method

/-- An item leaves the recognizer as it was. -/
theorem Item.reads (item : Item) (hplace : r.place = .memberType) (hempty : r.signature = {}) :
    Reads r item.tokens item.event?.toList r := by
  cases item with
  | semicolon =>
    refine .next ?_ (.nil r)
    rw [Recognizer.step_memberType hplace, hempty]
    rfl
  | ctor ps =>
    have hr : r = { r with place := .memberType, signature := {} } := by rw [← hplace, ← hempty]
    have hrest := ps.reads (r := r) { isCtor := true }
    rw [← hr] at hrest
    refine .next ?_ hrest
    rw [Recognizer.step_memberType hplace, hempty]
    rfl
  | method m => exact m.reads hplace hempty

theorem reads_items (items : List Item) (hplace : r.place = .memberType)
    (hempty : r.signature = {}) :
    Reads r (items.flatMap Item.tokens) (items.filterMap Item.event?) r := by
  induction items with
  | nil => exact .nil r
  | cons item items ih =>
    have h := (item.reads hplace hempty).append ih
    cases hevent : item.event? with
    | none => simpa [hevent] using h
    | some event => simpa [hevent] using h

private theorem reads_passedOver {ts : List Token} (hts : ∀ t ∈ ts, IsPassedOver t)
    (hplace : r.place = .classHead) : Reads r ts [] r := by
  induction ts with
  | nil => exact .nil r
  | cons t ts ih =>
    obtain ⟨hbrace, hbracket⟩ := hts t List.mem_cons_self
    refine .next ?_ (ih fun t ht => hts t (List.mem_cons_of_mem _ ht))
    rw [Recognizer.step_classHead hplace, if_neg hbrace, if_neg hbracket]

/-- The brackets behind a class name, where a class has no native name yet. -/
private theorem reads_native (native : Option NativeName) (wrapper : String) (s : Signature) :
    Reads ⟨.classHead, wrapper, false, s⟩ (native.toList.flatMap NativeName.tokens)
      (native.toList.map fun n => .nativeName n.name.text)
      ⟨.classHead, wrapper, native.isSome, s⟩ := by
  cases native with
  | none => exact .nil _
  | some n =>
    simp only [Option.toList_some, List.flatMap_singleton, List.map_cons, List.map_nil,
      Option.isSome_some, NativeName.tokens]
    exact .next (Recognizer.step_classHead rfl _) <| .tell (Recognizer.step_nativeName rfl _) <|
      .next (Recognizer.step_nativeNameEnd rfl _) (reads_passedOver n.skipped_ok rfl)

/-- Between two classes a class is read, whatever the recognizer still remembers of the one
before. -/
theorem ClassDecl.reads (c : ClassDecl) (hplace : r.place = .outside) :
    Reads r c.tokens c.events ⟨.outside, c.name.text, c.native.isSome, {}⟩ := by
  have hkeyword : r.step (.word "class") = .next { r with place := .className } := by
    rw [Recognizer.step_outside hplace, if_pos rfl]
  have hbody := (reads_items (r := ⟨.memberType, c.name.text, c.native.isSome, {}⟩) c.items
    rfl rfl).append (.tell (Recognizer.step_memberType rfl (.punct '}')) (.nil _))
  have hhead := (reads_passedOver (r := ⟨.classHead, c.name.text, false, r.signature⟩)
    c.skipped_ok rfl).append <| (reads_native c.native c.name.text r.signature).append <|
      .next (Recognizer.step_classHead rfl (.punct '{')) hbody
  have h := Reads.next hkeyword (.tell (Recognizer.step_className rfl c.name) hhead)
  simpa [tokens, events, header, List.append_assoc] using h

/-- A description with a tree is read to its end, and its events are told in order. -/
theorem reads_classes (classes : List ClassDecl) (hplace : r.place = .outside) :
    ∃ last, last.place = .outside ∧
      Reads r (classes.flatMap ClassDecl.tokens) (classes.flatMap ClassDecl.events) last := by
  induction classes generalizing r with
  | nil => exact ⟨r, hplace, .nil r⟩
  | cons c classes ih =>
    obtain ⟨last, hlast, hrest⟩ := ih (r := ⟨.outside, c.name.text, c.native.isSome, {}⟩) rfl
    exact ⟨last, hlast, (c.reads hplace).append hrest⟩

end LuaGlue.Grammar

namespace LuaGlue.Listener

open Grammar

variable {σ : Type} (hear : Listener σ)

/-- A comment that is not closed leaves a record behind the tokens, and no more. -/
theorem run_eq (s : σ) (source : String) :
    (hear.run s source).error =
      ((Hearing.feedAll hear ⟨{}, s⟩ (Token.lex source).tokens).andThen Hearing.finish).error ∧
    (hear.run s source).state =
      ((Hearing.feedAll hear ⟨{}, s⟩ (Token.lex source).tokens).andThen Hearing.finish).state := by
  rw [run, Hearing.feedText, Outcome.andThen_assoc]
  cases h : (Hearing.feedAll hear ⟨{}, s⟩ (Token.lex source).tokens).error with
  | some e =>
    rw [Outcome.andThen_of_error h, Outcome.andThen_of_error h]
    exact ⟨rfl, rfl⟩
  | none =>
    rw [Outcome.andThen_of_error_eq_none h, Outcome.andThen_of_error_eq_none h]
    exact ⟨rfl, rfl⟩

/-- To read a text whose tokens have a tree is to hear the events of the tree, whatever stands
between the tokens. -/
theorem run_of_tree {source : String} {classes : List ClassDecl}
    (htree : classes.flatMap ClassDecl.tokens = (Token.lex source).tokens) (s : σ) :
    (hear.run s source).error = (hear.hearAll s (classes.flatMap ClassDecl.events)).error ∧
    (hear.run s source).state.listener =
      (hear.hearAll s (classes.flatMap ClassDecl.events)).state := by
  obtain ⟨herror, hstate⟩ := run_eq hear s source
  obtain ⟨last, hlast, hreads⟩ := reads_classes (r := {}) classes rfl
  rw [htree] at hreads
  obtain ⟨hheard, hlistener⟩ := Hearing.finish_of_reads hear hreads hlast s
  refine ⟨herror.trans hheard, ?_⟩
  rw [hstate]
  exact hlistener

end LuaGlue.Listener
