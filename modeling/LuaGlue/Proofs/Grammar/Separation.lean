import Mathlib.Data.Set.List
import LuaGlue.Proofs.Grammar.Acceptance

namespace LuaGlue.Grammar

/-- Types with a comma between each two of them, and no other commas. A comma that stands where a
type may start is a type itself, and one that follows the last type is dropped. -/
structure Separated (ts first : List Token) (more : List (List Token)) : Prop where
  tokens_eq : ts = first ++ more.flatMap (.punct ',' :: ·)
  ne_nil : ∀ type ∈ first :: more, type ≠ []
  comma_notMem : ∀ type ∈ first :: more, .punct ',' ∉ type

namespace Param

/-- The type starts with a comma. -/
def StartsWithComma (p : Param) : Prop :=
  p.head = .punct ','

instance : DecidablePred StartsWithComma :=
  fun p => inferInstanceAs (Decidable (p.head = .punct ','))

/-- Only the first token of a type can be a comma. -/
theorem count_comma (p : Param) :
    p.tokens.count (.punct ',') = if p.StartsWithComma then 1 else 0 := by
  have hmodifiers : p.modifiers.count (.punct ',') = 0 :=
    List.count_eq_zero_of_not_mem fun hmem => (p.modifiers_ne _ hmem).1 rfl
  by_cases hhead : p.StartsWithComma
  · rw [if_pos hhead, tokens, show p.head = .punct ',' from hhead, List.count_cons_self, hmodifiers]
  · rw [if_neg hhead, tokens, List.count_cons_of_ne hhead, hmodifiers]

theorem comma_notMem {p : Param} (h : ¬ p.StartsWithComma) : .punct ',' ∉ p.tokens := by
  rw [← List.count_eq_zero, p.count_comma, if_neg h]

theorem close_notMem (p : Param) : .punct ')' ∉ p.tokens := by
  intro hmem
  rcases List.mem_cons.1 hmem with hhead | hmodifier
  · exact p.head_ne hhead.symm
  · exact (p.modifiers_ne _ hmodifier).2 rfl

theorem exists_tokens_eq {ts : List Token} (hne : ts ≠ []) (hcomma : .punct ',' ∉ ts)
    (hclose : .punct ')' ∉ ts) : ∃ p : Param, p.tokens = ts := by
  obtain ⟨head, modifiers, rfl⟩ := List.exists_cons_of_ne_nil hne
  refine ⟨⟨head, modifiers, ?_, fun t ht => ⟨?_, ?_⟩⟩, rfl⟩
  · rintro rfl
    exact hclose List.mem_cons_self
  · rintro rfl
    exact hcomma (List.mem_cons_of_mem _ ht)
  · rintro rfl
    exact hclose (List.mem_cons_of_mem _ ht)

end Param

namespace ParamList

/-- Among the parameters are those that start with a comma, and the comma behind the last one
belongs to none of them. -/
theorem count_comma_listed (first : Param) (more : List Param) (extraComma : Bool) :
    (listed first more extraComma).tokens.count (.punct ',') + 1 =
      (listed first more extraComma).types.length +
        (first :: more).countP (·.StartsWithComma) + if extraComma then 1 else 0 := by
  have hmore : (more.flatMap further).count (.punct ',') =
      more.length + more.countP (·.StartsWithComma) := by
    induction more with
    | nil => rfl
    | cons p more ih =>
      rw [List.flatMap_cons, List.count_append, ih, further, List.count_cons_self, p.count_comma,
        List.countP_cons, List.length_cons]
      simp only [decide_eq_true_eq]
      omega
  have hextra : (if extraComma then [Token.punct ','] else []).count (.punct ',') =
      if extraComma then 1 else 0 := by
    cases extraComma <;> rfl
  rw [tokens, types, List.count_append, List.count_append, hmore, hextra, first.count_comma,
    List.countP_cons, List.length_map, List.length_cons]
  simp only [decide_eq_true_eq]
  omega

theorem close_notMem (ps : ParamList) : .punct ')' ∉ ps.tokens := by
  cases ps with
  | empty => exact List.not_mem_nil
  | listed first more extraComma =>
    simp only [tokens, List.mem_append, List.mem_flatMap, not_or, not_exists, not_and]
    refine ⟨⟨first.close_notMem, fun p _ hmem => ?_⟩, ?_⟩
    · exact p.close_notMem (List.mem_of_ne_of_mem (by decide) hmem)
    · cases extraComma <;> decide

theorem tokens_listed_eq (first : Param) (more : List Param) :
    (listed first more false).tokens =
      first.tokens ++ (more.map Param.tokens).flatMap (.punct ',' :: ·) := by
  rw [List.flatMap_map, tokens]
  exact List.append_nil _

/-- Separated types are the parameters. -/
theorem exists_eq_listed_of_separated {ps : ParamList} {first : List Token}
    {more : List (List Token)} (h : Separated ps.tokens first more) :
    ∃ p qs, ps = listed p qs false ∧ p.tokens = first ∧ qs.map Param.tokens = more := by
  obtain ⟨htokens, hne, hcomma⟩ := h
  have hclose := ps.close_notMem
  rw [htokens, List.mem_append, List.mem_flatMap, not_or] at hclose
  obtain ⟨p, rfl⟩ := Param.exists_tokens_eq (hne _ List.mem_cons_self)
    (hcomma _ List.mem_cons_self) hclose.1
  have hmore : more ∈ Set.range (List.map Param.tokens) := by
    rw [Set.range_list_map]
    intro type htype
    refine Param.exists_tokens_eq (hne _ (List.mem_cons_of_mem _ htype))
      (hcomma _ (List.mem_cons_of_mem _ htype)) fun hmem => ?_
    exact hclose.2 ⟨type, htype, List.mem_cons_of_mem _ hmem⟩
  obtain ⟨qs, rfl⟩ := hmore
  refine ⟨p, qs, ?_, rfl, rfl⟩
  -- Both lists have the same tokens before a closing parenthesis.
  have heq : ps.tokens ++ [.punct ')'] = (listed p qs false).tokens ++ [.punct ')'] := by
    rw [htokens, tokens_listed_eq]
  exact (unique heq).1

/-- There is one parameter more than there are commas exactly if the types are separated. -/
theorem length_types_eq_iff {ps : ParamList} (hne : ps.tokens ≠ []) :
    ps.types.length = ps.tokens.count (.punct ',') + 1 ↔
      ∃ first more, Separated ps.tokens first more := by
  cases ps with
  | empty => exact absurd rfl hne
  | listed first more extraComma =>
    have hcount := count_comma_listed first more extraComma
    constructor
    · intro heq
      have hnone : (first :: more).countP (·.StartsWithComma) = 0 := by omega
      have hextra : extraComma = false := by
        cases extraComma with
        | false => rfl
        | true => simp only [if_true] at hcount; omega
      subst hextra
      have hcomma : ∀ p ∈ first :: more, .punct ',' ∉ p.tokens := fun p hp =>
        Param.comma_notMem (by simpa using List.countP_eq_zero.1 hnone p hp)
      refine ⟨first.tokens, more.map Param.tokens, tokens_listed_eq first more, ?_, ?_⟩
      · rw [← List.map_cons, List.forall_mem_map]
        exact fun p _ => List.cons_ne_nil _ _
      · rw [← List.map_cons, List.forall_mem_map]
        exact hcomma
    · rintro ⟨types, others, hseparated⟩
      obtain ⟨p, qs, heq, rfl, rfl⟩ := exists_eq_listed_of_separated hseparated
      obtain ⟨rfl, rfl, rfl⟩ := listed.inj heq
      have hnone : (first :: more).countP (·.StartsWithComma) = 0 := by
        refine List.countP_eq_zero.2 fun p hp => ?_
        have hcomma := hseparated.comma_notMem p.tokens
        rw [← List.map_cons] at hcomma
        have hnot := hcomma (List.mem_map_of_mem hp)
        simp only [decide_eq_true_eq]
        intro hstarts
        exact hnot (hstarts ▸ List.mem_cons_self)
      simp only [Bool.false_eq_true, if_false] at hcount
      omega

theorem types_of_separated {ps : ParamList} {first : List Token} {more : List (List Token)}
    (h : Separated ps.tokens first more) :
    ps.types = (first :: more).map fun type => String.intercalate " " (type.map Token.text) := by
  obtain ⟨p, qs, rfl, rfl, rfl⟩ := exists_eq_listed_of_separated h
  rw [types, ← List.map_cons, List.map_map]
  rfl

end ParamList

namespace Item

def params? : Item → Option ParamList
  | semicolon => none
  | ctor params => some params
  | method m => some m.params

/-- What stands between the parentheses of a declaration are its parameters. -/
theorem exists_of_params? {item : Item} {ps : ParamList} (h : item.params? = some ps) :
    ∃ front d, item.tokens = front ++ .punct '(' :: ps.tokens ++ [.punct ')'] ∧
      item.signature? = some d ∧ d.params = ps.types := by
  cases item with
  | semicolon => cases h
  | ctor params =>
    cases h
    exact ⟨[.word "ctor"], _, rfl, rfl, rfl⟩
  | method m =>
    cases h
    refine ⟨List.replicate m.statics (.word "static") ++ m.returns :: m.indirections ++ [m.name],
      m.signature, ?_, rfl, rfl⟩
    simp [tokens, Method.tokens]

end Item

end LuaGlue.Grammar

namespace LuaGlue.Listener

open Grammar

/-- What a description without an error declares: nothing between the parentheses is no parameter,
and otherwise there is one parameter more than there are commas if and only if every comma stands
between two types. Then the types are the parameters. -/
theorem param_count_of_run {σ : Type} {hear : Listener σ} {s : σ} {source : String}
    (h : (hear.run s source).error = none) :
    ∃ classes : List ClassDecl,
      classes.flatMap ClassDecl.tokens = (Token.lex source).tokens ∧
      hear.told s source = classes.flatMap ClassDecl.events ∧
      ∀ c ∈ classes, ∀ item ∈ c.items, ∀ ps, item.params? = some ps →
        ∃ front d, item.tokens = front ++ .punct '(' :: ps.tokens ++ [.punct ')'] ∧
          item.signature? = some d ∧
          (ps.tokens = [] → d.params = []) ∧
          (ps.tokens ≠ [] →
            (d.params.length = ps.tokens.count (.punct ',') + 1 ↔
              ∃ first more, Separated ps.tokens first more)) ∧
          ∀ first more, Separated ps.tokens first more →
            d.params = (first :: more).map fun type =>
              String.intercalate " " (type.map Token.text) := by
  obtain ⟨classes, htree, htold⟩ := exists_tree_of_run h
  refine ⟨classes, htree, htold, fun c _ item _ ps hps => ?_⟩
  obtain ⟨front, d, htokens, hsignature, hparams⟩ := Item.exists_of_params? hps
  refine ⟨front, d, htokens, hsignature, fun hempty => ?_, ?_, ?_⟩
  · cases ps with
    | empty => exact hparams
    | listed first more extraComma => cases hempty
  · rw [hparams]
    exact ParamList.length_types_eq_iff
  · rw [hparams]
    exact fun first more => ParamList.types_of_separated

/-- Between the two types of this constructor there is a comma, and one of them has a modifier. -/
theorem param_count_of_run_two_types :
    (Listener.silent.run () "class A { ctor(int, char *) }").error = none ∧
    ∃ ps d, Separated ps.tokens [.word "int"] [[.word "char", .punct '*']] ∧
      (Item.ctor ps).signature? = some d ∧ d.params = ["int", "char *"] ∧
      d.params.length = ps.tokens.count (.punct ',') + 1 := by
  let ps : ParamList := .listed ⟨.word "int", [], by decide, by decide⟩
    [⟨.word "char", [.punct '*'], by decide, by decide⟩] false
  let c : ClassDecl := ⟨.word "A", [], none, [.ctor ps], by decide⟩
  have hnone : (Listener.silent.run () "class A { ctor(int, char *) }").error = none := by
    decide +kernel
  have htokens : [c].flatMap ClassDecl.tokens =
      (Token.lex "class A { ctor(int, char *) }").tokens := by
    decide +kernel
  have hseparated : Separated ps.tokens [.word "int"] [[.word "char", .punct '*']] :=
    ⟨rfl, by decide, by decide⟩
  obtain ⟨classes, htree, -, hparams⟩ := param_count_of_run hnone
  obtain rfl : classes = [c] := tokens_injective (htree.trans htokens.symm)
  obtain ⟨-, d, -, hsignature, -, hcount, htypes⟩ :=
    hparams c List.mem_cons_self (.ctor ps) List.mem_cons_self ps rfl
  exact ⟨hnone, ps, d, hseparated, hsignature, htypes _ _ hseparated,
    (hcount (by decide)).2 ⟨_, _, hseparated⟩⟩

/-- A comma behind the last type is taken as well, and declares nothing. -/
theorem param_count_trailing_comma :
    ((Listener.recorder []).run [] "class A { ctor(int,) }").error = none ∧
    ((Listener.recorder []).run [] "class A { ctor(int,) }").state.listener =
      [.classStart "A", .ctor { params := ["int"], isCtor := true }, .classEnd] ∧
    ∃ (c : ClassDecl) (ps : ParamList),
      c.tokens = (Token.lex "class A { ctor(int,) }").tokens ∧ c.items = [.ctor ps] ∧
      ps.tokens = [.word "int", .punct ','] ∧
      ["int"].length ≠ ps.tokens.count (.punct ',') + 1 := by
  let ps : ParamList := .listed ⟨.word "int", [], by decide, by decide⟩ [] true
  let c : ClassDecl := ⟨.word "A", [], none, [.ctor ps], by decide⟩
  exact ⟨by decide +kernel, by decide +kernel, c, ps, by decide +kernel, rfl, rfl, by decide⟩

end LuaGlue.Listener
