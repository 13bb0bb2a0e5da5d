import LuaGlue.Proofs.Text.Lines
import LuaGlue.Proofs.Translation.Reference

namespace LuaGlue

/-- What the tokens of a text can make a declaration of. -/
structure Signature.Plain (s : Signature) : Prop where
  returns : Text.Unbroken s.returns
  name : Text.Unbroken s.name
  params : ∀ type ∈ s.params, Text.OneLine type

structure Glue.ClassNames.Plain (names : ClassNames) : Prop where
  wrapper : Text.Unbroken names.wrapper
  native : Text.Unbroken names.native

structure ClassEntry.Plain (entry : ClassEntry) : Prop where
  wrapper : Text.Unbroken entry.wrapper
  members : ∀ member ∈ entry.members, Text.Unbroken member

theorem Signature.Plain.unbroken_memberName {s : Signature} (h : s.Plain) :
    Text.Unbroken s.memberName := by
  unfold memberName
  split
  · decide
  · exact h.name

namespace Grammar

/-- None of the tokens contains a blank. Then neither do the names in a tree of them, and the types
in it contain no blanks but the spaces that are put between the tokens of a parameter. -/
def Unbroken (ts : List Token) : Prop :=
  ∀ t ∈ ts, Text.Unbroken t.text

theorem Unbroken.append {ts us : List Token} :
    Unbroken (ts ++ us) ↔ Unbroken ts ∧ Unbroken us :=
  List.forall_mem_append

theorem Param.oneLine_type {p : Param} (h : Unbroken p.tokens) : Text.OneLine p.type := by
  refine Text.oneLine_intercalate (by decide) ?_
  intro part hpart
  obtain ⟨t, ht, rfl⟩ := List.mem_map.1 hpart
  exact (h t ht).oneLine

theorem ParamList.oneLine_of_mem_types {ps : ParamList} (h : Unbroken ps.tokens) :
    ∀ type ∈ ps.types, Text.OneLine type := by
  cases ps with
  | empty => simp [types]
  | listed first more extraComma =>
    rw [tokens, Unbroken.append, Unbroken.append] at h
    obtain ⟨⟨hfirst, hmore⟩, -⟩ := h
    rw [types, List.map_cons, List.forall_mem_cons, List.forall_mem_map]
    refine ⟨Param.oneLine_type hfirst, fun p hp => Param.oneLine_type fun t ht => ?_⟩
    exact hmore t (List.mem_flatMap.2 ⟨p, hp, List.mem_cons_of_mem _ ht⟩)

theorem Method.plain_signature {m : Method} (h : Unbroken m.tokens) : m.signature.Plain := by
  have hreturns : Unbroken (m.returns :: m.indirections) := fun t ht => h t (by
    rcases List.mem_cons.1 ht with rfl | ht <;> simp [tokens, *])
  have hname : Text.Unbroken m.name.text := h m.name (by simp [tokens])
  have hparams : Unbroken m.params.tokens := fun t ht => h t (by simp [tokens, ht])
  refine ⟨Text.Unbroken.join ?_, hname, ParamList.oneLine_of_mem_types hparams⟩
  exact List.forall_mem_map.2 hreturns

theorem Item.plain_signature {item : Item} (h : Unbroken item.tokens) {s : Signature}
    (hs : item.signature? = some s) : s.Plain := by
  cases item with
  | semicolon => cases hs
  | ctor ps =>
    cases hs
    have hparams : Unbroken ps.tokens := fun t ht => h t (by simp [tokens, ht])
    exact ⟨List.forall_mem_nil _, List.forall_mem_nil _, ParamList.oneLine_of_mem_types hparams⟩
  | method m =>
    cases hs
    exact Method.plain_signature h

namespace ClassDecl

variable {c : ClassDecl}

theorem plain_names (h : Unbroken c.tokens) : c.names.Plain := by
  have hwrapper : Text.Unbroken c.name.text := h c.name (by simp [tokens])
  refine ⟨hwrapper, ?_⟩
  cases hnative : c.native with
  | none => simpa [names, hnative] using hwrapper
  | some n =>
    have hname : Text.Unbroken n.name.text :=
      h n.name (by simp [tokens, hnative, NativeName.tokens])
    simpa [names, hnative] using hname

theorem plain_of_mem_declarations (h : Unbroken c.tokens) :
    ∀ s ∈ c.declarations, s.Plain := by
  intro s hs
  obtain ⟨item, hitem, hsignature⟩ := List.mem_filterMap.1 hs
  refine Item.plain_signature (fun t ht => h t ?_) hsignature
  have hmem : t ∈ c.items.flatMap Item.tokens := List.mem_flatMap.2 ⟨item, hitem, ht⟩
  simp [tokens, hmem]

theorem plain_entry (h : Unbroken c.tokens) : c.entry.Plain where
  wrapper := (plain_names h).wrapper
  members := List.forall_mem_map.2 fun s hs => (plain_of_mem_declarations h s hs).unbroken_memberName

end ClassDecl

end Grammar

end LuaGlue
