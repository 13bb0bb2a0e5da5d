import LuaGlue.Generate
import LuaGlue.Proofs.Translation.Reference

namespace LuaGlue

namespace Text

def unspaced (s : String) : String :=
  String.ofList (s.toList.filter (· ≠ ' '))

theorem unspaced_append (s t : String) : unspaced (s ++ t) = unspaced s ++ unspaced t := by
  rw [unspaced, String.toList_append, List.filter_append, String.ofList_append]
  rfl

theorem unspaced_intercalate (parts : List String) :
    unspaced (String.intercalate " " parts) = unspaced (String.join parts) := by
  induction parts with
  | nil => rw [String.intercalate_nil, String.join_nil]
  | cons part rest ih =>
    cases rest with
    | nil =>
      rw [String.intercalate_singleton, String.join_cons, String.join_nil, String.append_empty]
    | cons next rest =>
      have hspace : unspaced " " = "" := by decide
      rw [String.intercalate_cons_cons, String.join_cons, unspaced_append, unspaced_append,
        unspaced_append, hspace, String.append_empty, ih]

theorem length_intercalate (part : String) (rest : List String) :
    (String.intercalate " " (part :: rest)).length =
      (String.join (part :: rest)).length + rest.length := by
  induction rest generalizing part with
  | nil =>
    rw [String.intercalate_singleton, String.join_cons, String.join_nil, String.append_empty]
    rfl
  | cons next rest ih =>
    have hspace : " ".length = 1 := rfl
    rw [String.intercalate_cons_cons, String.join_cons, String.length_append, String.length_append,
      String.length_append, ih, hspace, List.length_cons]
    omega

end Text

namespace Glue.Function

/-- The type as which a result is pushed. -/
def pushed? (f : Function) : Option String :=
  match f.action with
  | .construct _ | .call _ => none
  | .push type _ => some type

/-- The type as which an argument is taken from the stack. -/
def taken? (f : Function) (i : Nat) : Option String :=
  f.args[i]?.map Argument.taken

end Glue.Function

namespace Grammar

def ParamList.toList : ParamList → List Param
  | empty => []
  | listed first more _ => first :: more

theorem ParamList.types_eq_map (ps : ParamList) : ps.types = ps.toList.map Param.type := by
  cases ps <;> rfl

/-- A type that is a word with its modifiers. The words that are left out are keywords where a
method is declared, or the type of no result. -/
structure TypeName where
  word : String
  modifiers : List Token
  word_ok : word ≠ "static" ∧ word ≠ "ctor" ∧ word ≠ "void"
  modifiers_ok : ∀ t ∈ modifiers, IsIndirection t

namespace TypeName

def tokens (τ : TypeName) : List Token :=
  .word τ.word :: τ.modifiers

/-- The spelling of a return type. -/
def joined (τ : TypeName) : String :=
  String.join (τ.tokens.map Token.text)

/-- The spelling of a parameter type. -/
def spaced (τ : TypeName) : String :=
  String.intercalate " " (τ.tokens.map Token.text)

/-- The method is declared with this return type. -/
def IsReturned (τ : TypeName) (m : Method) : Prop :=
  m.returns :: m.indirections = τ.tokens

/-- The method is declared with this type as one of its parameters. -/
def IsTaken (τ : TypeName) (m : Method) (i : Nat) : Prop :=
  ∃ p, m.params.toList[i]? = some p ∧ p.tokens = τ.tokens

/-- Whichever methods are declared with the type: one pushes it as the type, up to spaces, as which
another one takes it. -/
def Agrees (τ : TypeName) (aliases : AliasTable) : Prop :=
  ∀ m n i names others, τ.IsReturned m → τ.IsTaken n i →
    ∃ pushed taken, (m.signature.glue aliases names).pushed? = some pushed ∧
      (n.signature.glue aliases others).taken? i = some taken ∧
      Text.unspaced pushed = Text.unspaced taken

variable {τ : TypeName} {m : Method}

theorem unspaced_joined (τ : TypeName) : Text.unspaced τ.joined = Text.unspaced τ.spaced :=
  (Text.unspaced_intercalate _).symm

/-- A modifier is a character that no keyword contains. -/
theorem joined_ne_void (τ : TypeName) : τ.joined ≠ "void" := by
  obtain ⟨-, -, hword⟩ := τ.word_ok
  cases hmodifiers : τ.modifiers with
  | nil => simpa [joined, tokens, hmodifiers, Token.text] using hword
  | cons t rest =>
    intro hvoid
    have hmem : ∀ c ∈ t.text.toList, c ∈ "void".toList := by
      intro c hc
      rw [← hvoid, joined, tokens, hmodifiers, String.toList_join]
      simp [hc]
    have ht : t ∈ τ.modifiers := hmodifiers ▸ List.mem_cons_self
    rcases τ.modifiers_ok t ht with rfl | rfl
    · exact absurd (hmem '*' (by decide)) (by decide)
    · exact absurd (hmem '&' (by decide)) (by decide)

theorem joined_eq_spaced_iff (τ : TypeName) : τ.joined = τ.spaced ↔ τ.modifiers = [] := by
  have hlength : τ.spaced.length = τ.joined.length + τ.modifiers.length := by
    rw [spaced, joined, tokens, List.map_cons, Text.length_intercalate, List.length_map]
  constructor
  · intro heq
    rw [← heq] at hlength
    exact List.length_eq_zero_iff.1 (by omega)
  · intro hnone
    rw [joined, spaced, tokens, hnone, List.map_singleton, String.join_cons, String.join_nil,
      String.append_empty, String.intercalate_singleton]

theorem pushed?_glue (h : τ.IsReturned m) (aliases : AliasTable) (names : Glue.ClassNames) :
    (m.signature.glue aliases names).pushed? = some (aliases.resolve τ.joined) := by
  have hreturns : m.signature.returns = τ.joined := by
    rw [joined, ← h]
    rfl
  have hvoid : m.signature.returnsVoid = false := by
    rw [Signature.returnsVoid, hreturns]
    exact decide_eq_false τ.joined_ne_void
  have hmethod : m.signature.isCtor = false := rfl
  rw [Signature.glue, hmethod, Glue.Function.pushed?, Glue.Function.ofMethod]
  simp [hvoid, hreturns]

theorem taken?_glue {i : Nat} (h : τ.IsTaken m i) (aliases : AliasTable)
    (names : Glue.ClassNames) :
    (m.signature.glue aliases names).taken? i = some (aliases.resolve τ.spaced) := by
  obtain ⟨p, hp, htokens⟩ := h
  have htype : m.signature.params[i]? = some τ.spaced := by
    have hparams : m.signature.params = m.params.toList.map Param.type := m.params.types_eq_map
    rw [hparams, List.getElem?_map, hp, spaced, ← htokens]
    rfl
  have hmethod : m.signature.isCtor = false := rfl
  rw [Signature.glue, hmethod, Glue.Function.taken?, Glue.Function.ofMethod]
  simp [Glue.arguments, htype]

theorem exists_isReturned (τ : TypeName) : ∃ m, τ.IsReturned m := by
  obtain ⟨hstatic, hctor, -⟩ := τ.word_ok
  exact ⟨{
    statics := 0
    returns := .word τ.word
    indirections := τ.modifiers
    name := .word "f"
    params := .empty
    returns_ok := by simp [StartsType, hstatic, hctor]
    indirections_ok := τ.modifiers_ok
    name_ok := by decide }, rfl⟩

theorem exists_isTaken (τ : TypeName) : ∃ m, τ.IsTaken m 0 := by
  have hmodifiers : ∀ t ∈ τ.modifiers, t ≠ .punct ',' ∧ t ≠ .punct ')' := by
    intro t ht
    rcases τ.modifiers_ok t ht with rfl | rfl <;> decide
  let p : Param := ⟨.word τ.word, τ.modifiers, by simp, hmodifiers⟩
  exact ⟨{
    statics := 0
    returns := .word "void"
    indirections := []
    name := .word "f"
    params := .listed p [] false
    returns_ok := by decide
    indirections_ok := by decide
    name_ok := by decide }, p, rfl, rfl⟩

theorem agrees_iff (τ : TypeName) (aliases : AliasTable) :
    τ.Agrees aliases ↔
      Text.unspaced (aliases.resolve τ.joined) = Text.unspaced (aliases.resolve τ.spaced) := by
  constructor
  · intro hagrees
    obtain ⟨m, hm⟩ := τ.exists_isReturned
    obtain ⟨n, hn⟩ := τ.exists_isTaken
    obtain ⟨pushed, taken, hpushed, htaken, heq⟩ := hagrees m n 0 {} {} hm hn
    obtain rfl := Option.some.inj ((pushed?_glue hm aliases {}).symm.trans hpushed)
    obtain rfl := Option.some.inj ((taken?_glue hn aliases {}).symm.trans htaken)
    exact heq
  · intro heq m n i names others hm hn
    exact ⟨_, _, pushed?_glue hm aliases names, taken?_glue hn aliases others, heq⟩

/-- What a type is pushed as and what it is taken as. Each is the alias of one of its two spellings,
and the spellings only differ in spaces. So the two agree up to spaces if neither spelling has an
alias. They agree under every table exactly if the type has no modifier: with a modifier there are
two spellings, and an alias for one of them is missing for the other. -/
theorem marshaling_agrees_iff (τ : TypeName) :
    (∀ aliases, τ.Agrees aliases ↔
      Text.unspaced (aliases.resolve τ.joined) = Text.unspaced (aliases.resolve τ.spaced)) ∧
    (∀ aliases, aliases.entries.lookup τ.joined = none → aliases.entries.lookup τ.spaced = none →
      τ.Agrees aliases) ∧
    ((∀ aliases, τ.Agrees aliases) ↔ τ.modifiers = []) := by
  refine ⟨τ.agrees_iff, fun aliases hjoined hspaced => ?_, fun hall => ?_, fun hnone aliases => ?_⟩
  · rw [agrees_iff, AliasTable.resolve, AliasTable.resolve, hjoined, hspaced]
    exact τ.unspaced_joined
  · by_contra hmodifiers
    have hne : τ.spaced ≠ τ.joined := fun heq => hmodifiers (τ.joined_eq_spaced_iff.1 heq.symm)
    have heq := (τ.agrees_iff _).1 (hall (AliasTable.insert {} τ.joined (τ.joined ++ "x")))
    rw [AliasTable.resolve_insert, if_pos rfl, AliasTable.resolve_insert, if_neg hne,
      Text.unspaced_append, τ.unspaced_joined] at heq
    have hlength := congrArg String.length heq
    rw [String.length_append] at hlength
    have hempty : AliasTable.resolve {} τ.spaced = τ.spaced := rfl
    have hx : (Text.unspaced "x").length = 1 := by decide
    rw [hempty, hx] at hlength
    omega
  · rw [agrees_iff, τ.joined_eq_spaced_iff.2 hnone]

/-- Without other aliases than the standard ones, a pointer type agrees with itself. -/
theorem marshaling_agrees_iff_pointer :
    ∃ τ : TypeName, τ.tokens = [.word "Actor", .punct '*'] ∧
      AliasTable.standard.entries.lookup τ.joined = none ∧
      AliasTable.standard.entries.lookup τ.spaced = none ∧ τ.Agrees .standard := by
  let τ : TypeName := ⟨"Actor", [.punct '*'], by decide, by decide⟩
  have hjoined : AliasTable.standard.entries.lookup τ.joined = none := by decide +kernel
  have hspaced : AliasTable.standard.entries.lookup τ.spaced = none := by decide +kernel
  obtain ⟨-, hnone, -⟩ := marshaling_agrees_iff τ
  exact ⟨τ, rfl, hjoined, hspaced, hnone _ hjoined hspaced⟩

/-- An alias for a pointer type is used where the type is returned, and not where it is a
parameter. -/
theorem marshaling_pointer_alias :
    (∃ τ : TypeName, τ.tokens = [.word "Actor", .punct '*'] ∧
      ¬ τ.Agrees (.ofList [("Actor*", "Ref")])) ∧
    ((Binder.hear (.ofList [("Actor*", "Ref")])).run (.fresh none)
        "class A { Actor* f(Actor*) }").error = none ∧
    ((Binder.hear (.ofList [("Actor*", "Ref")])).run (.fresh none)
        "class A { Actor* f(Actor*) }").state.listener.sink.bytes =
      (Text.ofLines
        ["int _A_f(lua_State* L) \x7b",
          "  assert(lua_gettop(L) == 2);",
          "  A* obj = luaGet<A*>(L, 1);",
          "  Actor * p2 = luaGet<Actor *>(L, 2);",
          "  Ref ret = obj->f(p2);",
          "  return luaPush<Ref>(L, ret);",
          "\x7d",
          ""]).toUTF8 := by
  let τ : TypeName := ⟨"Actor", [.punct '*'], by decide, by decide⟩
  have hdiffer : Text.unspaced (AliasTable.resolve (.ofList [("Actor*", "Ref")]) τ.joined) ≠
      Text.unspaced (AliasTable.resolve (.ofList [("Actor*", "Ref")]) τ.spaced) := by
    decide +kernel
  refine ⟨⟨τ, rfl, fun hagrees => hdiffer ((τ.agrees_iff _).1 hagrees)⟩, ?_, ?_⟩ <;>
    decide +kernel

end TypeName

end Grammar

end LuaGlue
