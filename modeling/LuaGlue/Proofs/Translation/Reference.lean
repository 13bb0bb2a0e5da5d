import Mathlib.Data.List.Nodup
import LuaGlue.Glue.Function
import LuaGlue.Outcome
import LuaGlue.Proofs.Grammar.Tree
import LuaGlue.Registry

namespace LuaGlue

/-- The glue function of a declaration. -/
def Signature.glue (aliases : AliasTable) (names : Glue.ClassNames) (s : Signature) :
    Glue.Function :=
  if s.isCtor then .ofCtor aliases names s else .ofMethod aliases names s

/-- Something that a description names: a class, or a declaration in a class. -/
inductive Introduction where
  | wrapped (names : Glue.ClassNames)
  | declared (names : Glue.ClassNames) (s : Signature)

namespace Introduction

/-- What must not be introduced again. -/
def key : Introduction → String × Option String
  | wrapped names => (names.wrapper, none)
  | declared names s => (names.wrapper, some s.memberName)

/-- The error if it has been introduced before. -/
def duplicate : Introduction → Error
  | wrapped names => .duplicateClass names.wrapper
  | declared names s => .duplicateMember names.wrapper s.memberName

/-- Only declarations have glue. -/
def glue (aliases : AliasTable) : Introduction → String
  | wrapped _ => ""
  | declared names s => (s.glue aliases names).text

end Introduction

namespace Grammar.ClassDecl

/-- A class without brackets wraps the native class of its own name. -/
def names (c : ClassDecl) : Glue.ClassNames :=
  ⟨c.name.text, (c.native.map fun n => n.name.text).getD c.name.text⟩

def declarations (c : ClassDecl) : List Signature :=
  c.items.filterMap Item.signature?

/-- What is told of a class, by its declarations. -/
theorem events_eq (c : ClassDecl) :
    c.events = c.header ++ c.declarations.map Signature.event ++ [.classEnd] := by
  rw [events, declarations, List.map_filterMap]
  simp only [Item.event?_eq_map_signature?]

def entry (c : ClassDecl) : ClassEntry :=
  ⟨c.name.text, c.declarations.map Signature.memberName⟩

/-- A class introduces itself and then its members. -/
def introductions (c : ClassDecl) : List Introduction :=
  .wrapped c.names :: c.declarations.map (.declared c.names)

end Grammar.ClassDecl

/-- The glue of everything that is introduced, in this order. -/
def glueText (aliases : AliasTable) (xs : List Introduction) : String :=
  String.join (xs.map (Introduction.glue aliases))

theorem glueText_cons (aliases : AliasTable) (x : Introduction) (xs : List Introduction) :
    glueText aliases (x :: xs) = x.glue aliases ++ glueText aliases xs := by
  rw [glueText, List.map_cons, String.join_cons]
  rfl

/-- Appends the glue of what is introduced to a text, up to the first key that has been seen.
Neither tokens nor a registry occur in this. -/
def translate (aliases : AliasTable) :
    List (String × Option String) → List Introduction → String → Outcome String
  | _, [], text => ⟨text, [], none⟩
  | seen, x :: xs, text =>
    if x.key ∈ seen then ⟨text, [], some x.duplicate⟩
    else translate aliases (seen ++ [x.key]) xs (text ++ x.glue aliases)

section Translate

variable {aliases : AliasTable} {seen : List (String × Option String)}

theorem translate_append (xs ys : List Introduction) (text : String) :
    translate aliases seen (xs ++ ys) text =
      (translate aliases seen xs text).andThen
        (translate aliases (seen ++ xs.map Introduction.key) ys) := by
  induction xs generalizing seen text with
  | nil =>
    rw [List.map_nil, List.append_nil, List.nil_append, translate,
      Outcome.andThen_of_error_eq_none rfl]
    rfl
  | cons x xs ih =>
    rw [List.cons_append, translate, translate]
    split
    · rw [Outcome.andThen_of_error rfl]
    · rw [ih, List.append_assoc]
      rfl

/-- Without a repetition everything is translated. -/
theorem translate_of_nodup {xs : List Introduction}
    (h : (seen ++ xs.map Introduction.key).Nodup) (text : String) :
    translate aliases seen xs text = ⟨text ++ glueText aliases xs, [], none⟩ := by
  induction xs generalizing seen text with
  | nil => simp [translate, glueText]
  | cons x xs ih =>
    rw [List.map_cons, List.append_cons] at h
    have hnew : x.key ∉ seen := by
      have hseen := (List.nodup_append.1 h).1
      exact fun hmem => (List.nodup_append.1 hseen).2.2 x.key hmem x.key List.mem_cons_self rfl
    rw [translate, if_neg hnew, ih h, glueText_cons, String.append_assoc]

/-- The first repetition ends the translation. -/
theorem exists_repetition_of_not_nodup {xs : List Introduction} (hseen : seen.Nodup)
    (h : ¬ (seen ++ xs.map Introduction.key).Nodup) (text : String) :
    ∃ before x behind, xs = before ++ x :: behind ∧
      (seen ++ before.map Introduction.key).Nodup ∧
      x.key ∈ seen ++ before.map Introduction.key ∧
      translate aliases seen xs text = ⟨text ++ glueText aliases before, [], some x.duplicate⟩ := by
  induction xs generalizing seen text with
  | nil => exact absurd (by simpa using hseen) h
  | cons x xs ih =>
    rw [translate]
    split
    · rename_i hmem
      exact ⟨[], x, xs, rfl, by simpa using hseen, by simpa using hmem, by simp [glueText]⟩
    · rename_i hnew
      have hseen' : (seen ++ [x.key]).Nodup := by
        rw [List.nodup_append]
        refine ⟨hseen, by simp, fun a ha b hb hab => ?_⟩
        rw [List.mem_singleton.1 hb] at hab
        exact hnew (hab ▸ ha)
      rw [List.map_cons, List.append_cons] at h
      obtain ⟨before, y, behind, rfl, hnodup, hmem, htranslate⟩ :=
        ih hseen' h (text ++ x.glue aliases)
      refine ⟨x :: before, y, behind, rfl, ?_, ?_, ?_⟩
      · rwa [List.map_cons, List.append_cons]
      · rwa [List.map_cons, List.append_cons]
      · rw [htranslate, glueText_cons, String.append_assoc]

end Translate

/-- The keys of a class that has been introduced, and of its members. -/
def ClassEntry.keys (entry : ClassEntry) : List (String × Option String) :=
  (entry.wrapper, none) :: entry.members.map (entry.wrapper, some ·)

namespace ClassEntry

/-- The keys that have been introduced when a registry holds these entries. -/
def allKeys (entries : List ClassEntry) : List (String × Option String) :=
  entries.flatMap keys

theorem allKeys_append (first second : List ClassEntry) :
    allKeys (first ++ second) = allKeys first ++ allKeys second :=
  List.flatMap_append

theorem fst_of_mem_keys {entry : ClassEntry} {key : String × Option String}
    (h : key ∈ entry.keys) : key.1 = entry.wrapper := by
  rcases List.mem_cons.1 h with rfl | hmember
  · rfl
  · obtain ⟨member, -, rfl⟩ := List.mem_map.1 hmember
    rfl

theorem nodup_keys_iff {entry : ClassEntry} : entry.keys.Nodup ↔ entry.members.Nodup := by
  have hinjective : Function.Injective fun member : String => (entry.wrapper, some member) := by
    intro first second h
    exact Option.some.inj (congrArg Prod.snd h)
  rw [keys, List.nodup_cons, List.nodup_map_iff hinjective]
  refine and_iff_right fun hmem => ?_
  obtain ⟨member, -, h⟩ := List.mem_map.1 hmem
  cases h

/-- Keys are distinct if the classes are, and the members of each of them. -/
theorem nodup_allKeys_iff {entries : List ClassEntry} :
    (allKeys entries).Nodup ↔
      (entries.map wrapper).Nodup ∧ ∀ entry ∈ entries, entry.members.Nodup := by
  have hdisjoint : entries.Pairwise (Function.onFun List.Disjoint keys) ↔
      entries.Pairwise fun first second => first.wrapper ≠ second.wrapper := by
    refine List.Pairwise.iff fun first second => ?_
    constructor
    · intro h heq
      exact h List.mem_cons_self (heq ▸ List.mem_cons_self)
    · intro hne key hfirst hsecond
      exact hne ((fst_of_mem_keys hfirst).symm.trans (fst_of_mem_keys hsecond))
  have hwrappers : (entries.map wrapper).Nodup ↔
      entries.Pairwise fun first second => first.wrapper ≠ second.wrapper := List.pairwise_map
  rw [hwrappers, ← hdisjoint, allKeys, List.nodup_flatMap, and_comm]
  simp only [nodup_keys_iff]

theorem mem_allKeys_none_iff {entries : List ClassEntry} {name : String} :
    (name, none) ∈ allKeys entries ↔ name ∈ entries.map wrapper := by
  simp [allKeys, keys, eq_comm]

end ClassEntry

/-- A registry knows a member exactly if it is one of the recorded members of its class. -/
theorem Registry.mem_allKeys_some_iff {r : Registry} {wrapper member : String}
    {members : List String} (hentry : ⟨wrapper, members⟩ ∈ r.entries) :
    (wrapper, some member) ∈ ClassEntry.allKeys r.entries ↔ member ∈ members := by
  constructor
  · intro h
    obtain ⟨⟨name, found⟩, hfound, hkey⟩ := List.mem_flatMap.1 h
    obtain rfl : wrapper = name := ClassEntry.fst_of_mem_keys hkey
    have hmembers := (members?_eq_some_of_mem hfound).symm.trans (members?_eq_some_of_mem hentry)
    obtain rfl : found = members := Option.some.inj hmembers
    simpa [ClassEntry.keys] using hkey
  · intro h
    refine List.mem_flatMap.2 ⟨_, hentry, ?_⟩
    simpa [ClassEntry.keys] using h

namespace Grammar

theorem ClassDecl.map_key_introductions (c : ClassDecl) :
    c.introductions.map Introduction.key = c.entry.keys := by
  simp [introductions, ClassEntry.keys, entry, Introduction.key, names, Function.comp_def]

/-- No two classes of a description share their name, and no two declarations of a class share their
member name. -/
structure Distinct (classes : List ClassDecl) : Prop where
  names : (classes.map fun c => c.name.text).Nodup
  members : ∀ c ∈ classes, (c.declarations.map Signature.memberName).Nodup

theorem nodup_map_key_introductions_iff (classes : List ClassDecl) :
    ((classes.flatMap ClassDecl.introductions).map Introduction.key).Nodup ↔ Distinct classes := by
  have hkeys : (classes.flatMap ClassDecl.introductions).map Introduction.key =
      ClassEntry.allKeys (classes.map ClassDecl.entry) := by
    rw [ClassEntry.allKeys, List.map_flatMap, List.flatMap_map]
    simp only [ClassDecl.map_key_introductions]
  rw [hkeys, ClassEntry.nodup_allKeys_iff, List.map_map, List.forall_mem_map]
  exact ⟨fun ⟨hnames, hmembers⟩ => ⟨hnames, hmembers⟩, fun h => ⟨h.names, h.members⟩⟩

end Grammar

end LuaGlue
