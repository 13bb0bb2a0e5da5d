import LuaGlue.Proofs.Json.Mismatch
import LuaGlue.Proofs.Settings.RoundTrip
import Mathlib.Data.List.Induction
import Mathlib.Data.List.Nodup

namespace LuaGlue.Settings

open Json (Value Mismatch)

/-- The settings have this value in a field. Of several aliases for a type the last one counts. -/
def Has (s : Settings) : Field → Value → Prop
  | .includes, value => value = .list (s.includes.map .text)
  | .usings, value => value = .list (s.usings.map .text)
  | .aliases, value => ∃ pairs : List (String × String),
      value = .object (pairs.map Value.ofPair) ∧ ∀ type,
        s.aliases.entries.lookup type = pairs.reverse.lookup type
  | .registerFunction, value => value = .text s.registerFunction
  | .interpreter, value => value = .text s.interpreter

/-- Two settings are the same in a field. -/
def AgreeAt (s other : Settings) : Field → Prop
  | .includes => s.includes = other.includes
  | .usings => s.usings = other.usings
  | .aliases => s.aliases = other.aliases
  | .registerFunction => s.registerFunction = other.registerFunction
  | .interpreter => s.interpreter = other.interpreter

/-- The settings that an object gives: those fields that it names have the values given there, and
all others have their defaults. It names no field twice, and nothing else. -/
structure Overrides (s : Settings) (members : List (String × Value)) : Prop where
  nodup : (members.map Prod.fst).Nodup
  known : ∀ member ∈ members, ∃ field : Field, field.name = member.1
  given : ∀ (field : Field) (value : Value), (field.name, value) ∈ members → s.Has field value
  others : ∀ field : Field, field.name ∉ members.map Prod.fst → s.AgreeAt {} field

/-- Why a value is none of a field. -/
def Field.Refuses : Field → Value → Mismatch → Prop
  | .includes, value, mismatch => value.NotTexts mismatch
  | .usings, value, mismatch => value.NotTexts mismatch
  | .aliases, value, mismatch => value.NotPairs mismatch
  | .registerFunction, value, mismatch => value.NotText mismatch
  | .interpreter, value, mismatch => value.NotText mismatch

/-- The first mismatch of an object, with nothing wrong before it. -/
inductive FirstMismatch : List (String × Value) → Mismatch → Prop
  | unknown {before : List (String × Value)} {key : String} (value : Value)
      (after : List (String × Value)) (hbefore : ∃ s : Settings, s.Overrides before)
      (hkey : ∀ field : Field, field.name ≠ key) :
      FirstMismatch (before ++ (key, value) :: after)
        (.unknownField key (Field.all.map Field.name))
  | duplicate {before : List (String × Value)} {key : String} (value : Value)
      (after : List (String × Value)) (hbefore : ∃ s : Settings, s.Overrides before)
      (hkey : key ∈ before.map Prod.fst) :
      FirstMismatch (before ++ (key, value) :: after) (.duplicateField key)
  | value {before : List (String × Value)} {field : Field} {value : Value} {mismatch : Mismatch}
      (after : List (String × Value)) (hbefore : ∃ s : Settings, s.Overrides before)
      (hkey : field.name ∉ before.map Prod.fst) (hvalue : field.Refuses value mismatch) :
      FirstMismatch (before ++ (field.name, value) :: after) mismatch

/-- The order of the fields does not matter. -/
theorem Overrides.perm {s : Settings} {members others : List (String × Value)}
    (h : s.Overrides members) (hperm : members.Perm others) : s.Overrides others where
  nodup := (hperm.map Prod.fst).nodup_iff.1 h.nodup
  known member hmember := h.known member (hperm.mem_iff.2 hmember)
  given field value hmember := h.given field value (hperm.mem_iff.2 hmember)
  others field hfield := h.others field fun hmem => hfield ((hperm.map Prod.fst).mem_iff.1 hmem)

section Fields

variable {s other : Settings} {field : Field} {value : Value}

theorem eq_of_agreeAt (h : ∀ field, s.AgreeAt other field) : s = other := by
  cases s
  cases other
  rw [Settings.mk.injEq]
  exact ⟨h .includes, h .usings, h .aliases, h .registerFunction, h .interpreter⟩

theorem AgreeAt.symm (h : s.AgreeAt other field) : other.AgreeAt s field := by
  cases field <;> exact Eq.symm h

theorem AgreeAt.trans {last : Settings} (h : s.AgreeAt other field)
    (hlast : other.AgreeAt last field) : s.AgreeAt last field := by
  cases field <;> exact Eq.trans h hlast

theorem AgreeAt.has (h : s.AgreeAt other field) (hvalue : s.Has field value) :
    other.Has field value := by
  cases field with
  | includes => exact hvalue.trans (congrArg (fun texts => Value.list (texts.map .text)) h)
  | usings => exact hvalue.trans (congrArg (fun texts => Value.list (texts.map .text)) h)
  | aliases =>
    obtain ⟨pairs, hpairs, hlookup⟩ := hvalue
    refine ⟨pairs, hpairs, fun type => ?_⟩
    rw [← hlookup, show s.aliases = other.aliases from h]
  | registerFunction => exact hvalue.trans (congrArg Value.text h)
  | interpreter => exact hvalue.trans (congrArg Value.text h)

theorem adopt_agreeAt (s other : Settings) (field : Field) :
    (s.adopt other field).AgreeAt other field := by
  cases field <;> rfl

theorem adopt_agreeAt_of_ne (s other : Settings) {field kept : Field} (h : kept ≠ field) :
    (s.adopt other field).AgreeAt s kept := by
  cases field <;> cases kept <;> first | exact absurd rfl h | rfl

theorem Field.name_injective : Function.Injective Field.name := by
  intro field other h
  cases field <;> cases other <;> first | rfl | exact absurd h (by decide)

/-- Takes the value of a field. -/
def give (s : Settings) (field : Field) (value : Value) : Except Mismatch Settings :=
  match field with
  | .includes => value.asTexts.map fun includes => { s with includes }
  | .usings => value.asTexts.map fun usings => { s with usings }
  | .aliases => value.asPairs.map fun pairs => { s with aliases := .ofList pairs }
  | .registerFunction => value.asText.map fun registerFunction => { s with registerFunction }
  | .interpreter => value.asText.map fun interpreter => { s with interpreter }

theorem give_eq_error_iff {mismatch : Mismatch} :
    s.give field value = .error mismatch ↔ field.Refuses value mismatch := by
  cases field with
  | includes => exact Json.map_eq_error_iff.trans Value.asTexts_eq_error_iff
  | usings => exact Json.map_eq_error_iff.trans Value.asTexts_eq_error_iff
  | aliases => exact Json.map_eq_error_iff.trans Value.asPairs_eq_error_iff
  | registerFunction => exact Json.map_eq_error_iff.trans Value.asText_eq_error_iff
  | interpreter => exact Json.map_eq_error_iff.trans Value.asText_eq_error_iff

/-- What was put into a field can be taken from it again. -/
theorem map_eq_ok_iff_of_get {α : Type} {found : Except Mismatch α} {put : α → Settings}
    (get : Settings → α) (hget : ∀ a, get (put a) = a) :
    found.map put = .ok other ↔ found = .ok (get other) ∧ other = put (get other) := by
  constructor
  · intro h
    obtain ⟨a, rfl, rfl⟩ := Json.exists_of_map_eq_ok h
    rw [hget]
    exact ⟨rfl, rfl⟩
  · rintro ⟨rfl, hother⟩
    exact congrArg Except.ok hother.symm

/-- A value is taken as a whole, and all other fields stay. -/
theorem give_eq_ok_iff :
    s.give field value = .ok other ↔ other.Has field value ∧ other = s.adopt other field := by
  cases field with
  | includes =>
    exact (map_eq_ok_iff_of_get Settings.includes fun _ => rfl).trans
      (and_congr_left' Value.asTexts_eq_ok_iff)
  | usings =>
    exact (map_eq_ok_iff_of_get Settings.usings fun _ => rfl).trans
      (and_congr_left' Value.asTexts_eq_ok_iff)
  | aliases =>
    constructor
    · intro h
      obtain ⟨pairs, hpairs, rfl⟩ := Json.exists_of_map_eq_ok h
      exact ⟨⟨pairs, Value.asPairs_eq_ok_iff.1 hpairs, AliasTable.lookup_ofList pairs⟩, rfl⟩
    · rintro ⟨⟨pairs, hpairs, hlookup⟩, hother⟩
      have htable : AliasTable.ofList pairs = other.aliases := by
        apply AliasTable.ext_lookup
        intro type
        rw [AliasTable.lookup_ofList, hlookup]
      rw [give, Value.asPairs_eq_ok_iff.2 hpairs, Except.map, htable, hother]
      rfl
  | registerFunction =>
    exact (map_eq_ok_iff_of_get Settings.registerFunction fun _ => rfl).trans
      (and_congr_left' (Value.asText_eq_ok_iff _ _))
  | interpreter =>
    exact (map_eq_ok_iff_of_get Settings.interpreter fun _ => rfl).trans
      (and_congr_left' (Value.asText_eq_ok_iff _ _))

end Fields

section Members

variable {s : Settings} {members : List (String × Value)}

/-- An empty object gives the default settings. -/
theorem overrides_nil : s.Overrides [] ↔ s = {} := by
  constructor
  · intro h
    exact eq_of_agreeAt fun field => h.others field List.not_mem_nil
  · rintro rfl
    refine ⟨List.nodup_nil, fun _ => nofun, fun _ _ => nofun, fun field _ => ?_⟩
    cases field <;> rfl

/-- The value of a field that is new is given to what the members before it give. -/
theorem Overrides.concat {before : Settings} {field : Field} {value : Value}
    (h : before.Overrides members) (hnew : field.name ∉ members.map Prod.fst)
    (hgive : before.give field value = .ok s) : s.Overrides (members ++ [(field.name, value)]) := by
  obtain ⟨hvalue, hs⟩ := give_eq_ok_iff.1 hgive
  have hkept : ∀ other, other ≠ field → s.AgreeAt before other := by
    intro other hne
    rw [hs]
    exact adopt_agreeAt_of_ne before s hne
  refine ⟨?_, ?_, ?_, ?_⟩
  · rw [List.map_append, List.nodup_append]
    refine ⟨h.nodup, List.pairwise_singleton _ _, ?_⟩
    rintro key hkey other hother rfl
    cases List.mem_singleton.1 hother
    exact hnew hkey
  · intro member hmember
    rcases List.mem_append.1 hmember with hbefore | hlast
    · exact h.known member hbefore
    · cases List.mem_singleton.1 hlast
      exact ⟨field, rfl⟩
  · intro other given hgiven
    rcases List.mem_append.1 hgiven with hbefore | hlast
    · have hne : other ≠ field := fun heq => hnew (heq ▸ List.mem_map_of_mem hbefore)
      exact (hkept other hne).symm.has (h.given other given hbefore)
    · obtain ⟨hname, rfl⟩ := Prod.mk.inj (List.mem_singleton.1 hlast)
      rwa [Field.name_injective hname]
  · intro other hother
    rw [List.map_append, List.mem_append, not_or] at hother
    have hne : other ≠ field := by
      rintro rfl
      exact hother.2 List.mem_cons_self
    exact (hkept other hne).trans (h.others other hother.1)

/-- Before its last member an object gives the same, but the default for the field of that
member. -/
theorem Overrides.exists_of_concat {key : String} {value : Value}
    (h : s.Overrides (members ++ [(key, value)])) :
    ∃ field : Field, field.name = key ∧ key ∉ members.map Prod.fst ∧
      (s.adopt {} field).Overrides members ∧ (s.adopt {} field).give field value = .ok s := by
  have hlast : (key, value) ∈ members ++ [(key, value)] :=
    List.mem_append_right _ List.mem_cons_self
  obtain ⟨field, hfield⟩ := h.known (key, value) hlast
  obtain rfl : field.name = key := hfield
  have hnodup := h.nodup
  rw [List.map_append, List.nodup_append] at hnodup
  obtain ⟨hmembers, -, hdisjoint⟩ := hnodup
  have hnew : field.name ∉ members.map Prod.fst := fun hmem =>
    hdisjoint _ hmem field.name List.mem_cons_self rfl
  refine ⟨field, rfl, hnew, ⟨hmembers, ?_, ?_, ?_⟩, give_eq_ok_iff.2 ⟨?_, ?_⟩⟩
  · exact fun member hmember => h.known member (List.mem_append_left _ hmember)
  · intro other given hgiven
    have hne : other ≠ field := fun heq => hnew (heq ▸ List.mem_map_of_mem hgiven)
    exact (adopt_agreeAt_of_ne s {} hne).symm.has
      (h.given other given (List.mem_append_left _ hgiven))
  · intro other hother
    by_cases heq : other = field
    · subst heq
      exact adopt_agreeAt s {} other
    · apply (adopt_agreeAt_of_ne s {} heq).trans
      apply h.others other
      rw [List.map_append, List.mem_append, not_or]
      exact ⟨hother, fun hmem => heq (Field.name_injective (List.mem_singleton.1 hmem))⟩
  · exact h.given field value hlast
  · cases field <;> rfl

/-- Finds the field of a key among those that have not been given yet. -/
def findField (missing : List Field) (key : String) : Except Mismatch Field :=
  match Field.ofName? key with
  | none => .error (.unknownField key (Field.all.map Field.name))
  | some field => if field ∈ missing then .ok field else .error (.duplicateField field.name)

/-- Takes a member of an object. -/
def giveMember (given : Settings × List Field) (member : String × Value) :
    Except Mismatch (Settings × List Field) :=
  (findField given.2 member.1).bind fun field =>
    (given.1.give field member.2).map (·, given.2.erase field)

/-- The fields that an object leaves at their defaults. -/
def unnamed (members : List (String × Value)) : List Field :=
  Field.all.filter fun field => field.name ∉ members.map Prod.fst

theorem mem_unnamed_iff {field : Field} :
    field ∈ unnamed members ↔ field.name ∉ members.map Prod.fst := by
  have hall : field ∈ Field.all := by cases field <;> decide
  rw [unnamed, List.mem_filter, decide_eq_true_eq]
  exact and_iff_right hall

theorem ofName?_eq_some_iff {key : String} {field : Field} :
    Field.ofName? key = some field ↔ field.name = key := by
  constructor
  · intro h
    unfold Field.ofName? at h
    have hname := List.find?_some h
    exact of_decide_eq_true hname
  · rintro rfl
    cases field <;> decide

variable {missing : List Field}

theorem findField_eq_ok_iff {key : String} {field : Field} :
    findField missing key = .ok field ↔ field.name = key ∧ field ∈ missing := by
  constructor
  · intro h
    unfold findField at h
    split at h
    · cases h
    · rename_i found hname
      split at h
      · cases h
        exact ⟨ofName?_eq_some_iff.1 hname, by assumption⟩
      · cases h
  · rintro ⟨hname, hmem⟩
    rw [findField, ofName?_eq_some_iff.2 hname]
    exact if_pos hmem

theorem findField_eq_error_iff {key : String} {mismatch : Mismatch} :
    findField missing key = .error mismatch ↔
      ((∀ field : Field, field.name ≠ key) ∧
        mismatch = .unknownField key (Field.all.map Field.name)) ∨
      ∃ field : Field, field.name = key ∧ field ∉ missing ∧ mismatch = .duplicateField key := by
  cases hname : Field.ofName? key with
  | none =>
    have hunknown : ∀ field : Field, field.name ≠ key := by
      intro field heq
      cases hname.symm.trans (ofName?_eq_some_iff.2 heq)
    rw [findField, hname]
    constructor
    · rintro ⟨⟩
      exact .inl ⟨hunknown, rfl⟩
    · rintro (⟨-, rfl⟩ | ⟨field, heq, -⟩)
      · rfl
      · exact absurd heq (hunknown field)
  | some field =>
    obtain rfl := ofName?_eq_some_iff.1 hname
    rw [findField, hname]
    dsimp only
    by_cases hmem : field ∈ missing
    · rw [if_pos hmem]
      constructor
      · rintro ⟨⟩
      · rintro (⟨hunknown, -⟩ | ⟨other, heq, hnot, -⟩)
        · exact absurd rfl (hunknown field)
        · exact absurd (Field.name_injective heq ▸ hmem) hnot
    · rw [if_neg hmem]
      constructor
      · rintro ⟨⟩
        exact .inr ⟨field, rfl, hmem, rfl⟩
      · rintro (⟨hunknown, -⟩ | ⟨other, -, -, rfl⟩)
        · exact absurd rfl (hunknown field)
        · rfl

theorem giveMember_eq_ok_iff {given : Settings} {left : List Field} {key : String} {value : Value} :
    giveMember (given, missing) (key, value) = .ok (s, left) ↔
      ∃ field : Field, field.name = key ∧ field ∈ missing ∧ given.give field value = .ok s ∧
        left = missing.erase field := by
  constructor
  · intro h
    rw [giveMember] at h
    cases hfield : findField missing key with
    | error mismatch =>
      rw [hfield] at h
      cases h
    | ok field =>
      rw [hfield] at h
      obtain ⟨other, hgive, heq⟩ := Json.exists_of_map_eq_ok h
      cases heq
      obtain ⟨hname, hmem⟩ := findField_eq_ok_iff.1 hfield
      exact ⟨field, hname, hmem, hgive, rfl⟩
  · rintro ⟨field, hname, hmem, hgive, rfl⟩
    rw [giveMember, findField_eq_ok_iff.2 ⟨hname, hmem⟩]
    simp only [Except.bind, hgive, Except.map]

theorem erase_unnamed {field : Field} {value : Value} :
    (unnamed members).erase field = unnamed (members ++ [(field.name, value)]) := by
  have hnodup : (unnamed members).Nodup := List.Nodup.filter _ (by decide)
  rw [hnodup.erase_eq_filter, unnamed, unnamed, List.filter_filter]
  congr 1
  funext other
  rw [Bool.eq_iff_iff, Bool.and_eq_true, bne_iff_ne, decide_eq_true_eq, decide_eq_true_eq,
    List.map_append, List.mem_append, not_or, and_comm]
  apply and_congr_right
  intro _
  rw [List.map_singleton, List.mem_singleton, Field.name_injective.eq_iff]

/-- An object is taken to its end if there are settings that it gives. -/
theorem foldlM_giveMember_eq_ok_iff :
    members.foldlM giveMember ({}, Field.all) = .ok (s, missing) ↔
      s.Overrides members ∧ missing = unnamed members := by
  induction members using List.reverseRecOn generalizing s missing with
  | nil =>
    rw [overrides_nil, unnamed]
    constructor
    · rintro ⟨⟩
      exact ⟨rfl, by decide⟩
    · rintro ⟨rfl, rfl⟩
      rfl
  | append_singleton members member ih =>
    obtain ⟨key, value⟩ := member
    rw [Json.foldlM_concat]
    constructor
    · intro h
      cases hbefore : members.foldlM giveMember ({}, Field.all) with
      | error mismatch =>
        rw [hbefore] at h
        cases h
      | ok reached =>
        obtain ⟨before, left⟩ := reached
        rw [hbefore] at h
        obtain ⟨hgiven, rfl⟩ := ih.1 hbefore
        obtain ⟨field, rfl, hmem, hgive, rfl⟩ := giveMember_eq_ok_iff.1 h
        exact ⟨hgiven.concat (mem_unnamed_iff.1 hmem) hgive, erase_unnamed⟩
    · rintro ⟨hgiven, rfl⟩
      obtain ⟨field, rfl, hnew, hbefore, hgive⟩ := hgiven.exists_of_concat
      rw [ih.2 ⟨hbefore, rfl⟩]
      exact giveMember_eq_ok_iff.2 ⟨field, rfl, mem_unnamed_iff.2 hnew, hgive, erase_unnamed.symm⟩

/-- An object is refused with its first mismatch. -/
theorem foldlM_giveMember_eq_error_iff {mismatch : Mismatch} :
    members.foldlM giveMember ({}, Field.all) = .error mismatch ↔
      FirstMismatch members mismatch := by
  rw [Json.foldlM_eq_error_iff]
  constructor
  · rintro ⟨before, ⟨key, value⟩, after, ⟨given, missing⟩, rfl, hbefore, hmember⟩
    obtain ⟨hgiven, rfl⟩ := foldlM_giveMember_eq_ok_iff.1 hbefore
    rw [giveMember] at hmember
    cases hfield : findField (unnamed before) key with
    | error e =>
      rw [hfield] at hmember
      cases hmember
      rcases findField_eq_error_iff.1 hfield with ⟨hunknown, rfl⟩ | ⟨field, rfl, hmem, rfl⟩
      · exact .unknown value after ⟨given, hgiven⟩ hunknown
      · exact .duplicate value after ⟨given, hgiven⟩
          (Decidable.not_not.1 fun hnot => hmem (mem_unnamed_iff.2 hnot))
    | ok field =>
      rw [hfield] at hmember
      obtain ⟨rfl, hmem⟩ := findField_eq_ok_iff.1 hfield
      exact .value after ⟨given, hgiven⟩ (mem_unnamed_iff.1 hmem)
        (give_eq_error_iff.1 (Json.map_eq_error_iff.1 hmember))
  · intro h
    cases h with
    | @unknown before key value after hbefore hkey =>
      obtain ⟨given, hgiven⟩ := hbefore
      refine ⟨before, (key, value), after, _, rfl, foldlM_giveMember_eq_ok_iff.2 ⟨hgiven, rfl⟩, ?_⟩
      rw [giveMember, findField_eq_error_iff.2 (.inl ⟨hkey, rfl⟩)]
      rfl
    | @duplicate before key value after hbefore hkey =>
      obtain ⟨given, hgiven⟩ := hbefore
      obtain ⟨member, hmember, rfl⟩ := List.mem_map.1 hkey
      obtain ⟨field, hfield⟩ := hgiven.known member hmember
      have hmem : field ∉ unnamed before := fun hmem => mem_unnamed_iff.1 hmem (hfield ▸ hkey)
      refine ⟨before, (member.1, value), after, _, rfl,
        foldlM_giveMember_eq_ok_iff.2 ⟨hgiven, rfl⟩, ?_⟩
      rw [giveMember, findField_eq_error_iff.2 (.inr ⟨field, hfield, hmem, rfl⟩)]
      rfl
    | @value before field value _ after hbefore hkey hvalue =>
      obtain ⟨given, hgiven⟩ := hbefore
      refine ⟨before, (field.name, value), after, _, rfl,
        foldlM_giveMember_eq_ok_iff.2 ⟨hgiven, rfl⟩, ?_⟩
      rw [giveMember, findField_eq_ok_iff.2 ⟨rfl, mem_unnamed_iff.2 hkey⟩]
      exact Json.map_eq_error_iff.2 (give_eq_error_iff.2 hvalue)

/-- The settings of an object, its members taken one after another. -/
def ofMembers (members : List (String × Value)) : Except Mismatch Settings :=
  (members.foldlM giveMember ({}, Field.all)).map Prod.fst

theorem ofMembers_eq_ok_iff : ofMembers members = .ok s ↔ s.Overrides members := by
  constructor
  · intro h
    obtain ⟨⟨given, missing⟩, hgiven, rfl⟩ := Json.exists_of_map_eq_ok h
    exact (foldlM_giveMember_eq_ok_iff.1 hgiven).1
  · intro h
    rw [ofMembers, foldlM_giveMember_eq_ok_iff.2 ⟨h, rfl⟩]
    rfl

theorem ofMembers_eq_error_iff {mismatch : Mismatch} :
    ofMembers members = .error mismatch ↔ FirstMismatch members mismatch :=
  Json.map_eq_error_iff.trans foldlM_giveMember_eq_error_iff

end Members

end LuaGlue.Settings
