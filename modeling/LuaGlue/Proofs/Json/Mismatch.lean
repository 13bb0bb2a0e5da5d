import LuaGlue.Proofs.Json.Value

namespace LuaGlue.Json

section FirstError

variable {α β ε σ : Type}

/-- A list is gone through up to the first error. -/
theorem mapM_cons_eq (f : α → Except ε β) (x : α) (xs : List α) :
    (x :: xs).mapM f = (f x).bind fun y => (xs.mapM f).map (y :: ·) := by
  rw [List.mapM_cons]
  cases f x with
  | error e => rfl
  | ok y =>
    change ((xs.mapM f).bind fun ys => .ok (y :: ys)) = (xs.mapM f).map (y :: ·)
    cases xs.mapM f <;> rfl

variable {f : α → Except ε β} {xs : List α} {ys : List β} {e : ε}

/-- If `f` has `g` as its inverse, so it is on lists. -/
theorem mapM_eq_ok_iff {g : β → α} (h : ∀ x y, f x = .ok y ↔ x = g y) :
    xs.mapM f = .ok ys ↔ xs = ys.map g := by
  induction xs generalizing ys with
  | nil =>
    rw [List.mapM_nil]
    constructor
    · rintro ⟨⟩
      rfl
    · intro hmap
      rw [List.map_eq_nil_iff.1 hmap.symm]
      rfl
  | cons x xs ih =>
    rw [mapM_cons_eq]
    cases hx : f x with
    | error e =>
      constructor
      · rintro ⟨⟩
      · intro hmap
        cases ys with
        | nil => cases hmap
        | cons y ys =>
          obtain ⟨hy, -⟩ := List.cons.inj hmap
          cases hx.symm.trans ((h x y).2 hy)
    | ok y =>
      constructor
      · intro hread
        obtain ⟨rest, hrest, rfl⟩ := exists_of_map_eq_ok hread
        rw [List.map_cons, ← (h x y).1 hx, ← ih.1 hrest]
      · intro hmap
        cases ys with
        | nil => cases hmap
        | cons z ys =>
          obtain ⟨hz, hys⟩ := List.cons.inj hmap
          cases hx.symm.trans ((h x z).2 hz)
          rw [Except.bind, ih.2 hys]
          rfl

theorem foldlM_concat (step : σ → α → Except ε σ) (state : σ) (xs : List α) (x : α) :
    (xs ++ [x]).foldlM step state = (xs.foldlM step state).bind fun reached => step reached x := by
  rw [List.foldlM_append]
  cases xs.foldlM step state with
  | error e => rfl
  | ok reached =>
    change (step reached x).bind .ok = step reached x
    cases step reached x <;> rfl

/-- An error of a fold is the one of its first element that has one. -/
theorem foldlM_eq_error_iff {step : σ → α → Except ε σ} {state : σ} :
    xs.foldlM step state = .error e ↔
      ∃ before x after reached, xs = before ++ x :: after ∧
        before.foldlM step state = .ok reached ∧ step reached x = .error e := by
  induction xs generalizing state with
  | nil =>
    constructor
    · rintro ⟨⟩
    · rintro ⟨before, x, after, -, hnil, -⟩
      cases before <;> cases hnil
  | cons x xs ih =>
    rw [List.foldlM_cons]
    cases hx : step state x with
    | error e' =>
      constructor
      · rintro ⟨⟩
        exact ⟨[], x, xs, state, rfl, rfl, hx⟩
      · rintro ⟨before, z, after, reached, heq, hbefore, hz⟩
        cases before with
        | nil =>
          obtain ⟨rfl, -⟩ := List.cons.inj heq
          cases hbefore
          exact hx.symm.trans hz
        | cons w before =>
          obtain ⟨rfl, -⟩ := List.cons.inj heq
          rw [List.foldlM_cons, hx] at hbefore
          cases hbefore
    | ok next =>
      refine Iff.trans ih ?_
      constructor
      · rintro ⟨before, z, after, reached, rfl, hbefore, hz⟩
        refine ⟨x :: before, z, after, reached, rfl, ?_, hz⟩
        rw [List.foldlM_cons, hx]
        exact hbefore
      · rintro ⟨before, z, after, reached, heq, hbefore, hz⟩
        cases before with
        | nil =>
          obtain ⟨rfl, -⟩ := List.cons.inj heq
          cases hbefore
          cases hx.symm.trans hz
        | cons w before =>
          obtain ⟨rfl, rfl⟩ := List.cons.inj heq
          rw [List.foldlM_cons, hx] at hbefore
          exact ⟨before, z, after, reached, rfl, hbefore, hz⟩

theorem map_eq_error_iff {x : Except ε α} {g : α → β} : x.map g = .error e ↔ x = .error e := by
  cases x with
  | error e' =>
    exact ⟨fun h => congrArg _ (Except.error.inj h), fun h => congrArg _ (Except.error.inj h)⟩
  | ok a => exact ⟨nofun, nofun⟩

theorem foldlM_concat_eq (xs : List α) (ys : List β) :
    xs.foldlM (fun ys x => (f x).map (ys ++ [·])) ys = (xs.mapM f).map (ys ++ ·) := by
  induction xs generalizing ys with
  | nil => exact congrArg Except.ok (List.append_nil ys).symm
  | cons x xs ih =>
    rw [List.foldlM_cons, mapM_cons_eq]
    cases f x with
    | error e => rfl
    | ok y =>
      refine (ih (ys ++ [y])).trans ?_
      rw [Except.bind]
      cases xs.mapM f with
      | error e => rfl
      | ok rest => exact congrArg Except.ok (List.append_assoc ys [y] rest)

theorem mapM_eq_error_iff :
    xs.mapM f = .error e ↔
      ∃ before x after ys, xs = before ++ x :: after ∧ before.mapM f = .ok ys ∧ f x = .error e := by
  have hfold : ∀ xs : List α,
      xs.foldlM (fun ys x => (f x).map (ys ++ [·])) [] = xs.mapM f := by
    intro xs
    rw [foldlM_concat_eq]
    cases xs.mapM f <;> rfl
  rw [← hfold, foldlM_eq_error_iff]
  simp only [hfold, map_eq_error_iff]

end FirstError

namespace Value

def asText : Value → Except Mismatch String
  | text value => .ok value
  | value => .error (.shape value.shape .text)

def asTexts : Value → Except Mismatch (List String)
  | list items => items.mapM asText
  | value => .error (.shape value.shape .list)

def asPair (member : String × Value) : Except Mismatch (String × String) :=
  member.2.asText.map (member.1, ·)

def asPairs : Value → Except Mismatch (List (String × String))
  | object members => members.mapM asPair
  | value => .error (.shape value.shape .object)

/-- The member of an object of strings. -/
def ofPair (pair : String × String) : String × Value :=
  (pair.1, .text pair.2)

/-- Why a value is no string. -/
inductive NotText : Value → Mismatch → Prop
  | intro {value : Value} (h : ∀ t, value ≠ .text t) : NotText value (.shape value.shape .text)

/-- Why a value is no list of strings: its first item that is none. -/
inductive NotTexts : Value → Mismatch → Prop
  | shape {value : Value} (h : ∀ items, value ≠ .list items) :
      NotTexts value (.shape value.shape .list)
  | item (before : List String) {item : Value} {mismatch : Mismatch} (h : item.NotText mismatch)
      (after : List Value) : NotTexts (.list (before.map .text ++ item :: after)) mismatch

/-- Why a value is no object of strings: its first member that has none. -/
inductive NotPairs : Value → Mismatch → Prop
  | shape {value : Value} (h : ∀ members, value ≠ .object members) :
      NotPairs value (.shape value.shape .object)
  | member (before : List (String × String)) (key : String) {target : Value} {mismatch : Mismatch}
      (h : target.NotText mismatch) (after : List (String × Value)) :
      NotPairs (.object (before.map ofPair ++ (key, target) :: after)) mismatch

variable {value : Value} {mismatch : Mismatch}

theorem asText_eq_ok_iff (value : Value) (t : String) : value.asText = .ok t ↔ value = .text t := by
  constructor
  · intro h
    unfold asText at h
    split at h <;> cases h
    rfl
  · rintro rfl
    rfl

theorem asText_eq_error_iff : value.asText = .error mismatch ↔ value.NotText mismatch := by
  constructor
  · intro h
    unfold asText at h
    split at h
    · cases h
    · rename_i hnot
      cases h
      exact .intro hnot
  · rintro ⟨h⟩
    unfold asText
    split
    · exact absurd rfl (h _)
    · rfl

theorem asPair_eq_ok_iff (member : String × Value) (pair : String × String) :
    asPair member = .ok pair ↔ member = ofPair pair := by
  obtain ⟨key, value⟩ := member
  constructor
  · intro h
    obtain ⟨target, htarget, rfl⟩ := exists_of_map_eq_ok h
    rw [ofPair, ← (asText_eq_ok_iff value target).1 htarget]
  · rintro ⟨⟩
    rfl

theorem asTexts_eq_ok_iff {texts : List String} :
    value.asTexts = .ok texts ↔ value = .list (texts.map .text) := by
  constructor
  · intro h
    unfold asTexts at h
    split at h
    · rw [(mapM_eq_ok_iff asText_eq_ok_iff).1 h]
    · cases h
  · rintro rfl
    exact (mapM_eq_ok_iff asText_eq_ok_iff).2 rfl

theorem asPairs_eq_ok_iff {pairs : List (String × String)} :
    value.asPairs = .ok pairs ↔ value = .object (pairs.map ofPair) := by
  constructor
  · intro h
    unfold asPairs at h
    split at h
    · rw [(mapM_eq_ok_iff asPair_eq_ok_iff).1 h]
    · cases h
  · rintro rfl
    exact (mapM_eq_ok_iff asPair_eq_ok_iff).2 rfl

theorem asTexts_eq_error_iff : value.asTexts = .error mismatch ↔ value.NotTexts mismatch := by
  constructor
  · intro h
    unfold asTexts at h
    split at h
    · obtain ⟨before, item, after, texts, rfl, hbefore, hitem⟩ := mapM_eq_error_iff.1 h
      rw [(mapM_eq_ok_iff asText_eq_ok_iff).1 hbefore]
      exact .item texts (asText_eq_error_iff.1 hitem) after
    · rename_i hnot
      cases h
      exact .shape hnot
  · intro h
    cases h with
    | shape h =>
      unfold asTexts
      split
      · exact absurd rfl (h _)
      · rfl
    | item before h after =>
      exact mapM_eq_error_iff.2 ⟨_, _, after, before, rfl,
        (mapM_eq_ok_iff asText_eq_ok_iff).2 rfl, asText_eq_error_iff.2 h⟩

theorem asPairs_eq_error_iff : value.asPairs = .error mismatch ↔ value.NotPairs mismatch := by
  constructor
  · intro h
    unfold asPairs at h
    split at h
    · obtain ⟨before, ⟨key, target⟩, after, pairs, rfl, hbefore, hmember⟩ :=
        mapM_eq_error_iff.1 h
      rw [(mapM_eq_ok_iff asPair_eq_ok_iff).1 hbefore]
      exact .member pairs key (asText_eq_error_iff.1 (map_eq_error_iff.1 hmember)) after
    · rename_i hnot
      cases h
      exact .shape hnot
  · intro h
    cases h with
    | shape h =>
      unfold asPairs
      split
      · exact absurd rfl (h _)
      · rfl
    | member before key h after =>
      exact mapM_eq_error_iff.2 ⟨_, _, after, before, rfl,
        (mapM_eq_ok_iff asPair_eq_ok_iff).2 rfl,
        map_eq_error_iff.2 (asText_eq_error_iff.2 h)⟩

end Value

end LuaGlue.Json
