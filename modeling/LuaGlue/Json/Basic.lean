import LuaGlue.Json.Error

namespace LuaGlue.Json

theorem exists_of_map_eq_ok {ε α β : Type} {f : α → β} {x : Except ε α} {y : β}
    (h : x.map f = .ok y) : ∃ a, x = .ok a ∧ f a = y := by
  cases x with
  | error e => cases h
  | ok a => exact ⟨a, rfl, Except.ok.inj h⟩

/-- Space, tab, line feed and carriage return may stand between the parts of a JSON text. -/
def isBlank (c : Char) : Bool :=
  c = ' ' || c = '\t' || c = '\n' || c = '\r'

def skipBlanks (cs : List Char) : List Char :=
  cs.dropWhile isBlank

theorem length_skipBlanks_le (cs : List Char) : (skipBlanks cs).length ≤ cs.length :=
  (List.dropWhile_sublist isBlank).length_le

/-- Where the next part of a list or an object is: behind its end, or at one more item. -/
inductive Turn where
  | done (rest : List Char)
  | item (rest : List Char)

/-- Finds the next item, given the closing mark and whether an item came before. Between two items
stands one comma, and none before the end. -/
def turn (close : Char) (isFirst : Bool) (cs : List Char) : Except Error Turn :=
  match skipBlanks cs with
  | [] => .error .truncated
  | c :: rest =>
    if c = close then .ok (.done rest)
    else if isFirst then .ok (.item (c :: rest))
    else if c = ',' then
      match skipBlanks rest with
      | [] => .error .truncated
      | c :: rest => if c = close then .error .malformed else .ok (.item (c :: rest))
    else .error .malformed

theorem length_item_le {close : Char} {isFirst : Bool} {cs rest : List Char}
    (h : turn close isFirst cs = .ok (.item rest)) : rest.length ≤ cs.length := by
  have hcs := length_skipBlanks_le cs
  unfold turn at h
  split at h
  · cases h
  · rename_i c behind heq
    rw [heq] at hcs
    split at h
    · cases h
    split at h
    · cases h
      exact hcs
    split at h
    · have hbehind := length_skipBlanks_le behind
      split at h
      · cases h
      · rename_i heq'
        rw [heq'] at hbehind
        split at h
        · cases h
        · cases h
          simp only [List.length_cons] at *
          omega
    · cases h

/-- Passes the colon behind a key. -/
def colon (cs : List Char) : Except Error (List Char) :=
  match skipBlanks cs with
  | [] => .error .truncated
  | ':' :: rest => .ok rest
  | _ => .error .malformed

theorem length_lt_of_colon {cs rest : List Char} (h : colon cs = .ok rest) :
    rest.length < cs.length := by
  have hcs := length_skipBlanks_le cs
  unfold colon at h
  split at h
  · cases h
  · rename_i heq
    cases h
    rw [heq] at hcs
    exact hcs
  · cases h

end LuaGlue.Json
