import LuaGlue.Json.Basic
import LuaGlue.Json.Shape

namespace LuaGlue.Json

/-- Reads a string as a value. Like all readers it stops at the first problem of the text. -/
def readText (cs : List Char) : Except Error (String × List Char) :=
  match skipBlanks cs with
  | [] => .error .truncated
  | '"' :: rest => (unquote rest).map fun (text, rest) => (String.ofList text, rest)
  | rest => .error (refuse .text rest)

theorem length_lt_of_unquote {cs rest text : List Char}
    (h : unquote cs = .ok (text, rest)) : rest.length < cs.length := by
  fun_induction unquote cs generalizing text with
  | case1 => cases h
  | case2 => cases h; simp
  | case3 => cases h
  | case4 behind c after hescape ih =>
    have hlt := length_lt_of_unescape hescape
    obtain ⟨⟨inner, rest⟩, hread, heq⟩ := exists_of_map_eq_ok h
    cases heq
    have := ih hread
    simp only [List.length_cons]
    omega
  | case5 => cases h
  | case6 c behind _ _ _ ih =>
    obtain ⟨⟨inner, rest⟩, hread, heq⟩ := exists_of_map_eq_ok h
    cases heq
    exact Nat.lt_succ_of_lt (ih hread)

theorem length_lt_of_readText {cs rest : List Char} {text : String}
    (h : readText cs = .ok (text, rest)) : rest.length < cs.length := by
  have hcs := length_skipBlanks_le cs
  unfold readText at h
  split at h
  · cases h
  · rename_i behind heq
    rw [heq] at hcs
    obtain ⟨⟨inner, rest⟩, hread, heq⟩ := exists_of_map_eq_ok h
    cases heq
    exact Nat.lt_trans (length_lt_of_unquote hread) hcs
  · cases h

/-- Reads the items of a list of strings, from behind its opening bracket. -/
def readItems (isFirst : Bool) (cs : List Char) : Except Error (List String × List Char) :=
  match _ : turn ']' isFirst cs with
  | .error e => .error e
  | .ok (.done rest) => .ok ([], rest)
  | .ok (.item item) =>
    match _ : readText item with
    | .error e => .error e
    | .ok (text, rest) => (readItems false rest).map fun (texts, rest) => (text :: texts, rest)
termination_by cs.length
decreasing_by
  have := length_item_le ‹turn ']' isFirst cs = .ok (.item item)›
  have := length_lt_of_readText ‹readText item = .ok (text, rest)›
  omega

def readList (cs : List Char) : Except Error (List String × List Char) :=
  match skipBlanks cs with
  | [] => .error .truncated
  | '[' :: rest => readItems true rest
  | rest => .error (refuse .list rest)

/-- Reads a key. Nothing but a string can be one. -/
def readKey (cs : List Char) : Except Error (String × List Char) :=
  match cs with
  | '"' :: rest => (unquote rest).map fun (text, rest) => (String.ofList text, rest)
  | _ => .error .malformed

theorem length_lt_of_readKey {cs rest : List Char} {key : String}
    (h : readKey cs = .ok (key, rest)) : rest.length < cs.length := by
  unfold readKey at h
  split at h
  · obtain ⟨⟨inner, rest⟩, hread, heq⟩ := exists_of_map_eq_ok h
    cases heq
    exact Nat.lt_succ_of_lt (length_lt_of_unquote hread)
  · cases h

/-- Reads the colon and the string behind a key. -/
def readTarget (cs : List Char) : Except Error (String × List Char) :=
  match colon cs with
  | .error e => .error e
  | .ok rest => readText rest

theorem length_lt_of_readTarget {cs rest : List Char} {text : String}
    (h : readTarget cs = .ok (text, rest)) : rest.length < cs.length := by
  unfold readTarget at h
  split at h
  · cases h
  · rename_i hcolon
    have := length_lt_of_colon hcolon
    have := length_lt_of_readText h
    omega

/-- Reads the pairs of an object of strings, from behind its opening brace. -/
def readPairs (isFirst : Bool) (cs : List Char) :
    Except Error (List (String × String) × List Char) :=
  match _ : turn '\x7d' isFirst cs with
  | .error e => .error e
  | .ok (.done rest) => .ok ([], rest)
  | .ok (.item item) =>
    match _ : readKey item with
    | .error e => .error e
    | .ok (key, behind) =>
      match _ : readTarget behind with
      | .error e => .error e
      | .ok (target, rest) =>
        (readPairs false rest).map fun (pairs, rest) => ((key, target) :: pairs, rest)
termination_by cs.length
decreasing_by
  have := length_item_le ‹turn '\x7d' isFirst cs = .ok (.item item)›
  have := length_lt_of_readKey ‹readKey item = .ok (key, behind)›
  have := length_lt_of_readTarget ‹readTarget behind = .ok (target, rest)›
  omega

/-- Reads an object of strings as pairs in the order of the text. -/
def readObject (cs : List Char) : Except Error (List (String × String) × List Char) :=
  match skipBlanks cs with
  | [] => .error .truncated
  | '\x7b' :: rest => readPairs true rest
  | rest => .error (refuse .object rest)

/-- Behind a whole text there may only be blanks. -/
def finish {α : Type} : Except Error (α × List Char) → Except Error α
  | .error e => .error e
  | .ok (value, rest) => if (skipBlanks rest).isEmpty then .ok value else .error .malformed

end LuaGlue.Json
