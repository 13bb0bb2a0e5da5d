import LuaGlue.AliasTable.Json
import LuaGlue.Proofs.Json.Finding
import LuaGlue.Proofs.Text.ByteOrder

namespace LuaGlue

namespace Json

variable {isFirst : Bool} {text : List Char}

/-- However the pairs of an object of strings are laid out, they are its members. -/
theorem membersWritten_of_laidOut {pairs : List (String × String)}
    (h : LaidOut (closedRows '\x7d' isFirst
      (pairs.map fun pair => fieldPieces pair.1 [.text pair.2])) text) :
    MembersWritten isFirst (pairs.map Value.ofPair) text := by
  induction pairs generalizing isFirst text with
  | nil =>
    obtain ⟨blanks, inner, rfl, hblanks, h⟩ := h.exists_of_mark
    cases h
    exact .nil hblanks
  | cons pair rest ih =>
    obtain ⟨lead, inner, behind, rfl, hlead, hrow, hrows⟩ := h.exists_of_rows
    obtain ⟨before, inner, rfl, hbefore, hrow⟩ := hrow.exists_of_mark
    obtain ⟨blanks, inner, rfl, hblanks, hrow⟩ := hrow.exists_of_text
    cases hrow
    have hvalue : Written (.text pair.2) ('"' :: quoted pair.2.toList) :=
      .text (spelledOut_quoted _)
    have hmember := MembersWritten.cons hlead (spelledOut_quoted pair.1.toList) hbefore hblanks
      hvalue (ih hrows)
    simp only [List.append_assoc, List.cons_append, List.nil_append] at hmember ⊢
    exact hmember

theorem document_of_pairs (pairs : List (String × String)) :
    Document (.object (pairs.map Value.ofPair))
      (compact (objectPieces (pairs.map fun pair => fieldPieces pair.1 [.text pair.2]))) := by
  have hlaid := laidOut_compact
    (objectPieces (pairs.map fun pair => fieldPieces pair.1 [.text pair.2]))
  generalize compact _ = text at *
  rw [objectPieces, List.cons_append, separated_append] at hlaid
  obtain ⟨blanks, inner, htext, hblanks, h⟩ := hlaid.exists_of_mark
  refine ⟨blanks, '\x7b' :: inner, [], ?_, hblanks, .object (membersWritten_of_laidOut h),
    List.forall_mem_nil _⟩
  rw [htext, List.append_nil]

end Json

namespace AliasTable

open Json

/-- The last alias for a type among those that came one after the other. -/
def Latest (history : List (String × String)) (type target : String) : Prop :=
  ∃ before behind, history = before ++ (type, target) :: behind ∧ ∀ entry ∈ behind, entry.1 ≠ type

/-- A table is made by the aliases that it got, in their order. It starts as the standard one or is
read from an object of strings, and further aliases are inserted one by one. -/
inductive Made : List (String × String) → AliasTable → Prop
  | standard :
      Made [("int", "lua_Integer"), ("bool", "lua_Integer"), ("double", "lua_Number")] standard
  | read {aliases : List (String × String)} {text : String} {table : AliasTable}
      (h : Document (.object (aliases.map Value.ofPair)) text) (hread : ofJson text = .ok table) :
      Made aliases table
  | insert {history : List (String × String)} {table : AliasTable} (h : Made history table)
      (key target : String) : Made (history ++ [(key, target)]) (table.insert key target)

variable {history others : List (String × String)} {table other : AliasTable}
  {text type target : String}

theorem latest_iff_lookup :
    Latest history type target ↔ history.reverse.lookup type = some target := by
  rw [List.lookup_eq_some_iff]
  constructor
  · rintro ⟨before, behind, rfl, hbehind⟩
    refine ⟨behind.reverse, before.reverse, by simp, fun entry hentry => ?_⟩
    exact bne_iff_ne.2 (hbehind entry (List.mem_reverse.1 hentry)).symm
  · rintro ⟨behind, before, hreverse, hbehind⟩
    refine ⟨before.reverse, behind.reverse, ?_, fun entry hentry => ?_⟩
    · rw [← List.reverse_reverse history, hreverse]
      simp
    · exact (bne_iff_ne.1 (hbehind entry (List.mem_reverse.1 hentry))).symm

/-- Aliases for other types are not looked at. -/
theorem lookup_filter_key (entries : List (String × String)) (type : String) :
    (entries.filter fun entry => entry.1 = type).lookup type = entries.lookup type := by
  induction entries with
  | nil => rfl
  | cons entry rest ih =>
    rw [List.filter_cons]
    by_cases h : entry.1 = type
    · rw [if_pos (decide_eq_true h), List.lookup_cons, List.lookup_cons, h, beq_self_eq_true]
    · rw [if_neg (by simpa using h), List.lookup_cons, beq_eq_false_iff_ne.2 (Ne.symm h)]
      exact ih

theorem ofJson_pairs (h : Document (.object (history.map Value.ofPair)) text) :
    ofJson text = .ok (ofList history) := by
  obtain ⟨before, cs, behind, htext, hbefore, hwritten, hbehind⟩ := h
  have hfound := (finds_readObject hwritten hbefore).map ofList
  rw [Value.asPairs_eq_ok_iff.2 rfl] at hfound
  rw [ofJson, htext, ← List.append_assoc]
  exact finish_finds hfound hbehind

theorem document_toJson (table : AliasTable) :
    Document (.object (table.entries.map Value.ofPair)) table.toJson :=
  document_of_pairs table.entries

theorem ofJson_toJson_eq (table : AliasTable) : ofJson table.toJson = .ok table := by
  rw [ofJson_pairs (document_toJson table), ofList_entries]

theorem toJson_inj : table.toJson = other.toJson ↔ table = other := by
  refine ⟨fun h => ?_, congrArg toJson⟩
  have hread := ofJson_toJson_eq table
  rw [h, ofJson_toJson_eq] at hread
  exact (Except.ok.inj hread).symm

theorem insert_comm (table : AliasTable) {key key' : String} (hne : key ≠ key')
    (target target' : String) :
    (table.insert key target).insert key' target' =
      (table.insert key' target').insert key target := by
  apply ext_lookup
  intro type
  simp only [insert, lookup_insertSorted]
  by_cases hkey : type = key
  · have hkey' : type ≠ key' := hkey ▸ hne
    rw [if_pos hkey, if_pos hkey, if_neg hkey']
  · rw [if_neg hkey, if_neg hkey]

theorem Made.eq_ofList (h : Made history table) : table = ofList history := by
  induction h with
  | standard => rfl
  | read h hread => exact Except.ok.inj (hread.symm.trans (ofJson_pairs h))
  | insert h key target ih =>
    rw [ih, ofList, ofList, List.foldl_append]
    rfl

theorem mem_entries_iff (h : Made history table) :
    (type, target) ∈ table.entries ↔ Latest history type target := by
  rw [latest_iff_lookup, mem_iff_lookup_eq_some table.sorted, h.eq_ofList, lookup_ofList]

theorem resolve_eq_iff (h : Made history table) :
    table.resolve type = target ↔
      Latest history type target ∨ (∀ entry ∈ history, entry.1 ≠ type) ∧ target = type := by
  have hnone : history.reverse.lookup type = none ↔ ∀ entry ∈ history, entry.1 ≠ type := by
    simp only [List.lookup_eq_none_iff, List.mem_reverse, bne_iff_ne, ne_comm]
  rw [latest_iff_lookup, ← hnone, resolve, h.eq_ofList, lookup_ofList]
  cases history.reverse.lookup type with
  | none => simp [eq_comm]
  | some found => simp

theorem sorted_bytes (table : AliasTable) :
    table.entries.Pairwise fun first second => Text.bytes first.1 < Text.bytes second.1 :=
  table.sorted.imp Text.bytes_lt_iff.2

/-- What a table has for a type depends on the aliases for this type alone. -/
theorem resolve_congr (h : Made history table) (hother : Made others other)
    (hsame : (history.filter fun entry => entry.1 = type) =
      others.filter fun entry => entry.1 = type) :
    table.resolve type = other.resolve type := by
  have hlookup : history.reverse.lookup type = others.reverse.lookup type := by
    rw [← lookup_filter_key, List.filter_reverse, hsame, ← List.filter_reverse, lookup_filter_key]
  rw [resolve, resolve, h.eq_ofList, hother.eq_ofList, lookup_ofList, lookup_ofList, hlookup]

theorem eq_iff_latest (h : Made history table) (hother : Made others other) :
    table = other ↔ ∀ type target, Latest history type target ↔ Latest others type target := by
  refine ⟨?_, fun hsame => ext_lookup fun type => Option.ext fun target => ?_⟩
  · rintro rfl type target
    rw [← mem_entries_iff h, mem_entries_iff hother]
  · rw [h.eq_ofList, hother.eq_ofList, lookup_ofList, lookup_ofList]
    simp only [latest_iff_lookup] at hsame
    exact hsame type target

/-- Every object of strings is read as a table. A table, with whatever history, has for each type
the last target that it got, and the type itself if it got none; aliases for other types do not
matter. Its text is a JSON object that has each of the types once, strictly ordered by their bytes,
with these targets. So tables have the same text exactly if they hold the same aliases, which they do if
they got the same last ones, in whatever order. The text is read as a table that has the same for
each type. -/
theorem canonical_of_history :
    (∀ (aliases : List (String × String)) text, Document (.object (aliases.map Value.ofPair)) text →
      ∃ table, ofJson text = .ok table) ∧
    ∀ history table, Made history table →
      (∀ type target, table.resolve type = target ↔
        Latest history type target ∨ (∀ entry ∈ history, entry.1 ≠ type) ∧ target = type) ∧
      Document (.object (table.entries.map Value.ofPair)) table.toJson ∧
      (table.entries.Pairwise fun first second => Text.bytes first.1 < Text.bytes second.1) ∧
      (∀ type target, (type, target) ∈ table.entries ↔ Latest history type target) ∧
      (∀ key target key' target', key ≠ key' →
        ((table.insert key target).insert key' target').toJson =
          ((table.insert key' target').insert key target).toJson) ∧
      (∃ again, ofJson table.toJson = .ok again ∧ ∀ type, again.resolve type = table.resolve type) ∧
      ∀ others other, Made others other →
        (∀ type, (history.filter fun entry => entry.1 = type) =
            others.filter (fun entry => entry.1 = type) →
          table.resolve type = other.resolve type) ∧
        ((∀ type target, Latest history type target ↔ Latest others type target) →
          table.toJson = other.toJson) ∧
        (table.toJson = other.toJson ↔ ∀ entry, entry ∈ table.entries ↔ entry ∈ other.entries) := by
  refine ⟨fun aliases text h => ⟨_, ofJson_pairs h⟩, fun history table h =>
    ⟨fun _ _ => resolve_eq_iff h, document_toJson table, sorted_bytes table,
      fun _ _ => mem_entries_iff h, fun _ _ _ _ hne => congrArg toJson (insert_comm table hne _ _),
      ⟨table, ofJson_toJson_eq table, fun _ => rfl⟩, fun others other hother =>
      ⟨fun _ => resolve_congr h hother, fun hsame => ?_, ?_⟩⟩⟩
  · exact congrArg toJson ((eq_iff_latest h hother).2 hsame)
  · rw [toJson_inj, eq_iff_latest h hother]
    simp only [Prod.forall, mem_entries_iff h, mem_entries_iff hother]

/-- A type is given twice in the text, a target is a type itself, and of the types that are inserted
the one with the smaller first byte comes first. -/
theorem canonical_of_history_repeated_type :
    Made [("b", "x"), ("a", "b"), ("b", "c"), ("😀", "1")]
      ((ofList [("b", "x"), ("a", "b"), ("b", "c")]).insert "😀" "1") ∧
    ((ofList [("b", "x"), ("a", "b"), ("b", "c")]).insert "😀" "1").resolve "a" = "b" ∧
    ((ofList [("b", "x"), ("a", "b"), ("b", "c")]).insert "😀" "1").resolve "b" = "c" ∧
    ((ofList [("b", "x"), ("a", "b"), ("b", "c")]).insert "😀" "1").resolve "c" = "c" ∧
    (((ofList [("b", "x"), ("a", "b"), ("b", "c")]).insert "ﬀ" "2").insert "😀" "1").toJson =
      "\x7b\"a\":\"b\",\"b\":\"c\",\"ﬀ\":\"2\",\"😀\":\"1\"\x7d" ∧
    (((ofList [("b", "x"), ("a", "b"), ("b", "c")]).insert "😀" "1").insert "ﬀ" "2").toJson =
      "\x7b\"a\":\"b\",\"b\":\"c\",\"ﬀ\":\"2\",\"😀\":\"1\"\x7d" := by
  have hnone : Blanks [] := by decide
  have hspace : Blanks [' '] := by decide
  have hdocument : Document (.object ([("b", "x"), ("a", "b"), ("b", "c")].map Value.ofPair))
      "\x7b\"b\":\"x\", \"a\":\"b\",\"b\":\"c\"\x7d" :=
    document_of_written (.object (.cons (.first hnone) (spelledOut_quoted _) hnone hnone
      (written_quote "x") (.cons (.comma hnone hspace) (spelledOut_quoted _) hnone hnone
        (written_quote "b") (.cons (.comma hnone hnone) (spelledOut_quoted _) hnone hnone
          (written_quote "c") (.nil hnone))))) (by decide +kernel)
  obtain ⟨hread, hmade⟩ := canonical_of_history
  obtain ⟨start, hstart⟩ := hread _ _ hdocument
  have hfirst := Made.read hdocument hstart
  have heq : start = ofList [("b", "x"), ("a", "b"), ("b", "c")] := hfirst.eq_ofList
  subst heq
  have hinserted := hfirst.insert "😀" "1"
  obtain ⟨-, -, -, -, hcomm, -⟩ := hmade _ _ hfirst
  obtain ⟨hresolve, -⟩ := hmade _ _ hinserted
  have hdump :
      (((ofList [("b", "x"), ("a", "b"), ("b", "c")]).insert "ﬀ" "2").insert "😀" "1").toJson =
        "\x7b\"a\":\"b\",\"b\":\"c\",\"ﬀ\":\"2\",\"😀\":\"1\"\x7d" := by
    decide +kernel
  refine ⟨hinserted,
    (hresolve _ _).2 (.inl ⟨[("b", "x")], [("b", "c"), ("😀", "1")], rfl, by decide⟩),
    (hresolve _ _).2 (.inl ⟨[("b", "x"), ("a", "b")], [("😀", "1")], rfl, by decide⟩),
    (hresolve _ _).2 (.inr ⟨by decide, rfl⟩), hdump, ?_⟩
  exact (hcomm "😀" "1" "ﬀ" "2" (by decide)).trans hdump

end AliasTable

end LuaGlue
