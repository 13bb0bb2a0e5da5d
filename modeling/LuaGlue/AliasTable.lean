namespace LuaGlue

/-- The types of the marshaling layer that stand for types of a description, strictly sorted by
their keys: no key occurs twice, and two tables with the same aliases are equal. -/
structure AliasTable where
  entries : List (String × String) := []
  sorted : entries.Pairwise (fun a b => a.1 < b.1) := by simp
  deriving DecidableEq

namespace AliasTable

/-- Puts an alias at its place, over one that has the same key. -/
def insertSorted (key target : String) : List (String × String) → List (String × String)
  | [] => [(key, target)]
  | (k, t) :: rest =>
    if key < k then (key, target) :: (k, t) :: rest
    else if key = k then (key, target) :: rest
    else (k, t) :: insertSorted key target rest

theorem mem_insertSorted {key target : String} {entries : List (String × String)}
    {entry : String × String} (h : entry ∈ insertSorted key target entries) :
    entry = (key, target) ∨ entry ∈ entries := by
  fun_induction insertSorted key target entries with
  | case1 => simpa using h
  | case2 => simpa using h
  | case3 =>
    rcases List.mem_cons.1 h with h | h
    · exact .inl h
    · exact .inr (List.mem_cons_of_mem _ h)
  | case4 k t rest _ _ ih =>
    rcases List.mem_cons.1 h with h | h
    · exact .inr (h ▸ List.mem_cons_self)
    · rcases ih h with h | h
      · exact .inl h
      · exact .inr (List.mem_cons_of_mem _ h)

theorem sorted_insertSorted (key target : String) {entries : List (String × String)}
    (h : entries.Pairwise (fun a b => a.1 < b.1)) :
    (insertSorted key target entries).Pairwise (fun a b => a.1 < b.1) := by
  fun_induction insertSorted key target entries with
  | case1 => simp
  | case2 k t rest hlt =>
    refine List.Pairwise.cons ?_ h
    intro entry hentry
    rcases List.mem_cons.1 hentry with rfl | hentry
    · exact hlt
    · exact String.lt_trans hlt (List.rel_of_pairwise_cons h hentry)
  | case3 t rest _ =>
    exact List.Pairwise.cons (fun entry hentry => List.rel_of_pairwise_cons h hentry) h.of_cons
  | case4 k t rest hlt hne ih =>
    refine List.Pairwise.cons ?_ (ih h.of_cons)
    intro entry hentry
    rcases mem_insertSorted hentry with rfl | hentry
    · exact Std.lt_of_le_of_ne hlt (Ne.symm hne)
    · exact List.rel_of_pairwise_cons h hentry

/-- Insertion changes the target of its own key and of no other. -/
theorem lookup_insertSorted (key target type : String) (entries : List (String × String)) :
    (insertSorted key target entries).lookup type =
      if type = key then some target else entries.lookup type := by
  fun_induction insertSorted key target entries <;> grind

def insert (table : AliasTable) (key target : String) : AliasTable where
  entries := insertSorted key target table.entries
  sorted := sorted_insertSorted key target table.sorted

/-- The table of a list of aliases, of which later ones win. -/
def ofList (aliases : List (String × String)) : AliasTable :=
  aliases.foldl (fun table entry => table.insert entry.1 entry.2) {}

theorem insertSorted_of_lt {key : String} {entries : List (String × String)}
    (h : ∀ entry ∈ entries, entry.1 < key) (target : String) :
    insertSorted key target entries = entries ++ [(key, target)] := by
  induction entries with
  | nil => rfl
  | cons entry rest ih =>
    have hlt := h entry List.mem_cons_self
    have hnotLt : ¬ key < entry.1 := fun hgt =>
      String.lt_irrefl key (String.lt_trans hgt hlt)
    have hne : key ≠ entry.1 := by
      rintro rfl
      exact String.lt_irrefl _ hlt
    rw [insertSorted, if_neg hnotLt, if_neg hne,
      ih fun other hother => h other (List.mem_cons_of_mem _ hother), List.cons_append]

/-- Aliases that come behind all those of a table are put at its end, in their order. -/
theorem entries_foldl_insert (table : AliasTable) (more : List (String × String))
    (h : (table.entries ++ more).Pairwise fun a b => a.1 < b.1) :
    (more.foldl (fun table entry => table.insert entry.1 entry.2) table).entries =
      table.entries ++ more := by
  induction more generalizing table with
  | nil => rw [List.foldl_nil, List.append_nil]
  | cons entry rest ih =>
    have hbefore : ∀ other ∈ table.entries, other.1 < entry.1 := by
      intro other hother
      exact (List.pairwise_append.1 h).2.2 other hother entry List.mem_cons_self
    have hinsert : (table.insert entry.1 entry.2).entries = table.entries ++ [entry] :=
      insertSorted_of_lt hbefore entry.2
    rw [List.append_cons, ← hinsert] at h
    rw [List.foldl_cons, ih _ h, hinsert, ← List.append_cons]

theorem ofList_entries (table : AliasTable) : ofList table.entries = table := by
  have hentries : (ofList table.entries).entries = table.entries :=
    entries_foldl_insert { entries := [] } table.entries table.sorted
  obtain ⟨entries, hsorted⟩ := table
  cases hread : ofList entries with
  | mk other hother =>
    rw [hread] at hentries
    cases hentries
    rfl

/-- Of several aliases for a type the last one is in the table. -/
theorem lookup_ofList (aliases : List (String × String)) (type : String) :
    (ofList aliases).entries.lookup type = aliases.reverse.lookup type := by
  have hfold : ∀ table : AliasTable,
      (aliases.foldl (fun table entry => table.insert entry.1 entry.2) table).entries.lookup type =
        (aliases.reverse.lookup type).or (table.entries.lookup type) := by
    induction aliases with
    | nil => exact fun _ => rfl
    | cons entry rest ih =>
      intro table
      have hentry : (table.insert entry.1 entry.2).entries.lookup type =
          ([entry].lookup type).or (table.entries.lookup type) := by
        rw [insert, lookup_insertSorted, List.lookup_cons]
        by_cases h : type = entry.1
        · rw [if_pos h, beq_iff_eq.2 h, Option.some_or]
        · rw [if_neg h, beq_eq_false_iff_ne.2 h]
          rfl
      rw [List.foldl_cons, ih, hentry, List.reverse_cons, List.lookup_append, Option.or_assoc]
  exact (hfold {}).trans Option.or_none

theorem mem_iff_lookup_eq_some {entries : List (String × String)}
    (h : entries.Pairwise fun a b => a.1 < b.1) (entry : String × String) :
    entry ∈ entries ↔ entries.lookup entry.1 = some entry.2 := by
  induction entries with
  | nil => exact ⟨nofun, nofun⟩
  | cons first rest ih =>
    obtain ⟨key, target⟩ := first
    rw [List.lookup_cons, List.mem_cons]
    by_cases hkey : entry.1 = key
    · have hrest : entry ∉ rest := by
        intro hmem
        have hlt := List.rel_of_pairwise_cons h hmem
        exact String.lt_irrefl _ (hkey ▸ hlt)
      simp [hkey, hrest, Prod.ext_iff, eq_comm]
    · have hne : entry ≠ (key, target) := fun heq => hkey (congrArg Prod.fst heq)
      rw [beq_eq_false_iff_ne.2 hkey, or_iff_right hne]
      exact ih h.of_cons

/-- A table is given by what it has for each type. -/
theorem ext_lookup {table other : AliasTable}
    (h : ∀ type, table.entries.lookup type = other.entries.lookup type) : table = other := by
  obtain ⟨entries, hsorted⟩ := table
  obtain ⟨others, hothers⟩ := other
  have hmem : ∀ entry, entry ∈ entries ↔ entry ∈ others := by
    intro entry
    rw [mem_iff_lookup_eq_some hsorted, mem_iff_lookup_eq_some hothers]
    exact iff_of_eq (congrArg (· = some entry.2) (h entry.1))
  have hne : ∀ {a b : String × String}, a.1 < b.1 → a ≠ b := by
    rintro a b hlt rfl
    exact String.lt_irrefl _ hlt
  have hperm : entries.Perm others :=
    (List.perm_ext_iff_of_nodup (hsorted.imp hne) (hothers.imp hne)).2 hmem
  have heq : entries = others := by
    apply hperm.eq_of_pairwise _ hsorted hothers
    intro a b _ _ hab hba
    exact absurd (String.lt_trans hab hba) (String.lt_irrefl _)
  cases heq
  rfl

/-- The type that stands for `type`: one look into the table, and the type itself if it has no
alias. Targets are not looked up again. -/
def resolve (table : AliasTable) (type : String) : String :=
  (table.entries.lookup type).getD type

theorem resolve_insert (table : AliasTable) (key target type : String) :
    (table.insert key target).resolve type =
      if type = key then target else table.resolve type := by
  simp only [resolve, insert, lookup_insertSorted]
  split <;> rfl

/-- The aliases in use where no others are given. -/
def standard : AliasTable :=
  ofList [("int", "lua_Integer"), ("bool", "lua_Integer"), ("double", "lua_Number")]

end AliasTable

end LuaGlue
