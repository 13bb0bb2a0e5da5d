import LuaGlue.Error

namespace LuaGlue

/-- A class with its members in the order of their first mention. -/
structure ClassEntry where
  wrapper : String
  members : List String
  deriving DecidableEq

namespace ClassEntry

/-- An entry with one more member, if it is the one for `wrapper`. -/
def extend (wrapper member : String) (entry : ClassEntry) : ClassEntry :=
  if entry.wrapper = wrapper then { entry with members := entry.members ++ [member] } else entry

@[simp]
theorem wrapper_extend (wrapper member : String) (entry : ClassEntry) :
    (entry.extend wrapper member).wrapper = entry.wrapper := by
  unfold extend
  split <;> rfl

theorem extend_of_ne {wrapper : String} {entry : ClassEntry} (h : entry.wrapper ≠ wrapper)
    (member : String) : entry.extend wrapper member = entry := by
  rw [extend, if_neg h]

/-- Entries of other classes stay as they are. -/
theorem map_extend_of_notMem {wrapper : String} {entries : List ClassEntry}
    (h : wrapper ∉ entries.map ClassEntry.wrapper) (member : String) :
    entries.map (extend wrapper member) = entries := by
  refine (List.map_congr_left fun entry hentry => ?_).trans (List.map_id entries)
  have hmem : entry.wrapper ∈ entries.map ClassEntry.wrapper := List.mem_map_of_mem hentry
  have hne : entry.wrapper ≠ wrapper := fun heq => h (heq ▸ hmem)
  exact extend_of_ne hne member

theorem nodup_extend {wrapper member : String} {entry : ClassEntry} (h : entry.members.Nodup)
    (hmem : entry.wrapper = wrapper → member ∉ entry.members) :
    (entry.extend wrapper member).members.Nodup := by
  unfold extend
  split
  · rename_i heq
    rw [List.nodup_append]
    refine ⟨h, by simp, ?_⟩
    intro a ha b hb hab
    exact hmem heq (List.mem_singleton.1 hb ▸ hab ▸ ha)
  · exact h

end ClassEntry

/-- Classes in the order of their first mention, each of them once and with each of its members
once. -/
structure Registry where
  entries : List ClassEntry := []
  distinct_classes : (entries.map ClassEntry.wrapper).Nodup := by simp
  distinct_members : ∀ entry ∈ entries, entry.members.Nodup := by simp
  deriving DecidableEq

namespace Registry

def size (r : Registry) : Nat :=
  r.entries.length

def isEmpty (r : Registry) : Bool :=
  r.entries.isEmpty

def memberCount (r : Registry) : Nat :=
  (r.entries.flatMap ClassEntry.members).length

/-- The members of a class, if it is recorded. -/
def members? (r : Registry) (wrapper : String) : Option (List String) :=
  (r.entries.find? fun entry => entry.wrapper = wrapper).map ClassEntry.members

theorem members?_eq_none_iff {r : Registry} {wrapper : String} :
    r.members? wrapper = none ↔ wrapper ∉ r.entries.map ClassEntry.wrapper := by
  simp only [members?, Option.map_eq_none_iff, List.find?_eq_none, List.mem_map, decide_eq_true_eq,
    not_exists, not_and]

private theorem eq_of_wrapper_eq {entries : List ClassEntry}
    (h : (entries.map ClassEntry.wrapper).Nodup) {a b : ClassEntry} (ha : a ∈ entries)
    (hb : b ∈ entries) (hab : a.wrapper = b.wrapper) : a = b := by
  induction entries with
  | nil => cases ha
  | cons entry rest ih =>
    rw [List.map_cons, List.nodup_cons] at h
    rcases List.mem_cons.1 ha with rfl | har <;> rcases List.mem_cons.1 hb with rfl | hbr
    · rfl
    · exact absurd (hab ▸ List.mem_map_of_mem hbr) h.1
    · exact absurd (hab ▸ List.mem_map_of_mem har) h.1
    · exact ih h.2 har hbr

/-- Among distinct classes the one found is the only one of its name. -/
private theorem members_eq_of_members? {r : Registry} {wrapper : String} {members : List String}
    (h : r.members? wrapper = some members) {entry : ClassEntry} (hentry : entry ∈ r.entries)
    (hname : entry.wrapper = wrapper) : entry.members = members := by
  obtain ⟨found, hfound, rfl⟩ := Option.map_eq_some_iff.1 h
  have heq : found = entry := by
    have hnodup := r.distinct_classes
    have hwrapper : found.wrapper = wrapper := by simpa using List.find?_some hfound
    exact eq_of_wrapper_eq hnodup (List.mem_of_find?_eq_some hfound) hentry
      (hwrapper.trans hname.symm)
  rw [heq]

/-- The registry with a class that was not in it, behind all others. -/
private def push (r : Registry) (entry : ClassEntry)
    (h : r.members? entry.wrapper = none) (hmembers : entry.members.Nodup) : Registry where
  entries := r.entries ++ [entry]
  distinct_classes := by
    rw [List.map_append, List.nodup_append]
    refine ⟨r.distinct_classes, by simp, ?_⟩
    intro a ha b hb hab
    simp only [List.map_cons, List.map_nil, List.mem_singleton] at hb
    exact members?_eq_none_iff.1 h (hb ▸ hab ▸ ha)
  distinct_members := by
    intro other hother
    rcases List.mem_append.1 hother with hother | hother
    · exact r.distinct_members other hother
    · rw [List.mem_singleton.1 hother]
      exact hmembers

def addClass (r : Registry) (wrapper : String) : Except Error Registry :=
  if h : r.members? wrapper = none then .ok (r.push ⟨wrapper, []⟩ h List.nodup_nil)
  else .error (.duplicateClass wrapper)

/-- Records a member, which must be new in its class. A class that is not recorded yet is recorded
with it. -/
def addMember (r : Registry) (wrapper member : String) : Except Error Registry :=
  match h : r.members? wrapper with
  | none => .ok (r.push ⟨wrapper, [member]⟩ h (by simp))
  | some members =>
    if hmem : member ∈ members then .error (.duplicateMember wrapper member)
    else
      .ok {
        entries := r.entries.map (ClassEntry.extend wrapper member)
        distinct_classes := by
          simpa [Function.comp_def] using r.distinct_classes
        distinct_members := by
          intro entry hentry
          obtain ⟨old, hold, rfl⟩ := List.mem_map.1 hentry
          exact ClassEntry.nodup_extend (r.distinct_members old hold) fun hname =>
            members_eq_of_members? h hold hname ▸ hmem }

section Spec

variable {r : Registry} {wrapper member : String} {members : List String}

theorem members?_eq_some_of_mem (h : ⟨wrapper, members⟩ ∈ r.entries) :
    r.members? wrapper = some members := by
  cases hfound : r.members? wrapper with
  | none => exact absurd (List.mem_map_of_mem h) (members?_eq_none_iff.1 hfound)
  | some found => exact congrArg some (members_eq_of_members? hfound h rfl).symm

theorem mem_of_members?_eq_some (h : r.members? wrapper = some members) :
    ⟨wrapper, members⟩ ∈ r.entries := by
  obtain ⟨⟨name, found⟩, hfound, rfl⟩ := Option.map_eq_some_iff.1 h
  obtain rfl : name = wrapper := by simpa using List.find?_some hfound
  exact List.mem_of_find?_eq_some hfound

theorem addClass_of_mem (h : wrapper ∈ r.entries.map ClassEntry.wrapper) :
    r.addClass wrapper = .error (.duplicateClass wrapper) := by
  rw [addClass, dif_neg]
  exact fun hnone => members?_eq_none_iff.1 hnone h

theorem exists_addClass_of_notMem (h : wrapper ∉ r.entries.map ClassEntry.wrapper) :
    ∃ after, r.addClass wrapper = .ok after ∧ after.entries = r.entries ++ [⟨wrapper, []⟩] := by
  rw [addClass, dif_pos (members?_eq_none_iff.2 h)]
  exact ⟨_, rfl, rfl⟩

theorem addMember_of_mem (hentry : ⟨wrapper, members⟩ ∈ r.entries) (hmem : member ∈ members) :
    r.addMember wrapper member = .error (.duplicateMember wrapper member) := by
  have hfound := members?_eq_some_of_mem hentry
  unfold addMember
  split
  · simp_all
  · rename_i found hsome
    obtain rfl : found = members := Option.some.inj (hsome.symm.trans hfound)
    rw [dif_pos hmem]

/-- A member of a class that is not recorded is recorded together with it. -/
theorem exists_addMember_of_unknown (h : wrapper ∉ r.entries.map ClassEntry.wrapper)
    (member : String) :
    ∃ after, r.addMember wrapper member = .ok after ∧
      after.entries = r.entries ++ [⟨wrapper, [member]⟩] := by
  have hnone := members?_eq_none_iff.2 h
  unfold addMember
  split
  · exact ⟨_, rfl, rfl⟩
  · simp_all

theorem exists_addMember_of_notMem (hentry : ⟨wrapper, members⟩ ∈ r.entries)
    (hmem : member ∉ members) :
    ∃ after, r.addMember wrapper member = .ok after ∧
      after.entries = r.entries.map (ClassEntry.extend wrapper member) := by
  have hfound := members?_eq_some_of_mem hentry
  unfold addMember
  split
  · simp_all
  · rename_i found hsome
    obtain rfl : found = members := Option.some.inj (hsome.symm.trans hfound)
    rw [dif_neg hmem]
    exact ⟨_, rfl, rfl⟩

/-- A member more of the last class changes no other entry, since no other one has its name. -/
theorem map_extend_last {front : List ClassEntry} (h : r.entries = front ++ [⟨wrapper, members⟩])
    (member : String) :
    r.entries.map (ClassEntry.extend wrapper member) =
      front ++ [⟨wrapper, members ++ [member]⟩] := by
  have hdistinct := r.distinct_classes
  rw [h, List.map_append, List.nodup_append] at hdistinct
  have hnew : wrapper ∉ front.map ClassEntry.wrapper := fun hmem =>
    hdistinct.2.2 _ hmem _ List.mem_cons_self rfl
  rw [h, List.map_append, ClassEntry.map_extend_of_notMem hnew, List.map_singleton,
    ClassEntry.extend, if_pos rfl]

end Spec

end Registry

end LuaGlue
