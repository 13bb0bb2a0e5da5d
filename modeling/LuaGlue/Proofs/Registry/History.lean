import Mathlib.Data.List.Induction
import Mathlib.Data.List.Nodup
import LuaGlue.Outcome
import LuaGlue.Registry

namespace LuaGlue

/-- The outcome of an action that leaves the state `kept` if it fails. -/
def Outcome.ofExcept {σ : Type} (kept : σ) : Except Error σ → Outcome σ
  | .ok after => ⟨after, [], none⟩
  | .error e => ⟨kept, [], some e⟩

namespace Registry

/-- A call that records a class or a member. -/
inductive Call where
  | addClass (wrapper : String)
  | addMember (wrapper member : String)
  deriving DecidableEq

/-- The registry with a class, which is recorded unless it is there already. -/
def withClass (r : Registry) (wrapper : String) : Registry :=
  (r.addClass wrapper).toOption.getD r

namespace Call

/-- The class that a call names. -/
def wrapper : Call → String
  | addClass wrapper => wrapper
  | addMember wrapper _ => wrapper

/-- The member that a call names in a class. -/
def memberOf? (name : String) : Call → Option String
  | addClass _ => none
  | addMember wrapper member => if wrapper = name then some member else none

def run (r : Registry) : Call → Except Error Registry
  | addClass wrapper => r.addClass wrapper
  | addMember wrapper member => r.addMember wrapper member

/-- What a call makes of a registry that is changed in place. The class of a member is recorded
before the member is looked at, so it would stay behind if the member were refused. -/
def perform (r : Registry) : Call → Outcome Registry
  | addClass wrapper => .ofExcept r (r.addClass wrapper)
  | addMember wrapper member =>
    .ofExcept (r.withClass wrapper) ((r.withClass wrapper).addMember wrapper member)

end Call

/-- The classes that some calls name, by their first mention. -/
def mentioned (calls : List Call) : List String :=
  (calls.map Call.wrapper).eraseDups

/-- The members that some calls name in a class, by their first mention. -/
def membersOf (calls : List Call) (wrapper : String) : List String :=
  (calls.filterMap (Call.memberOf? wrapper)).eraseDups

/-- What is to be recorded of some calls. -/
def table (calls : List Call) : List ClassEntry :=
  (mentioned calls).map fun wrapper => ⟨wrapper, membersOf calls wrapper⟩

/-- Why a call is refused behind other calls. It does not matter whether those were refused
themselves. -/
def Call.refusal? (calls : List Call) : Call → Option Error
  | addClass wrapper =>
    if wrapper ∈ calls.map Call.wrapper then some (.duplicateClass wrapper) else none
  | addMember wrapper member =>
    if addMember wrapper member ∈ calls then some (.duplicateMember wrapper member) else none

section Mentions

/-- A name that has been mentioned adds nothing. -/
private theorem eraseDups_concat (names : List String) (name : String) :
    (names ++ [name]).eraseDups =
      if name ∈ names then names.eraseDups else names.eraseDups ++ [name] := by
  rw [List.eraseDups_append, List.removeAll]
  by_cases hmem : name ∈ names
  · rw [if_pos hmem, List.filter_cons_of_neg (by simpa using hmem), List.filter_nil,
      List.eraseDups_nil, List.append_nil]
  · rw [if_neg hmem, List.filter_cons_of_pos (by simpa using hmem), List.filter_nil,
      List.eraseDups_cons, List.filter_nil, List.eraseDups_nil]

private theorem nodup_eraseDups (names : List String) : names.eraseDups.Nodup := by
  induction names using List.reverseRecOn with
  | nil => exact List.nodup_nil
  | append_singleton names name ih =>
    rw [eraseDups_concat]
    split
    · exact ih
    · rename_i hnew
      rw [List.nodup_append]
      refine ⟨ih, List.nodup_singleton name, ?_⟩
      intro first hfirst second hsecond heq
      rw [List.mem_singleton.1 hsecond] at heq
      exact hnew (List.mem_eraseDups.1 (heq ▸ hfirst))

variable {calls : List Call} {wrapper member : String}

theorem mem_mentioned_iff : wrapper ∈ mentioned calls ↔ wrapper ∈ calls.map Call.wrapper :=
  List.mem_eraseDups

theorem mem_membersOf_iff : member ∈ membersOf calls wrapper ↔ .addMember wrapper member ∈ calls := by
  rw [membersOf, List.mem_eraseDups, List.mem_filterMap]
  constructor
  · rintro ⟨call, hcall, hmember⟩
    cases call with
    | addClass name => cases hmember
    | addMember name other =>
      rw [Call.memberOf?] at hmember
      split at hmember
      · rename_i hname
        obtain rfl := Option.some.inj hmember
        exact hname ▸ hcall
      · cases hmember
  · intro hcall
    exact ⟨_, hcall, if_pos rfl⟩

/-- No member of a class is mentioned without the class. -/
theorem membersOf_of_notMem (h : wrapper ∉ calls.map Call.wrapper) :
    membersOf calls wrapper = [] := by
  rw [List.eq_nil_iff_forall_not_mem]
  intro member hmember
  exact h (List.mem_map_of_mem (mem_membersOf_iff.1 hmember))

theorem mentioned_concat (calls : List Call) (call : Call) :
    mentioned (calls ++ [call]) =
      if call.wrapper ∈ calls.map Call.wrapper then mentioned calls
      else mentioned calls ++ [call.wrapper] := by
  rw [mentioned, List.map_append, List.map_singleton, eraseDups_concat]
  rfl

theorem membersOf_concat_addClass (calls : List Call) (name wrapper : String) :
    membersOf (calls ++ [.addClass name]) wrapper = membersOf calls wrapper := by
  rw [membersOf, List.filterMap_append, List.filterMap_cons_none rfl, List.filterMap_nil,
    List.append_nil]
  rfl

/-- A member more in a class makes no difference to other classes. -/
theorem membersOf_concat_of_ne {name : String} (h : name ≠ wrapper) (calls : List Call)
    (member : String) :
    membersOf (calls ++ [.addMember name member]) wrapper = membersOf calls wrapper := by
  have hother : (Call.addMember name member).memberOf? wrapper = none := if_neg h
  rw [membersOf, List.filterMap_append, List.filterMap_cons_none hother, List.filterMap_nil,
    List.append_nil]
  rfl

theorem membersOf_concat_self (calls : List Call) (wrapper member : String) :
    membersOf (calls ++ [.addMember wrapper member]) wrapper =
      if .addMember wrapper member ∈ calls then membersOf calls wrapper
      else membersOf calls wrapper ++ [member] := by
  have hsome : (Call.addMember wrapper member).memberOf? wrapper = some member := if_pos rfl
  rw [membersOf, List.filterMap_append, List.filterMap_cons_some hsome, List.filterMap_nil,
    eraseDups_concat]
  exact if_congr (List.mem_eraseDups.symm.trans mem_membersOf_iff) rfl rfl

end Mentions

/-- Registries with the same entries are equal. -/
theorem ext_entries {r s : Registry} (h : r.entries = s.entries) : r = s := by
  obtain ⟨entries, hclasses, hmembers⟩ := r
  cases h
  rfl

section Perform

variable {r : Registry} {calls : List Call} {wrapper member : String}

theorem withClass_of_mem (h : wrapper ∈ r.entries.map ClassEntry.wrapper) : r.withClass wrapper = r := by
  rw [withClass, addClass_of_mem h]
  rfl

theorem entries_withClass_of_notMem (h : wrapper ∉ r.entries.map ClassEntry.wrapper) :
    (r.withClass wrapper).entries = r.entries ++ [⟨wrapper, []⟩] := by
  obtain ⟨after, hadd, hentries⟩ := exists_addClass_of_notMem h
  rw [withClass, hadd]
  exact hentries

/-- A class that has just been recorded has no members, so none can be refused in it. -/
theorem addMember_withClass_of_notMem (h : wrapper ∉ r.entries.map ClassEntry.wrapper)
    (member : String) :
    ∃ after, (r.withClass wrapper).addMember wrapper member = .ok after ∧
      r.addMember wrapper member = .ok after ∧
      after.entries = r.entries ++ [⟨wrapper, [member]⟩] := by
  have hadmitted := entries_withClass_of_notMem h
  have hentry : ⟨wrapper, []⟩ ∈ (r.withClass wrapper).entries := by
    rw [hadmitted]
    exact List.mem_append_right _ List.mem_cons_self
  obtain ⟨after, hadd, hentries⟩ := exists_addMember_of_notMem hentry List.not_mem_nil
  rw [map_extend_last hadmitted, List.nil_append] at hentries
  obtain ⟨direct, hdirect, hsame⟩ := exists_addMember_of_unknown h member
  obtain rfl := ext_entries (hsame.trans hentries.symm)
  exact ⟨_, hadd, hdirect, hentries⟩

/-- Although a class is recorded before its member is looked at, nothing stays behind if a call is
refused. -/
theorem perform_eq (r : Registry) (call : Call) : call.perform r = .ofExcept r (call.run r) := by
  cases call with
  | addClass wrapper => rfl
  | addMember wrapper member =>
    rw [Call.perform, Call.run]
    by_cases hmem : wrapper ∈ r.entries.map ClassEntry.wrapper
    · rw [withClass_of_mem hmem]
    · obtain ⟨after, hadmitted, hdirect, -⟩ := addMember_withClass_of_notMem hmem member
      rw [hadmitted, hdirect]
      rfl

theorem map_wrapper_table (calls : List Call) :
    (table calls).map ClassEntry.wrapper = mentioned calls := by
  rw [table, List.map_map]
  exact List.map_id _

theorem mem_table_of_mem (h : wrapper ∈ calls.map Call.wrapper) :
    ⟨wrapper, membersOf calls wrapper⟩ ∈ table calls :=
  List.mem_map.2 ⟨wrapper, mem_mentioned_iff.2 h, rfl⟩

theorem mem_map_wrapper_iff (h : r.entries = table calls) :
    wrapper ∈ r.entries.map ClassEntry.wrapper ↔ wrapper ∈ calls.map Call.wrapper := by
  rw [h, map_wrapper_table, mem_mentioned_iff]

/-- A call that names nothing new changes nothing. -/
theorem table_concat_of_refusal {call : Call} {e : Error} (h : call.refusal? calls = some e) :
    table (calls ++ [call]) = table calls := by
  cases call with
  | addClass wrapper =>
    rw [Call.refusal?] at h
    split at h
    · rename_i hmem
      have hmentioned : mentioned (calls ++ [.addClass wrapper]) = mentioned calls := by
        rw [mentioned_concat]
        exact if_pos hmem
      rw [table, hmentioned, table]
      simp only [membersOf_concat_addClass]
    · cases h
  | addMember wrapper member =>
    rw [Call.refusal?] at h
    split at h
    · rename_i hmem
      have hmentioned : mentioned (calls ++ [.addMember wrapper member]) = mentioned calls := by
        rw [mentioned_concat]
        exact if_pos (List.mem_map_of_mem hmem)
      rw [table, hmentioned, table]
      refine List.map_congr_left fun name _ => congrArg _ ?_
      by_cases hname : wrapper = name
      · subst hname
        rw [membersOf_concat_self, if_pos hmem]
      · exact membersOf_concat_of_ne hname calls member
    · cases h

/-- The first call that names a class names at most one member of it. -/
theorem membersOf_concat_of_notMem {call : Call} (h : call.wrapper ∉ calls.map Call.wrapper) :
    membersOf (calls ++ [call]) call.wrapper = (call.memberOf? call.wrapper).toList := by
  cases call with
  | addClass wrapper =>
    exact (membersOf_concat_addClass calls wrapper wrapper).trans (membersOf_of_notMem h)
  | addMember wrapper member =>
    have hnone : membersOf calls wrapper = [] := membersOf_of_notMem h
    have hnew : .addMember wrapper member ∉ calls := fun hmem => h (List.mem_map_of_mem hmem)
    have hsome : (Call.addMember wrapper member).memberOf? wrapper = some member := if_pos rfl
    rw [Call.wrapper, membersOf_concat_self, if_neg hnew, hnone, hsome]
    rfl

/-- A class that is named for the first time comes last, with the member that is named with it. -/
theorem table_concat_of_notMem {call : Call} (h : call.wrapper ∉ calls.map Call.wrapper) :
    table (calls ++ [call]) =
      table calls ++ [⟨call.wrapper, (call.memberOf? call.wrapper).toList⟩] := by
  have hmentioned : mentioned (calls ++ [call]) = mentioned calls ++ [call.wrapper] := by
    rw [mentioned_concat, if_neg h]
  have hothers : ∀ name ∈ mentioned calls,
      membersOf (calls ++ [call]) name = membersOf calls name := by
    intro name hname
    cases call with
    | addClass wrapper => exact membersOf_concat_addClass calls wrapper name
    | addMember wrapper member =>
      refine membersOf_concat_of_ne ?_ calls member
      rintro rfl
      exact h (mem_mentioned_iff.1 hname)
  rw [table, hmentioned, List.map_append, List.map_singleton, membersOf_concat_of_notMem h, table]
  exact congrArg (· ++ _) (List.map_congr_left fun name hname => congrArg _ (hothers name hname))

/-- A member that is new in a class that has been named comes last in it. -/
theorem table_concat_addMember (hclass : wrapper ∈ calls.map Call.wrapper)
    (hnew : .addMember wrapper member ∉ calls) :
    table (calls ++ [.addMember wrapper member]) =
      (table calls).map (ClassEntry.extend wrapper member) := by
  have hmentioned : mentioned (calls ++ [.addMember wrapper member]) = mentioned calls := by
    rw [mentioned_concat]
    exact if_pos hclass
  rw [table, hmentioned, table, List.map_map]
  refine List.map_congr_left fun name _ => ?_
  rw [Function.comp_apply, ClassEntry.extend]
  by_cases hname : name = wrapper
  · subst hname
    rw [if_pos rfl, membersOf_concat_self, if_neg hnew]
  · rw [if_neg hname, membersOf_concat_of_ne (Ne.symm hname)]

/-- What a call does to a registry that holds what is to be recorded of the calls before. -/
theorem perform_of_table (h : r.entries = table calls) (call : Call) :
    (call.perform r).error = call.refusal? calls ∧
    (call.perform r).state.entries = table (calls ++ [call]) := by
  rw [perform_eq]
  cases call with
  | addClass wrapper =>
    by_cases hmem : wrapper ∈ calls.map Call.wrapper
    · have hrefusal : (Call.addClass wrapper).refusal? calls = some (.duplicateClass wrapper) :=
        if_pos hmem
      rw [Call.run, addClass_of_mem ((mem_map_wrapper_iff h).2 hmem), hrefusal,
        table_concat_of_refusal hrefusal]
      exact ⟨rfl, h⟩
    · have hrefusal : (Call.addClass wrapper).refusal? calls = none := if_neg hmem
      obtain ⟨after, hadd, hentries⟩ := exists_addClass_of_notMem (mt (mem_map_wrapper_iff h).1 hmem)
      rw [Call.run, hadd, hrefusal, table_concat_of_notMem hmem, ← h]
      exact ⟨rfl, hentries⟩
  | addMember wrapper member =>
    by_cases hclass : wrapper ∈ calls.map Call.wrapper
    · have hentry : ⟨wrapper, membersOf calls wrapper⟩ ∈ r.entries := h ▸ mem_table_of_mem hclass
      by_cases hmem : .addMember wrapper member ∈ calls
      · have hrefusal : (Call.addMember wrapper member).refusal? calls =
            some (.duplicateMember wrapper member) := if_pos hmem
        rw [Call.run, addMember_of_mem hentry (mem_membersOf_iff.2 hmem), hrefusal,
          table_concat_of_refusal hrefusal]
        exact ⟨rfl, h⟩
      · have hrefusal : (Call.addMember wrapper member).refusal? calls = none := if_neg hmem
        obtain ⟨after, hadd, hentries⟩ :=
          exists_addMember_of_notMem hentry (mt mem_membersOf_iff.1 hmem)
        rw [Call.run, hadd, hrefusal, table_concat_addMember hclass hmem, ← h]
        exact ⟨rfl, hentries⟩
    · have hnew : .addMember wrapper member ∉ calls := fun hmem =>
        hclass (List.mem_map_of_mem hmem)
      have hrefusal : (Call.addMember wrapper member).refusal? calls = none := if_neg hnew
      have hsome : (Call.addMember wrapper member).memberOf? wrapper = some member := if_pos rfl
      obtain ⟨after, hadd, hentries⟩ :=
        exists_addMember_of_unknown (mt (mem_map_wrapper_iff h).1 hclass) member
      rw [Call.run, hadd, hrefusal, table_concat_of_notMem hclass, ← h]
      exact ⟨rfl, hentries.trans (by rw [Call.wrapper, hsome]; rfl)⟩

end Perform

private theorem nodup_members_nil : ∀ entry ∈ ([] : List ClassEntry), entry.members.Nodup :=
  List.forall_mem_nil _

/-- An empty registry behind some calls, errors passed over. -/
def history (calls : List Call) : Registry :=
  calls.foldl (fun r call => (call.perform r).state) ⟨[], List.nodup_nil, nodup_members_nil⟩

theorem entries_history (calls : List Call) : (history calls).entries = table calls := by
  induction calls using List.reverseRecOn with
  | nil => rfl
  | append_singleton calls call ih =>
    rw [history, List.foldl_append, List.foldl_cons, List.foldl_nil]
    exact (perform_of_table ih call).2

/-- A registry is decided by its history. A class is refused if and only if an earlier call named
it, be it for itself or for a member, and a member if and only if an earlier call named it in the
same class. A call that is refused changes nothing, although a class is recorded before its member
is looked at. The registry has the classes in the order of their first mention, each with its
members in the order of theirs, and none of them twice. -/
theorem history_decides (calls : List Call) :
    (∀ wrapper, ((Call.addClass wrapper).perform (history calls)).error =
      if wrapper ∈ calls.map Call.wrapper then some (.duplicateClass wrapper) else none) ∧
    (∀ wrapper member, ((Call.addMember wrapper member).perform (history calls)).error =
      if .addMember wrapper member ∈ calls then some (.duplicateMember wrapper member)
      else none) ∧
    (∀ call : Call, (call.perform (history calls)).error = none ∨
      (call.perform (history calls)).state = history calls) ∧
    (history calls).entries =
      (mentioned calls).map (fun wrapper => ⟨wrapper, membersOf calls wrapper⟩) ∧
    (mentioned calls).Nodup ∧ (∀ wrapper, (membersOf calls wrapper).Nodup) ∧
    (∀ wrapper, (history calls).members? wrapper =
      if wrapper ∈ calls.map Call.wrapper then some (membersOf calls wrapper) else none) ∧
    (history calls).size = (mentioned calls).length ∧
    ((history calls).isEmpty = true ↔ calls = []) := by
  have hentries := entries_history calls
  refine ⟨fun wrapper => (perform_of_table hentries _).1,
    fun wrapper member => (perform_of_table hentries _).1, fun call => ?_, hentries,
    nodup_eraseDups _, fun wrapper => nodup_eraseDups _, fun wrapper => ?_, ?_, ?_⟩
  · rw [perform_eq]
    cases call.run (history calls) with
    | ok after => exact .inl rfl
    | error e => exact .inr rfl
  · split
    · rename_i hmem
      exact members?_eq_some_of_mem (hentries ▸ mem_table_of_mem hmem)
    · rename_i hnot
      exact members?_eq_none_iff.2 (mt (mem_map_wrapper_iff hentries).1 hnot)
  · rw [size, hentries, table, List.length_map]
  · rw [isEmpty, hentries, List.isEmpty_iff, table, List.map_eq_nil_iff, List.eq_nil_iff_forall_not_mem]
    simp only [mem_mentioned_iff]
    rw [← List.eq_nil_iff_forall_not_mem, List.map_eq_nil_iff]

end Registry

end LuaGlue
