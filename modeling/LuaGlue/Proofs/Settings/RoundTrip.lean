import LuaGlue.Proofs.Json.Layout
import LuaGlue.Settings.Json

namespace LuaGlue

namespace AliasTable

open Json

theorem takes_read (table : AliasTable) {text : List Char} (h : LaidOut table.pieces text) :
    Takes read text table := by
  have hread := (takes_readObject h).map ofList
  rwa [ofList_entries] at hread

end AliasTable

namespace Settings

open Json

/-- Takes the value of a field from other settings. -/
def adopt (s given : Settings) : Field → Settings
  | .includes => { s with includes := given.includes }
  | .usings => { s with usings := given.usings }
  | .aliases => { s with aliases := given.aliases }
  | .registerFunction => { s with registerFunction := given.registerFunction }
  | .interpreter => { s with interpreter := given.interpreter }

variable {s given : Settings} {field : Field} {missing : List Field} {text : List Char}

theorem takes_readField (s : Settings) (h : LaidOut (given.fieldPieces field) text) :
    Takes (s.readField field) text (s.adopt given field) := by
  cases field with
  | includes => exact (takes_readList h).map fun includes => { s with includes }
  | usings => exact (takes_readList h).map fun usings => { s with usings }
  | aliases => exact (AliasTable.takes_read given.aliases h).map fun aliases => { s with aliases }
  | registerFunction =>
    exact (takes_readText h).map fun registerFunction => { s with registerFunction }
  | interpreter => exact (takes_readText h).map fun interpreter => { s with interpreter }

theorem takes_readName (h : field ∈ missing) :
    Takes (fun cs => readName missing ('"' :: cs)) (quoted field.name.toList) field := by
  have hname : Field.ofName? field.name = some field := by cases field <;> decide
  have hkey : Takes (fun cs => readKey ('"' :: cs)) (quoted field.name.toList) field.name :=
    takes_string field.name
  constructor
  · intro rest
    simp only [readName, hkey.append_eq rest, hname, if_pos h]
  · intro front rest heq hne
    simp only [readName, hkey.cut_eq front rest heq hne]

theorem readFields_eq (isFirst : Bool) (missing : List Field) (s : Settings) (cs : List Char) :
    readFields isFirst missing s cs = match turn '\x7d' isFirst cs with
      | .error e => .error e
      | .ok (.done rest) => .ok (s, rest)
      | .ok (.item item) => (readName missing item).bind fun (field, rest) =>
        (colon rest).bind fun rest => (s.readField field rest).bind fun (s, rest) =>
          readFields false (missing.erase field) s rest := by
  rw [readFields]
  cases turn '\x7d' isFirst cs with
  | error e => rfl
  | ok found =>
    cases found with
    | done rest => rfl
    | item item =>
      dsimp only
      split
      · rename_i hname
        rw [hname]
        rfl
      · rename_i field behind hname
        rw [hname, Except.bind]
        dsimp only
        cases colon behind with
        | error e => rfl
        | ok value =>
          dsimp only [Except.bind]
          cases s.readField field value <;> rfl

/-- Of distinct fields none is given a second time by those before it. -/
theorem forall_mem_erase {fields : List Field} (h : ∀ other ∈ field :: fields, other ∈ missing)
    (hnodup : (field :: fields).Nodup) : ∀ other ∈ fields, other ∈ missing.erase field := by
  intro other hother
  have hne : other ≠ field := by
    rintro rfl
    exact (List.nodup_cons.1 hnodup).1 hother
  exact (List.mem_erase_of_ne hne).2 (h other (List.mem_cons_of_mem _ hother))

/-- Fields that were not given yet are read in whatever order they stand, and every other one is
kept. -/
theorem takes_readFields {fields : List Field} (hmissing : ∀ field ∈ fields, field ∈ missing)
    (hnodup : fields.Nodup) {isFirst : Bool}
    (h : LaidOut (closedRows '\x7d' isFirst
      (fields.map fun field => Json.fieldPieces field.name (given.fieldPieces field))) text) :
    Takes (readFields isFirst missing s) text
      (fields.foldl (fun s field => s.adopt given field) s) := by
  induction fields generalizing isFirst missing s text with
  | nil =>
    apply Takes.ofClose h rfl
    · intro cs e hturn
      rw [readFields_eq, hturn]
    · intro cs rest hturn
      rw [readFields_eq, hturn]
      rfl
  | cons field rest ih =>
    obtain ⟨lead, inner, behind, rfl, hlead, hrow, hrows⟩ := h.exists_of_rows
    obtain ⟨blanks, value, rfl, hblanks, hvalue⟩ := hrow.exists_of_mark
    have hmem := hmissing field List.mem_cons_self
    have hrest := forall_mem_erase hmissing hnodup
    have hbehind := (takes_readField s hvalue).andThen
      (fun s cs => readFields false (missing.erase field) s cs)
      (ih hrest (List.nodup_cons.1 hnodup).2 hrows)
    have hcolon : Takes (fun cs => (colon cs).bind fun rest =>
        (s.readField field rest).bind fun (s, rest) =>
          readFields false (missing.erase field) s rest)
        (blanks ++ ':' :: (value ++ behind))
        (rest.foldl (fun s field => s.adopt given field) (s.adopt given field)) := by
      apply hbehind.behindMark hblanks rfl
      · intro cs hcs
        simp only [colon, hcs, Except.bind]
      · intro cs rest hcs
        simp only [colon, hcs, Except.bind]
    have hitem := (takes_readName hmem).andThen
      (fun field cs => (colon cs).bind fun rest =>
        (s.readField field rest).bind fun (s, rest) =>
          readFields false (missing.erase field) s rest)
      hcolon
    rw [List.append_assoc, List.cons_append]
    apply hitem.behindLead '\x7d' hlead (by decide) rfl (by decide)
    · intro cs e hturn
      rw [readFields_eq, hturn]
    · intro cs rest hturn
      rw [readFields_eq, hturn]

theorem takes_read (s : Settings) (h : LaidOut s.pieces text) : Takes read text s := by
  have hfields : ∀ inner, LaidOut (closedRows '\x7d' true
      (Field.all.map fun field => Json.fieldPieces field.name (s.fieldPieces field))) inner →
      Takes (readFields true Field.all {}) inner s :=
    fun _ h => takes_readFields (fun _ h => h) (by decide) h
  apply Takes.ofRows h rfl hfields
  · intro cs hcs
    simp only [read, hcs]
  · intro cs rest hcs
    simp only [read, hcs]

end Settings

/-- Settings and alias tables are read back from their texts, also where there are blanks around the
marks. Where a text is cut off, it is refused as truncated. -/
theorem ofJson_toJson (settings : Settings) (table : AliasTable) :
    Settings.ofJson settings.toJson = .ok settings ∧
    (∀ text, Json.Spaced settings.pieces text → Settings.ofJson text = .ok settings) ∧
    (∀ front : String, front.toList <+: settings.toJson.toList → front ≠ settings.toJson →
      Settings.ofJson front = .error .truncated) ∧
    AliasTable.ofJson table.toJson = .ok table ∧
    (∀ text, Json.Spaced table.pieces text → AliasTable.ofJson text = .ok table) ∧
    (∀ front : String, front.toList <+: table.toJson.toList → front ≠ table.toJson →
      AliasTable.ofJson front = .error .truncated) := by
  obtain ⟨hsettings, hspacedSettings, hcutSettings⟩ :=
    Json.finish_of_takes fun _ h => Settings.takes_read settings h
  obtain ⟨htable, hspacedTable, hcutTable⟩ :=
    Json.finish_of_takes fun _ h => AliasTable.takes_read table h
  exact ⟨hsettings, hspacedSettings, hcutSettings, htable, hspacedTable, hcutTable⟩

/-- A control is escaped, and the text is still too short between the digits of its number. -/
theorem ofJson_toJson_control :
    AliasTable.toJson (.ofList [("a\x01", "é")]) = "\x7b\"a\\u0001\":\"é\"\x7d" ∧
    AliasTable.ofJson "\x7b \"a\\u0001\"\n:\"é\"\x7d " = .ok (.ofList [("a\x01", "é")]) ∧
    AliasTable.ofJson "\x7b\"a\\u00" = .error .truncated := by
  have hwritten : AliasTable.toJson (.ofList [("a\x01", "é")]) =
      "\x7b\"a\\u0001\":\"é\"\x7d" := by
    decide +kernel
  obtain ⟨-, -, -, -, hspaced, hcut⟩ := ofJson_toJson {} (.ofList [("a\x01", "é")])
  refine ⟨hwritten, hspaced _ ?_, hcut _ ?_ ?_⟩
  · have hspace : Json.Blanks [' '] := by decide
    have hline : Json.Blanks ['\n'] := by decide
    have hnone : Json.Blanks [] := by decide
    exact ⟨_, [' '], by decide +kernel,
      .cons hnone (.cons hspace (.cons hline (.cons hnone (.cons hnone .nil)))), hspace⟩
  · rw [hwritten]
    decide +kernel
  · rw [hwritten]
    decide +kernel

end LuaGlue
