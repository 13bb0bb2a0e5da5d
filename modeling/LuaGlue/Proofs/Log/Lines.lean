import Mathlib.Data.List.Basic
import LuaGlue.Log
import LuaGlue.Proofs.Text.Lines

namespace LuaGlue

/-- The most detailed log leaves nothing out. -/
theorem Level.lines_trace (records : List Record) :
    Level.trace.lines records = records.map Record.line := by
  have hall : ∀ record ∈ records, decide (record.level.detail ≤ Level.trace.detail) = true := by
    intro record _
    cases record <;> rfl
  rw [Level.lines, List.filter_eq_self.2 hall]

namespace Record

@[simp]
theorem line_fed (place : Place) (token : Token) :
    (fed place token).line = "TRACE " ++ (place.label ++ " <- `" ++ token.text ++ "`") :=
  rfl

@[simp]
theorem line_wrapping (wrapper : String) :
    (wrapping wrapper).line = "INFO Wrapping class \"" ++ wrapper ++ "\"..." :=
  rfl

@[simp]
theorem line_native (wrapper target : String) :
    (native wrapper target).line = "DEBUG " ++ (wrapper ++ " wraps native class " ++ target) :=
  rfl

@[simp]
theorem line_emitted (symbol : String) : (emitted symbol).line = "DEBUG emitted " ++ symbol :=
  rfl

@[simp]
theorem line_unclosedComment :
    unclosedComment.line = "WARN input ends inside an unterminated /* comment" :=
  rfl

@[simp]
theorem line_summary (classes members : Nat) :
    (summary classes members).line =
      "INFO Wrapped " ++ toString classes ++ " classes, " ++ toString members ++ " members" :=
  rfl

/-- The class that was attempted. -/
def wrapping? : Record → Option String
  | wrapping wrapper => some wrapper
  | fed .. | native .. | emitted _ | unclosedComment | summary .. => none

/-- The symbol of a function that was written. -/
def emitted? : Record → Option String
  | emitted symbol => some symbol
  | fed .. | wrapping _ | native .. | unclosedComment | summary .. => none

/-- The lines of the most detailed log that start with some text. -/
def linesFrom (start : String) (records : List Record) : List String :=
  (Level.trace.lines records).filter (·.startsWith start)

/-- Lines are found by what their records tell, if a record tells something if and only if its line
starts as it should. -/
theorem linesFrom_eq {β : Type} {start : String} {records : List Record}
    (told : Record → Option β) (text : β → String)
    (hstart : ∀ record ∈ records,
      record.line.startsWith start = true ↔ (told record).isSome = true)
    (htext : ∀ record ∈ records, ∀ x, told record = some x → record.line = text x) :
    linesFrom start records = (records.filterMap told).map text := by
  rw [linesFrom, Level.lines_trace, ← List.filterMap_eq_filter, List.filterMap_map,
    List.map_filterMap]
  refine List.filterMap_congr fun record hrecord => ?_
  have hkept := hstart record hrecord
  rw [Function.comp_apply, Option.guard]
  cases htold : told record with
  | none =>
    rw [htold] at hkept
    exact if_neg fun h => Bool.false_ne_true (hkept.1 h)
  | some x =>
    rw [htold] at hkept
    rw [if_pos (hkept.2 rfl)]
    exact congrArg some (htext record hrecord x htold)

/-- The lines of the records of one kind. -/
theorem linesFrom_eq_filter {start : String} {records : List Record} (kind : Record → Bool)
    (hstart : ∀ record ∈ records, record.line.startsWith start = true ↔ kind record = true) :
    linesFrom start records = (records.filter kind).map line := by
  rw [linesFrom, Level.lines_trace, List.filter_map]
  exact congrArg _ (List.filter_congr fun record hrecord =>
    Bool.eq_iff_iff.2 (hstart record hrecord))

theorem linesFrom_trace (records : List Record) :
    linesFrom "TRACE " records = (records.filter isFed).map line := by
  refine linesFrom_eq_filter _ fun record _ => ?_
  rw [String.startsWith_string_iff]
  cases record <;> simp [isFed]

theorem linesFrom_warn (records : List Record) :
    linesFrom "WARN " records = (records.filter (· = .unclosedComment)).map line := by
  refine linesFrom_eq_filter _ fun record _ => ?_
  rw [String.startsWith_string_iff]
  cases record <;> simp

theorem linesFrom_wrapping (records : List Record) :
    linesFrom "INFO Wrapping class " records =
      (records.filterMap wrapping?).map fun wrapper =>
        "INFO Wrapping class \"" ++ wrapper ++ "\"..." := by
  refine linesFrom_eq _ _ (fun record _ => ?_) fun record _ wrapper hwrapper => ?_
  · rw [String.startsWith_string_iff]
    cases record <;> simp [wrapping?]
  · cases record <;> cases hwrapper
    exact line_wrapping _

/-- The line of a real name does not look like that of a symbol if the name of the class is one
word: behind the first word there is a verb, and no symbol. -/
theorem not_startsWith_native {wrapper : String} (h : Text.Unbroken wrapper) (target : String) :
    ¬ (native wrapper target).line.startsWith "DEBUG emitted _" = true := by
  rw [String.startsWith_string_iff]
  rintro ⟨behind, hline⟩
  have hmessage : "emitted".toList ++ ' ' :: '_' :: behind =
      wrapper.toList ++ ' ' :: ("wraps native class ".toList ++ target.toList) := by
    simpa using hline
  have hword : ∀ c ∈ wrapper.toList, (c != ' ') = true := by
    intro c hc
    rw [bne_iff_ne]
    rintro rfl
    exact h.space_notMem hc
  have hspace : ∀ c ∈ (' ' :: ("wraps native class ".toList ++ target.toList)).head?,
      (c != ' ') = false := by simp
  obtain ⟨-, hverb⟩ := Text.takeWhile_append_of_head? hword hspace
  rw [← hmessage] at hverb
  simp at hverb

/-- The lines of symbols, if the names of classes are words. -/
theorem linesFrom_emitted {records : List Record}
    (hnative : ∀ wrapper target, .native wrapper target ∈ records → Text.Unbroken wrapper)
    (hsymbol : ∀ symbol, .emitted symbol ∈ records → symbol.startsWith "_" = true) :
    linesFrom "DEBUG emitted _" records =
      (records.filterMap emitted?).map ("DEBUG emitted " ++ ·) := by
  refine linesFrom_eq _ _ (fun record hrecord => ?_) fun record _ symbol hemitted => ?_
  · cases record with
    | native wrapper target =>
      have hword := hnative wrapper target hrecord
      exact iff_of_false (not_startsWith_native hword target) Bool.false_ne_true
    | emitted symbol =>
      have hstart := hsymbol symbol hrecord
      rw [String.startsWith_string_iff] at hstart ⊢
      simpa [emitted?] using hstart
    | fed | wrapping | unclosedComment | summary =>
      rw [String.startsWith_string_iff]
      simp [emitted?]
  · cases record <;> cases hemitted
    exact line_emitted _

end Record

end LuaGlue
