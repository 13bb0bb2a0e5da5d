import LuaGlue.Error
import LuaGlue.Log

namespace LuaGlue

/-- What an action leaves behind: the state it reached, what it recorded, and the error that ended
it. State and records are kept also when there is an error. -/
structure Outcome (σ : Type) where
  state : σ
  records : List Record := []
  error : Option Error := none

namespace Outcome

variable {σ τ : Type}

/-- One action after another. The second one only takes place if the first has no error. -/
def andThen (first : Outcome σ) (next : σ → Outcome σ) : Outcome σ :=
  match first.error with
  | some _ => first
  | none =>
    let second := next first.state
    { second with records := first.records ++ second.records }

/-- The same outcome for another view of the state. -/
def map (f : σ → τ) (outcome : Outcome σ) : Outcome τ :=
  ⟨f outcome.state, outcome.records, outcome.error⟩

theorem andThen_of_error {first : Outcome σ} {e : Error} (h : first.error = some e)
    (next : σ → Outcome σ) : first.andThen next = first := by
  simp only [andThen, h]

/-- Behind an action without an error the second one decides, but for the records. -/
theorem andThen_of_error_eq_none {first : Outcome σ} (h : first.error = none)
    (next : σ → Outcome σ) :
    first.andThen next =
      { next first.state with records := first.records ++ (next first.state).records } := by
  simp only [andThen, h]

theorem error_andThen_eq_none_iff {first : Outcome σ} {next : σ → Outcome σ} :
    (first.andThen next).error = none ↔ first.error = none ∧ (next first.state).error = none := by
  cases h : first.error with
  | none => simp [andThen_of_error_eq_none h]
  | some e => simp [andThen_of_error h, h]

/-- Records that are made behind an action change neither its state nor its error. -/
theorem andThen_records (first : Outcome σ) (records : List Record) :
    (first.andThen fun s => ⟨s, records, none⟩).state = first.state ∧
    (first.andThen fun s => ⟨s, records, none⟩).error = first.error := by
  cases h : first.error with
  | none =>
    rw [andThen_of_error_eq_none h]
    exact ⟨rfl, rfl⟩
  | some e =>
    rw [andThen_of_error h]
    exact ⟨rfl, h⟩

theorem andThen_nothing (first : Outcome σ) : (first.andThen fun s => ⟨s, [], none⟩) = first := by
  obtain ⟨state, records, error⟩ := first
  cases error with
  | none => simp [andThen]
  | some e => rfl

/-- Only the order of actions matters, not how they are grouped. -/
theorem andThen_assoc (first : Outcome σ) (second third : σ → Outcome σ) :
    (first.andThen second).andThen third = first.andThen fun s => (second s).andThen third := by
  cases h : first.error with
  | some e => rw [andThen_of_error h, andThen_of_error h, andThen_of_error h]
  | none =>
    rw [andThen_of_error_eq_none h, andThen_of_error_eq_none h]
    cases hs : (second first.state).error with
    | none => simp [andThen, hs, List.append_assoc]
    | some e => simp [andThen, hs]

/-- How many tokens an action has read, the rejected one included: each leaves one record. -/
def tokensFed (outcome : Outcome σ) : Nat :=
  outcome.records.countP Record.isFed

end Outcome

end LuaGlue
