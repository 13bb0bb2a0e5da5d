import LuaGlue.Outcome

namespace LuaGlue

/-- Bytes in the order they were written, never more than the limit: what is in a sink is always a
front part of everything that was written to it. -/
structure Sink where
  limit : Option Nat := none
  bytes : ByteArray := .empty
  size_le : ∀ n, limit = some n → bytes.size ≤ n := by simp

namespace Sink

def ofLimit (limit : Option Nat) : Sink where
  limit := limit

/-- Writes a text. Where it does not fit, what fits of it is written before the error. -/
def write (sink : Sink) (text : String) : Outcome Sink :=
  let all := sink.bytes ++ text.toUTF8
  match h : sink.limit with
  | none => ⟨{ bytes := all }, [], none⟩
  | some n =>
    if hn : all.size ≤ n then
      ⟨{ limit := some n, bytes := all, size_le := by simpa using hn }, [], none⟩
    else
      ⟨{ limit := some n, bytes := all.extract 0 n,
         size_le := by intro m hm; cases hm; rw [ByteArray.size_extract]; omega }, [], some .sinkFull⟩

/-- A limit that is not exceeded cuts nothing off. -/
theorem extract_of_size_le {bytes : ByteArray} {n : Nat} (h : bytes.size ≤ n) :
    bytes.extract 0 n = bytes := by
  rw [← Nat.max_eq_left h, ByteArray.extract_zero_max_size]

/-- What is appended behind a limit is cut off. -/
theorem extract_append_of_le {bytes : ByteArray} {n : Nat} (h : n ≤ bytes.size)
    (more : ByteArray) : (bytes ++ more).extract 0 n = bytes.extract 0 n := by
  rw [ByteArray.extract_append, Nat.zero_sub, Nat.sub_eq_zero_of_le h, ByteArray.extract_same,
    ByteArray.append_empty]

/-- An unlimited sink takes everything. -/
theorem write_of_limit_eq_none {sink : Sink} (h : sink.limit = none) (text : String) :
    (sink.write text).state.bytes = sink.bytes ++ text.toUTF8 ∧ (sink.write text).error = none := by
  obtain ⟨limit, bytes, hsize⟩ := sink
  cases h
  exact ⟨rfl, rfl⟩

/-- A limited sink takes what fits. -/
theorem write_of_limit_eq_some {sink : Sink} {n : Nat} (h : sink.limit = some n) (text : String) :
    (sink.write text).state.bytes = (sink.bytes ++ text.toUTF8).extract 0 n ∧
    (sink.write text).error =
      if (sink.bytes ++ text.toUTF8).size ≤ n then none else some .sinkFull := by
  obtain ⟨limit, bytes, hsize⟩ := sink
  cases h
  simp only [write]
  split
  · rename_i hle
    exact ⟨(extract_of_size_le hle).symm, rfl⟩
  · exact ⟨rfl, rfl⟩

@[simp]
theorem limit_write (sink : Sink) (text : String) :
    (sink.write text).state.limit = sink.limit := by
  obtain ⟨limit, bytes, hsize⟩ := sink
  cases limit with
  | none => rfl
  | some n =>
    simp only [write]
    split <;> rfl

@[simp]
theorem records_write (sink : Sink) (text : String) : (sink.write text).records = [] := by
  obtain ⟨limit, bytes, hsize⟩ := sink
  cases limit with
  | none => rfl
  | some n =>
    simp only [write]
    split <;> rfl

/-- What was written after the first `start` bytes. -/
def bytesFrom (sink : Sink) (start : Nat) : ByteArray :=
  sink.bytes.extract start sink.bytes.size

end Sink

end LuaGlue
