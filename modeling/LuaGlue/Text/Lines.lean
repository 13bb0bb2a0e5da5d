namespace LuaGlue.Text

/-- The text with these lines, each of them ended by a line feed. -/
def ofLines : List String → String
  | [] => ""
  | line :: rest => line ++ "\n" ++ ofLines rest

@[simp]
theorem ofLines_append (first second : List String) :
    ofLines (first ++ second) = ofLines first ++ ofLines second := by
  induction first with
  | nil => simp [ofLines]
  | cons line rest ih => simp [ofLines, ih, String.append_assoc]

end LuaGlue.Text
