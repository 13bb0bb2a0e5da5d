import LuaGlue.Proofs.Recognizer.Steps

namespace LuaGlue

/-- Behind the name of a class, up to its end. -/
def Place.InClass : Place → Prop
  | outside | className => False
  | classHead | nativeName | nativeNameEnd => True
  | memberType | memberName | paramsOpen | param | paramEnd => True

/-- Between the braces of a class. -/
def Place.InBody : Place → Prop
  | outside | className => False
  | classHead | nativeName | nativeNameEnd => False
  | memberType | memberName | paramsOpen | param | paramEnd => True

theorem Place.InBody.inClass {p : Place} (h : p.InBody) : p.InClass := by
  cases p with
  | outside => exact h
  | className => exact h
  | _ => trivial

/-- Two recognizers wait for the same, and agree on everything that is looked at from there. Between
two classes nothing is left of the last one, and before the body of a class nothing is left of the
last declaration: whatever is remembered of them is overwritten before it is looked at. -/
structure Recognizer.Alike (r s : Recognizer) : Prop where
  place_eq : r.place = s.place
  className_eq : r.place.InClass → r.className = s.className
  renamed_eq : r.place.InClass → r.renamed = s.renamed
  signature_eq : r.place.InBody → r.signature = s.signature

namespace Recognizer.Alike

theorem refl (r : Recognizer) : r.Alike r :=
  ⟨rfl, fun _ => rfl, fun _ => rfl, fun _ => rfl⟩

/-- Between two classes a recognizer is as good as any other that is there. -/
theorem of_not_inClass {r s : Recognizer} (hplace : r.place = s.place)
    (hnot : ¬ r.place.InClass) : r.Alike s where
  place_eq := hplace
  className_eq h := absurd h hnot
  renamed_eq h := absurd h hnot
  signature_eq h := absurd h.inClass hnot

/-- Before the body of a class the declaration does not matter. -/
theorem of_not_inBody {r s : Recognizer} (hplace : r.place = s.place)
    (hclassName : r.className = s.className) (hrenamed : r.renamed = s.renamed)
    (hnot : ¬ r.place.InBody) : r.Alike s where
  place_eq := hplace
  className_eq _ := hclassName
  renamed_eq _ := hrenamed
  signature_eq h := absurd h hnot

theorem eq_of_inBody {r s : Recognizer} (h : r.Alike s) (hbody : r.place.InBody) : r = s := by
  have hplace := h.place_eq
  have hclassName := h.className_eq hbody.inClass
  have hrenamed := h.renamed_eq hbody.inClass
  have hsignature := h.signature_eq hbody
  cases r
  cases s
  simp_all only

theorem finish?_eq {r s : Recognizer} (h : r.Alike s) : r.finish? = s.finish? := by
  rw [finish?, finish?, h.place_eq]

end Recognizer.Alike

/-- Two steps do the same and lead to recognizers that are alike. -/
inductive Step.Alike : Step → Step → Prop where
  | next {after after' : Recognizer} (h : after.Alike after') : Alike (.next after) (.next after')
  | tell (event : Event) {accepted accepted' refused refused' : Recognizer}
      (haccepted : accepted.Alike accepted') (hrefused : refused.Alike refused') :
      Alike (.tell event accepted refused) (.tell event accepted' refused')
  | reject (error : Error) : Alike (.reject error) (.reject error)

theorem Step.Alike.refl (step : Step) : step.Alike step := by
  cases step with
  | next after => exact .next (.refl after)
  | tell event accepted refused => exact .tell event (.refl accepted) (.refl refused)
  | reject error => exact .reject error

namespace Recognizer

/-- A token does the same to recognizers that are alike. -/
theorem Alike.step {r s : Recognizer} (h : r.Alike s) (t : Token) :
    (r.step t).Alike (s.step t) := by
  by_cases hbody : r.place.InBody
  · rw [h.eq_of_inBody hbody]
    exact .refl _
  obtain ⟨hplace, hclassName, hrenamed, -⟩ := h
  obtain ⟨place, className, renamed, signature⟩ := r
  obtain ⟨place', className', renamed', signature'⟩ := s
  obtain rfl : place = place' := hplace
  cases place with
  | outside =>
    rw [step_outside rfl, step_outside rfl]
    split
    · exact .next (.of_not_inClass rfl id)
    · exact .reject _
  | className =>
    rw [step_className rfl, step_className rfl]
    exact .tell _ (.of_not_inBody rfl rfl rfl id)
      (.of_not_inClass rfl id)
  | classHead =>
    obtain rfl : className = className' := hclassName trivial
    obtain rfl : renamed = renamed' := hrenamed trivial
    rw [step_classHead rfl, step_classHead rfl]
    split
    · exact .next (.refl _)
    split
    · split
      · exact .reject _
      · exact .next (.of_not_inBody rfl rfl rfl id)
    · exact .next (.of_not_inBody rfl rfl rfl hbody)
  | nativeName =>
    obtain rfl : className = className' := hclassName trivial
    obtain rfl : renamed = renamed' := hrenamed trivial
    rw [step_nativeName rfl, step_nativeName rfl]
    exact .tell _ (.of_not_inBody rfl rfl rfl id)
      (.of_not_inBody rfl rfl rfl hbody)
  | nativeNameEnd =>
    obtain rfl : className = className' := hclassName trivial
    obtain rfl : renamed = renamed' := hrenamed trivial
    rw [step_nativeNameEnd rfl, step_nativeNameEnd rfl]
    split
    · exact .next (.of_not_inBody rfl rfl rfl id)
    · exact .reject _
  | _ => exact absurd trivial hbody

/-- Only the start of a class leads into one. -/
theorem inClass_of_next {r after : Recognizer} {t : Token} (hstep : r.step t = .next after)
    (hafter : after.place.InClass) : r.place.InClass := by
  cases moves_of_step hstep with
  | classKeyword => exact hafter.elim
  | passedOver | semicolon | staticKeyword | indirection | modifier => exact hafter
  | bodyStart hplace | nativeNameStart hplace | nativeNameEnd hplace | ctorKeyword hplace
  | returns hplace | name hplace | paramsStart hplace | param hplace | comma hplace =>
    rw [hplace]
    trivial

/-- An event is the start of a class, or it is told in a class. -/
theorem classStart_or_inClass_of_tell {r accepted refused : Recognizer} {t : Token} {event : Event}
    (hstep : r.step t = .tell event accepted refused) :
    (∃ name, event = .classStart name ∧ refused = r ∧ r.place = .className) ∨
      r.place.InClass := by
  cases tells_of_step hstep with
  | classStart hplace => exact .inl ⟨_, rfl, rfl, hplace⟩
  | nativeName hplace | classEnd hplace =>
    rw [hplace]
    exact .inr trivial
  | declaration hplace =>
    rcases hplace with hplace | hplace <;> rw [hplace] <;> exact .inr trivial

end Recognizer

end LuaGlue
