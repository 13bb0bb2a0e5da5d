import LuaGlue.CommandLine

namespace LuaGlue.CommandLine

theorem exists_of_bind_eq_ok {α β : Type} {x : Except Stop α} {f : α → Except Stop β} {b : β}
    (h : (x >>= f) = .ok b) : ∃ a, x = .ok a ∧ f a = .ok b := by
  cases x with
  | error stop => cases h
  | ok a => exact ⟨a, rfl, h⟩

/-- The options that take a value. -/
inductive Flag where
  | output
  | config
  deriving DecidableEq

namespace Flag

def slot : Flag → Slot
  | output => .output
  | config => .config

def long : Flag → String
  | output => "--output"
  | config => "--config"

def short : Flag → String
  | output => "-o"
  | config => "-c"

end Flag

/-- The forms in which an option is written with its value. All of them come to the same. -/
inductive Spelling where
  | longApart
  | longEquals
  | shortApart
  | shortAttached
  | shortEquals
  deriving DecidableEq

/-- A part of a command line that gives a value. -/
inductive Part where
  | input (value : String)
  | option (flag : Flag) (spelling : Spelling) (value : String)
  deriving DecidableEq

/-- A word that is no option: it does not start with a dash, or it is a dash alone. -/
def IsPlain (word : String) : Prop :=
  word.toList.head? = some '-' → word = "-"

instance (word : String) : Decidable (IsPlain word) :=
  inferInstanceAs (Decidable (_ → _))

namespace Part

def slot : Part → Slot
  | input _ => .input
  | option flag _ _ => flag.slot

def value : Part → String
  | input value => value
  | option _ _ value => value

def words : Part → List String
  | input value => [value]
  | option flag .longApart value => [flag.long, value]
  | option flag .longEquals value => [flag.long ++ "=" ++ value]
  | option flag .shortApart value => [flag.short, value]
  | option flag .shortAttached value => [flag.short ++ value]
  | option flag .shortEquals value => [flag.short ++ "=" ++ value]

/-- The value is a word of its own. -/
def isApart : Part → Bool
  | input _ => true
  | option _ .longApart _ | option _ .shortApart _ => true
  | option _ .longEquals _ | option _ .shortAttached _ | option _ .shortEquals _ => false

/-- The value stands right behind the letter of an option. -/
def isAttached : Part → Bool
  | option _ .shortAttached _ => true
  | _ => false

/-- A part that can only be read in one way. The value is not empty and is not taken for an option,
and behind a letter it does not start like one of the other forms. -/
structure Clear (p : Part) : Prop where
  value_ne : p.value ≠ ""
  plain : p.isApart = true → IsPlain p.value
  attached : p.isAttached = true →
    p.value.toList.head? ≠ some '=' ∧ p.value.toList.head? ≠ some '-'

instance (p : Part) : Decidable p.Clear :=
  decidable_of_iff
    (p.value ≠ "" ∧ (p.isApart = true → IsPlain p.value) ∧
      (p.isAttached = true →
        p.value.toList.head? ≠ some '=' ∧ p.value.toList.head? ≠ some '-'))
    ⟨fun h => ⟨h.1, h.2.1, h.2.2⟩, fun h => ⟨h.value_ne, h.plain, h.attached⟩⟩

end Part

theorem formOf_plain {word : String} (h : IsPlain word) : formOf word.toList = .plain := by
  cases hchars : word.toList with
  | nil => rfl
  | cons c cs =>
    by_cases hc : c = '-'
    · subst hc
      have hword := h (congrArg List.head? hchars)
      rw [hword] at hchars
      cases hchars
      rfl
    · unfold formOf
      split <;> simp_all

/-- How an option is written decides what it is read as. -/
theorem formOf_long (flag : Flag) :
    ∃ name, long? name = some (.value flag.slot) ∧ formOf flag.long.toList = .long name none ∧
      ∀ value, formOf (flag.long ++ "=" ++ value).toList = .long name (some value) := by
  have hvalue : ∀ (name value : String), Form.long name (some (String.ofList value.toList)) =
      .long name (some value) := by
    intro name value
    rw [String.ofList_toList]
  cases flag with
  | output =>
    refine ⟨"output", rfl, rfl, fun value => ?_⟩
    rw [String.toList_append, String.toList_append]
    exact hvalue "output" value
  | config =>
    refine ⟨"config", rfl, rfl, fun value => ?_⟩
    rw [String.toList_append, String.toList_append]
    exact hvalue "config" value

theorem formOf_short (flag : Flag) :
    ∃ letter, short? letter = some (.value flag.slot) ∧
      ∀ value, formOf (flag.short ++ value).toList = .short letter value.toList := by
  cases flag with
  | output =>
    refine ⟨'o', rfl, fun value => ?_⟩
    rw [String.toList_append]
    rfl
  | config =>
    refine ⟨'c', rfl, fun value => ?_⟩
    rw [String.toList_append]
    rfl

theorem attached?_of_head? {value : String} (hne : value ≠ "")
    (h : value.toList.head? ≠ some '=') : attached? value.toList = some value := by
  cases hchars : value.toList with
  | nil => exact absurd (String.toList_eq_nil_iff.1 hchars) hne
  | cons c cs =>
    have hequals : c ≠ '=' := by simpa [hchars] using h
    have hvalue : some (String.ofList (c :: cs)) = some value := by
      rw [← hchars, String.ofList_toList]
    unfold attached?
    split <;> simp_all

namespace Scan

variable {s t : Scan} {p : Part} {parts : List Part} {word value : String} {slot : Slot}

/-- Every argument taken up so far has its value. -/
def Complete (s : Scan) : Prop :=
  ∀ slot, s.pending ≠ some (slot, none)

/-- Takes up a part with its value, which is not checked yet. -/
def put (s : Scan) (p : Part) : Scan :=
  { s with pending := some (p.slot, some p.value) }

/-- Takes up a part and checks it at once. -/
def accept (s : Scan) (p : Part) : Except Stop Scan :=
  if (s.given p.slot).isSome then .error .conflict else .ok (s.give p.slot p.value)

theorem given_give (s : Scan) (slot other : Slot) (value : String) :
    (s.give slot value).given other = if slot = other then some value else s.given other := by
  cases slot <;> cases other <;> rfl

@[simp] theorem literal_give (s : Scan) (slot : Slot) (value : String) :
    (s.give slot value).literal = s.literal := by
  cases slot <;> rfl

@[simp] theorem pending_give (s : Scan) (slot : Slot) (value : String) :
    (s.give slot value).pending = s.pending := by
  cases slot <;> rfl

theorem give_comm {other : Slot} (h : slot ≠ other) (s : Scan) (value value' : String) :
    (s.give slot value).give other value' = (s.give other value').give slot value := by
  cases slot <;> cases other <;> first | rfl | exact absurd rfl h

theorem settle_of_pending_eq_none (h : s.pending = none) : s.settle = .ok s := by
  simp only [settle, h]

/-- Checking an argument ends its being pending. What has an input keeps it. -/
theorem settle_spec (h : s.settle = .ok t) :
    t.pending = none ∧ t.literal = s.literal ∧ t.hasInput = s.hasInput := by
  cases hpending : s.pending with
  | none =>
    rw [settle_of_pending_eq_none hpending] at h
    cases h
    exact ⟨hpending, rfl, rfl⟩
  | some pending =>
    obtain ⟨slot, given⟩ := pending
    cases given with
    | none => simp [settle, hpending] at h
    | some value =>
      simp only [settle, hpending] at h
      split at h
      · cases h
      · split at h
        · cases h
        · cases h
          refine ⟨by simp, by simp, ?_⟩
          cases slot <;> simp [hasInput, give, hpending]

theorem settle_put (h : t.pending = none) (hne : p.value ≠ "") : (t.put p).settle = t.accept p := by
  have hsettle : (t.put p).settle =
      if ((t.put p).given p.slot).isSome then .error .conflict
      else if p.value = "" then .error .invalidValue
      else .ok ({ t.put p with pending := none }.give p.slot p.value) := rfl
  have hgiven : (t.put p).given p.slot = t.given p.slot := by
    cases p.slot <;> rfl
  have hcleared : { t.put p with pending := none } = t := by
    cases t
    cases h
    rfl
  rw [hsettle, hgiven, hcleared, if_neg hne, accept]

theorem hasInput_put (hpending : t.pending = none) (p : Part) :
    (t.put p).hasInput = (t.hasInput || decide (p.slot = .input)) := by
  simp [hasInput, put, hpending]

theorem hasInput_give (hpending : t.pending = none) (slot : Slot) (value : String) :
    (t.give slot value).hasInput = (t.hasInput || decide (slot = .input)) := by
  cases slot <;> simp [hasInput, give, hpending]

theorem accept_eq_ok (h : s.accept p = .ok t) : t = s.give p.slot p.value := by
  rw [accept] at h
  split at h
  · cases h
  · exact (Except.ok.inj h).symm

theorem take_plain (hliteral : s.literal = false) (hcomplete : s.Complete) (h : IsPlain word) :
    s.take word = s.takeInput word := by
  rw [take, hliteral, formOf_plain h]
  cases hpending : s.pending with
  | none => simp
  | some pending =>
    obtain ⟨slot, value⟩ := pending
    cases value with
    | none => exact absurd hpending (hcomplete slot)
    | some value => simp

theorem take_missing (hliteral : s.literal = false) (hpending : s.pending = some (slot, none))
    (h : IsPlain word) : s.take word = .ok { s with pending := some (slot, some word) } := by
  rw [take, hliteral, formOf_plain h]
  simp [hpending]

theorem take_long {name : String} {attached : Option String} (hliteral : s.literal = false)
    (hform : formOf word.toList = .long name attached) (hname : long? name = some (.value slot)) :
    s.take word = s.takeOption slot attached := by
  rw [take, hliteral, hform]
  simp [hname]

theorem take_short {letter : Char} {rest : List Char} (hliteral : s.literal = false)
    (hform : formOf word.toList = .short letter rest)
    (hletter : short? letter = some (.value slot)) :
    s.take word = s.takeOption slot (attached? rest) := by
  rw [take, hliteral, hform]
  simp [hletter]

theorem takeInput_eq (hinput : s.hasInput = false) (value : String) :
    s.takeInput value = s.settle >>= fun t => .ok (t.put (.input value)) := by
  rw [takeInput, hinput]
  cases s.settle <;> rfl

/-- An option whose value is the next word. -/
theorem takeOption_apart (hliteral : s.literal = false) (hplain : IsPlain p.value) :
    (s.takeOption p.slot none >>= fun t => t.take p.value) =
      s.settle >>= fun t => .ok (t.put p) := by
  rw [takeOption]
  cases hsettle : s.settle with
  | error stop => rfl
  | ok t =>
    have hliteral' : t.literal = false := (settle_spec hsettle).2.1.trans hliteral
    exact take_missing hliteral' rfl hplain

/-- An option whose value is in the same word. -/
theorem takeOption_attached (hne : p.value ≠ "") :
    s.takeOption p.slot (some p.value) = s.settle >>= fun t => t.accept p := by
  rw [takeOption]
  cases hsettle : s.settle with
  | error stop => rfl
  | ok t => exact settle_put (settle_spec hsettle).1 hne

/-- What a scan has to be for parts to be read into it: everything in front has its value, options
may still follow, and there is room for the inputs. -/
structure Ready (s : Scan) (parts : List Part) : Prop where
  literal : s.literal = false
  complete : s.Complete
  room : s.hasInput.toNat + (parts.map Part.slot).count .input ≤ 1

theorem Ready.head (h : s.Ready (p :: parts)) (hslot : p.slot = .input) : s.hasInput = false := by
  have hroom := h.room
  rw [List.map_cons, hslot, List.count_cons_self] at hroom
  exact Bool.toNat_eq_zero.1 (by omega)

theorem Ready.tail (h : s.Ready (p :: parts)) (hliteral : t.literal = false)
    (hcomplete : t.Complete)
    (hinput : t.hasInput = (s.hasInput || decide (p.slot = .input))) : t.Ready parts := by
  have hroom := h.room
  refine ⟨hliteral, hcomplete, ?_⟩
  by_cases hslot : p.slot = .input
  · rw [List.map_cons, hslot, List.count_cons_self] at hroom
    simp only [hinput, hslot, decide_true, Bool.or_true, Bool.toNat_true]
    omega
  · rw [List.map_cons, List.count_cons_of_ne hslot] at hroom
    simpa [hinput, hslot] using hroom

theorem Ready.front {rest : List Part} (h : s.Ready (parts ++ rest)) : s.Ready parts := by
  have hroom := h.room
  rw [List.map_append, List.count_append] at hroom
  exact ⟨h.literal, h.complete, by omega⟩

/-- What a part does to a scan, in whatever form it is written: the argument before it is checked,
and the part is taken up. It is checked at once if its value is in the same word. -/
theorem foldlM_words (h : s.Ready (p :: parts)) (hclear : p.Clear) :
    p.words.foldlM take s =
      s.settle >>= fun t => if p.isApart then .ok (t.put p) else t.accept p := by
  cases p with
  | input value =>
    have hplain : IsPlain value := hclear.plain rfl
    rw [Part.words, List.foldlM_cons, take_plain h.literal h.complete hplain,
      takeInput_eq (h.head rfl)]
    exact bind_pure _
  | option flag spelling value =>
    obtain ⟨name, hname, hlong, hequals⟩ := formOf_long flag
    obtain ⟨letter, hletter, hshort⟩ := formOf_short flag
    have hne : value ≠ "" := hclear.value_ne
    cases spelling with
    | longApart =>
      rw [Part.words, List.foldlM_cons, take_long h.literal hlong hname]
      simp only [List.foldlM_cons, List.foldlM_nil, bind_pure]
      exact takeOption_apart h.literal (hclear.plain rfl)
    | longEquals =>
      rw [Part.words, List.foldlM_cons, take_long h.literal (hequals value) hname]
      simp only [List.foldlM_nil, bind_pure]
      exact takeOption_attached hclear.value_ne
    | shortApart =>
      have hform : formOf flag.short.toList = .short letter [] := by
        simpa using hshort ""
      rw [Part.words, List.foldlM_cons, take_short h.literal hform hletter]
      simp only [List.foldlM_cons, List.foldlM_nil, bind_pure]
      exact takeOption_apart h.literal (hclear.plain rfl)
    | shortAttached =>
      rw [Part.words, List.foldlM_cons, take_short h.literal (hshort value) hletter,
        attached?_of_head? hne (hclear.attached rfl).1]
      simp only [List.foldlM_nil, bind_pure]
      exact takeOption_attached hclear.value_ne
    | shortEquals =>
      have hform : formOf (flag.short ++ "=" ++ value).toList =
          .short letter ('=' :: value.toList) := by
        simpa [String.append_assoc] using hshort ("=" ++ value)
      have hattached : attached? ('=' :: value.toList) = some value := by
        simp [attached?]
      rw [Part.words, List.foldlM_cons, take_short h.literal hform hletter, hattached]
      simp only [List.foldlM_nil, bind_pure]
      exact takeOption_attached hclear.value_ne

/-- A part that was read leaves room for the others. -/
theorem Ready.of_words (h : s.Ready (p :: parts)) (hclear : p.Clear)
    (hread : p.words.foldlM take s = .ok t) : t.Ready parts := by
  rw [foldlM_words h hclear] at hread
  obtain ⟨r, hsettle, hread⟩ := exists_of_bind_eq_ok hread
  obtain ⟨hpending, hliteral, hinput⟩ := settle_spec hsettle
  rw [h.literal] at hliteral
  split at hread
  · cases hread
    refine h.tail hliteral (fun slot hslot => ?_) (by rw [hasInput_put hpending, hinput])
    simp [put] at hslot
  · cases accept_eq_ok hread
    refine h.tail (by simpa using hliteral) (fun slot hslot => ?_)
      (by rw [hasInput_give hpending, hinput])
    simp [hpending] at hslot

/-- An argument is only checked when the next one is taken up, which makes no difference in the
end. -/
theorem words_settle (h : s.Ready (p :: parts)) (hclear : p.Clear) :
    (p.words.foldlM take s >>= settle) = s.settle >>= fun t => t.accept p := by
  rw [foldlM_words h hclear]
  cases hsettle : s.settle with
  | error stop => rfl
  | ok t =>
    have hput : (t.put p).settle = t.accept p := settle_put (settle_spec hsettle).1 hclear.value_ne
    change ((if p.isApart then .ok (t.put p) else t.accept p) >>= settle) = t.accept p
    split
    · exact hput
    · cases haccept : t.accept p with
      | error stop => rfl
      | ok r =>
        rw [← hput] at haccept
        exact settle_of_pending_eq_none (settle_spec haccept).1

end Scan

end LuaGlue.CommandLine
