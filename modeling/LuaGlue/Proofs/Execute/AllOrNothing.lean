import LuaGlue.Execute
import LuaGlue.Proofs.FileTree.Replacing

namespace LuaGlue

theorem fromUTF8?_eq_some_iff {bytes : ByteArray} {text : String} :
    String.fromUTF8? bytes = some text ↔ bytes = text.toUTF8 := by
  unfold String.fromUTF8?
  constructor
  · intro h
    split at h
    · cases h
      rfl
    · cases h
  · rintro rfl
    exact dif_pos text.isValidUTF8

namespace Contents

variable (contents : Contents)

/-- The file at a path holds a text. -/
def Holds (path text : String) : Prop :=
  contents path = .ok text.toUTF8

/-- The file at a path gives no text: it cannot be read, or its bytes are those of no text. -/
def Unreadable (path : String) (cause : FileError) : Prop :=
  contents path = .error cause ∨
    cause = .notText ∧ ∃ bytes, contents path = .ok bytes ∧ ∀ text : String, text.toUTF8 ≠ bytes

/-- The settings of a command line are those in the file that it names, or else the usual ones. -/
def Configures (args : CommandLine) (settings : Settings) : Prop :=
  match args.config with
  | none => settings = {}
  | some path => ∃ text, contents.Holds path text ∧ Settings.ofJson text = .ok settings

/-- What stops a wrapping first: the settings are read and loaded, and only then the description is
read and wrapped. -/
inductive FirstFailure (args : CommandLine) : Failure → Prop
  | settingsUnreadable {path : String} {e : FileError} (hpath : args.config = some path)
      (h : contents.Unreadable path e) : FirstFailure args (.reading path e)
  | settingsRefused {path text : String} {e : Json.Error} (hpath : args.config = some path)
      (hread : contents.Holds path text) (h : Settings.ofJson text = .error e) :
      FirstFailure args (.loading path e)
  | descriptionUnreadable {settings : Settings} {e : FileError}
      (hsettings : contents.Configures args settings) (h : contents.Unreadable args.input e) :
      FirstFailure args (.reading args.input e)
  | descriptionRefused {settings : Settings} {source : String} {e : Error}
      (hsettings : contents.Configures args settings) (hread : contents.Holds args.input source)
      (h : (generate settings (.ofLimit none) source).error = some e) :
      FirstFailure args (.wrapping args.input e)

/-- The files of a command line hold settings and a description, and these bytes are all that is
generated for them. -/
def WrapsAs (args : CommandLine) (bytes : ByteArray) : Prop :=
  ∃ settings source, contents.Configures args settings ∧ contents.Holds args.input source ∧
    (generate settings (.ofLimit none) source).error = none ∧
    bytes = (generate settings (.ofLimit none) source).state.sink.bytes

variable {contents} {args : CommandLine} {path text : String} {e : FileError}

theorem Holds.readText_eq (h : contents.Holds path text) : readText contents path = .ok text := by
  have htext : String.fromUTF8? text.toUTF8 = some text := fromUTF8?_eq_some_iff.2 rfl
  unfold Holds at h
  simp only [readText, h, htext]

theorem Unreadable.readText_eq (h : contents.Unreadable path e) :
    readText contents path = .error (.reading path e) := by
  rcases h with hread | ⟨rfl, bytes, hread, hno⟩
  · simp only [readText, hread]
  · cases htext : String.fromUTF8? bytes with
    | none => simp only [readText, hread, htext]
    | some text => exact absurd (fromUTF8?_eq_some_iff.1 htext).symm (hno text)

theorem Configures.loadSettings_eq {settings : Settings} (h : contents.Configures args settings) :
    loadSettings contents args = .ok settings := by
  cases hconfig : args.config with
  | none =>
    simp only [Configures, hconfig] at h
    simp only [loadSettings, hconfig, h]
  | some path =>
    simp only [Configures, hconfig] at h
    obtain ⟨text, hread, hload⟩ := h
    simp only [loadSettings, hconfig, hread.readText_eq, hload]

theorem wrap_result_of_holds {settings : Settings} {source : String}
    (hsettings : contents.Configures args settings) (hread : contents.Holds args.input source) :
    (wrap contents args).result =
      match (generate settings (.ofLimit none) source).error with
      | some e => .error (.wrapping args.input e)
      | none => .ok (generate settings (.ofLimit none) source).state.sink.bytes := by
  have hsink : generate settings {} source = generate settings (.ofLimit none) source := rfl
  unfold wrap
  simp only [hsettings.loadSettings_eq, hread.readText_eq, hsink]
  cases (generate settings (.ofLimit none) source).error <;> rfl

theorem FirstFailure.wrap_result {failure : Failure} (h : contents.FirstFailure args failure) :
    (wrap contents args).result = .error failure := by
  cases h with
  | settingsUnreadable hpath h => simp only [wrap, loadSettings, hpath, h.readText_eq]
  | settingsRefused hpath hread h => simp only [wrap, loadSettings, hpath, hread.readText_eq, h]
  | descriptionUnreadable hsettings h =>
    simp only [wrap, hsettings.loadSettings_eq, h.readText_eq]
  | descriptionRefused hsettings hread h => rw [wrap_result_of_holds hsettings hread, h]

theorem WrapsAs.wrap_result {bytes : ByteArray} (h : contents.WrapsAs args bytes) :
    (wrap contents args).result = .ok bytes := by
  obtain ⟨settings, source, hsettings, hread, hwrap, rfl⟩ := h
  rw [wrap_result_of_holds hsettings hread, hwrap]

theorem holds_or_unreadable (contents : Contents) (path : String) :
    (∃ text, contents.Holds path text) ∨ ∃ e, contents.Unreadable path e := by
  cases hread : contents path with
  | error e => exact .inr ⟨e, .inl hread⟩
  | ok bytes =>
    by_cases htext : ∃ text : String, text.toUTF8 = bytes
    · obtain ⟨text, rfl⟩ := htext
      exact .inl ⟨text, hread⟩
    · exact .inr ⟨.notText, .inr ⟨rfl, bytes, hread, not_exists.1 htext⟩⟩

/-- A stage that is reached fails, or it gives what the next one needs. -/
theorem firstFailure_or_wrapsAs (contents : Contents) (args : CommandLine) :
    (∃ failure, contents.FirstFailure args failure) ∨ ∃ bytes, contents.WrapsAs args bytes := by
  have hsettings : (∃ failure, contents.FirstFailure args failure) ∨
      ∃ settings, contents.Configures args settings := by
    cases hconfig : args.config with
    | none =>
      refine .inr ⟨{}, ?_⟩
      simp only [Configures, hconfig]
    | some path =>
      rcases contents.holds_or_unreadable path with ⟨text, hread⟩ | ⟨e, hread⟩
      · cases hload : Settings.ofJson text with
        | error e => exact .inl ⟨_, .settingsRefused hconfig hread hload⟩
        | ok settings =>
          refine .inr ⟨settings, ?_⟩
          simp only [Configures, hconfig]
          exact ⟨text, hread, hload⟩
      · exact .inl ⟨_, .settingsUnreadable hconfig hread⟩
  rcases hsettings with hfails | ⟨settings, hsettings⟩
  · exact .inl hfails
  rcases contents.holds_or_unreadable args.input with ⟨source, hread⟩ | ⟨e, hread⟩
  · cases hwrap : (generate settings (.ofLimit none) source).error with
    | none => exact .inr ⟨_, settings, source, hsettings, hread, hwrap, rfl⟩
    | some e => exact .inl ⟨_, .descriptionRefused hsettings hread hwrap⟩
  · exact .inl ⟨_, .descriptionUnreadable hsettings hread⟩

end Contents

/-- What stops a run first: the wrapping fails, or else what was wrapped cannot be written. -/
inductive FirstFailure (args : CommandLine) (tree : FileTree) (refusals : Refusals) :
    Failure → Prop
  | wrapping {failure : Failure}
      (h : Contents.FirstFailure (tree.readUnless refusals) args failure) :
      FirstFailure args tree refusals failure
  | unwritable {path : String} {bytes : ByteArray} {e : FileError}
      (hwraps : Contents.WrapsAs (tree.readUnless refusals) args bytes)
      (hpath : args.output = some path) (h : tree.writeUnless refusals path bytes = .error e) :
      FirstFailure args tree refusals (.writing path e)

/-- What a run can do: it fails and leaves everything as it was, or it writes one file, or it
prints. -/
theorem execute_cases (args : CommandLine) (tree : FileTree) (refusals : Refusals) :
    (∃ failure, FirstFailure args tree refusals failure ∧
      (execute args tree refusals).failure = some failure ∧
      (execute args tree refusals).tree = tree ∧
      (execute args tree refusals).printed = .empty) ∨
    (∃ bytes path, Contents.WrapsAs (tree.readUnless refusals) args bytes ∧
      args.output = some path ∧ (execute args tree refusals).failure = none ∧
      tree.Replaces path bytes (execute args tree refusals).tree ∧
      (execute args tree refusals).printed = .empty) ∨
    (∃ bytes, Contents.WrapsAs (tree.readUnless refusals) args bytes ∧ args.output = none ∧
      (execute args tree refusals).failure = none ∧
      (execute args tree refusals).tree = tree ∧
      (execute args tree refusals).printed = bytes) := by
  rcases Contents.firstFailure_or_wrapsAs (tree.readUnless refusals) args with
    ⟨failure, hfirst⟩ | ⟨bytes, hwraps⟩
  · refine .inl ⟨failure, .wrapping hfirst, ?_⟩
    simp only [execute, hfirst.wrap_result, and_self]
  · cases houtput : args.output with
    | none =>
      refine .inr (.inr ⟨bytes, hwraps, rfl, ?_⟩)
      simp only [execute, hwraps.wrap_result, houtput, and_self]
    | some path =>
      cases hwrite : tree.writeUnless refusals path bytes with
      | error e =>
        refine .inl ⟨_, .unwritable hwraps houtput hwrite, ?_⟩
        simp only [execute, hwraps.wrap_result, houtput, hwrite, and_self]
      | ok after =>
        refine .inr (.inl ⟨bytes, path, hwraps, rfl, ?_⟩)
        simp only [execute, hwraps.wrap_result, houtput, hwrite, and_true, true_and]
        exact FileTree.replaces_of_writeUnless hwrite

theorem execute_failure_eq_some_iff {args : CommandLine} {tree : FileTree} {refusals : Refusals}
    {failure : Failure} :
    (execute args tree refusals).failure = some failure ↔
      FirstFailure args tree refusals failure := by
  constructor
  · intro h
    rcases execute_cases args tree refusals with
      ⟨first, hfirst, hfails, -⟩ | ⟨-, -, -, -, hnone, -⟩ | ⟨-, -, -, hnone, -⟩
    · obtain rfl : first = failure := Option.some.inj (hfails.symm.trans h)
      exact hfirst
    · cases hnone.symm.trans h
    · cases hnone.symm.trans h
  · rintro (h | ⟨hwraps, hpath, h⟩)
    · simp only [execute, h.wrap_result]
    · simp only [execute, hwraps.wrap_result, hpath, h]

/-- A run fails exactly with the failure of the first stage that fails, and then no file is changed
and nothing is printed. Otherwise settings and description were taken from the files as they were
before the run, and the text becomes the whole contents of the one file at the output path, or it is
printed and no file is changed. The system may refuse any path. -/
theorem execute_all_or_nothing (args : CommandLine) (tree : FileTree) (refusals : Refusals) :
    (∀ failure, (execute args tree refusals).failure = some failure ↔
      FirstFailure args tree refusals failure) ∧
    ((execute args tree refusals).failure ≠ none →
      (execute args tree refusals).tree = tree ∧
      (execute args tree refusals).printed = .empty) ∧
    ((execute args tree refusals).failure = none →
      ∃ bytes, Contents.WrapsAs (tree.readUnless refusals) args bytes ∧
        (∀ path, args.output = some path →
          tree.Replaces path bytes (execute args tree refusals).tree ∧
          (execute args tree refusals).printed = .empty) ∧
        (args.output = none →
          (execute args tree refusals).tree = tree ∧
          (execute args tree refusals).printed = bytes)) := by
  refine ⟨fun failure => execute_failure_eq_some_iff, fun hfails => ?_, fun hnone => ?_⟩
  · rcases execute_cases args tree refusals with
      ⟨-, -, -, hkept⟩ | ⟨-, -, -, -, hnone, -⟩ | ⟨-, -, -, hnone, -⟩
    · exact hkept
    · exact absurd hnone hfails
    · exact absurd hnone hfails
  · rcases execute_cases args tree refusals with ⟨failure, -, hfails, -⟩ |
      ⟨bytes, path, hwraps, houtput, -, hwritten⟩ | ⟨bytes, hwraps, houtput, -, hprinted⟩
    · cases hfails.symm.trans hnone
    · refine ⟨bytes, hwraps, fun other hother => ?_, fun hno => ?_⟩
      · obtain rfl : path = other := Option.some.inj (houtput.symm.trans hother)
        exact hwritten
      · cases houtput.symm.trans hno
    · refine ⟨bytes, hwraps, fun other hother => ?_, fun _ => hprinted⟩
      cases houtput.symm.trans hother

/-- A description whose own file is the output is wrapped as it was before the run, and it stays as
it was where that file must not be written. -/
theorem execute_all_or_nothing_own_file :
    (execute ⟨"a", some "a", none⟩
      { entries := [(["a"], .file "class A { }".toUTF8)] }).failure = none ∧
    (execute ⟨"a", some "a", none⟩
        { entries := [(["a"], .file "class A { }".toUTF8)] }).tree.read "a" =
      .ok (generate {} (.ofLimit none) "class A { }").state.sink.bytes ∧
    (execute ⟨"a", some "a", none⟩ { entries := [(["a"], .file "class A { }".toUTF8)] }
        { writing := fun _ => some (.system "Permission denied") }).failure =
      some (.writing "a" (.system "Permission denied")) ∧
    (execute ⟨"a", some "a", none⟩ { entries := [(["a"], .file "class A { }".toUTF8)] }
        { writing := fun _ => some (.system "Permission denied") }).tree =
      { entries := [(["a"], .file "class A { }".toUTF8)] } := by
  have hlocated : FileTree.locate { entries := [(["a"], .file "class A { }".toUTF8)] } "a" =
      .ok (⟨false, ["a"], false⟩, some ([], "a")) := by
    have hnames : "a".splitOn "/" = ["a"] := by
      rw [String.splitOn, if_neg (by decide), String.splitOnAux, String.splitOnAux]
      rfl
    have hpath : FileTree.Path.of "a" = ⟨false, ["a"], false⟩ := by
      rw [FileTree.Path.of, hnames]
      rfl
    rw [FileTree.locate, hpath]
    rfl
  have hread : Contents.Holds
      (FileTree.readUnless { entries := [(["a"], .file "class A { }".toUTF8)] } {})
      "a" "class A { }" := by
    change FileTree.read _ "a" = _
    rw [FileTree.read, hlocated]
    rfl
  have htarget : FileTree.target { entries := [(["a"], .file "class A { }".toUTF8)] } "a" =
      .ok ["a"] := by
    rw [FileTree.target, hlocated]
    rfl
  have hwraps : Contents.WrapsAs
      (FileTree.readUnless { entries := [(["a"], .file "class A { }".toUTF8)] } {})
      ⟨"a", some "a", none⟩ (generate {} (.ofLimit none) "class A { }").state.sink.bytes :=
    ⟨{}, "class A { }", rfl, hread, by decide +kernel, rfl⟩
  have hnone : (execute ⟨"a", some "a", none⟩
      { entries := [(["a"], .file "class A { }".toUTF8)] }).failure = none := by
    simp only [execute, hwraps.wrap_result, FileTree.writeUnless, FileTree.write, htarget,
      Except.map]
  obtain ⟨-, -, hdone⟩ := execute_all_or_nothing ⟨"a", some "a", none⟩
    { entries := [(["a"], .file "class A { }".toUTF8)] } {}
  obtain ⟨bytes, hsame, hwritten, -⟩ := hdone hnone
  obtain rfl : bytes = (generate {} (.ofLimit none) "class A { }").state.sink.bytes :=
    Except.ok.inj (hsame.wrap_result.symm.trans hwraps.wrap_result)
  obtain ⟨hreplaces, -⟩ := hwritten "a" rfl
  obtain ⟨hfirst, hkept, -⟩ := execute_all_or_nothing ⟨"a", some "a", none⟩
    { entries := [(["a"], .file "class A { }".toUTF8)] }
    { writing := fun _ => some (.system "Permission denied") }
  have hfails := (hfirst _).2 (.unwritable hwraps rfl rfl)
  obtain ⟨hsame, -⟩ := hkept (by rw [hfails]; exact Option.some_ne_none _)
  exact ⟨hnone, hreplaces.read_eq, hfails, hsame⟩

end LuaGlue
