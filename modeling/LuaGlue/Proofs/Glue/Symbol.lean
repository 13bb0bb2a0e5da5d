import Mathlib.Data.List.Nodup
import LuaGlue.Generate

namespace LuaGlue

namespace Glue

/-- The two members have one symbol, which is cut in two at different places: what the second class
is longer than the first one is missing at the front of the second member. -/
def Overlap (first second : String × String) : Prop :=
  ∃ middle, second.1 = first.1 ++ "_" ++ middle ∧ first.2 = middle ++ "_" ++ second.2

theorem Overlap.length_lt {first second : String × String} (h : Overlap first second) :
    first.1.length < second.1.length := by
  obtain ⟨middle, hwrapper, -⟩ := h
  have hseparator : "_".length = 1 := rfl
  rw [hwrapper, String.length_append, String.length_append]
  omega

/-- The longer of the two class names contains the character that joins names. -/
theorem Overlap.underscore_mem {first second : String × String} (h : Overlap first second) :
    '_' ∈ second.1.toList := by
  obtain ⟨middle, hwrapper, -⟩ := h
  simp [hwrapper]

theorem Overlap.symbol_eq {first second : String × String} (h : Overlap first second) :
    symbol first.1 first.2 = symbol second.1 second.2 := by
  obtain ⟨middle, hwrapper, hmember⟩ := h
  simp only [symbol, hwrapper, hmember, String.append_assoc]

private theorem overlap_of_toList {first second : String × String} {tail : List Char}
    (hwrapper : second.1.toList = first.1.toList ++ tail)
    (hrest : '_' :: first.2.toList = tail ++ '_' :: second.2.toList) :
    first = second ∨ Overlap first second := by
  cases tail with
  | nil =>
    refine .inl (Prod.ext ?_ ?_)
    · exact String.ext (by simpa using hwrapper.symm)
    · exact String.ext (by simpa using hrest)
  | cons c middle =>
    obtain ⟨rfl, hmember⟩ := List.cons.inj hrest
    refine .inr ⟨String.ofList middle, String.ext ?_, String.ext ?_⟩
    · simpa using hwrapper
    · simpa using hmember

/-- Two members have one symbol only if they are the same or overlap. -/
theorem symbol_eq_iff {first second : String × String} :
    symbol first.1 first.2 = symbol second.1 second.2 ↔
      first = second ∨ Overlap first second ∨ Overlap second first := by
  constructor
  · intro h
    have hjoined : first.1.toList ++ '_' :: first.2.toList =
        second.1.toList ++ '_' :: second.2.toList := by
      simpa [symbol] using congrArg String.toList h
    rcases List.append_eq_append_iff.1 hjoined with
      ⟨tail, hwrapper, hrest⟩ | ⟨tail, hwrapper, hrest⟩
    · rcases overlap_of_toList hwrapper hrest with heq | hoverlap
      · exact .inl heq
      · exact .inr (.inl hoverlap)
    · rcases overlap_of_toList hwrapper hrest with heq | hoverlap
      · exact .inl heq.symm
      · exact .inr (.inr hoverlap)
  · rintro (rfl | h | h)
    · rfl
    · exact h.symbol_eq
    · exact h.symbol_eq.symm

/-- Of two members with one symbol, only the one with the shorter class name can come first in an
overlap. -/
theorem overlap_iff {first second : String × String} :
    Overlap first second ↔
      symbol first.1 first.2 = symbol second.1 second.2 ∧ first.1.length < second.1.length := by
  refine ⟨fun h => ⟨h.symbol_eq, h.length_lt⟩, fun ⟨heq, hlt⟩ => ?_⟩
  rcases symbol_eq_iff.1 heq with rfl | hoverlap | hoverlap
  · exact absurd hlt (Nat.lt_irrefl _)
  · exact hoverlap
  · exact absurd hlt (Nat.lt_asymm hoverlap.length_lt)

instance : DecidableRel Overlap :=
  fun _ _ => decidable_of_iff _ overlap_iff.symm

end Glue

namespace Registry

/-- Each recorded member with its class. -/
def declarations (r : Registry) : List (String × String) :=
  r.entries.flatMap fun entry => entry.members.map (entry.wrapper, ·)

/-- The symbols of the glue functions, in the order of the registry. -/
def symbols (r : Registry) : List String :=
  r.declarations.map fun d => Glue.symbol d.1 d.2

/-- The classes of a registry are distinct, and so are the members of each of them. -/
theorem nodup_declarations (r : Registry) : r.declarations.Nodup := by
  refine List.nodup_flatMap.2 ⟨fun entry hentry => ?_, ?_⟩
  · refine (r.distinct_members entry hentry).map fun first second h => ?_
    exact congrArg Prod.snd h
  · have hwrappers : r.entries.Pairwise fun first second => first.wrapper ≠ second.wrapper :=
      List.pairwise_map.1 r.distinct_classes
    refine hwrappers.imp fun {first second} hne => ?_
    intro d hfirst hsecond
    obtain ⟨_, -, rfl⟩ := List.mem_map.1 hfirst
    obtain ⟨_, -, heq⟩ := List.mem_map.1 hsecond
    exact hne (congrArg Prod.fst heq).symm

theorem nodup_symbols_iff (r : Registry) :
    r.symbols.Nodup ↔
      ∀ first ∈ r.declarations, ∀ second ∈ r.declarations, ¬ Glue.Overlap first second := by
  rw [symbols, List.nodup_map_iff_inj_on r.nodup_declarations]
  constructor
  · intro hinjective first hfirst second hsecond hoverlap
    have heq := hinjective first hfirst second hsecond hoverlap.symbol_eq
    exact absurd hoverlap.length_lt (heq ▸ Nat.lt_irrefl _)
  · intro hnone first hfirst second hsecond heq
    rcases Glue.symbol_eq_iff.1 heq with h | hoverlap | hoverlap
    · exact h
    · exact absurd hoverlap (hnone first hfirst second hsecond)
    · exact absurd hoverlap (hnone second hsecond first hfirst)

end Registry

/-- Whatever a description says, its glue functions have distinct symbols if and only if no two
recorded members overlap. In particular two members of one class, or of classes without `_` in their
names, never share a symbol. The checks for repeated classes and members do not exclude an
overlap. -/
theorem generate_nodup_symbols_iff (settings : Settings) (source : String) :
    ((generate settings (.ofLimit none) source).state.registry.symbols.Nodup ↔
      ∀ first ∈ (generate settings (.ofLimit none) source).state.registry.declarations,
        ∀ second ∈ (generate settings (.ofLimit none) source).state.registry.declarations,
          ¬ Glue.Overlap first second) ∧
    ∀ first ∈ (generate settings (.ofLimit none) source).state.registry.declarations,
      ∀ second ∈ (generate settings (.ofLimit none) source).state.registry.declarations,
        first.1 = second.1 ∨ '_' ∉ first.1.toList ∧ '_' ∉ second.1.toList →
        Glue.symbol first.1 first.2 = Glue.symbol second.1 second.2 → first = second := by
  refine ⟨Registry.nodup_symbols_iff _, fun first _ second _ hnames heq => ?_⟩
  rcases Glue.symbol_eq_iff.1 heq with h | hoverlap | hoverlap
  · exact h
  · rcases hnames with hsame | ⟨-, hsecond⟩
    · exact absurd hoverlap.length_lt (hsame ▸ Nat.lt_irrefl _)
    · exact absurd hoverlap.underscore_mem hsecond
  · rcases hnames with hsame | ⟨hfirst, -⟩
    · exact absurd hoverlap.length_lt (hsame ▸ Nat.lt_irrefl _)
    · exact absurd hoverlap.underscore_mem hfirst

/-- The class name `A_b` continues `A`, but no member of `A` continues in the same way. -/
theorem generate_nodup_symbols_prefixed_class :
    (generate {} (.ofLimit none) "class A { void b() } class A_b { void c() }").error = none ∧
    (generate {} (.ofLimit none)
      "class A { void b() } class A_b { void c() }").state.registry.symbols.Nodup := by
  have hoverlap : ∀ first ∈ (generate {} (.ofLimit none)
      "class A { void b() } class A_b { void c() }").state.registry.declarations,
      ∀ second ∈ (generate {} (.ofLimit none)
        "class A { void b() } class A_b { void c() }").state.registry.declarations,
        ¬ Glue.Overlap first second := by
    decide +kernel
  exact ⟨by decide +kernel, (generate_nodup_symbols_iff _ _).1.2 hoverlap⟩

/-- Generating succeeds although two glue functions have one symbol. -/
theorem generate_symbols_overlap :
    (generate {} (.ofLimit none)
      "class A { void b_c() } class A_b { void c() }").error = none ∧
    (generate {} (.ofLimit none)
      "class A { void b_c() } class A_b { void c() }").state.registry.symbols =
        ["_A_b_c", "_A_b_c"] ∧
    ¬ (generate {} (.ofLimit none)
      "class A { void b_c() } class A_b { void c() }").state.registry.symbols.Nodup := by
  decide +kernel

end LuaGlue
