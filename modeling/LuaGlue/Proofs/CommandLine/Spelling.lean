import LuaGlue.Proofs.CommandLine.Part

namespace LuaGlue.CommandLine

namespace Scan

variable {s t : Scan} {p : Part} {parts rest : List Part} {value : String} {slot : Slot}

/-- Reading parts one after the other is accepting them one after the other. -/
theorem foldlM_flatMap_words (h : s.Ready parts) (hclear : ∀ p ∈ parts, p.Clear) :
    ((parts.flatMap Part.words).foldlM take s >>= settle) =
      s.settle >>= fun t => parts.foldlM accept t := by
  induction parts generalizing s with
  | nil => exact (bind_pure s.settle).symm
  | cons p parts ih =>
    obtain ⟨hp, hparts⟩ := List.forall_mem_cons.1 hclear
    -- The check that the first part still owes is the one that the second part begins with.
    have hsplit : (s.settle >>= fun t => (p :: parts).foldlM accept t) =
        (p.words.foldlM take s >>= settle) >>= fun t => parts.foldlM accept t := by
      rw [words_settle h hp, bind_assoc]
      simp only [List.foldlM_cons]
    rw [hsplit, List.flatMap_cons, List.foldlM_append]
    cases hfirst : p.words.foldlM take s with
    | error stop => rfl
    | ok r => exact ih (h.of_words hp hfirst) hparts

theorem Ready.of_flatMap_words (h : s.Ready (parts ++ rest)) (hclear : ∀ p ∈ parts, p.Clear)
    (hread : (parts.flatMap Part.words).foldlM take s = .ok t) : t.Ready rest := by
  induction parts generalizing s with
  | nil =>
    cases hread
    exact h
  | cons p parts ih =>
    obtain ⟨hp, hparts⟩ := List.forall_mem_cons.1 hclear
    rw [List.flatMap_cons, List.foldlM_append] at hread
    obtain ⟨r, hfirst, hrest⟩ := exists_of_bind_eq_ok hread
    exact ih (h.of_words hp hfirst) hparts hrest

/-- What is asked for when every argument has been checked. -/
def result (s : Scan) : Except Stop CommandLine :=
  match s.input with
  | none => .error .missingInput
  | some input => .ok ⟨input, s.output, s.config⟩

theorem finish_eq (s : Scan) : s.finish = s.settle >>= result := by
  rw [finish]
  cases s.settle <;> rfl

/-- No option follows any more. -/
def close (s : Scan) : Scan :=
  { s with literal := true }

@[simp] theorem given_close (s : Scan) (slot : Slot) : s.close.given slot = s.given slot := by
  cases slot <;> rfl

theorem settle_close (s : Scan) : s.close.settle = s.settle.map close := by
  have hpending : s.close.pending = s.pending := rfl
  unfold settle
  rw [hpending]
  cases s.pending with
  | none => rfl
  | some pending =>
    obtain ⟨slot, given⟩ := pending
    cases given with
    | none => rfl
    | some value =>
      simp only [given_close]
      split
      · rfl
      · split
        · rfl
        · cases slot <;> rfl

/-- An input behind two dashes is an input as any other. -/
theorem dashes_finish (hliteral : s.literal = false) (hinput : s.hasInput = false)
    (hne : value ≠ "") :
    (["--", value].foldlM take s >>= finish) =
      s.settle >>= fun t => t.accept (.input value) >>= result := by
  have hdashes : s.take "--" = .ok s.close := by
    rw [take, hliteral]
    rfl
  have hvalue : s.close.take value = s.close.settle >>= fun t => .ok (t.put (.input value)) := by
    have hclosed : s.close.hasInput = false := hinput
    rw [← takeInput_eq hclosed]
    rfl
  rw [List.foldlM_cons, hdashes]
  change (s.close.take value >>= pure) >>= finish = _
  rw [bind_pure, hvalue, settle_close]
  cases hsettle : s.settle with
  | error stop => rfl
  | ok t =>
    have hput : (t.close.put (.input value)).settle = t.close.accept (.input value) :=
      settle_put (settle_spec hsettle).1 hne
    change (t.close.put (.input value)).finish = t.accept (.input value) >>= result
    rw [finish_eq, hput, accept, accept, given_close]
    split <;> rfl

theorem foldlM_accept_cons (s : Scan) (p : Part) (parts : List Part) :
    (p :: parts).foldlM accept s =
      if (s.given p.slot).isSome then .error .conflict
      else parts.foldlM accept (s.give p.slot p.value) := by
  rw [List.foldlM_cons, accept]
  split <;> rfl

/-- The order of the parts does not matter, not even if there is one too many. -/
theorem foldlM_accept_perm {others : List Part} (h : parts.Perm others) (s : Scan) :
    parts.foldlM accept s = others.foldlM accept s := by
  induction h generalizing s with
  | nil => rfl
  | cons p _ ih => rw [foldlM_accept_cons, foldlM_accept_cons, ih]
  | swap p q rest =>
    simp only [foldlM_accept_cons, given_give]
    by_cases hslot : p.slot = q.slot
    -- Of two parts for one argument the second one is refused, whichever it is.
    · simp [hslot]
    · rw [if_neg hslot, if_neg (Ne.symm hslot), give_comm hslot]
      split <;> split <;> rfl
  | trans _ _ ih ih' => rw [ih, ih']

/-- Two parts for one argument are in conflict. -/
theorem foldlM_accept_conflict (h : 2 ≤ (parts.map Part.slot).count slot) (s : Scan) :
    parts.foldlM accept s = .error .conflict := by
  have hmem : slot ∈ parts.map Part.slot := List.count_pos_iff.1 (by omega)
  obtain ⟨p, hp, rfl⟩ := List.mem_map.1 hmem
  have hperm : parts.Perm (p :: parts.erase p) := List.perm_cons_erase hp
  rw [(hperm.map Part.slot).count_eq, List.map_cons, List.count_cons_self] at h
  have hmem' : p.slot ∈ (parts.erase p).map Part.slot := List.count_pos_iff.1 (by omega)
  obtain ⟨q, hq, hslot⟩ := List.mem_map.1 hmem'
  have hperm' : (parts.erase p).Perm (q :: (parts.erase p).erase q) := List.perm_cons_erase hq
  rw [foldlM_accept_perm (hperm.trans (hperm'.cons p)), foldlM_accept_cons, foldlM_accept_cons,
    hslot, given_give, if_pos rfl]
  split <;> rfl

end Scan

/-- The parts that a command line is written in. The input may also stand behind two dashes,
whatever it starts with. -/
inductive Writes : List String → List Part → Prop where
  | words {parts : List Part} : (∀ p ∈ parts, p.Clear) → Writes (parts.flatMap Part.words) parts
  | dashes {parts : List Part} {input : String} : (∀ p ∈ parts, p.Clear) → input ≠ "" →
    Writes (parts.flatMap Part.words ++ ["--", input]) (parts ++ [.input input])

theorem parse_eq_foldlM (args : List String) :
    parse args = args.foldlM Scan.take {} >>= Scan.finish := by
  rw [parse]
  cases args.foldlM Scan.take {} <;> rfl

/-- Reading a command line is accepting its parts. -/
theorem parse_of_writes {args : List String} {parts : List Part} (h : Writes args parts)
    (hinput : (parts.map Part.slot).count .input ≤ 1) :
    parse args = parts.foldlM Scan.accept {} >>= Scan.result := by
  have hready : ({} : Scan).Ready parts := by
    refine ⟨rfl, fun slot hslot => ?_, by simpa [Scan.hasInput] using hinput⟩
    cases hslot
  rw [parse_eq_foldlM]
  cases h with
  | words hclear =>
    have hread : (_ >>= Scan.settle) = parts.foldlM Scan.accept {} :=
      Scan.foldlM_flatMap_words hready hclear
    rw [funext Scan.finish_eq, ← bind_assoc, hread]
  | @dashes front input hclear hne =>
    have hread : (_ >>= Scan.settle) = front.foldlM Scan.accept {} :=
      Scan.foldlM_flatMap_words hready.front hclear
    rw [List.foldlM_append, List.foldlM_append, ← hread]
    cases hfront : (front.flatMap Part.words).foldlM Scan.take {} with
    | error stop => rfl
    | ok t =>
      have hrest : t.Ready [.input input] := hready.of_flatMap_words hclear hfront
      change (["--", input].foldlM Scan.take t >>= Scan.finish) =
        (t.settle >>= fun r => [Part.input input].foldlM Scan.accept r) >>= Scan.result
      rw [Scan.dashes_finish hrest.literal (hrest.head rfl) hne, bind_assoc]
      simp only [List.foldlM_cons, List.foldlM_nil, bind_pure]

/-- The part that writes an option, if it is given. -/
def Flag.parts (flag : Flag) (written : Option (Spelling × String)) : List Part :=
  written.toList.map fun written => .option flag written.1 written.2

/-- A command line means the same in every order of its parts and in every form of its options, and
an option must not be given twice. -/
theorem parse_spellings {args : List String} {parts : List Part} (h : Writes args parts) :
    (∀ input output config,
      parts.Perm (.input input :: (Flag.output.parts output ++ Flag.config.parts config)) →
        parse args = .ok ⟨input, output.map Prod.snd, config.map Prod.snd⟩) ∧
    ∀ flag : Flag, (parts.map Part.slot).count .input ≤ 1 →
      2 ≤ (parts.map Part.slot).count flag.slot → parse args = .error .conflict := by
  refine ⟨fun input output config hperm => ?_, fun flag hinput htwice => ?_⟩
  · have hinput : (parts.map Part.slot).count .input ≤ 1 := by
      rw [(hperm.map Part.slot).count_eq]
      cases output <;> cases config <;> exact Nat.le_refl 1
    rw [parse_of_writes h hinput, Scan.foldlM_accept_perm hperm]
    cases output <;> cases config <;> rfl
  · rw [parse_of_writes h hinput, Scan.foldlM_accept_conflict htwice]
    rfl

/-- A value with an equals sign in it, a dash as a value, and an input that looks like an option. -/
theorem parse_spellings_dashes :
    parse ["-o=x=y", "--config", "-", "--", "--output"] = .ok ⟨"--output", some "x=y", some "-"⟩ ∧
      parse ["-oa", "main.h", "--output=b"] = .error .conflict := by
  have hdashes : Writes ["-o=x=y", "--config", "-", "--", "--output"]
      [.option .output .shortEquals "x=y", .option .config .longApart "-", .input "--output"] :=
    @Writes.dashes [.option .output .shortEquals "x=y", .option .config .longApart "-"] "--output"
      (by decide +kernel) (by decide)
  have htwice : Writes ["-oa", "main.h", "--output=b"]
      [.option .output .shortAttached "a", .input "main.h", .option .output .longEquals "b"] :=
    @Writes.words
      [.option .output .shortAttached "a", .input "main.h", .option .output .longEquals "b"]
      (by decide +kernel)
  refine ⟨?_, ?_⟩
  · exact (parse_spellings hdashes).1 "--output" (some (.shortEquals, "x=y"))
      (some (.longApart, "-")) (by decide +kernel)
  · exact (parse_spellings htwice).2 .output (by decide +kernel) (by decide +kernel)

end LuaGlue.CommandLine
