import LuaGlue.Proofs.Grammar.Tree

namespace LuaGlue.Grammar

/-- Runs of tokens with a property are equal if both are ended by a token without it. -/
theorem span_unique {p : Token → Prop} {xs ys as bs : List Token} {a b : Token}
    (hxs : ∀ t ∈ xs, p t) (hys : ∀ t ∈ ys, p t) (ha : ¬ p a) (hb : ¬ p b)
    (h : xs ++ a :: as = ys ++ b :: bs) : xs = ys ∧ a = b ∧ as = bs := by
  induction xs generalizing ys with
  | nil =>
    cases ys with
    | nil => simpa using h
    | cons y ys =>
      have heq : a = y := by simpa using congrArg List.head? h
      exact absurd (hys y List.mem_cons_self) (heq ▸ ha)
  | cons x xs ih =>
    cases ys with
    | nil =>
      have heq : x = b := by simpa using congrArg List.head? h
      exact absurd (hxs x List.mem_cons_self) (heq ▸ hb)
    | cons y ys =>
      simp only [List.cons_append, List.cons.injEq] at h
      obtain ⟨rfl, htail⟩ := h
      obtain ⟨rfl, hab, hrest⟩ := ih (fun t ht => hxs t (List.mem_cons_of_mem _ ht))
        (fun t ht => hys t (List.mem_cons_of_mem _ ht)) htail
      exact ⟨rfl, hab, hrest⟩

/-- A parameter type ends before a comma or a closing parenthesis. -/
private def EndsParam (ts : List Token) : Prop :=
  ∃ t rest, ts = t :: rest ∧ (t = .punct ',' ∨ t = .punct ')')

theorem Param.unique {p q : Param} {as bs : List Token} (has : EndsParam as) (hbs : EndsParam bs)
    (h : p.tokens ++ as = q.tokens ++ bs) : p = q ∧ as = bs := by
  obtain ⟨a, as, rfl, ha⟩ := has
  obtain ⟨b, bs, rfl, hb⟩ := hbs
  simp only [Param.tokens, List.cons_append, List.cons.injEq] at h
  obtain ⟨hhead, htail⟩ := h
  have hstop : ∀ t : Token, t = .punct ',' ∨ t = .punct ')' →
      ¬ (t ≠ .punct ',' ∧ t ≠ .punct ')') := by
    rintro t (rfl | rfl) <;> simp
  obtain ⟨hmodifiers, rfl, rfl⟩ :=
    span_unique p.modifiers_ne q.modifiers_ne (hstop a ha) (hstop b hb) htail
  exact ⟨Param.ext hhead hmodifiers, rfl⟩

namespace ParamList

/-- What follows the first type, up to the closing parenthesis and beyond it. -/
private def behindFirst (more : List Param) (extraComma : Bool) (rest : List Token) : List Token :=
  more.flatMap further ++ (if extraComma then [.punct ','] else []) ++ .punct ')' :: rest

private theorem endsParam_behindFirst (more : List Param) (extraComma : Bool) (rest : List Token) :
    EndsParam (behindFirst more extraComma rest) := by
  cases more with
  | nil =>
    cases extraComma with
    | false => exact ⟨.punct ')', rest, rfl, .inr rfl⟩
    | true => exact ⟨.punct ',', .punct ')' :: rest, rfl, .inl rfl⟩
  | cons p more => exact ⟨.punct ',', _, rfl, .inl rfl⟩

/-- A comma is followed by a further type unless it is the extra one, and the extra one is followed
by the closing parenthesis, which starts no type. -/
private theorem behindFirst_unique {more others : List Param} {c d : Bool} {as bs : List Token}
    (h : behindFirst more c as = behindFirst others d bs) : more = others ∧ c = d ∧ as = bs := by
  induction more generalizing others with
  | nil =>
    cases others with
    | nil => cases c <;> cases d <;> simp [behindFirst] at h ⊢ <;> exact h
    | cons q others =>
      have hne := q.head_ne
      cases c <;> simp [behindFirst, further, Param.tokens, hne.symm] at h
  | cons p more ih =>
    cases others with
    | nil =>
      have hne := p.head_ne
      cases d <;> simp [behindFirst, further, Param.tokens, hne] at h
    | cons q others =>
      have hstep : ∀ (p : Param) (more : List Param) (c : Bool) (rest : List Token),
          behindFirst (p :: more) c rest = .punct ',' :: (p.tokens ++ behindFirst more c rest) := by
        intro p more c rest
        simp [behindFirst, further]
      rw [hstep, hstep, List.cons.injEq] at h
      obtain ⟨rfl, htail⟩ := Param.unique (endsParam_behindFirst more c as)
        (endsParam_behindFirst others d bs) h.2
      obtain ⟨rfl, rfl, rfl⟩ := ih htail
      exact ⟨rfl, rfl, rfl⟩

private theorem tokens_listed (first : Param) (more : List Param) (c : Bool) (rest : List Token) :
    (listed first more c).tokens ++ .punct ')' :: rest =
      first.tokens ++ behindFirst more c rest := by
  simp [tokens, behindFirst]

theorem unique {ps qs : ParamList} {as bs : List Token}
    (h : ps.tokens ++ .punct ')' :: as = qs.tokens ++ .punct ')' :: bs) : ps = qs ∧ as = bs := by
  cases ps with
  | empty =>
    cases qs with
    | empty => simpa [tokens] using h
    | listed q others d =>
      rw [tokens_listed] at h
      simp [tokens, Param.tokens, q.head_ne.symm] at h
  | listed p more c =>
    cases qs with
    | empty =>
      rw [tokens_listed] at h
      simp [tokens, Param.tokens, p.head_ne] at h
    | listed q others d =>
      rw [tokens_listed, tokens_listed] at h
      obtain ⟨rfl, htail⟩ :=
        Param.unique (endsParam_behindFirst more c as) (endsParam_behindFirst others d bs) h
      obtain ⟨rfl, rfl, rfl⟩ := behindFirst_unique htail
      exact ⟨rfl, rfl⟩

end ParamList

theorem Method.unique {m n : Method} {as bs : List Token} (h : m.tokens ++ as = n.tokens ++ bs) :
    m = n ∧ as = bs := by
  simp only [Method.tokens, List.append_assoc, List.cons_append, List.nil_append] at h
  obtain ⟨hstatics, hreturns, h⟩ := span_unique (p := (· = .word "static"))
    (fun t ht => List.eq_of_mem_replicate ht) (fun t ht => List.eq_of_mem_replicate ht)
    m.returns_ok.2.2.1 n.returns_ok.2.2.1 h
  obtain ⟨hindirections, hname, h⟩ :=
    span_unique m.indirections_ok n.indirections_ok m.name_ok n.name_ok h
  obtain ⟨hparams, hrest⟩ := ParamList.unique (List.cons.inj h).2
  have hcount : m.statics = n.statics := by simpa using congrArg List.length hstatics
  exact ⟨Method.ext hcount hreturns hindirections hname hparams, hrest⟩

namespace Item

/-- The first token of a method is `static` or starts its return type. -/
private theorem starts_method (m : Method) :
    ∃ t rest, m.tokens = t :: rest ∧ (t = .word "static" ∨ StartsType t) := by
  have htokens : m.tokens = List.replicate m.statics (.word "static") ++ (m.returns ::
      m.indirections ++ m.name :: .punct '(' :: m.params.tokens ++ [.punct ')']) := by
    simp [Method.tokens]
  cases hstatics : m.statics with
  | zero =>
    rw [hstatics] at htokens
    exact ⟨_, _, htokens, .inr m.returns_ok⟩
  | succ n =>
    rw [hstatics] at htokens
    exact ⟨_, _, htokens, .inl rfl⟩

private theorem method_ne_cons {m : Method} {as bs : List Token} {t : Token}
    (ht : t ≠ .word "static") (hstart : ¬ StartsType t) : m.tokens ++ as ≠ t :: bs := by
  obtain ⟨first, rest, hm, hfirst⟩ := starts_method m
  rw [hm]
  intro h
  obtain rfl := (List.cons.inj h).1
  exact hfirst.elim ht hstart

theorem unique {i j : Item} {as bs : List Token} (h : i.tokens ++ as = j.tokens ++ bs) :
    i = j ∧ as = bs := by
  have hsemicolon : ∀ {m : Method} {as bs : List Token}, m.tokens ++ as ≠ .punct ';' :: bs :=
    method_ne_cons (by simp) (by simp [StartsType])
  have hctor : ∀ {m : Method} {as bs : List Token}, m.tokens ++ as ≠ .word "ctor" :: bs :=
    method_ne_cons (by simp) (by simp [StartsType])
  cases i with
  | semicolon =>
    cases j with
    | semicolon => simpa [tokens] using h
    | ctor qs => simp [tokens] at h
    | method n => exact absurd h.symm hsemicolon
  | ctor ps =>
    cases j with
    | semicolon => simp [tokens] at h
    | ctor qs =>
      simp only [tokens, List.cons_append, List.append_assoc, List.nil_append, List.cons.injEq,
        true_and] at h
      obtain ⟨rfl, hrest⟩ := ParamList.unique h
      exact ⟨rfl, hrest⟩
    | method n => exact absurd h.symm hctor
  | method m =>
    cases j with
    | semicolon => exact absurd h hsemicolon
    | ctor qs => exact absurd h hctor
    | method n =>
      obtain ⟨rfl, hrest⟩ := Method.unique h
      exact ⟨rfl, hrest⟩

/-- No item starts with the brace that ends a body. -/
theorem tokens_append_ne_close (i : Item) (as bs : List Token) :
    i.tokens ++ as ≠ .punct '}' :: bs := by
  cases i with
  | semicolon => simp [tokens]
  | ctor ps => simp [tokens]
  | method m => exact method_ne_cons (by simp) (by simp [StartsType])

end Item

theorem items_unique {items others : List Item} {as bs : List Token}
    (h : items.flatMap Item.tokens ++ .punct '}' :: as =
      others.flatMap Item.tokens ++ .punct '}' :: bs) : items = others ∧ as = bs := by
  induction items generalizing others with
  | nil =>
    cases others with
    | nil => simpa using h
    | cons j others =>
      rw [List.flatMap_cons, List.append_assoc] at h
      exact absurd h.symm (j.tokens_append_ne_close _ _)
  | cons i items ih =>
    cases others with
    | nil =>
      rw [List.flatMap_cons, List.append_assoc] at h
      exact absurd h (i.tokens_append_ne_close _ _)
    | cons j others =>
      rw [List.flatMap_cons, List.flatMap_cons, List.append_assoc, List.append_assoc] at h
      obtain ⟨rfl, htail⟩ := Item.unique h
      obtain ⟨rfl, hrest⟩ := ih htail
      exact ⟨rfl, hrest⟩

namespace ClassDecl

private theorem bracketed_append (n : NativeName) (ts : List Token) :
    (some n).toList.flatMap NativeName.tokens ++ ts =
      .punct '[' :: n.name :: .punct ']' :: (n.skipped ++ ts) := by
  simp [NativeName.tokens]

/-- A native name and the body behind it. -/
private theorem body_unique {n n' : Option NativeName} {skipped skipped' as bs : List Token}
    (hskipped : ∀ t ∈ skipped, IsPassedOver t) (hskipped' : ∀ t ∈ skipped', IsPassedOver t)
    (h : skipped ++ (n.toList.flatMap NativeName.tokens ++ .punct '{' :: as) =
      skipped' ++ (n'.toList.flatMap NativeName.tokens ++ .punct '{' :: bs)) :
    skipped = skipped' ∧ n = n' ∧ as = bs := by
  have hbrace : ¬ IsPassedOver (.punct '{') := by simp [IsPassedOver]
  have hbracket : ¬ IsPassedOver (.punct '[') := by simp [IsPassedOver]
  cases n with
  | none =>
    cases n' with
    | none =>
      obtain ⟨rfl, -, rfl⟩ := span_unique hskipped hskipped' hbrace hbrace h
      exact ⟨rfl, rfl, rfl⟩
    | some n' =>
      rw [bracketed_append] at h
      obtain ⟨-, hne, -⟩ := span_unique hskipped hskipped' hbrace hbracket h
      cases hne
  | some n =>
    cases n' with
    | none =>
      rw [bracketed_append] at h
      obtain ⟨-, hne, -⟩ := span_unique hskipped hskipped' hbracket hbrace h
      cases hne
    | some n' =>
      rw [bracketed_append, bracketed_append] at h
      obtain ⟨rfl, -, h⟩ := span_unique hskipped hskipped' hbracket hbracket h
      simp only [List.cons.injEq, true_and] at h
      obtain ⟨hname, h⟩ := h
      obtain ⟨hbehind, -, rfl⟩ := span_unique n.skipped_ok n'.skipped_ok hbrace hbrace h
      exact ⟨rfl, congrArg some (NativeName.ext hname hbehind), rfl⟩

theorem unique {c d : ClassDecl} {as bs : List Token} (h : c.tokens ++ as = d.tokens ++ bs) :
    c = d ∧ as = bs := by
  simp only [tokens, List.append_assoc, List.cons_append, List.nil_append, List.cons.injEq,
    true_and] at h
  obtain ⟨hname, h⟩ := h
  obtain ⟨hskipped, hnative, h⟩ := body_unique c.skipped_ok d.skipped_ok h
  obtain ⟨hitems, hrest⟩ := items_unique h
  exact ⟨ClassDecl.ext hname hskipped hnative hitems, hrest⟩

end ClassDecl

/-- A description has only one tree. Each part of a tree is followed by a token that cannot belong
to it, so two trees with the same tokens have the same parts. -/
theorem tokens_injective {classes others : List ClassDecl}
    (h : classes.flatMap ClassDecl.tokens = others.flatMap ClassDecl.tokens) :
    classes = others := by
  induction classes generalizing others with
  | nil =>
    cases others with
    | nil => rfl
    | cons d others => simp [ClassDecl.tokens] at h
  | cons c classes ih =>
    cases others with
    | nil => simp [ClassDecl.tokens] at h
    | cons d others =>
      rw [List.flatMap_cons, List.flatMap_cons] at h
      obtain ⟨rfl, htail⟩ := ClassDecl.unique h
      rw [ih htail]

end LuaGlue.Grammar
