import StaticSite.Proofs.Template.Recursion

/-!
# When pages compile

Compiling fails only at a directive whose file is not found or cannot be read, or that goes too
deep.  What is bound to slots and properties makes no difference.
-/

namespace StaticSite.Compiler

mutual

/-- Each directive on the way names a file that can be read, and whose tokens compile in turn. -/
inductive Compiles (compiler : Compiler) : Nat → List Token → Prop where
  | nil {levels : Nat} : Compiles compiler levels []
  | plain {levels : Nat} {token : Token} {rest : List Token} (plain : ¬ token.NamesFile)
      (more : Compiles compiler levels rest) : Compiles compiler levels (token :: rest)
  | inclusion {deeper : Nat} {token : Token} {rest : List Token} {target : Target} {source : Text}
      (kind : token.kind = .inclusion)
      (located : compiler.locate (Arguments.ofText token.content).main = .ok target)
      (read : compiler.disk.readSource target.place = .ok source)
      (inside : Compiles compiler deeper (tokenize source))
      (more : Compiles compiler (deeper + 1) rest) :
      Compiles compiler (deeper + 1) (token :: rest)
  | layout {deeper : Nat} {token : Token} {rest : List Token} {target : Target} {source : Text}
      (kind : token.kind = .layout)
      (located : compiler.locate (Arguments.ofText token.content).main = .ok target)
      (read : compiler.disk.readSource target.place = .ok source)
      (blocks : BlocksCompile compiler (deeper + 1) (splitBalanced .layout .endLayout rest).1)
      (inside : Compiles compiler deeper (tokenize source))
      (more : Compiles compiler (deeper + 1) (splitBalanced .layout .endLayout rest).2) :
      Compiles compiler (deeper + 1) (token :: rest)

/-- The same of the blocks in a layout's body, between which everything is dropped. -/
inductive BlocksCompile (compiler : Compiler) : Nat → List Token → Prop where
  | nil {levels : Nat} : BlocksCompile compiler levels []
  | block {levels : Nat} {token : Token} {rest : List Token} (kind : token.kind = .block)
      (inside : Compiles compiler levels (splitBalanced .block .endBlock rest).1)
      (more : BlocksCompile compiler levels (splitBalanced .block .endBlock rest).2) :
      BlocksCompile compiler levels (token :: rest)
  | between {levels : Nat} {token : Token} {rest : List Token} (kind : token.kind ≠ .block)
      (more : BlocksCompile compiler levels rest) : BlocksCompile compiler levels (token :: rest)

end

variable {compiler : Compiler}

/-- Compiling succeeds exactly if every file that is named on the way can be read. -/
theorem resolve_eq_ok_iff (levels : Nat) (frame : Frame) (index : Nat) (tokens : List Token) :
    (∃ html, compiler.resolve levels frame index tokens = .ok html) ↔
      compiler.Compiles levels tokens := by
  refine (resolve_recursion
    (fun levels frame index tokens =>
      (∃ html, compiler.resolve levels frame index tokens = .ok html) ↔
        compiler.Compiles levels tokens)
    (fun levels file props index found tokens =>
      (∃ slots, compiler.collectBlocks levels file props index found tokens = .ok slots) ↔
        compiler.BlocksCompile levels tokens)
    ?nil ?plain ?bottom ?inclusion ?layout ?noBlocks ?block ?between).1 levels frame index tokens
  case nil =>
    intro levels frame index
    exact ⟨fun _ => .nil, fun _ => ⟨[], by rw [resolve]⟩⟩
  case plain =>
    intro levels frame index token rest plain ih
    constructor
    · rintro ⟨html, compiled⟩
      obtain ⟨more, restCompiled, _⟩ := (resolve_plain_eq_ok compiler plain).1 compiled
      exact .plain plain (ih.1 ⟨more, restCompiled⟩)
    · intro compiles
      cases compiles with
      | plain _ more =>
        obtain ⟨html, restCompiled⟩ := ih.2 more
        exact ⟨_, (resolve_plain_eq_ok compiler plain).2 ⟨html, restCompiled, rfl⟩⟩
      | inclusion kind => exact absurd (.inl kind) plain
      | layout kind => exact absurd (.inr kind) plain
  -- With no level left there is no constructor for a directive that names a file.
  case bottom =>
    intro frame index token rest names
    constructor
    · rintro ⟨html, compiled⟩
      exact absurd compiled (resolve_bottom_ne_ok compiler names)
    · intro compiles
      cases compiles with
      | plain plain _ => exact absurd names plain
  case inclusion =>
    intro deeper frame index token rest kind inside behind
    constructor
    · rintro ⟨html, compiled⟩
      obtain ⟨target, source, inner, more, located, read, innerCompiled, restCompiled, _⟩ :=
        (resolve_inclusion_eq_ok compiler kind).1 compiled
      exact .inclusion kind located read ((inside target source).1 ⟨inner, innerCompiled⟩)
        (behind.1 ⟨more, restCompiled⟩)
    · intro compiles
      cases compiles with
      | plain plain _ => exact absurd (.inl kind) plain
      | layout other => simp [kind] at other
      | inclusion _ located read inside' more =>
        obtain ⟨_, innerCompiled⟩ := (inside _ _).2 inside'
        obtain ⟨_, restCompiled⟩ := behind.2 more
        exact ⟨_, (resolve_inclusion_eq_ok compiler kind).2
          ⟨_, _, _, _, located, read, innerCompiled, restCompiled, rfl⟩⟩
  case layout =>
    intro deeper frame index token rest kind blocks inside behind
    constructor
    · rintro ⟨html, compiled⟩
      obtain ⟨target, slots, source, inner, more, located, collected, read, innerCompiled,
        restCompiled, _⟩ := (resolve_layout_eq_ok compiler kind).1 compiled
      exact .layout kind located read (blocks.1 ⟨slots, collected⟩)
        ((inside target slots source).1 ⟨inner, innerCompiled⟩) (behind.1 ⟨more, restCompiled⟩)
    · intro compiles
      cases compiles with
      | plain plain _ => exact absurd (.inr kind) plain
      | inclusion other => simp [kind] at other
      | layout _ located read body inside' more =>
        obtain ⟨slots, collected⟩ := blocks.2 body
        -- The induction hypothesis is for all slots, so whatever the blocks came to will do.
        obtain ⟨_, innerCompiled⟩ := (inside _ slots _).2 inside'
        obtain ⟨_, restCompiled⟩ := behind.2 more
        exact ⟨_, (resolve_layout_eq_ok compiler kind).2
          ⟨_, slots, _, _, _, located, collected, read, innerCompiled, restCompiled, rfl⟩⟩
  case noBlocks =>
    intro levels file props index found
    exact ⟨fun _ => .nil, fun _ => ⟨found, by rw [collectBlocks]⟩⟩
  case block =>
    intro levels file props index found token rest kind inside more
    constructor
    · rintro ⟨slots, collected⟩
      obtain ⟨html, compiled, collected⟩ := (collectBlocks_block_eq_ok compiler kind).1 collected
      exact .block kind (inside.1 ⟨html, compiled⟩) ((more html).1 ⟨slots, collected⟩)
    · intro compiles
      cases compiles with
      | between other => exact absurd kind other
      | block _ inside' behind =>
        obtain ⟨html, compiled⟩ := inside.2 inside'
        -- In the same way the blocks behind can be collected on top of any HTML for this one.
        obtain ⟨slots, collected⟩ := (more html).2 behind
        exact ⟨slots, (collectBlocks_block_eq_ok compiler kind).2 ⟨html, compiled, collected⟩⟩
  case between =>
    intro levels file props index found token rest kind ih
    rw [collectBlocks_between compiler kind, ih]
    constructor
    · exact .between kind
    · intro compiles
      cases compiles with
      | block other => exact absurd other kind
      | between _ more => exact more

theorem compileSource_eq_ok_iff (file source : Text) :
    (∃ html, compiler.compileSource file source = .ok html) ↔
      compiler.Compiles compiler.maxDepth (tokenize source) :=
  resolve_eq_ok_iff ..

/-! ## Tokens that name few files -/

variable {levels deeper : Nat} {tokens : List Token}

theorem compiles_of_plain (plain : ∀ token ∈ tokens, ¬ token.NamesFile) :
    compiler.Compiles levels tokens := by
  induction tokens with
  | nil => exact .nil
  | cons token rest ih =>
    exact .plain (plain token List.mem_cons_self)
      (ih fun later isIn => plain later (List.mem_cons_of_mem _ isIn))

/-- Without layouts the tokens compile exactly if all that is included does. -/
theorem compiles_iff_of_noLayout (noLayout : ∀ token ∈ tokens, token.kind ≠ .layout) :
    compiler.Compiles (deeper + 1) tokens ↔ ∀ token ∈ tokens, token.kind = .inclusion →
      ∃ target source, compiler.locate (Arguments.ofText token.content).main = .ok target ∧
        compiler.disk.readSource target.place = .ok source ∧
        compiler.Compiles deeper (tokenize source) := by
  induction tokens with
  | nil => exact ⟨fun _ _ isIn => absurd isIn List.not_mem_nil, fun _ => .nil⟩
  | cons token rest ih =>
    have ih := ih fun later isIn => noLayout later (List.mem_cons_of_mem _ isIn)
    rw [List.forall_mem_cons, ← ih]
    constructor
    · intro compiles
      cases compiles with
      | plain plain more => exact ⟨fun kind => absurd (.inl kind) plain, more⟩
      | inclusion _ located read inside more => exact ⟨fun _ => ⟨_, _, located, read, inside⟩, more⟩
      | layout kind => exact absurd kind (noLayout token List.mem_cons_self)
    · rintro ⟨included, more⟩
      by_cases kind : token.kind = .inclusion
      · obtain ⟨target, source, located, read, inside⟩ := included kind
        exact .inclusion kind located read inside more
      · refine .plain ?_ more
        rintro (isInclusion | isLayout)
        · exact kind isInclusion
        · exact noLayout token List.mem_cons_self isLayout

theorem blocksCompile_of_plain (plain : ∀ token ∈ tokens, ¬ token.NamesFile) :
    compiler.BlocksCompile levels tokens := by
  induction length : tokens.length using Nat.strongRecOn generalizing tokens with
  | ind count ih =>
    cases tokens with
    | nil => exact .nil
    | cons token rest =>
      have plainRest : ∀ token ∈ rest, ¬ token.NamesFile :=
        fun later isIn => plain later (List.mem_cons_of_mem _ isIn)
      rw [List.length_cons] at length
      by_cases kind : token.kind = .block
      · have shorter := length_splitBalanced_snd_le .block .endBlock rest
        have plainInside : ∀ inner ∈ (splitBalanced .block .endBlock rest).1, ¬ inner.NamesFile :=
          fun inner isIn => plainRest inner (mem_of_mem_body isIn)
        refine .block kind (compiles_of_plain plainInside)
          (ih _ (by omega) (fun later isIn => plainRest later (mem_of_mem_behind isIn)) rfl)
      · exact .between kind (ih _ (by omega) plainRest rfl)

/-- A page that fills a layout, and does nothing else, compiles exactly if the layout does. -/
theorem compiles_layout_iff {token : Token} (kind : token.kind = .layout)
    (plain : ∀ token ∈ tokens, ¬ token.NamesFile) :
    compiler.Compiles (deeper + 1) (token :: tokens) ↔
      ∃ target source, compiler.locate (Arguments.ofText token.content).main = .ok target ∧
        compiler.disk.readSource target.place = .ok source ∧
        compiler.Compiles deeper (tokenize source) := by
  constructor
  · intro compiles
    cases compiles with
    | plain noFile => exact absurd (.inr kind) noFile
    | inclusion other => simp [kind] at other
    | layout _ located read _ inside _ => exact ⟨_, _, located, read, inside⟩
  · rintro ⟨target, source, located, read, inside⟩
    exact .layout kind located read
      (blocksCompile_of_plain fun inner isIn => plain inner (mem_of_mem_body isIn)) inside
      (compiles_of_plain fun later isIn => plain later (mem_of_mem_behind isIn))

end StaticSite.Compiler
