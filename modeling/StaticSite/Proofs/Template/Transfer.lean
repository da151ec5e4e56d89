import StaticSite.Proofs.Template.Journal

/-!
# Runs that go the same way elsewhere

A compile run that succeeds depends on the files that it enters and on nothing else.  A compiler
that finds those files compiles the page to the same.
-/

namespace StaticSite

/-- Every file that is entered has an allowed name. -/
def Journal.StaysIn {α : Type} (journal : Journal α) (allowed : Text → Prop) : Prop :=
  ∀ frame index tokens, .entered frame index tokens ∈ journal.events → allowed frame.file

namespace Journal

variable {α β : Type} {first : Journal α} {next : α → Journal β} {a : α} {allowed : Text → Prop}
  {frame : Frame} {index : Nat} {tokens : List Token}

theorem staysIn_pure (a : α) : (pure a : Journal α).StaysIn allowed :=
  fun _ _ _ happened => absurd happened (not_mem_pure a)

theorem staysIn_quiet (result : Except CompileError α) : (quiet result).StaysIn allowed :=
  fun _ _ _ happened => absurd happened (not_mem_quiet result)

theorem StaysIn.bind (front : first.StaysIn allowed)
    (behind : ∀ a, first.result = .ok a → (next a).StaysIn allowed) :
    (first >>= next).StaysIn allowed := by
  intro frame index tokens happened
  rcases mem_bind.1 happened with happened | ⟨a, result, happened⟩
  · exact front frame index tokens happened
  · exact behind a result frame index tokens happened

theorem staysIn_bind (result : first.result = .ok a) : (first >>= next).StaysIn allowed ↔
    first.StaysIn allowed ∧ (next a).StaysIn allowed := by
  constructor
  · intro stays
    refine ⟨fun frame index tokens happened => ?_, fun frame index tokens happened => ?_⟩
    · exact stays frame index tokens (mem_bind.2 (.inl happened))
    · exact stays frame index tokens (mem_bind.2 (.inr ⟨a, result, happened⟩))
  · rintro ⟨front, behind⟩
    refine front.bind fun a' result' => ?_
    rw [result] at result'
    cases result'
    exact behind

theorem staysIn_entered : (note (.entered frame index tokens)).StaysIn allowed ↔
    allowed frame.file := by
  constructor
  · exact fun stays => stays frame index tokens (mem_note.2 rfl)
  · intro isAllowed frame' index' tokens' happened
    cases mem_note.1 happened
    exact isAllowed

theorem staysIn_marked {file : Text} {token : Token} :
    (note (.marked file index token)).StaysIn allowed := by
  intro frame' index' tokens' happened
  cases mem_note.1 happened

end Journal

namespace Compiler

/-- The files that directives of the first compiler lead to, under allowed names, are also those
that they lead to for the second. -/
def FindsIn (first second : Compiler) (allowed : Text → Prop) : Prop :=
  ∀ relative target source, first.locate relative = .ok target →
    first.disk.readSource target.place = .ok source → allowed target.logical →
    second.locate relative = .ok target ∧ second.disk.readSource target.place = .ok source

variable {first second : Compiler} {allowed : Text → Prop}

/-- A run that succeeds and stays in allowed files succeeds in the same way. -/
theorem resolve_of_staysIn (finds : first.FindsIn second allowed) (levels : Nat) (frame : Frame)
    (index : Nat) (tokens : List Token) :
    ∀ html, first.resolve levels frame index tokens = .ok html →
      (first.recordTokens levels frame index tokens).StaysIn allowed →
      second.resolve levels frame index tokens = .ok html := by
  refine (resolve_recursion
    (fun levels frame index tokens =>
      ∀ html, first.resolve levels frame index tokens = .ok html →
        (first.recordTokens levels frame index tokens).StaysIn allowed →
        second.resolve levels frame index tokens = .ok html)
    (fun levels file props index found tokens =>
      ∀ slots, first.collectBlocks levels file props index found tokens = .ok slots →
        (first.recordBlocks levels file props index found tokens).StaysIn allowed →
        second.collectBlocks levels file props index found tokens = .ok slots)
    ?nil ?plain ?bottom ?inclusion ?layout ?noBlocks ?block ?between).1 levels frame index tokens
  case nil =>
    intro levels frame index html compiled _
    rw [resolve] at compiled ⊢
    exact compiled
  case plain =>
    intro levels frame index token rest plain ih html compiled stays
    obtain ⟨more, restCompiled, same⟩ := (resolve_plain_eq_ok first plain).1 compiled
    rw [recordTokens_plain first plain,
      Journal.staysIn_bind ((result_recordTokens ..).trans restCompiled)] at stays
    exact (resolve_plain_eq_ok second plain).2 ⟨more, ih more restCompiled stays.1, same⟩
  case bottom =>
    intro frame index token rest names html compiled _
    exact absurd compiled (resolve_bottom_ne_ok first names)
  case inclusion =>
    intro deeper frame index token rest kind inside behind html compiled stays
    obtain ⟨target, source, inner, more, located, read, innerCompiled, restCompiled, same⟩ :=
      (resolve_inclusion_eq_ok first kind).1 compiled
    -- The journal goes through the same steps, so each result splits it once more.
    rw [recordTokens_inclusion first kind, Journal.staysIn_bind located,
      Journal.staysIn_bind (Except.mapError_eq_ok.2 read), Journal.staysIn_bind rfl,
      Journal.staysIn_entered,
      Journal.staysIn_bind ((result_recordTokens ..).trans innerCompiled),
      Journal.staysIn_bind rfl,
      Journal.staysIn_bind ((result_recordTokens ..).trans restCompiled)] at stays
    obtain ⟨_, _, isAllowed, innerStays, _, restStays, _⟩ := stays
    -- That the file was entered is what allows it, and `finds` needs no more.
    obtain ⟨located', read'⟩ := finds _ _ _ located read isAllowed
    exact (resolve_inclusion_eq_ok second kind).2 ⟨target, source, inner, more, located', read',
      inside target source inner innerCompiled innerStays, behind more restCompiled restStays,
      same⟩
  case layout =>
    intro deeper frame index token rest kind blocks inside behind html compiled stays
    obtain ⟨target, slots, source, inner, more, located, collected, read, innerCompiled,
      restCompiled, same⟩ := (resolve_layout_eq_ok first kind).1 compiled
    rw [recordTokens_layout first kind, Journal.staysIn_bind located,
      Journal.staysIn_bind ((result_recordBlocks ..).trans collected),
      Journal.staysIn_bind (Except.mapError_eq_ok.2 read), Journal.staysIn_bind rfl,
      Journal.staysIn_entered,
      Journal.staysIn_bind ((result_recordTokens ..).trans innerCompiled),
      Journal.staysIn_bind ((result_recordTokens ..).trans restCompiled)] at stays
    obtain ⟨_, blocksStay, _, isAllowed, innerStays, restStays, _⟩ := stays
    obtain ⟨located', read'⟩ := finds _ _ _ located read isAllowed
    exact (resolve_layout_eq_ok second kind).2 ⟨target, slots, source, inner, more, located',
      blocks slots collected blocksStay, read',
      inside target slots source inner innerCompiled innerStays,
      behind more restCompiled restStays, same⟩
  case noBlocks =>
    intro levels file props index found slots collected _
    rw [collectBlocks] at collected ⊢
    exact collected
  case block =>
    intro levels file props index found token rest kind inside more slots collected stays
    obtain ⟨html, compiled, collected⟩ := (collectBlocks_block_eq_ok first kind).1 collected
    rw [recordBlocks, if_pos kind, Journal.staysIn_bind rfl,
      Journal.staysIn_bind ((result_recordTokens ..).trans compiled)] at stays
    obtain ⟨_, blockStays, moreStays⟩ := stays
    exact (collectBlocks_block_eq_ok second kind).2
      ⟨html, inside html compiled blockStays, more html slots collected moreStays⟩
  case between =>
    intro levels file props index found token rest kind ih slots collected stays
    rw [collectBlocks_between first kind] at collected
    rw [recordBlocks, if_neg kind] at stays
    rw [collectBlocks_between second kind]
    exact ih slots collected stays

/-- Tokens that name no file enter none. -/
theorem staysIn_of_plain {compiler : Compiler} {levels : Nat} {frame : Frame} {index : Nat}
    {tokens : List Token} (plain : ∀ token ∈ tokens, ¬ token.NamesFile) :
    (compiler.recordTokens levels frame index tokens).StaysIn allowed := by
  induction tokens generalizing index with
  | nil =>
    rw [recordTokens]
    exact Journal.staysIn_pure _
  | cons token rest ih =>
    rw [recordTokens_plain compiler (plain token List.mem_cons_self)]
    exact (ih fun later isIn => plain later (List.mem_cons_of_mem _ isIn)).bind
      fun _ _ => Journal.staysIn_pure _

theorem compileSource_of_staysIn (finds : first.FindsIn second allowed)
    (depth : first.maxDepth = second.maxDepth) {file source html : Text}
    (compiled : first.compileSource file source = .ok html)
    (stays : (first.recordSource file source).StaysIn allowed) :
    second.compileSource file source = .ok html := by
  rw [recordSource, Journal.staysIn_bind rfl] at stays
  rw [compileSource, ← depth]
  exact resolve_of_staysIn finds _ _ _ _ html compiled stays.2

end Compiler

end StaticSite
