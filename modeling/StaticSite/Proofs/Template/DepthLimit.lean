import Mathlib
import StaticSite.Proofs.Template.Recursion

/-!
# Raising the depth limit

A page that compiles, or fails for another reason than its depth, does the same under every higher
limit.  The limit is asked for only where a directive is about to go deeper, so a run that never
meets it takes the same way when there is more room.
-/

namespace StaticSite

/-- The result does not blame the depth limit. -/
def Settled {α : Type} (result : Except CompileError α) : Prop :=
  ∀ path limit, result ≠ .error (.circularReference path limit)

section

variable {α β : Type} {first first' : Except CompileError α}
  {next next' : α → Except CompileError β}

theorem not_settled_circularReference (path : Text) (limit : Nat) :
    ¬ Settled (.error (.circularReference path limit) : Except CompileError α) :=
  fun settled => settled path limit rfl

theorem Settled.of_bind (settled : Settled (first >>= next)) : Settled first := by
  intro path limit blamed
  rw [blamed] at settled
  exact not_settled_circularReference path limit settled

theorem Settled.after {a : α} (settled : Settled (first >>= next)) (done : first = .ok a) :
    Settled (next a) := by
  rwa [done, Except.ok_bind] at settled

/-- Two chains of steps agree where the second one settles, if their steps do. -/
theorem Settled.bind_eq (settled : Settled (first >>= next)) (same : Settled first → first' = first)
    (sameNext : ∀ a, Settled (next a) → next' a = next a) :
    (first' >>= next') = first >>= next := by
  rw [same settled.of_bind]
  refine Except.bind_congr fun a done => ?_
  exact sameNext a (settled.after done)

end

namespace Compiler

variable {compiler : Compiler} {higher : Nat} {token : Token}

/-- A directive without a target fails at every depth. -/
theorem resolve_of_locate_error {error : CompileError} (names : token.NamesFile)
    (lost : compiler.locate (Arguments.ofText token.content).main = .error error) (levels : Nat)
    (frame : Frame) (index : Nat) (rest : List Token) :
    compiler.resolve levels frame index (token :: rest) = .error error := by
  cases levels with
  | zero => rw [resolve_bottom compiler names, lost, Except.error_bind]
  | succ deeper =>
    rcases names with kind | kind
    · rw [resolve_inclusion compiler kind, lost, Except.error_bind]
    · rw [resolve_layout compiler kind, lost, Except.error_bind]

/-- What settles with some levels left comes out the same with more of them. -/
theorem resolve_add_levels (compiler : Compiler) (higher extra levels : Nat) (frame : Frame)
    (index : Nat) (tokens : List Token)
    (settled : Settled (compiler.resolve levels frame index tokens)) :
    { compiler with maxDepth := higher }.resolve (levels + extra) frame index tokens
      = compiler.resolve levels frame index tokens := by
  let roomy : Compiler := { compiler with maxDepth := higher }
  have sameTarget : ∀ relative, roomy.locate relative = compiler.locate relative := fun _ => rfl
  refine (resolve_recursion
    (fun levels frame index tokens => Settled (compiler.resolve levels frame index tokens) →
      roomy.resolve (levels + extra) frame index tokens
        = compiler.resolve levels frame index tokens)
    (fun levels file props index found tokens =>
      Settled (compiler.collectBlocks levels file props index found tokens) →
        roomy.collectBlocks (levels + extra) file props index found tokens
          = compiler.collectBlocks levels file props index found tokens)
    ?nil ?plain ?bottom ?inclusion ?layout ?noBlocks ?block ?between).1
      levels frame index tokens settled
  case nil =>
    intro levels frame index _
    rw [resolve, resolve]
  case plain =>
    intro levels frame index token rest plain ih settled
    rw [resolve_plain compiler plain] at settled ⊢
    rw [resolve_plain roomy plain, ih settled.of_bind]
  case bottom =>
    intro frame index token rest names settled
    -- The limit is reached here, so only a directive without a target can settle.
    cases located : compiler.locate (Arguments.ofText token.content).main with
    | error error =>
      have lost : roomy.locate (Arguments.ofText token.content).main = .error error :=
        (sameTarget _).trans located
      rw [resolve_of_locate_error names located, resolve_of_locate_error names lost]
    | ok target =>
      rw [resolve_bottom compiler names, located, Except.ok_bind] at settled
      exact absurd settled (not_settled_circularReference _ _)
  case inclusion =>
    intro deeper frame index token rest kind inside behind settled
    rw [resolve_inclusion compiler kind] at settled ⊢
    rw [Nat.add_right_comm, resolve_inclusion roomy kind]
    refine settled.bind_eq (fun _ => sameTarget _) fun target settled => ?_
    refine settled.bind_eq (fun _ => rfl) fun source settled => ?_
    refine settled.bind_eq (inside target source) fun inner settled => ?_
    refine settled.bind_eq (fun settled => ?_) fun html _ => rfl
    rw [Nat.add_right_comm]
    exact behind settled
  case layout =>
    intro deeper frame index token rest kind blocks inside behind settled
    rw [resolve_layout compiler kind] at settled ⊢
    rw [Nat.add_right_comm, resolve_layout roomy kind]
    refine settled.bind_eq (fun _ => sameTarget _) fun target settled => ?_
    refine settled.bind_eq (fun settled => ?_) fun slots settled => ?_
    · rw [Nat.add_right_comm]
      exact blocks settled
    refine settled.bind_eq (fun _ => rfl) fun source settled => ?_
    refine settled.bind_eq (inside target slots source) fun inner settled => ?_
    refine settled.bind_eq (fun settled => ?_) fun html _ => rfl
    rw [Nat.add_right_comm]
    exact behind settled
  case noBlocks =>
    intro levels file props index found _
    rw [collectBlocks, collectBlocks]
  case block =>
    intro levels file props index found token rest kind inside more settled
    rw [collectBlocks_block compiler kind] at settled ⊢
    rw [collectBlocks_block roomy kind]
    exact settled.bind_eq inside fun html settled => more html settled
  case between =>
    intro levels file props index found token rest kind ih settled
    rw [collectBlocks_between compiler kind] at settled ⊢
    rw [collectBlocks_between roomy kind]
    exact ih settled

/-- A result that does not blame the depth limit stays the same when the limit is raised. -/
theorem compileSource_of_higher_limit {file source : Text} (raised : compiler.maxDepth ≤ higher)
    (settled : ∀ path limit,
      compiler.compileSource file source ≠ .error (.circularReference path limit)) :
    { compiler with maxDepth := higher }.compileSource file source
      = compiler.compileSource file source := by
  obtain ⟨extra, rfl⟩ := Nat.exists_eq_add_of_le raised
  exact resolve_add_levels compiler _ extra _ _ _ _ settled

/-- A site in which `a` includes `b`, and `b` a file that is not there. -/
def brokenChain (maxDepth : Nat) : Compiler where
  disk := (Disk.empty.put ["a".toList]
    (.file (Utf8.encode "\x7b\x7b include \"b\" \x7d\x7d".toList))).put ["b".toList]
      (.file (Utf8.encode "\x7b\x7b include \"c\" \x7d\x7d".toList))
  root := []
  maxDepth

theorem brokenChain_compileSource_of_higher_limit :
    (brokenChain 3).compileSource "p".toList "\x7b\x7b include \"a\" \x7d\x7d".toList
        = .error (.missingInclude "c".toList .notFound) ∧
      (brokenChain 64).compileSource "p".toList "\x7b\x7b include \"a\" \x7d\x7d".toList
        = .error (.missingInclude "c".toList .notFound) := by
  have missing : (brokenChain 3).compileSource "p".toList
      "\x7b\x7b include \"a\" \x7d\x7d".toList
      = .error (.missingInclude "c".toList .notFound) := by cbv
  have settled : Settled ((brokenChain 3).compileSource "p".toList
      "\x7b\x7b include \"a\" \x7d\x7d".toList) := by
    rw [missing]
    intro path limit
    simp
  have raised : (brokenChain 3).maxDepth ≤ 64 := by decide
  exact ⟨missing, (compileSource_of_higher_limit raised settled).trans missing⟩

end Compiler

end StaticSite
