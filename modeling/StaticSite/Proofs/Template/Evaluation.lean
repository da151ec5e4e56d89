import StaticSite.Proofs.Template.Nesting
import StaticSite.Proofs.Template.Recursion

/-!
# Evaluating forests

A second account of what a page compiles to, by recursion on the forest of its tokens instead of
the tokens themselves.  Compiling a source gives the value of its forest, and the same first error
where there is none.
-/

namespace StaticSite.Compiler

mutual

/-- The HTML of a node in a file that is `depth` levels deep. -/
def nodeValue (compiler : Compiler) (depth : Nat) (frame : Frame) :
    Node → Except CompileError Text
  | .html text => .ok text
  | .inclusion index arguments => do
      let target ← compiler.locate arguments.main
      if _ : compiler.maxDepth < depth + 1 then
        .error (.circularReference arguments.main compiler.maxDepth)
      else
        let source ← (compiler.disk.readSource target.place).mapError
          (.missingInclude arguments.main)
        -- The file sees the slots around the include.
        let inner ← forestValue compiler (depth + 1)
          { file := target.logical
            slots := frame.slots
            props := frame.props.overlay arguments.props }
          (nest 0 (tokenize source))
        .ok (includeMarker frame.file index ++ inner ++ includeEndMarker)
  | .layout arguments blocks => do
      let target ← compiler.locate arguments.main
      if _ : compiler.maxDepth < depth + 1 then
        .error (.circularReference arguments.main compiler.maxDepth)
      else
        let props := frame.props.overlay arguments.props
        -- Blocks belong to the file around the layout, so they are no level deeper.
        let bound ← blockValues compiler depth { file := frame.file, slots := .empty, props } blocks
        let source ← (compiler.disk.readSource target.place).mapError
          (.missingLayout arguments.main)
        forestValue compiler (depth + 1)
          { file := target.logical, slots := .ofList bound, props } (nest 0 (tokenize source))
  | .slot name => .ok ((frame.slots.get? name).getD [])
  | .prop name => .ok ((frame.props.get? name).getD [])
  termination_by node => (compiler.maxDepth - depth, sizeOf node)

/-- The HTML of a forest. -/
def forestValue (compiler : Compiler) (depth : Nat) (frame : Frame) :
    List Node → Except CompileError Text
  | [] => .ok []
  | node :: rest => do
      let html ← nodeValue compiler depth frame node
      let more ← forestValue compiler depth frame rest
      .ok (html ++ more)
  termination_by nodes => (compiler.maxDepth - depth, sizeOf nodes)

/-- The HTML of named blocks, in their order. -/
def blockValues (compiler : Compiler) (depth : Nat) (frame : Frame) :
    List (Text × List Node) → Except CompileError (List (Text × Text))
  | [] => .ok []
  | (name, nodes) :: rest => do
      let html ← forestValue compiler depth frame nodes
      let more ← blockValues compiler depth frame rest
      .ok ((name, html) :: more)
  termination_by blocks => (compiler.maxDepth - depth, sizeOf blocks)

end

variable {compiler : Compiler}

/-- The blocks that `found` already holds give way to blocks of the same name that come later. -/
def addBlocks (found : Bindings) (blocks : List (Text × Text)) : Bindings :=
  blocks.foldl (fun found block => found.insert block.1 block.2) found

/-- With `levels` levels left below depth `depth`, the tokens of a file compile to the value of
their forest. -/
theorem resolve_eq_forestValue (levels : Nat) (frame : Frame) (index : Nat) (tokens : List Token) :
    ∀ depth, depth + levels = compiler.maxDepth →
      compiler.resolve levels frame index tokens
        = compiler.forestValue depth frame (nest index tokens) := by
  refine (resolve_recursion
    (fun levels frame index tokens => ∀ depth, depth + levels = compiler.maxDepth →
      compiler.resolve levels frame index tokens
        = compiler.forestValue depth frame (nest index tokens))
    (fun levels file props index found tokens =>
      ∀ depth, depth + levels = compiler.maxDepth →
        compiler.collectBlocks levels file props index found tokens
          = (compiler.blockValues depth { file, slots := .empty, props }
              (nestBlocks index tokens)).map (addBlocks found))
    ?nil ?plain ?bottom ?inclusion ?layout ?noBlocks ?block ?between).1 levels frame index tokens
  case nil =>
    intro levels frame index depth _
    rw [resolve, nest, forestValue]
  case plain =>
    intro levels frame index token rest plain ih depth sum
    rw [resolve_plain compiler plain, ih depth sum, nest, plainHtml]
    cases kind : token.kind with
    | raw | slot | prop => simp only [forestValue, nodeValue, Except.ok_bind]
    | block | endBlock | endLayout =>
        -- These have no node, and their HTML is empty.
        cases compiler.forestValue depth frame (nest (index + 1) rest) <;> rfl
    | inclusion => exact absurd (.inl kind) plain
    | layout => exact absurd (.inr kind) plain
  case bottom =>
    intro frame index token rest names depth sum
    have tooDeep : compiler.maxDepth < depth + 1 := by omega
    rw [resolve_bottom compiler names, nest]
    rcases names with kind | kind
    -- Both tests fail here, the one of the levels left and the one of the depth.
    all_goals
      rw [kind]
      simp only [forestValue, nodeValue, tooDeep, dif_pos, Except.bind_assoc, Except.error_bind]
  case inclusion =>
    intro deeper frame index token rest kind inside behind depth sum
    have notTooDeep : ¬ compiler.maxDepth < depth + 1 := by omega
    rw [resolve_inclusion compiler kind, nest, kind]
    simp only [forestValue, nodeValue, notTooDeep, dif_neg, not_false_eq_true, Except.bind_assoc,
      Except.ok_bind, fun target source => inside target source (depth + 1) (by omega),
      behind depth sum]
    rfl
  case layout =>
    intro deeper frame index token rest kind blocks inside behind depth sum
    have notTooDeep : ¬ compiler.maxDepth < depth + 1 := by omega
    rw [resolve_layout compiler kind, nest, kind]
    simp only [forestValue, nodeValue, notTooDeep, dif_neg, not_false_eq_true, Except.bind_assoc,
      blocks depth sum, Except.map_bind,
      fun target slots source => inside target slots source (depth + 1) (by omega),
      behind depth sum]
    rfl
  case noBlocks =>
    intro levels file props index found depth _
    rw [collectBlocks, nestBlocks, blockValues]
    rfl
  case block =>
    intro levels file props index found token rest kind inside more depth sum
    rw [collectBlocks_block compiler kind, nestBlocks, if_pos kind, blockValues, inside depth sum]
    simp only [fun html => more html depth sum]
    cases compiler.forestValue depth { file, slots := .empty, props }
        (nest (index + 1) (splitBalanced .block .endBlock rest).1) with
    | error error => rfl
    | ok html =>
        cases compiler.blockValues depth { file, slots := .empty, props }
          (nestBlocks (index + 1 + (splitBalanced .block .endBlock rest).1.length + 1)
            (splitBalanced .block .endBlock rest).2) <;> rfl
  case between =>
    intro levels file props index found token rest kind ih depth sum
    rw [collectBlocks_between compiler kind, nestBlocks, if_neg kind]
    exact ih depth sum

/-- A page compiles to the value of its one forest, or to the same first error. -/
theorem compileSource_eq_forestValue (compiler : Compiler) (file source : Text) :
    (∀ text nodes, Nests 0 (tokenize text) nodes ↔ nodes = nest 0 (tokenize text)) ∧
      compiler.compileSource file source
        = compiler.forestValue 0 { file, slots := .empty, props := .empty }
          (nest 0 (tokenize source)) :=
  ⟨fun _ _ => nests_iff, resolve_eq_forestValue _ _ _ _ 0 (Nat.zero_add _)⟩

end StaticSite.Compiler
