import StaticSite.Proofs.Fallible
import StaticSite.Template.Compile

/-!
# The recursion of the compiler

What compiling does with the first token, kind by kind, and the induction that follows the calls:
deeper into the files that directives name, along the tokens of one file, and into the blocks of a
layout's body.
-/

namespace StaticSite

/-- Whether a token is a directive that names a file. -/
def Token.NamesFile (token : Token) : Prop :=
  token.kind = .inclusion ∨ token.kind = .layout

instance (token : Token) : Decidable token.NamesFile :=
  inferInstanceAs (Decidable (_ ∨ _))

namespace Compiler

/-- What a token that names no file stands for. -/
def plainHtml (frame : Frame) (token : Token) : Text :=
  match token.kind with
  | .raw => token.content
  | .slot => (frame.slots.get? token.name).getD []
  | .prop => (frame.props.get? token.name).getD []
  | _ => []

/-- The frame of a file that is included. -/
def includedFrame (frame : Frame) (target : Target) (token : Token) : Frame where
  file := target.logical
  slots := frame.slots
  props := frame.props.overlay (Arguments.ofText token.content).props

/-- The frame of the blocks in a layout's body. -/
def blockFrame (frame : Frame) (token : Token) : Frame where
  file := frame.file
  slots := .empty
  props := frame.props.overlay (Arguments.ofText token.content).props

/-- The frame of a layout's file. -/
def layoutFrame (frame : Frame) (target : Target) (token : Token) (slots : Bindings) : Frame where
  file := target.logical
  slots
  props := frame.props.overlay (Arguments.ofText token.content).props

variable (compiler : Compiler) {levels deeper : Nat} {frame : Frame} {index : Nat} {token : Token}
  {rest : List Token} {file : Text} {props found : Bindings}

theorem locate_eq_ok {relative : Text} {target : Target} : compiler.locate relative = .ok target ↔
    compiler.disk.contain? compiler.root relative = some target := by
  unfold locate
  cases compiler.disk.contain? compiler.root relative <;> simp

theorem resolve_plain (plain : ¬ token.NamesFile) :
    compiler.resolve levels frame index (token :: rest) = (do
      let html ← compiler.resolve levels frame (index + 1) rest
      .ok (plainHtml frame token ++ html)) := by
  rw [resolve, plainHtml]
  cases kind : token.kind with
  | raw | slot | prop => rfl
  | block | endBlock | endLayout =>
      cases compiler.resolve levels frame (index + 1) rest <;> rfl
  | inclusion => exact absurd (.inl kind) plain
  | layout => exact absurd (.inr kind) plain

theorem resolve_bottom (names : token.NamesFile) :
    compiler.resolve 0 frame index (token :: rest) = (do
      let _ ← compiler.locate (Arguments.ofText token.content).main
      .error (.circularReference (Arguments.ofText token.content).main compiler.maxDepth)) := by
  rw [resolve]
  rcases names with kind | kind <;> rw [kind]

theorem resolve_inclusion (kind : token.kind = .inclusion) :
    compiler.resolve (deeper + 1) frame index (token :: rest) = (do
      let target ← compiler.locate (Arguments.ofText token.content).main
      let source ← (compiler.disk.readSource target.place).mapError
        (.missingInclude (Arguments.ofText token.content).main)
      let inner ← compiler.resolve deeper (includedFrame frame target token) 0 (tokenize source)
      let html ← compiler.resolve (deeper + 1) frame (index + 1) rest
      .ok (includeMarker frame.file index ++ inner ++ includeEndMarker ++ html)) := by
  rw [resolve, kind]
  rfl

theorem resolve_layout (kind : token.kind = .layout) :
    compiler.resolve (deeper + 1) frame index (token :: rest) = (do
      let target ← compiler.locate (Arguments.ofText token.content).main
      let slots ← compiler.collectBlocks (deeper + 1) frame.file (blockFrame frame token).props
        (index + 1) .empty (splitBalanced .layout .endLayout rest).1
      let source ← (compiler.disk.readSource target.place).mapError
        (.missingLayout (Arguments.ofText token.content).main)
      let inner ← compiler.resolve deeper (layoutFrame frame target token slots) 0
        (tokenize source)
      let html ← compiler.resolve (deeper + 1) frame
        (index + 1 + (splitBalanced .layout .endLayout rest).1.length + 1)
        (splitBalanced .layout .endLayout rest).2
      .ok (inner ++ html)) := by
  rw [resolve, kind]
  rfl

theorem collectBlocks_block (kind : token.kind = .block) :
    compiler.collectBlocks levels file props index found (token :: rest) = (do
      let html ← compiler.resolve levels { file, slots := .empty, props } (index + 1)
        (splitBalanced .block .endBlock rest).1
      compiler.collectBlocks levels file props
        (index + 1 + (splitBalanced .block .endBlock rest).1.length + 1)
        (found.insert token.name html) (splitBalanced .block .endBlock rest).2) := by
  rw [collectBlocks, if_pos kind]

theorem collectBlocks_between (kind : token.kind ≠ .block) :
    compiler.collectBlocks levels file props index found (token :: rest)
      = compiler.collectBlocks levels file props (index + 1) found rest := by
  rw [collectBlocks, if_neg kind]

/-! ## Compiling that succeeds -/

variable {html : Text} {slots : Bindings}

theorem resolve_plain_eq_ok (plain : ¬ token.NamesFile) :
    compiler.resolve levels frame index (token :: rest) = .ok html ↔
      ∃ more, compiler.resolve levels frame (index + 1) rest = .ok more ∧
        html = plainHtml frame token ++ more := by
  rw [resolve_plain compiler plain, Except.bind_eq_ok]
  simp only [Except.ok.injEq, eq_comm]

/-- At the bottom no directive that names a file compiles. -/
theorem resolve_bottom_ne_ok (names : token.NamesFile) :
    compiler.resolve 0 frame index (token :: rest) ≠ .ok html := by
  rw [resolve_bottom compiler names]
  intro compiled
  obtain ⟨_, _, impossible⟩ := Except.bind_eq_ok.1 compiled
  cases impossible

theorem resolve_inclusion_eq_ok (kind : token.kind = .inclusion) :
    compiler.resolve (deeper + 1) frame index (token :: rest) = .ok html ↔
      ∃ target source inner more,
        compiler.locate (Arguments.ofText token.content).main = .ok target ∧
        compiler.disk.readSource target.place = .ok source ∧
        compiler.resolve deeper (includedFrame frame target token) 0 (tokenize source)
          = .ok inner ∧
        compiler.resolve (deeper + 1) frame (index + 1) rest = .ok more ∧
        html = includeMarker frame.file index ++ inner ++ includeEndMarker ++ more := by
  simp only [resolve_inclusion compiler kind, Except.bind_eq_ok, Except.mapError_eq_ok,
    Except.ok.injEq, exists_and_left, eq_comm (a := html)]

theorem resolve_layout_eq_ok (kind : token.kind = .layout) :
    compiler.resolve (deeper + 1) frame index (token :: rest) = .ok html ↔
      ∃ target slots source inner more,
        compiler.locate (Arguments.ofText token.content).main = .ok target ∧
        compiler.collectBlocks (deeper + 1) frame.file (blockFrame frame token).props (index + 1)
          .empty (splitBalanced .layout .endLayout rest).1 = .ok slots ∧
        compiler.disk.readSource target.place = .ok source ∧
        compiler.resolve deeper (layoutFrame frame target token slots) 0 (tokenize source)
          = .ok inner ∧
        compiler.resolve (deeper + 1) frame
          (index + 1 + (splitBalanced .layout .endLayout rest).1.length + 1)
          (splitBalanced .layout .endLayout rest).2 = .ok more ∧
        html = inner ++ more := by
  simp only [resolve_layout compiler kind, Except.bind_eq_ok, Except.mapError_eq_ok,
    Except.ok.injEq, exists_and_left, eq_comm (a := html)]

theorem collectBlocks_block_eq_ok (kind : token.kind = .block) :
    compiler.collectBlocks levels file props index found (token :: rest) = .ok slots ↔
      ∃ html, compiler.resolve levels { file, slots := .empty, props } (index + 1)
          (splitBalanced .block .endBlock rest).1 = .ok html ∧
        compiler.collectBlocks levels file props
          (index + 1 + (splitBalanced .block .endBlock rest).1.length + 1)
          (found.insert token.name html) (splitBalanced .block .endBlock rest).2 = .ok slots := by
  rw [collectBlocks_block compiler kind, Except.bind_eq_ok]

/-! ## The induction -/

theorem mem_of_mem_body {opens closes : TokenKind} {tokens : List Token}
    (inside : token ∈ (splitBalanced opens closes tokens).1) : token ∈ tokens := by
  unfold splitBalanced at inside
  split at inside
  · exact List.mem_of_mem_take inside
  · exact inside

theorem mem_of_mem_behind {opens closes : TokenKind} {tokens : List Token}
    (behind : token ∈ (splitBalanced opens closes tokens).2) : token ∈ tokens := by
  unfold splitBalanced at behind
  split at behind
  · exact List.mem_of_mem_drop behind
  · exact absurd behind List.not_mem_nil

/-- Induction along the calls of `resolve` and `collectBlocks`. -/
theorem resolve_recursion (onTokens : Nat → Frame → Nat → List Token → Prop)
    (onBlocks : Nat → Text → Bindings → Nat → Bindings → List Token → Prop)
    (nil : ∀ levels frame index, onTokens levels frame index [])
    (plain : ∀ levels frame index token rest, ¬ token.NamesFile →
      onTokens levels frame (index + 1) rest → onTokens levels frame index (token :: rest))
    (bottom : ∀ frame index token rest, token.NamesFile → onTokens 0 frame index (token :: rest))
    (inclusion : ∀ deeper frame index token rest, token.kind = .inclusion →
      (∀ target source, onTokens deeper (includedFrame frame target token) 0 (tokenize source)) →
      onTokens (deeper + 1) frame (index + 1) rest →
      onTokens (deeper + 1) frame index (token :: rest))
    (layout : ∀ deeper frame index token rest, token.kind = .layout →
      onBlocks (deeper + 1) frame.file (blockFrame frame token).props (index + 1) .empty
        (splitBalanced .layout .endLayout rest).1 →
      (∀ target slots source,
        onTokens deeper (layoutFrame frame target token slots) 0 (tokenize source)) →
      onTokens (deeper + 1) frame
        (index + 1 + (splitBalanced .layout .endLayout rest).1.length + 1)
        (splitBalanced .layout .endLayout rest).2 →
      onTokens (deeper + 1) frame index (token :: rest))
    (noBlocks : ∀ levels file props index found, onBlocks levels file props index found [])
    (block : ∀ levels file props index found token rest, token.kind = .block →
      onTokens levels { file, slots := .empty, props } (index + 1)
        (splitBalanced .block .endBlock rest).1 →
      (∀ html, onBlocks levels file props
        (index + 1 + (splitBalanced .block .endBlock rest).1.length + 1)
        (found.insert token.name html) (splitBalanced .block .endBlock rest).2) →
      onBlocks levels file props index found (token :: rest))
    (between : ∀ levels file props index found token rest, token.kind ≠ .block →
      onBlocks levels file props (index + 1) found rest →
      onBlocks levels file props index found (token :: rest)) :
    (∀ levels frame index tokens, onTokens levels frame index tokens) ∧
      ∀ levels file props index found tokens, onBlocks levels file props index found tokens := by
  refine resolve.mutual_induct onTokens onBlocks nil ?raw ?inclusion ?layout ?slot ?prop ?block
    ?endBlock ?endLayout noBlocks block between
  case inclusion =>
    intro levels frame index token rest kind arguments ih
    -- The calls at the bottom depend on no target, so any one gives what they have proved.
    cases levels with
    | zero => exact bottom frame index token rest (.inl kind)
    | succ deeper =>
        exact inclusion deeper frame index token rest kind (fun target => (ih target).1)
          (ih ⟨[], []⟩).2
  case layout =>
    intro levels frame index token rest kind arguments ih
    cases levels with
    | zero => exact bottom frame index token rest (.inr kind)
    | succ deeper =>
        exact layout deeper frame index token rest kind (ih ⟨[], []⟩).1
          (fun target => (ih target).2.1) (ih ⟨[], []⟩).2.2
  all_goals
    intro levels frame index token rest kind ih
    exact plain levels frame index token rest (by simp [Token.NamesFile, kind]) ih

end Compiler

end StaticSite
