import StaticSite.Argument
import StaticSite.Disk.Contain
import StaticSite.Template.Error
import StaticSite.Token.Balanced
import StaticSite.Token.Scan

/-!
# Compiling pages

A page compiles to HTML by putting the compiled targets in place of its directives.  An include
stands for its file between two markers; the file sees the slots around it.  A layout stands for
its file, whose slots are the blocks of the layout's body and nothing else.  Both hand down the
properties, overlaid by their own.  Every file goes one level deeper, and the depth is bounded.
-/

namespace StaticSite

/-- The file tree, project root and depth limit under which pages are compiled. -/
structure Compiler where
  disk : Disk
  /-- The canonical project root. -/
  root : Path
  maxDepth : Nat

/-- The source file being compiled and what is bound around it. -/
structure Frame where
  /-- The logical name of the source file. -/
  file : Text
  /-- The blocks that slots stand for. -/
  slots : Bindings
  props : Bindings

/-- What the text of a block or prop directive names. -/
def Token.name (token : Token) : Text :=
  (Arguments.ofText token.content).main

/-- Splits the tokens behind an opening token at the token that closes it.  Without one,
everything is inside. -/
def splitBalanced (opens closes : TokenKind) (tokens : List Token) : List Token × List Token :=
  match closingIndex? opens closes 1 tokens with
  | some inside => (tokens.take inside, tokens.drop (inside + 1))
  | none => (tokens, [])

theorem length_splitBalanced_fst_le (opens closes : TokenKind) (tokens : List Token) :
    (splitBalanced opens closes tokens).1.length ≤ tokens.length := by
  unfold splitBalanced
  split
  · simp only [List.length_take]
    omega
  · exact Nat.le_refl _

theorem length_splitBalanced_snd_le (opens closes : TokenKind) (tokens : List Token) :
    (splitBalanced opens closes tokens).2.length ≤ tokens.length := by
  unfold splitBalanced
  split
  · simp only [List.length_drop]
    omega
  · exact Nat.zero_le _

/-- The comment in front of an included file: the file that includes it and the index of the
directive among that file's tokens. -/
def includeMarker (file : Text) (index : Nat) : Text :=
  "<!-- __TP_INC__ file=\"".toList ++ file ++ "\" token_index=\"".toList ++ Text.ofNat index
    ++ "\" -->".toList

/-- The comment behind an included file. -/
def includeEndMarker : Text := "<!-- __TP_END_INC__ -->".toList

namespace Compiler

/-- The target of a directive. -/
def locate (compiler : Compiler) (relative : Text) : Except CompileError Target :=
  match compiler.disk.contain? compiler.root relative with
  | some target => .ok target
  | none => .error (.pathEscape relative)

mutual

/-- The HTML of the tokens of a frame.  `levels` is how many levels deeper directives may go and
`index` the position of the first token among the tokens of the file. -/
def resolve (compiler : Compiler) (levels : Nat) (frame : Frame) (index : Nat) :
    List Token → Except CompileError Text
  | [] => .ok []
  | token :: rest =>
      match token.kind with
      | .raw => do
          let html ← resolve compiler levels frame (index + 1) rest
          .ok (token.content ++ html)
      | .inclusion => do
          let arguments := Arguments.ofText token.content
          let target ← compiler.locate arguments.main
          match levels with
          | 0 => .error (.circularReference arguments.main compiler.maxDepth)
          | deeper + 1 =>
              let source ← (compiler.disk.readSource target.place).mapError
                (.missingInclude arguments.main)
              let inner ← resolve compiler deeper
                { file := target.logical
                  slots := frame.slots
                  props := frame.props.overlay arguments.props }
                0 (tokenize source)
              let html ← resolve compiler (deeper + 1) frame (index + 1) rest
              .ok (includeMarker frame.file index ++ inner ++ includeEndMarker ++ html)
      | .layout => do
          let arguments := Arguments.ofText token.content
          let target ← compiler.locate arguments.main
          match levels with
          | 0 => .error (.circularReference arguments.main compiler.maxDepth)
          | deeper + 1 =>
              let props := frame.props.overlay arguments.props
              let parts := splitBalanced .layout .endLayout rest
              let slots ← collectBlocks compiler (deeper + 1) frame.file props (index + 1) .empty
                parts.1
              let source ← (compiler.disk.readSource target.place).mapError
                (.missingLayout arguments.main)
              let inner ← resolve compiler deeper { file := target.logical, slots, props }
                0 (tokenize source)
              let html ← resolve compiler (deeper + 1) frame (index + 1 + parts.1.length + 1)
                parts.2
              .ok (inner ++ html)
      | .slot => do
          let html ← resolve compiler levels frame (index + 1) rest
          .ok ((frame.slots.get? token.name).getD [] ++ html)
      | .prop => do
          let html ← resolve compiler levels frame (index + 1) rest
          .ok ((frame.props.get? token.name).getD [] ++ html)
      | .block | .endBlock | .endLayout =>
          resolve compiler levels frame (index + 1) rest
  termination_by tokens => (levels, tokens.length, 0)
  decreasing_by
    all_goals simp_wf
    all_goals have inside := length_splitBalanced_fst_le .layout .endLayout rest
    all_goals have behind := length_splitBalanced_snd_le .layout .endLayout rest
    all_goals simp only [Prod.lex_def, true_and]
    all_goals omega

/-- The blocks of a layout's body, compiled without slots and added to `found`.  Only outermost
blocks count, a later block of one name wins, and everything between blocks is dropped. -/
def collectBlocks (compiler : Compiler) (levels : Nat) (file : Text) (props : Bindings)
    (index : Nat) (found : Bindings) : List Token → Except CompileError Bindings
  | [] => .ok found
  | token :: rest =>
      if token.kind = .block then do
        let parts := splitBalanced .block .endBlock rest
        let html ← resolve compiler levels { file, slots := .empty, props } (index + 1) parts.1
        collectBlocks compiler levels file props (index + 1 + parts.1.length + 1)
          (found.insert token.name html) parts.2
      else collectBlocks compiler levels file props (index + 1) found rest
  termination_by tokens => (levels, tokens.length, 1)
  decreasing_by
    all_goals simp_wf
    all_goals have inside := length_splitBalanced_fst_le .block .endBlock rest
    all_goals have behind := length_splitBalanced_snd_le .block .endBlock rest
    all_goals simp only [Prod.lex_def, true_and]
    all_goals omega

end

/-- The compiler of a project, whose root has to exist. -/
def forProject (disk : Disk) (root : Path) (maxDepth : Nat) : Except CompileError Compiler := do
  let place ← (disk.canonical root).mapError (.projectRoot root)
  .ok { disk, root := place, maxDepth }

/-- The HTML of a page source that is known as `file`. -/
def compileSource (compiler : Compiler) (file source : Text) : Except CompileError Text :=
  compiler.resolve compiler.maxDepth { file, slots := .empty, props := .empty } 0
    (tokenize source)

end Compiler

/-- The depth limit of projects that set none. -/
def defaultMaxDepth : Nat := 64

end StaticSite
