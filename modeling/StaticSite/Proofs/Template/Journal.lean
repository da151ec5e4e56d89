import Mathlib.Data.List.Infix
import StaticSite.Proofs.Template.Recursion

/-!
# Journals of compile runs

A second `resolve` that does the same and also writes down which slices of tokens it goes through
and which markers it writes, failing runs included.  Every slice is a part of the tokens of the
file that its frame names, and every marker names an include directive of such a file.
-/

namespace StaticSite

/-- What happens in a compile run. -/
inductive CompileEvent where
  /-- Some tokens of a file are compiled in a frame, the first of them at `index`. -/
  | entered (frame : Frame) (index : Nat) (tokens : List Token)
  /-- The marker of the include directive `token` is written. -/
  | marked (file : Text) (index : Nat) (token : Token)

/-- A computation that may fail, and what happens in it. -/
structure Journal (α : Type) where
  events : List CompileEvent
  result : Except CompileError α

namespace Journal

/-- A computation in which nothing happens. -/
def quiet {α : Type} (result : Except CompileError α) : Journal α where
  events := []
  result

/-- Writes down one event. -/
def note (event : CompileEvent) : Journal Unit where
  events := [event]
  result := .ok ()

instance : Monad Journal where
  pure a := quiet (.ok a)
  bind first next :=
    match first.result with
    | .ok a => { events := first.events ++ (next a).events, result := (next a).result }
    | .error error => { events := first.events, result := .error error }

variable {α β : Type} {first : Journal α} {next : α → Journal β} {event : CompileEvent}

@[simp] theorem result_pure (a : α) : (pure a : Journal α).result = .ok a := rfl

@[simp] theorem result_quiet (result : Except CompileError α) :
    (quiet result).result = result := rfl

@[simp] theorem result_note (event : CompileEvent) : (note event).result = .ok () := rfl

@[simp] theorem result_bind :
    (first >>= next).result = first.result >>= fun a => (next a).result := by
  obtain ⟨events, result⟩ := first
  cases result <;> rfl

@[simp] theorem not_mem_pure (a : α) : event ∉ (pure a : Journal α).events :=
  List.not_mem_nil

@[simp] theorem not_mem_quiet (result : Except CompileError α) : event ∉ (quiet result).events :=
  List.not_mem_nil

@[simp] theorem mem_note {noted : CompileEvent} : event ∈ (note noted).events ↔ event = noted :=
  List.mem_singleton

/-- An event of a chain happens in its first part, or behind it if that succeeds. -/
theorem mem_bind : event ∈ (first >>= next).events ↔
    event ∈ first.events ∨ ∃ a, first.result = .ok a ∧ event ∈ (next a).events := by
  obtain ⟨events, result⟩ := first
  cases result with
  | ok a =>
      show event ∈ events ++ (next a).events ↔ _
      simp
  | error error =>
      show event ∈ events ↔ _
      simp

end Journal

namespace Compiler

mutual

/-- `resolve` with a journal. -/
def recordTokens (compiler : Compiler) (levels : Nat) (frame : Frame) (index : Nat) :
    List Token → Journal Text
  | [] => pure []
  | token :: rest =>
      match token.kind with
      | .inclusion => do
          let arguments := Arguments.ofText token.content
          let target ← .quiet (compiler.locate arguments.main)
          match levels with
          | 0 => .quiet (.error (.circularReference arguments.main compiler.maxDepth))
          | deeper + 1 =>
              let source ← .quiet ((compiler.disk.readSource target.place).mapError
                (.missingInclude arguments.main))
              .note (.entered (includedFrame frame target token) 0 (tokenize source))
              let inner ← recordTokens compiler deeper (includedFrame frame target token) 0
                (tokenize source)
              .note (.marked frame.file index token)
              let html ← recordTokens compiler (deeper + 1) frame (index + 1) rest
              pure (includeMarker frame.file index ++ inner ++ includeEndMarker ++ html)
      | .layout => do
          let arguments := Arguments.ofText token.content
          let target ← .quiet (compiler.locate arguments.main)
          match levels with
          | 0 => .quiet (.error (.circularReference arguments.main compiler.maxDepth))
          | deeper + 1 =>
              let parts := splitBalanced .layout .endLayout rest
              let slots ← recordBlocks compiler (deeper + 1) frame.file
                (blockFrame frame token).props (index + 1) .empty parts.1
              let source ← .quiet ((compiler.disk.readSource target.place).mapError
                (.missingLayout arguments.main))
              .note (.entered (layoutFrame frame target token slots) 0 (tokenize source))
              let inner ← recordTokens compiler deeper (layoutFrame frame target token slots) 0
                (tokenize source)
              let html ← recordTokens compiler (deeper + 1) frame
                (index + 1 + parts.1.length + 1) parts.2
              pure (inner ++ html)
      | _ => do
          let html ← recordTokens compiler levels frame (index + 1) rest
          pure (plainHtml frame token ++ html)
  termination_by tokens => (levels, tokens.length, 0)
  decreasing_by
    all_goals simp_wf
    all_goals have inside := length_splitBalanced_fst_le .layout .endLayout rest
    all_goals have behind := length_splitBalanced_snd_le .layout .endLayout rest
    all_goals simp only [Prod.lex_def, true_and]
    all_goals omega

/-- `collectBlocks` with a journal. -/
def recordBlocks (compiler : Compiler) (levels : Nat) (file : Text) (props : Bindings)
    (index : Nat) (found : Bindings) : List Token → Journal Bindings
  | [] => pure found
  | token :: rest =>
      if token.kind = .block then do
        let parts := splitBalanced .block .endBlock rest
        .note (.entered { file, slots := .empty, props } (index + 1) parts.1)
        let html ← recordTokens compiler levels { file, slots := .empty, props } (index + 1) parts.1
        recordBlocks compiler levels file props (index + 1 + parts.1.length + 1)
          (found.insert token.name html) parts.2
      else recordBlocks compiler levels file props (index + 1) found rest
  termination_by tokens => (levels, tokens.length, 1)
  decreasing_by
    all_goals simp_wf
    all_goals have inside := length_splitBalanced_fst_le .block .endBlock rest
    all_goals have behind := length_splitBalanced_snd_le .block .endBlock rest
    all_goals simp only [Prod.lex_def, true_and]
    all_goals omega

end

/-- `compileSource` with a journal. -/
def recordSource (compiler : Compiler) (file source : Text) : Journal Text := do
  .note (.entered { file, slots := .empty, props := .empty } 0 (tokenize source))
  compiler.recordTokens compiler.maxDepth { file, slots := .empty, props := .empty } 0
    (tokenize source)

section

variable (compiler : Compiler) {levels deeper : Nat} {frame : Frame} {index : Nat} {token : Token}
  {rest : List Token}

theorem recordTokens_plain (plain : ¬ token.NamesFile) :
    compiler.recordTokens levels frame index (token :: rest) = (do
      let html ← compiler.recordTokens levels frame (index + 1) rest
      pure (plainHtml frame token ++ html)) := by
  rw [recordTokens]
  cases kind : token.kind with
  | inclusion => exact absurd (.inl kind) plain
  | layout => exact absurd (.inr kind) plain
  | _ => rfl

theorem recordTokens_bottom (names : token.NamesFile) :
    compiler.recordTokens 0 frame index (token :: rest) = (do
      let _ ← .quiet (compiler.locate (Arguments.ofText token.content).main)
      .quiet (.error
        (.circularReference (Arguments.ofText token.content).main compiler.maxDepth))) := by
  rw [recordTokens]
  rcases names with kind | kind <;> rw [kind]

theorem recordTokens_inclusion (kind : token.kind = .inclusion) :
    compiler.recordTokens (deeper + 1) frame index (token :: rest) = (do
      let target ← .quiet (compiler.locate (Arguments.ofText token.content).main)
      let source ← .quiet ((compiler.disk.readSource target.place).mapError
        (.missingInclude (Arguments.ofText token.content).main))
      .note (.entered (includedFrame frame target token) 0 (tokenize source))
      let inner ← compiler.recordTokens deeper (includedFrame frame target token) 0
        (tokenize source)
      .note (.marked frame.file index token)
      let html ← compiler.recordTokens (deeper + 1) frame (index + 1) rest
      pure (includeMarker frame.file index ++ inner ++ includeEndMarker ++ html)) := by
  rw [recordTokens, kind]

theorem recordTokens_layout (kind : token.kind = .layout) :
    compiler.recordTokens (deeper + 1) frame index (token :: rest) = (do
      let target ← .quiet (compiler.locate (Arguments.ofText token.content).main)
      let slots ← compiler.recordBlocks (deeper + 1) frame.file (blockFrame frame token).props
        (index + 1) .empty (splitBalanced .layout .endLayout rest).1
      let source ← .quiet ((compiler.disk.readSource target.place).mapError
        (.missingLayout (Arguments.ofText token.content).main))
      .note (.entered (layoutFrame frame target token slots) 0 (tokenize source))
      let inner ← compiler.recordTokens deeper (layoutFrame frame target token slots) 0
        (tokenize source)
      let html ← compiler.recordTokens (deeper + 1) frame
        (index + 1 + (splitBalanced .layout .endLayout rest).1.length + 1)
        (splitBalanced .layout .endLayout rest).2
      pure (inner ++ html)) := by
  rw [recordTokens, kind]

end

/-! ## The journal changes nothing -/

theorem result_record (compiler : Compiler) :
    (∀ levels frame index tokens, (compiler.recordTokens levels frame index tokens).result
      = compiler.resolve levels frame index tokens) ∧
    ∀ levels file props index found tokens,
      (compiler.recordBlocks levels file props index found tokens).result
        = compiler.collectBlocks levels file props index found tokens := by
  refine resolve_recursion
    (fun levels frame index tokens =>
      (compiler.recordTokens levels frame index tokens).result
        = compiler.resolve levels frame index tokens)
    (fun levels file props index found tokens =>
      (compiler.recordBlocks levels file props index found tokens).result
        = compiler.collectBlocks levels file props index found tokens)
    ?nil ?plain ?bottom ?inclusion ?layout ?noBlocks ?block ?between
  case nil =>
    intro levels frame index
    rw [recordTokens, resolve]
    rfl
  case plain =>
    intro levels frame index token rest plain ih
    rw [recordTokens_plain compiler plain, resolve_plain compiler plain, Journal.result_bind, ih]
    rfl
  case bottom =>
    intro frame index token rest names
    rw [recordTokens_bottom compiler names, resolve_bottom compiler names]
    simp only [Journal.result_bind, Journal.result_quiet]
  case inclusion =>
    intro deeper frame index token rest kind inside behind
    rw [recordTokens_inclusion compiler kind, resolve_inclusion compiler kind]
    simp only [Journal.result_bind, Journal.result_quiet, Journal.result_note, Journal.result_pure,
      Except.ok_bind, inside, behind]
  case layout =>
    intro deeper frame index token rest kind blocks inside behind
    rw [recordTokens_layout compiler kind, resolve_layout compiler kind]
    simp only [Journal.result_bind, Journal.result_quiet, Journal.result_note, Journal.result_pure,
      Except.ok_bind, blocks, inside, behind]
  case noBlocks =>
    intro levels file props index found
    rw [recordBlocks, collectBlocks]
    rfl
  case block =>
    intro levels file props index found token rest kind inside more
    rw [recordBlocks, if_pos kind, collectBlocks_block compiler kind]
    simp only [Journal.result_bind, Journal.result_note, Except.ok_bind, inside, more]
  case between =>
    intro levels file props index found token rest kind ih
    rw [recordBlocks, if_neg kind, collectBlocks_between compiler kind]
    exact ih

theorem result_recordTokens (compiler : Compiler) (levels : Nat) (frame : Frame) (index : Nat)
    (tokens : List Token) : (compiler.recordTokens levels frame index tokens).result
      = compiler.resolve levels frame index tokens :=
  (result_record compiler).1 levels frame index tokens

theorem result_recordBlocks (compiler : Compiler) (levels : Nat) (file : Text) (props : Bindings)
    (index : Nat) (found : Bindings) (tokens : List Token) :
    (compiler.recordBlocks levels file props index found tokens).result
      = compiler.collectBlocks levels file props index found tokens :=
  (result_record compiler).2 levels file props index found tokens

theorem result_recordSource (compiler : Compiler) (file source : Text) :
    (compiler.recordSource file source).result = compiler.compileSource file source :=
  result_recordTokens ..

end Compiler

/-! ## Slices of files -/

/-- The slice is a part of the tokens of the named file, and the marker that of an include
directive there.  `texts` tells the texts that files may have. -/
def CompileEvent.Sound (texts : Text → Text → Prop) : CompileEvent → Prop
  | .entered frame index tokens =>
      ∃ text, texts frame.file text ∧ tokens <+: (tokenize text).drop index
  | .marked file index token =>
      ∃ text, texts file text ∧ (tokenize text)[index]? = some token ∧ token.kind = .inclusion

section

variable {tokens rest behind : List Token} {token : Token} {index : Nat}

theorem getElem?_of_cons_prefix_drop (slice : token :: rest <+: tokens.drop index) :
    tokens[index]? = some token := by
  obtain ⟨behind, same⟩ := slice
  have first := congrArg List.head? same
  rw [List.head?_drop] at first
  exact first.symm

theorem prefix_drop_succ (slice : token :: rest <+: tokens.drop index) :
    rest <+: tokens.drop (index + 1) := by
  obtain ⟨behind, same⟩ := slice
  refine ⟨behind, ?_⟩
  rw [← List.tail_drop, ← same, List.cons_append, List.tail_cons]

theorem splitBalanced_fst_prefix_self (opens closes : TokenKind) (tokens : List Token) :
    (splitBalanced opens closes tokens).1 <+: tokens := by
  unfold splitBalanced
  split
  · exact List.take_prefix _ _
  · exact List.prefix_rfl

/-- What is behind an enclosed body begins one token, the closing one, after it. -/
theorem splitBalanced_snd_prefix_drop (opens closes : TokenKind) (tokens : List Token) :
    (splitBalanced opens closes tokens).2
      <+: tokens.drop ((splitBalanced opens closes tokens).1.length + 1) := by
  unfold splitBalanced
  split
  · next inside _ =>
      -- A closing token that is found is always among the tokens, but this needs no proof here.
      rw [List.length_take]
      by_cases within : inside ≤ tokens.length
      · rw [Nat.min_eq_left within]
      · have past : tokens.drop (inside + 1) = [] := List.drop_eq_nil_of_le (by omega)
        rw [past]
        exact List.nil_prefix
  · exact List.nil_prefix

theorem body_prefix_drop (opens closes : TokenKind) (slice : rest <+: tokens.drop index) :
    (splitBalanced opens closes rest).1 <+: tokens.drop index :=
  (splitBalanced_fst_prefix_self opens closes rest).trans slice

theorem behind_prefix_drop (opens closes : TokenKind) (slice : rest <+: tokens.drop index) :
    (splitBalanced opens closes rest).2
      <+: tokens.drop (index + (splitBalanced opens closes rest).1.length + 1) := by
  have shifted := (splitBalanced_snd_prefix_drop opens closes rest).trans (slice.drop _)
  rwa [List.drop_drop, ← Nat.add_assoc] at shifted

end

namespace Compiler

/-- Files that directives lead to have the texts that are read from them. -/
def Knows (compiler : Compiler) (texts : Text → Text → Prop) : Prop :=
  ∀ relative target source, compiler.locate relative = .ok target →
    compiler.disk.readSource target.place = .ok source → texts target.logical source

variable {compiler : Compiler} {texts : Text → Text → Prop}

/-- Compiling a slice of a file goes through slices of files only. -/
theorem sound_of_mem_recordTokens (knows : compiler.Knows texts) (levels : Nat) (frame : Frame)
    (index : Nat) (tokens : List Token) :
    ∀ text, texts frame.file text → tokens <+: (tokenize text).drop index →
      ∀ event ∈ (compiler.recordTokens levels frame index tokens).events, event.Sound texts := by
  refine (resolve_recursion
    (fun levels frame index tokens =>
      ∀ text, texts frame.file text → tokens <+: (tokenize text).drop index →
        ∀ event ∈ (compiler.recordTokens levels frame index tokens).events, event.Sound texts)
    (fun levels file props index found tokens =>
      ∀ text, texts file text → tokens <+: (tokenize text).drop index →
        ∀ event ∈ (compiler.recordBlocks levels file props index found tokens).events,
          event.Sound texts)
    ?nil ?plain ?bottom ?inclusion ?layout ?noBlocks ?block ?between).1 levels frame index tokens
  case nil =>
    intro levels frame index text _ _ event happened
    rw [recordTokens] at happened
    exact absurd happened (Journal.not_mem_pure _)
  case plain =>
    intro levels frame index token rest plain ih text known slice event happened
    rw [recordTokens_plain compiler plain] at happened
    rcases Journal.mem_bind.1 happened with happened | ⟨_, _, happened⟩
    · exact ih text known (prefix_drop_succ slice) event happened
    · exact absurd happened (Journal.not_mem_pure _)
  case bottom =>
    intro frame index token rest names text _ _ event happened
    rw [recordTokens_bottom compiler names] at happened
    simp [Journal.mem_bind] at happened
  case inclusion =>
    intro deeper frame index token rest kind inside behind text known slice event happened
    rw [recordTokens_inclusion compiler kind] at happened
    simp only [Journal.mem_bind, Journal.not_mem_quiet, Journal.not_mem_pure, Journal.mem_note,
      Journal.result_quiet, Journal.result_note, false_or, and_false, exists_false, or_false,
      Except.mapError_eq_ok] at happened
    obtain ⟨target, located, source, read, happened⟩ := happened
    have knownTarget := knows _ _ _ located read
    -- The file is entered, compiled and marked, and then this file goes on.
    rcases happened with rfl | ⟨_, _, happened | ⟨_, _, rfl | ⟨_, _, happened⟩⟩⟩
    · exact ⟨source, knownTarget, List.prefix_rfl⟩
    · exact inside target source source knownTarget List.prefix_rfl event happened
    · exact ⟨text, known, getElem?_of_cons_prefix_drop slice, kind⟩
    · exact behind text known (prefix_drop_succ slice) event happened
  case layout =>
    intro deeper frame index token rest kind blocks inside behind text known slice event happened
    rw [recordTokens_layout compiler kind] at happened
    simp only [Journal.mem_bind, Journal.not_mem_quiet, Journal.not_mem_pure, Journal.mem_note,
      Journal.result_quiet, Journal.result_note, false_or, and_false, exists_false, or_false,
      Except.mapError_eq_ok] at happened
    have restSlice := prefix_drop_succ slice
    -- The body's blocks are slices of this file, the layout is a file of its own.
    obtain ⟨target, located, happened | ⟨slots, _, source, read, happened⟩⟩ := happened
    · exact blocks text known (body_prefix_drop _ _ restSlice) event happened
    · have knownTarget := knows _ _ _ located read
      rcases happened with rfl | ⟨_, _, happened | ⟨_, _, happened⟩⟩
      · exact ⟨source, knownTarget, List.prefix_rfl⟩
      · exact inside target slots source source knownTarget List.prefix_rfl event happened
      · exact behind text known (behind_prefix_drop _ _ restSlice) event happened
  case noBlocks =>
    intro levels file props index found text _ _ event happened
    rw [recordBlocks] at happened
    exact absurd happened (Journal.not_mem_pure _)
  case block =>
    intro levels file props index found token rest kind inside more text known slice event happened
    rw [recordBlocks, if_pos kind] at happened
    simp only [Journal.mem_bind, Journal.mem_note] at happened
    have restSlice := prefix_drop_succ slice
    rcases happened with rfl | ⟨_, _, happened | ⟨html, _, happened⟩⟩
    · exact ⟨text, known, body_prefix_drop _ _ restSlice⟩
    · exact inside text known (body_prefix_drop _ _ restSlice) event happened
    · exact more html text known (behind_prefix_drop _ _ restSlice) event happened
  case between =>
    intro levels file props index found token rest kind ih text known slice event happened
    rw [recordBlocks, if_neg kind] at happened
    exact ih text known (prefix_drop_succ slice) event happened

/-- All slices and markers of a page's compile run are those of files. -/
theorem sound_of_mem_recordSource (knows : compiler.Knows texts) {file source : Text}
    (known : texts file source) {event : CompileEvent}
    (happened : event ∈ (compiler.recordSource file source).events) : event.Sound texts := by
  rcases Journal.mem_bind.1 happened with first | ⟨_, _, happened⟩
  · rw [Journal.mem_note.1 first]
    exact ⟨source, known, List.prefix_rfl⟩
  · exact sound_of_mem_recordTokens knows _ _ _ _ source known List.prefix_rfl event happened

end Compiler

end StaticSite
