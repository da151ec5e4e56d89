import StaticSite.Proofs.Template.Recursion

/-!
# Going down into files

The recursion of the compiler with nothing to bound it but its own test of the depth, which is
counted up from the page.  A run of it could go on for ever, so that runs are looked at for a number
of steps; with enough of them each comes to what the page compiles to, and no file is entered beyond
the depth limit.
-/

namespace StaticSite

/-- A computation that may fail, and that has no outcome if its steps run out.  It keeps the depths
of the frames that it enters. -/
abbrev Descent (α : Type) := ExceptT CompileError (StateT (List Nat) Option) α

namespace Descent

/-- The steps have run out. -/
def unfinished {α : Type} : Descent α :=
  .mk (StateT.lift none)

/-- A step that enters no frame. -/
def ofResult {α : Type} (result : Except CompileError α) : Descent α :=
  .mk (pure result)

/-- Enters a frame. -/
def enter (depth : Nat) : Descent Unit :=
  modify (depth :: ·)

/-- The outcome, with the depths of the frames that were entered behind those in `seen`. -/
def outcome? {α : Type} (descent : Descent α) (seen : List Nat) :
    Option (Except CompileError α × List Nat) :=
  descent.run.run seen

/-- With enough steps the computation ends with a result, and enters frames down to the limit
only. -/
def Ends {α : Type} (limit : Nat) (descent : Nat → Descent α) (result : Except CompileError α) :
    Prop :=
  ∃ enough, ∀ steps, enough ≤ steps → ∀ seen, (∀ depth ∈ seen, depth ≤ limit) →
    ∃ depths, (descent steps).outcome? seen = some (result, depths) ∧
      ∀ depth ∈ depths, depth ≤ limit

theorem ofResult_error_bind {α β : Type} (error : CompileError) (next : α → Descent β) :
    (ofResult (.error error) >>= next) = ofResult (.error error) := rfl

section

variable {α β : Type} {first : Descent α} {next : α → Descent β} {seen depths : List Nat}

theorem outcome?_bind_ok {a : α} (done : first.outcome? seen = some (.ok a, depths)) :
    (first >>= next).outcome? seen = (next a).outcome? depths := by
  show (first.outcome? seen >>= _) = _
  rw [done]
  rfl

theorem outcome?_bind_error {error : CompileError}
    (failed : first.outcome? seen = some (.error error, depths)) :
    (first >>= next).outcome? seen = some (.error error, depths) := by
  show (first.outcome? seen >>= _) = _
  rw [failed]
  rfl

end

section

variable {α β : Type} {limit : Nat} {descent first : Nat → Descent α}
  {next : α → Nat → Descent β}

theorem ends_ofResult (limit : Nat) (result : Except CompileError α) :
    Ends limit (fun _ => ofResult result) result :=
  ⟨0, fun _ _ seen within => ⟨seen, rfl, within⟩⟩

theorem ends_pure (limit : Nat) (a : α) : Ends limit (fun _ => pure a) (.ok a) :=
  ends_ofResult limit (.ok a)

theorem ends_enter {depth : Nat} (allowed : depth ≤ limit) :
    Ends limit (fun _ => enter depth) (.ok ()) := by
  refine ⟨0, fun _ _ seen within => ⟨depth :: seen, rfl, ?_⟩⟩
  intro other entered
  rcases List.mem_cons.1 entered with rfl | entered
  · exact allowed
  · exact within other entered

/-- A call takes a step. -/
theorem Ends.call {result : Except CompileError α}
    (ends : Ends limit (fun steps => descent (steps + 1)) result) : Ends limit descent result := by
  obtain ⟨enough, ends⟩ := ends
  refine ⟨enough + 1, fun steps more => ?_⟩
  cases steps with
  | zero => omega
  | succ fewer => exact ends fewer (by omega)

/-- A chain of computations ends if each one that is reached does. -/
theorem Ends.bind {result : Except CompileError α} {onward : α → Except CompileError β}
    (ends : Ends limit first result)
    (endsNext : ∀ a, result = .ok a → Ends limit (next a) (onward a)) :
    Ends limit (fun steps => first steps >>= fun a => next a steps) (result >>= onward) := by
  obtain ⟨enough, ends⟩ := ends
  cases result with
  | error error =>
    refine ⟨enough, fun steps more seen within => ?_⟩
    obtain ⟨depths, outcome, allowed⟩ := ends steps more seen within
    exact ⟨depths, outcome?_bind_error outcome, allowed⟩
  | ok a =>
    obtain ⟨enoughNext, endsNext⟩ := endsNext a rfl
    refine ⟨max enough enoughNext, fun steps more seen within => ?_⟩
    obtain ⟨depths, outcome, allowed⟩ := ends steps (by omega) seen within
    obtain ⟨final, ended, allowed⟩ := endsNext steps (by omega) depths allowed
    exact ⟨final, (outcome?_bind_ok outcome).trans ended, allowed⟩

theorem Ends.enter_bind {depth : Nat} {result : Except CompileError α}
    (ends : Ends limit descent result) (allowed : depth ≤ limit) :
    Ends limit (fun steps => enter depth >>= fun _ => descent steps) result :=
  (ends_enter allowed).bind fun _ _ => ends

end

end Descent

namespace Compiler

/-- The target of a directive in a frame that is `depth` levels deep. -/
def locateAt (compiler : Compiler) (depth : Nat) (relative : Text) :
    Except CompileError Target := do
  let target ← compiler.locate relative
  if compiler.maxDepth < depth + 1 then .error (.circularReference relative compiler.maxDepth)
  else .ok target

mutual

/-- `resolve` with the depth counted up, for a number of steps. -/
def descendTokens (compiler : Compiler) (steps depth : Nat) (frame : Frame) (index : Nat)
    (tokens : List Token) : Descent Text :=
  match steps, tokens with
  | 0, _ => .unfinished
  | _ + 1, [] => pure []
  | steps + 1, token :: rest =>
      match token.kind with
      | .inclusion => do
          let arguments := Arguments.ofText token.content
          let target ← Descent.ofResult (compiler.locateAt depth arguments.main)
          let source ← Descent.ofResult ((compiler.disk.readSource target.place).mapError
            (CompileError.missingInclude arguments.main))
          Descent.enter (depth + 1)
          let inner ← descendTokens compiler steps (depth + 1) (includedFrame frame target token) 0
            (tokenize source)
          let html ← descendTokens compiler steps depth frame (index + 1) rest
          pure (includeMarker frame.file index ++ inner ++ includeEndMarker ++ html)
      | .layout => do
          let arguments := Arguments.ofText token.content
          let parts := splitBalanced .layout .endLayout rest
          let target ← Descent.ofResult (compiler.locateAt depth arguments.main)
          let slots ← descendBlocks compiler steps depth frame.file (blockFrame frame token).props
            (index + 1) .empty parts.1
          let source ← Descent.ofResult ((compiler.disk.readSource target.place).mapError
            (CompileError.missingLayout arguments.main))
          Descent.enter (depth + 1)
          let inner ← descendTokens compiler steps (depth + 1)
            (layoutFrame frame target token slots) 0 (tokenize source)
          let html ← descendTokens compiler steps depth frame (index + 1 + parts.1.length + 1)
            parts.2
          pure (inner ++ html)
      | _ => do
          let html ← descendTokens compiler steps depth frame (index + 1) rest
          pure (plainHtml frame token ++ html)

/-- `collectBlocks` with the depth counted up, for a number of steps. -/
def descendBlocks (compiler : Compiler) (steps depth : Nat) (file : Text) (props : Bindings)
    (index : Nat) (found : Bindings) (tokens : List Token) : Descent Bindings :=
  match steps, tokens with
  | 0, _ => .unfinished
  | _ + 1, [] => pure found
  | steps + 1, token :: rest =>
      if token.kind = .block then do
        let parts := splitBalanced .block .endBlock rest
        Descent.enter depth
        let html ← descendTokens compiler steps depth { file, slots := .empty, props } (index + 1)
          parts.1
        descendBlocks compiler steps depth file props (index + 1 + parts.1.length + 1)
          (found.insert token.name html) parts.2
      else descendBlocks compiler steps depth file props (index + 1) found rest

end

/-- `compileSource` with the depth counted up from the page, for a number of steps. -/
def descendSource (compiler : Compiler) (steps : Nat) (file source : Text) : Descent Text := do
  Descent.enter 0
  compiler.descendTokens steps 0 { file, slots := .empty, props := .empty } 0 (tokenize source)

section

variable {compiler : Compiler} {depth levels : Nat} {relative : Text}

theorem locateAt_of_room (sum : depth + (levels + 1) = compiler.maxDepth) :
    compiler.locateAt depth relative = compiler.locate relative := by
  have room : ¬ compiler.maxDepth < depth + 1 := by omega
  unfold locateAt
  cases compiler.locate relative with
  | error error => rfl
  | ok target => rw [Except.ok_bind, if_neg room]

/-- At the limit the test of the depth fails a directive that the test of its target lets pass. -/
theorem locateAt_of_no_room {α : Type} (sum : depth + 0 = compiler.maxDepth) :
    ∃ error, compiler.locateAt depth relative = .error error ∧
      (do
        let _ ← compiler.locate relative
        (.error (.circularReference relative compiler.maxDepth) : Except CompileError α))
        = .error error := by
  have noRoom : compiler.maxDepth < depth + 1 := by omega
  unfold locateAt
  cases compiler.locate relative with
  | error error => exact ⟨error, rfl, rfl⟩
  | ok target => exact ⟨.circularReference relative compiler.maxDepth, if_pos noRoom, rfl⟩

/-- With `levels` levels left below `depth`, going down ends with what the tokens compile to. -/
theorem descendTokens_ends (compiler : Compiler) (levels : Nat) (frame : Frame) (index : Nat)
    (tokens : List Token) :
    ∀ depth, depth + levels = compiler.maxDepth →
      Descent.Ends compiler.maxDepth
        (fun steps => compiler.descendTokens steps depth frame index tokens)
        (compiler.resolve levels frame index tokens) := by
  refine (resolve_recursion
    (fun levels frame index tokens => ∀ depth, depth + levels = compiler.maxDepth →
      Descent.Ends compiler.maxDepth
        (fun steps => compiler.descendTokens steps depth frame index tokens)
        (compiler.resolve levels frame index tokens))
    (fun levels file props index found tokens => ∀ depth, depth + levels = compiler.maxDepth →
      Descent.Ends compiler.maxDepth
        (fun steps => compiler.descendBlocks steps depth file props index found tokens)
        (compiler.collectBlocks levels file props index found tokens))
    ?nil ?plain ?bottom ?inclusion ?layout ?noBlocks ?block ?between).1 levels frame index tokens
  case nil =>
    intro levels frame index depth _
    refine Descent.Ends.call ?_
    rw [resolve]
    exact Descent.ends_pure _ _
  case plain =>
    intro levels frame index token rest plain ih depth sum
    have step : ∀ steps, compiler.descendTokens (steps + 1) depth frame index (token :: rest) = (do
        let html ← compiler.descendTokens steps depth frame (index + 1) rest
        pure (plainHtml frame token ++ html)) := by
      intro steps
      rw [descendTokens]
      cases kind : token.kind with
      | inclusion => exact absurd (.inl kind) plain
      | layout => exact absurd (.inr kind) plain
      | _ => rfl
    refine Descent.Ends.call ?_
    simp only [step, resolve_plain compiler plain]
    exact (ih depth sum).bind fun html _ => Descent.ends_pure _ _
  case bottom =>
    intro frame index token rest names depth sum
    obtain ⟨error, stopped, same⟩ := locateAt_of_no_room sum
    refine Descent.Ends.call ?_
    rw [resolve_bottom compiler names, same]
    rcases names with kind | kind
    all_goals
      simp only [descendTokens, kind, stopped, Descent.ofResult_error_bind]
      exact Descent.ends_ofResult _ _
  case inclusion =>
    intro deeper frame index token rest kind inside behind depth sum
    refine Descent.Ends.call ?_
    simp only [descendTokens, kind, resolve_inclusion compiler kind, locateAt_of_room sum]
    refine (Descent.ends_ofResult _ _).bind fun target _ => ?_
    refine (Descent.ends_ofResult _ _).bind fun source _ => ?_
    refine Descent.Ends.enter_bind ?_ (by omega)
    refine (inside target source (depth + 1) (by omega)).bind fun inner _ => ?_
    exact (behind depth sum).bind fun html _ => Descent.ends_pure _ _
  case layout =>
    intro deeper frame index token rest kind blocks inside behind depth sum
    refine Descent.Ends.call ?_
    simp only [descendTokens, kind, resolve_layout compiler kind, locateAt_of_room sum]
    refine (Descent.ends_ofResult _ _).bind fun target _ => ?_
    refine (blocks depth sum).bind fun slots _ => ?_
    refine (Descent.ends_ofResult _ _).bind fun source _ => ?_
    refine Descent.Ends.enter_bind ?_ (by omega)
    refine (inside target slots source (depth + 1) (by omega)).bind fun inner _ => ?_
    exact (behind depth sum).bind fun html _ => Descent.ends_pure _ _
  case noBlocks =>
    intro levels file props index found depth _
    refine Descent.Ends.call ?_
    rw [collectBlocks]
    exact Descent.ends_pure _ _
  case block =>
    intro levels file props index found token rest kind inside more depth sum
    refine Descent.Ends.call ?_
    simp only [descendBlocks, if_pos kind, collectBlocks_block compiler kind]
    -- The block's frame belongs to the file around the layout and is no deeper.
    refine Descent.Ends.enter_bind ?_ (by omega)
    exact (inside depth sum).bind fun html _ => more html depth sum
  case between =>
    intro levels file props index found token rest kind ih depth sum
    refine Descent.Ends.call ?_
    simp only [descendBlocks, if_neg kind, collectBlocks_between compiler kind]
    exact ih depth sum

/-- Going down from a page ends with what the page compiles to, no deeper than the limit. -/
theorem descendSource_ends (compiler : Compiler) (file source : Text) :
    Descent.Ends compiler.maxDepth (fun steps => compiler.descendSource steps file source)
      (compiler.compileSource file source) :=
  (descendTokens_ends compiler _ _ _ _ 0 (Nat.zero_add _)).enter_bind (Nat.zero_le _)

end

end Compiler

end StaticSite
