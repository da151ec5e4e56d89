import StaticSite.Proofs.Token.Enclosure

/-!
# Nesting tokens

The tokens of a source form a forest: a layout holds the outermost blocks of its body, a block
holds a forest of its own, and everything else is a leaf.  `Nests` says which forest belongs to
some tokens, and `nest` finds it.
-/

namespace StaticSite

/-- A piece of a page.  Tokens that stand for nothing are no nodes. -/
inductive Node where
  | html (text : Text)
  /-- An include, with its position among the tokens of its file. -/
  | inclusion (index : Nat) (arguments : Arguments)
  /-- A layout with the named blocks of its body. -/
  | layout (arguments : Arguments) (blocks : List (Text × List Node))
  | slot (name : Text)
  | prop (name : Text)

mutual

/-- `Nests index tokens nodes`: the tokens, the first of which is number `index` of its file, are
those of the forest. -/
inductive Nests : Nat → List Token → List Node → Prop where
  | nil {index : Nat} : Nests index [] []
  | html {index : Nat} {token : Token} {rest : List Token} {nodes : List Node}
      (kind : token.kind = .raw) (more : Nests (index + 1) rest nodes) :
      Nests index (token :: rest) (.html token.content :: nodes)
  | inclusion {index : Nat} {token : Token} {rest : List Token} {nodes : List Node}
      (kind : token.kind = .inclusion) (more : Nests (index + 1) rest nodes) :
      Nests index (token :: rest) (.inclusion index (.ofText token.content) :: nodes)
  | layout {index : Nat} {token : Token} {rest body behind : List Token} {nodes : List Node}
      {blocks : List (Text × List Node)} (kind : token.kind = .layout)
      (encloses : Encloses .layout .endLayout rest body behind)
      (inside : NestsBlocks (index + 1) body blocks)
      (more : Nests (index + 1 + body.length + 1) behind nodes) :
      Nests index (token :: rest) (.layout (.ofText token.content) blocks :: nodes)
  | slot {index : Nat} {token : Token} {rest : List Token} {nodes : List Node}
      (kind : token.kind = .slot) (more : Nests (index + 1) rest nodes) :
      Nests index (token :: rest) (.slot token.name :: nodes)
  | prop {index : Nat} {token : Token} {rest : List Token} {nodes : List Node}
      (kind : token.kind = .prop) (more : Nests (index + 1) rest nodes) :
      Nests index (token :: rest) (.prop token.name :: nodes)
  /-- Outside the body of a layout, blocks and closing tokens stand for nothing. -/
  | stray {index : Nat} {token : Token} {rest : List Token} {nodes : List Node}
      (kind : token.kind = .block ∨ token.kind = .endBlock ∨ token.kind = .endLayout)
      (more : Nests (index + 1) rest nodes) :
      Nests index (token :: rest) nodes

/-- `NestsBlocks index tokens blocks`: the tokens of a layout's body have these outermost
blocks. -/
inductive NestsBlocks : Nat → List Token → List (Text × List Node) → Prop where
  | nil {index : Nat} : NestsBlocks index [] []
  | block {index : Nat} {token : Token} {rest body behind : List Token} {nodes : List Node}
      {blocks : List (Text × List Node)} (kind : token.kind = .block)
      (encloses : Encloses .block .endBlock rest body behind)
      (inside : Nests (index + 1) body nodes)
      (more : NestsBlocks (index + 1 + body.length + 1) behind blocks) :
      NestsBlocks index (token :: rest) ((token.name, nodes) :: blocks)
  /-- What stands between the blocks is dropped. -/
  | between {index : Nat} {token : Token} {rest : List Token} {blocks : List (Text × List Node)}
      (kind : token.kind ≠ .block) (more : NestsBlocks (index + 1) rest blocks) :
      NestsBlocks index (token :: rest) blocks

end

mutual

/-- The forest of some tokens, the first of which is number `index` of its file. -/
def nest (index : Nat) : List Token → List Node
  | [] => []
  | token :: rest =>
      match token.kind with
      | .raw => .html token.content :: nest (index + 1) rest
      | .inclusion => .inclusion index (.ofText token.content) :: nest (index + 1) rest
      | .layout =>
          let parts := splitBalanced .layout .endLayout rest
          .layout (.ofText token.content) (nestBlocks (index + 1) parts.1)
            :: nest (index + 1 + parts.1.length + 1) parts.2
      | .slot => .slot token.name :: nest (index + 1) rest
      | .prop => .prop token.name :: nest (index + 1) rest
      | .block | .endBlock | .endLayout => nest (index + 1) rest
  termination_by tokens => tokens.length
  decreasing_by
    all_goals simp_wf
    all_goals have inside := length_splitBalanced_fst_le .layout .endLayout rest
    all_goals have behind := length_splitBalanced_snd_le .layout .endLayout rest
    all_goals omega

/-- The outermost blocks among the tokens of a layout's body. -/
def nestBlocks (index : Nat) : List Token → List (Text × List Node)
  | [] => []
  | token :: rest =>
      if token.kind = .block then
        let parts := splitBalanced .block .endBlock rest
        (token.name, nest (index + 1) parts.1)
          :: nestBlocks (index + 1 + parts.1.length + 1) parts.2
      else nestBlocks (index + 1) rest
  termination_by tokens => tokens.length
  decreasing_by
    all_goals simp_wf
    all_goals have inside := length_splitBalanced_fst_le .block .endBlock rest
    all_goals have behind := length_splitBalanced_snd_le .block .endBlock rest
    all_goals omega

end

theorem nests_nest (index : Nat) (tokens : List Token) :
    Nests index tokens (nest index tokens) := by
  refine (nest.mutual_induct (fun index tokens => Nests index tokens (nest index tokens))
    (fun index tokens => NestsBlocks index tokens (nestBlocks index tokens))
    ?nil ?raw ?inclusion ?layout ?slot ?prop ?block ?endBlock ?endLayout ?blocksNil ?blocksBlock
    ?between).1 index tokens
  case nil => intro index; rw [nest]; exact .nil
  case raw => intro index token rest kind more; rw [nest, kind]; exact .html kind more
  case inclusion => intro index token rest kind more; rw [nest, kind]; exact .inclusion kind more
  case layout =>
    intro index token rest kind parts inside more
    rw [nest, kind]
    exact .layout kind (encloses_splitBalanced (by decide) rest) inside more
  case slot => intro index token rest kind more; rw [nest, kind]; exact .slot kind more
  case prop => intro index token rest kind more; rw [nest, kind]; exact .prop kind more
  case block => intro index token rest kind more; rw [nest, kind]; exact .stray (.inl kind) more
  case endBlock =>
    intro index token rest kind more
    rw [nest, kind]
    exact .stray (.inr (.inl kind)) more
  case endLayout =>
    intro index token rest kind more
    rw [nest, kind]
    exact .stray (.inr (.inr kind)) more
  case blocksNil => intro index; rw [nestBlocks]; exact .nil
  case blocksBlock =>
    intro index token rest kind parts inside more
    rw [nestBlocks, if_pos kind]
    exact .block kind (encloses_splitBalanced (by decide) rest) inside more
  case between =>
    intro index token rest kind more
    rw [nestBlocks, if_neg kind]
    exact .between kind more

mutual

theorem Nests.eq_nest {index : Nat} {tokens : List Token} {nodes : List Node} :
    Nests index tokens nodes → nodes = nest index tokens
  | .nil => by rw [nest]
  | .html kind more => by rw [nest, kind, ← more.eq_nest]
  | .inclusion kind more => by rw [nest, kind, ← more.eq_nest]
  | .layout kind encloses inside more => by
      rw [nest, kind]
      simp only [(encloses_iff (by decide)).1 encloses]
      rw [← inside.eq_nestBlocks, ← more.eq_nest]
  | .slot kind more => by rw [nest, kind, ← more.eq_nest]
  | .prop kind more => by rw [nest, kind, ← more.eq_nest]
  | .stray kind more => by
      rcases kind with kind | kind | kind
      all_goals rw [nest, kind, ← more.eq_nest]

theorem NestsBlocks.eq_nestBlocks {index : Nat} {tokens : List Token}
    {blocks : List (Text × List Node)} :
    NestsBlocks index tokens blocks → blocks = nestBlocks index tokens
  | .nil => by rw [nestBlocks]
  | .block kind encloses inside more => by
      rw [nestBlocks, if_pos kind]
      simp only [(encloses_iff (by decide)).1 encloses]
      rw [← inside.eq_nest, ← more.eq_nestBlocks]
  | .between kind more => by rw [nestBlocks, if_neg kind, ← more.eq_nestBlocks]

end

/-- Tokens have exactly one forest. -/
theorem nests_iff {index : Nat} {tokens : List Token} {nodes : List Node} :
    Nests index tokens nodes ↔ nodes = nest index tokens :=
  ⟨Nests.eq_nest, fun same => same ▸ nests_nest index tokens⟩

end StaticSite
