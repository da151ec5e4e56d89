import Mathlib
import StaticSite.Proofs.Template.Recursion
import StaticSite.Proofs.Token.Enclosure

/-!
# Discarded tokens

In the body of a layout only the outermost blocks are compiled.  What stands between them may be
anything, as long as it opens and closes nothing: it is not compiled, so it can neither fail nor
leave a trace in the HTML, and it only counts for the positions of the tokens behind it.
-/

namespace StaticSite

/-! ## Which tokens are discarded -/

/-- Whether tokens of a kind open or close a layout or a block. -/
def TokenKind.delimits : TokenKind → Bool
  | layout | endLayout | block | endBlock => true
  | _ => false

/-- Tokens that say the same, wherever they stand in their sources. -/
structure Token.SaysLike (token other : Token) : Prop where
  kind : token.kind = other.kind
  content : token.content = other.content

mutual

/-- `Discarded tokens position`: the token at a position is in the body of a layout, but in none of
the body's outermost blocks.  The layout may itself be in a block of another one. -/
inductive Discarded : List Token → Nat → Prop where
  | behind {token : Token} {rest : List Token} {position : Nat} (kind : token.kind ≠ .layout)
      (more : Discarded rest position) : Discarded (token :: rest) (position + 1)
  | inBody {token : Token} {rest body after : List Token} {position : Nat}
      (kind : token.kind = .layout) (encloses : Encloses .layout .endLayout rest body after)
      (inside : BetweenBlocks body position) : Discarded (token :: rest) (position + 1)
  | behindLayout {token : Token} {rest body after : List Token} {position : Nat}
      (kind : token.kind = .layout) (encloses : Encloses .layout .endLayout rest body after)
      (more : Discarded after position) :
      Discarded (token :: rest) (body.length + 1 + position + 1)

/-- `BetweenBlocks body position`: the token at a position of a layout's body is in none of its
outermost blocks, or is discarded within one. -/
inductive BetweenBlocks : List Token → Nat → Prop where
  | here {token : Token} {rest : List Token} (kind : token.kind ≠ .block) :
      BetweenBlocks (token :: rest) 0
  | behind {token : Token} {rest : List Token} {position : Nat} (kind : token.kind ≠ .block)
      (more : BetweenBlocks rest position) : BetweenBlocks (token :: rest) (position + 1)
  | inBlock {token : Token} {rest body after : List Token} {position : Nat}
      (kind : token.kind = .block) (encloses : Encloses .block .endBlock rest body after)
      (inside : Discarded body position) : BetweenBlocks (token :: rest) (position + 1)
  | behindBlock {token : Token} {rest body after : List Token} {position : Nat}
      (kind : token.kind = .block) (encloses : Encloses .block .endBlock rest body after)
      (more : BetweenBlocks after position) :
      BetweenBlocks (token :: rest) (body.length + 1 + position + 1)

end

/-- Two tokens at one position say the same, or neither opens or closes anything and the position
is free. -/
def Token.Alike (free : Prop) (token other : Token) : Prop :=
  token.SaysLike other ∨ free ∧ token.kind.delimits = false ∧ other.kind.delimits = false

/-- Lists of one length whose tokens say the same but at free positions, where only tokens that open
and close nothing may differ. -/
structure AgreeBut (free : Nat → Prop) (tokens others : List Token) : Prop where
  length : tokens.length = others.length
  alike : ∀ (position : Nat) (token other : Token), tokens[position]? = some token →
    others[position]? = some other → token.Alike (free position) other

variable {token other : Token} {tokens others rest body after : List Token} {position : Nat}
  {free free' : Nat → Prop} {opens closes : TokenKind}

/-! ## Positions -/

theorem Encloses.lt_of_inside (encloses : Encloses opens closes rest body after)
    (inside : position < body.length) : position + 1 < (token :: rest).length := by
  cases encloses with
  | closed split =>
    rw [split, List.length_cons, List.length_append, List.length_cons]
    omega
  | unclosed => exact Nat.succ_lt_succ inside

/-- Where something comes behind what is enclosed, there is a closing token between them. -/
theorem Encloses.lt_of_behind (encloses : Encloses opens closes rest body after)
    (behind : position < after.length) :
    body.length + 1 + position + 1 < (token :: rest).length := by
  cases encloses with
  | closed split =>
    rw [split, List.length_cons, List.length_append, List.length_cons]
    omega
  | unclosed => exact absurd behind (Nat.not_lt_zero _)

mutual

theorem Discarded.lt_length {tokens : List Token} {position : Nat} :
    Discarded tokens position → position < tokens.length
  | .behind _ more => Nat.succ_lt_succ more.lt_length
  | .inBody _ encloses inside => encloses.lt_of_inside inside.lt_length
  | .behindLayout _ encloses more => encloses.lt_of_behind more.lt_length

theorem BetweenBlocks.lt_length {tokens : List Token} {position : Nat} :
    BetweenBlocks tokens position → position < tokens.length
  | .here _ => Nat.succ_pos _
  | .behind _ more => Nat.succ_lt_succ more.lt_length
  | .inBlock _ encloses inside => encloses.lt_of_inside inside.lt_length
  | .behindBlock _ encloses more => encloses.lt_of_behind more.lt_length

end

/-! ## Lists that agree -/

theorem Token.Alike.kind_eq_iff {free : Prop} (alike : token.Alike free other) {kind : TokenKind}
    (delimits : kind.delimits = true) : token.kind = kind ↔ other.kind = kind := by
  rcases alike with ⟨same, _⟩ | ⟨_, plain, plain'⟩
  · rw [same]
  · constructor
    · rintro rfl
      rw [plain] at delimits
      cases delimits
    · rintro rfl
      rw [plain'] at delimits
      cases delimits

namespace AgreeBut

theorem nil : AgreeBut free [] [] :=
  ⟨rfl, fun _ _ _ isToken => nomatch isToken⟩

theorem nil_left (agree : AgreeBut free [] others) : others = [] :=
  List.length_eq_zero_iff.1 agree.length.symm

theorem cons_iff : AgreeBut free (token :: tokens) (other :: others) ↔
    token.Alike (free 0) other ∧
      AgreeBut (fun position => free (position + 1)) tokens others := by
  constructor
  · rintro ⟨length, alike⟩
    exact ⟨alike 0 token other rfl rfl, Nat.succ.inj length,
      fun position => alike (position + 1)⟩
  · rintro ⟨first, length, alike⟩
    refine ⟨congrArg Nat.succ length, fun position => ?_⟩
    cases position with
    | zero =>
      rintro _ _ ⟨⟩ ⟨⟩
      exact first
    | succ position => exact alike position

theorem exists_cons (agree : AgreeBut free (token :: tokens) others) :
    ∃ other others', others = other :: others' := by
  cases others with
  | nil => cases agree.length
  | cons other others => exact ⟨other, others, rfl⟩

theorem mono (agree : AgreeBut free tokens others)
    (wider : ∀ position < tokens.length, free position → free' position) :
    AgreeBut free' tokens others where
  length := agree.length
  alike position token other isToken isOther := by
    have inside := (List.getElem?_eq_some_iff.1 isToken).1
    exact (agree.alike position token other isToken isOther).imp_right
      (And.imp_left (wider position inside))

theorem take (agree : AgreeBut free tokens others) (count : Nat) :
    AgreeBut free (tokens.take count) (others.take count) where
  length := by rw [List.length_take, List.length_take, agree.length]
  alike position token other isToken isOther := by
    rw [List.getElem?_take] at isToken isOther
    split at isToken
    · next inFront =>
      rw [if_pos inFront] at isOther
      exact agree.alike position token other isToken isOther
    · cases isToken

theorem drop (agree : AgreeBut free tokens others) (count : Nat) :
    AgreeBut (fun position => free (count + position)) (tokens.drop count)
      (others.drop count) where
  length := by rw [List.length_drop, List.length_drop, agree.length]
  alike position token other isToken isOther := by
    rw [List.getElem?_drop] at isToken isOther
    exact agree.alike _ token other isToken isOther

theorem closingIndex?_eq (agree : AgreeBut free tokens others)
    (opening : opens.delimits = true) (closing : closes.delimits = true) (depth : Nat) :
    closingIndex? opens closes depth tokens = closingIndex? opens closes depth others := by
  induction tokens generalizing others free depth with
  | nil => rw [agree.nil_left]
  | cons token tokens ih =>
    obtain ⟨other, others, rfl⟩ := agree.exists_cons
    obtain ⟨first, behind⟩ := cons_iff.1 agree
    simp only [closingIndex?, first.kind_eq_iff opening, first.kind_eq_iff closing, ih behind]

/-- Lists that agree are split at the same place, and their parts agree but at the positions that
are free there. -/
theorem splitBalanced {inBody behind : Nat → Prop} (agree : AgreeBut free tokens others)
    (distinct : opens ≠ closes) (opening : opens.delimits = true)
    (closing : closes.delimits = true)
    (short : ∀ position, inBody position →
      position < (splitBalanced opens closes tokens).1.length)
    (parted : ∀ position, free position → inBody position ∨ ∃ later,
      position = (splitBalanced opens closes tokens).1.length + 1 + later ∧ behind later) :
    AgreeBut inBody (splitBalanced opens closes tokens).1 (splitBalanced opens closes others).1 ∧
      AgreeBut behind (splitBalanced opens closes tokens).2
        (splitBalanced opens closes others).2 := by
  unfold StaticSite.splitBalanced at short parted ⊢
  rw [← agree.closingIndex?_eq opening closing]
  cases found : closingIndex? opens closes 1 tokens with
  | none =>
    simp only [found] at short parted
    refine ⟨agree.mono fun position inside isFree => ?_, .nil⟩
    rcases parted position isFree with isIn | ⟨later, rfl, _⟩
    · exact isIn
    · omega
  | some inside =>
    simp only [found] at short parted
    obtain ⟨body, close, after, split, length, _⟩ := split_of_closingIndex?_eq_some distinct found
    have fits : (tokens.take inside).length = inside := by
      rw [split, ← length, List.take_left]
    refine ⟨(agree.take inside).mono fun position within isFree => ?_,
      (agree.drop (inside + 1)).mono fun position _ isFree => ?_⟩
    · rcases parted position isFree with isIn | ⟨later, rfl, _⟩
      · exact isIn
      · omega
    · rcases parted _ isFree with isIn | ⟨later, same, isFree⟩
      · have within := short _ isIn
        omega
      · rw [fits] at same
        rwa [Nat.add_left_cancel same]

end AgreeBut

/-! ## Discarded positions -/

theorem not_discarded_zero : ¬ Discarded (token :: rest) 0 :=
  fun discarded => nomatch discarded

theorem Discarded.of_behind (kind : token.kind ≠ .layout)
    (discarded : Discarded (token :: rest) (position + 1)) : Discarded rest position := by
  cases discarded with
  | behind _ more => exact more
  | inBody isLayout | behindLayout isLayout => exact absurd isLayout kind

theorem Discarded.of_layout (kind : token.kind = .layout)
    (encloses : Encloses .layout .endLayout rest body after)
    (discarded : Discarded (token :: rest) (position + 1)) :
    BetweenBlocks body position ∨
      ∃ later, position = body.length + 1 + later ∧ Discarded after later := by
  cases discarded with
  | behind notLayout => exact absurd kind notLayout
  | inBody _ encloses' between =>
    obtain ⟨rfl, _⟩ := encloses.unique (by decide) encloses'
    exact .inl between
  | behindLayout _ encloses' more =>
    obtain ⟨rfl, rfl⟩ := encloses.unique (by decide) encloses'
    exact .inr ⟨_, rfl, more⟩

theorem BetweenBlocks.of_behind (kind : token.kind ≠ .block)
    (between : BetweenBlocks (token :: rest) (position + 1)) : BetweenBlocks rest position := by
  cases between with
  | behind _ more => exact more
  | inBlock isBlock | behindBlock isBlock => exact absurd isBlock kind

theorem BetweenBlocks.of_block (kind : token.kind = .block)
    (encloses : Encloses .block .endBlock rest body after)
    (between : BetweenBlocks (token :: rest) (position + 1)) :
    Discarded body position ∨
      ∃ later, position = body.length + 1 + later ∧ BetweenBlocks after later := by
  cases between with
  | behind notBlock => exact absurd kind notBlock
  | inBlock _ encloses' discarded =>
    obtain ⟨rfl, _⟩ := encloses.unique (by decide) encloses'
    exact .inl discarded
  | behindBlock _ encloses' more =>
    obtain ⟨rfl, rfl⟩ := encloses.unique (by decide) encloses'
    exact .inr ⟨_, rfl, more⟩

namespace AgreeBut

/-- The first token of a frame is not discarded. -/
theorem exists_saysLike (agree : AgreeBut (Discarded (token :: tokens)) (token :: tokens) others) :
    ∃ other others', others = other :: others' ∧ other.SaysLike token ∧
      AgreeBut (fun position => Discarded (token :: tokens) (position + 1)) tokens others' := by
  obtain ⟨other, others, rfl⟩ := agree.exists_cons
  obtain ⟨first, behind⟩ := cons_iff.1 agree
  have same := first.resolve_right fun ⟨discarded, _⟩ => not_discarded_zero discarded
  exact ⟨other, others, rfl, ⟨same.kind.symm, same.content.symm⟩, behind⟩

/-- Lists that agree but for discarded tokens agree so in the body of a layout and behind it. -/
theorem layout (kind : token.kind = .layout)
    (agree : AgreeBut (fun position => Discarded (token :: tokens) (position + 1)) tokens others) :
    AgreeBut (BetweenBlocks (StaticSite.splitBalanced .layout .endLayout tokens).1)
        (StaticSite.splitBalanced .layout .endLayout tokens).1
        (StaticSite.splitBalanced .layout .endLayout others).1 ∧
      AgreeBut (Discarded (StaticSite.splitBalanced .layout .endLayout tokens).2)
        (StaticSite.splitBalanced .layout .endLayout tokens).2
        (StaticSite.splitBalanced .layout .endLayout others).2 :=
  agree.splitBalanced (by decide) rfl rfl (fun _ => BetweenBlocks.lt_length)
    fun _ => Discarded.of_layout kind (encloses_splitBalanced (by decide) tokens)

/-- The same of a block. -/
theorem block (kind : token.kind = .block)
    (agree : AgreeBut (fun position => BetweenBlocks (token :: tokens) (position + 1)) tokens
      others) :
    AgreeBut (Discarded (StaticSite.splitBalanced .block .endBlock tokens).1)
        (StaticSite.splitBalanced .block .endBlock tokens).1
        (StaticSite.splitBalanced .block .endBlock others).1 ∧
      AgreeBut (BetweenBlocks (StaticSite.splitBalanced .block .endBlock tokens).2)
        (StaticSite.splitBalanced .block .endBlock tokens).2
        (StaticSite.splitBalanced .block .endBlock others).2 :=
  agree.splitBalanced (by decide) rfl rfl (fun _ => Discarded.lt_length)
    fun _ => BetweenBlocks.of_block kind (encloses_splitBalanced (by decide) tokens)

end AgreeBut

/-! ## Compiling -/

namespace Compiler

variable (compiler : Compiler) {levels : Nat} {frame : Frame} {index : Nat} {file : Text}
  {props found : Bindings}

/-- Where a token stands in its source makes no difference. -/
theorem resolve_saysLike (same : other.SaysLike token) :
    compiler.resolve levels frame index (other :: rest)
      = compiler.resolve levels frame index (token :: rest) := by
  rw [resolve, resolve]
  simp only [Token.name, same.kind, same.content]

theorem collectBlocks_saysLike (same : other.SaysLike token) :
    compiler.collectBlocks levels file props index found (other :: rest)
      = compiler.collectBlocks levels file props index found (token :: rest) := by
  rw [collectBlocks, collectBlocks]
  simp only [Token.name, same.kind, same.content]

/-- Discarded tokens make no difference to what a frame compiles to.  By induction along the calls,
together with the blocks of a layout's body, whose free tokens stand between the blocks; the files
that are opened are the same on both sides. -/
theorem resolve_of_agree (levels : Nat) (frame : Frame) (index : Nat) (tokens : List Token) :
    ∀ others, AgreeBut (Discarded tokens) tokens others →
      compiler.resolve levels frame index tokens = compiler.resolve levels frame index others := by
  refine (resolve_recursion
    (fun levels frame index tokens => ∀ others, AgreeBut (Discarded tokens) tokens others →
      compiler.resolve levels frame index tokens = compiler.resolve levels frame index others)
    (fun levels file props index found tokens => ∀ others,
      AgreeBut (BetweenBlocks tokens) tokens others →
        compiler.collectBlocks levels file props index found tokens
          = compiler.collectBlocks levels file props index found others)
    ?nil ?plain ?bottom ?inclusion ?layout ?noBlocks ?block ?between).1 levels frame index tokens
  case nil =>
    intro levels frame index others agree
    rw [agree.nil_left]
  case plain =>
    intro levels frame index token rest plain ih others agree
    obtain ⟨other, others, rfl, same, behind⟩ := agree.exists_saysLike
    have notLayout : token.kind ≠ .layout := fun kind => plain (.inr kind)
    rw [resolve_saysLike compiler same, resolve_plain compiler plain, resolve_plain compiler plain,
      ih others (behind.mono fun _ _ discarded => discarded.of_behind notLayout)]
  case bottom =>
    intro frame index token rest names others agree
    obtain ⟨other, others, rfl, same, _⟩ := agree.exists_saysLike
    rw [resolve_saysLike compiler same, resolve_bottom compiler names,
      resolve_bottom compiler names]
  case inclusion =>
    intro deeper frame index token rest kind _ ih others agree
    obtain ⟨other, others, rfl, same, behind⟩ := agree.exists_saysLike
    have notLayout : token.kind ≠ .layout := by simp [kind]
    rw [resolve_saysLike compiler same, resolve_inclusion compiler kind,
      resolve_inclusion compiler kind,
      ih others (behind.mono fun _ _ discarded => discarded.of_behind notLayout)]
  case layout =>
    intro deeper frame index token rest kind blocks _ more others agree
    obtain ⟨other, others, rfl, same, behind⟩ := agree.exists_saysLike
    obtain ⟨body, after⟩ := behind.layout kind
    rw [resolve_saysLike compiler same, resolve_layout compiler kind, resolve_layout compiler kind,
      blocks _ body, more _ after, body.length]
  case noBlocks =>
    intro levels file props index found others agree
    rw [agree.nil_left]
  case block =>
    intro levels file props index found token rest kind inside more others agree
    obtain ⟨other, others, rfl⟩ := agree.exists_cons
    obtain ⟨first, behind⟩ := AgreeBut.cons_iff.1 agree
    -- A token that opens a block is never free.
    have same := first.resolve_right fun ⟨_, plain, _⟩ => by
      rw [kind] at plain
      cases plain
    obtain ⟨body, after⟩ := behind.block kind
    rw [collectBlocks_saysLike compiler ⟨same.kind.symm, same.content.symm⟩,
      collectBlocks_block compiler kind, collectBlocks_block compiler kind, inside _ body,
      ← body.length]
    exact Except.bind_congr fun html _ => more html _ after
  case between =>
    intro levels file props index found token rest kind ih others agree
    obtain ⟨other, others, rfl⟩ := agree.exists_cons
    obtain ⟨first, behind⟩ := AgreeBut.cons_iff.1 agree
    have kind' : other.kind ≠ .block := mt (first.kind_eq_iff rfl).2 kind
    rw [collectBlocks_between compiler kind, collectBlocks_between compiler kind']
    exact ih others (behind.mono fun _ _ between => between.of_behind kind)

/-- Tokens that agree but where they are discarded compile to the same HTML, or to the same error,
in every frame and at every depth, and so do pages with such tokens. -/
theorem result_ignores_discarded {tokens others : List Token}
    (agree : AgreeBut (Discarded tokens) tokens others) :
    (∀ levels frame index,
        compiler.resolve levels frame index tokens = compiler.resolve levels frame index others) ∧
      ∀ file source source', tokenize source = tokens → tokenize source' = others →
        compiler.compileSource file source = compiler.compileSource file source' := by
  have same := fun levels frame index => compiler.resolve_of_agree levels frame index tokens
    others agree
  refine ⟨same, fun file source source' isSource isOther => ?_⟩
  rw [compileSource, compileSource, isSource, isOther]
  exact same _ _ _

/-- A page with something in front of the block that fills its layout, and something in a layout
inside of that block. -/
def filledPage (front inner : String) : Text :=
  ("\x7b\x7b layout \"l\" \x7d\x7d" ++ front
    ++ "\x7b\x7b block \"m\" \x7d\x7d\x7b\x7b layout \"l\" \x7d\x7d" ++ inner
    ++ "\x7b\x7b endlayout \x7d\x7d\x7b\x7b include \"p\" \x7d\x7d").toList

def chattyPage : Text := filledPage "x" "y"

/-- A page with directives that fail where they are compiled: a target outside and a cycle. -/
def failingPage : Text :=
  filledPage "\x7b\x7b include \"../x\" \x7d\x7d" "\x7b\x7b include \"l\" \x7d\x7d"

/-- A site with a layout that has one slot, and a part. -/
def slotSite : Compiler where
  disk := (Disk.empty.put ["l".toList]
    (.file (Utf8.encode "<\x7b\x7b slot \"m\" \x7d\x7d>".toList))).put ["p".toList] (.file [112])
  root := []
  maxDepth := 1

theorem failingPage_compiles_like_chattyPage :
    AgreeBut (Discarded (tokenize chattyPage)) (tokenize chattyPage) (tokenize failingPage) ∧
      slotSite.compileSource "i".toList chattyPage
        = slotSite.compileSource "i".toList failingPage := by
  have tokens : tokenize chattyPage
      = [⟨.layout, "\"l\"".toList, 0, 16⟩, ⟨.raw, "x".toList, 16, 17⟩,
        ⟨.block, "\"m\"".toList, 17, 32⟩, ⟨.layout, "\"l\"".toList, 32, 48⟩,
        ⟨.raw, "y".toList, 48, 49⟩, ⟨.endLayout, [], 49, 64⟩,
        ⟨.inclusion, "\"p\"".toList, 64, 81⟩] := by
    cbv
  have others : tokenize failingPage
      = [⟨.layout, "\"l\"".toList, 0, 16⟩, ⟨.inclusion, "\"../x\"".toList, 16, 36⟩,
        ⟨.block, "\"m\"".toList, 36, 51⟩, ⟨.layout, "\"l\"".toList, 51, 67⟩,
        ⟨.inclusion, "\"l\"".toList, 67, 84⟩, ⟨.endLayout, [], 84, 99⟩,
        ⟨.inclusion, "\"p\"".toList, 99, 116⟩] := by
    cbv
  have agree : AgreeBut (Discarded (tokenize chattyPage)) (tokenize chattyPage)
      (tokenize failingPage) := by
    rw [tokens, others]
    have encloses (rest : List Token) : Encloses .layout .endLayout rest _ _ :=
      encloses_splitBalanced (by decide) rest
    have enclosesBlock (rest : List Token) : Encloses .block .endBlock rest _ _ :=
      encloses_splitBalanced (by decide) rest
    simp only [AgreeBut.cons_iff]
    refine ⟨.inl ⟨rfl, rfl⟩, .inr ⟨.inBody rfl (encloses _) (.here (by decide)), rfl, rfl⟩,
      .inl ⟨rfl, rfl⟩, .inl ⟨rfl, rfl⟩, .inr ⟨.inBody rfl (encloses _) (.behind (by decide)
        (.inBlock rfl (enclosesBlock _) (.inBody rfl (encloses _) (.here (by decide))))), rfl, rfl⟩,
      .inl ⟨rfl, rfl⟩, .inl ⟨rfl, rfl⟩, .nil⟩
  exact ⟨agree, (slotSite.result_ignores_discarded agree).2 _ _ _ rfl rfl⟩

end Compiler

end StaticSite
