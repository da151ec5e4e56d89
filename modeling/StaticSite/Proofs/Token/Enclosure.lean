import StaticSite.Template.Compile

/-!
# Enclosed tokens

What an opening token encloses, said by counting: the first closing token that outnumbers the
opening ones before it is the one that belongs to it.  `splitBalanced` finds exactly this split,
and there is no other.
-/

namespace StaticSite

/-- How many tokens are of a kind. -/
def kindCount (kind : TokenKind) (tokens : List Token) : Nat :=
  tokens.countP (·.kind = kind)

/-- No front part closes more than it opens, `spare` open tokens before it counted in. -/
def StaysOpen (opens closes : TokenKind) (spare : Nat) (tokens : List Token) : Prop :=
  ∀ front, front <+: tokens → kindCount closes front ≤ kindCount opens front + spare

/-- An opening token in front of `tokens` encloses `body`, and reading goes on with `behind`. -/
inductive Encloses (opens closes : TokenKind) (tokens : List Token) :
    List Token → List Token → Prop where
  /-- The closing token is the first one that is not owed to a token opened in the body. -/
  | closed {body behind : List Token} {close : Token} (split : tokens = body ++ close :: behind)
      (closing : close.kind = closes) (staysOpen : StaysOpen opens closes 0 body)
      (even : kindCount closes body = kindCount opens body) :
      Encloses opens closes tokens body behind
  /-- Without a closing token everything is enclosed. -/
  | unclosed (staysOpen : StaysOpen opens closes 0 tokens) :
      Encloses opens closes tokens tokens []

@[simp] theorem kindCount_nil (kind : TokenKind) : kindCount kind [] = 0 := rfl

@[simp] theorem kindCount_cons (kind : TokenKind) (token : Token) (rest : List Token) :
    kindCount kind (token :: rest) = kindCount kind rest + if token.kind = kind then 1 else 0 := by
  simp [kindCount, List.countP_cons]

@[simp] theorem kindCount_append (kind : TokenKind) (front behind : List Token) :
    kindCount kind (front ++ behind) = kindCount kind front + kindCount kind behind :=
  List.countP_append

section

variable {opens closes : TokenKind} {token : Token} {tokens rest : List Token} {spare : Nat}

theorem staysOpen_nil : StaysOpen opens closes spare [] := by
  intro front isFront
  rw [List.prefix_nil.1 isFront]
  simp

/-- A front part of a list that begins with a token is empty or begins with it too. -/
theorem staysOpen_cons : StaysOpen opens closes spare (token :: rest) ↔
    ∀ front, front <+: rest →
      kindCount closes (token :: front) ≤ kindCount opens (token :: front) + spare := by
  constructor
  · intro stays front isFront
    exact stays _ (List.cons_prefix_cons.2 ⟨rfl, isFront⟩)
  · intro stays front isFront
    rcases List.prefix_cons_iff.1 isFront with rfl | ⟨tail, rfl, isTail⟩
    · simp
    · exact stays tail isTail

theorem staysOpen_cons_opening (distinct : opens ≠ closes) (opening : token.kind = opens) :
    StaysOpen opens closes spare (token :: rest) ↔ StaysOpen opens closes (spare + 1) rest := by
  rw [staysOpen_cons]
  refine forall_congr' fun front => imp_congr_right fun _ => ?_
  simp only [kindCount_cons, opening, distinct, if_true, if_false]
  omega

theorem staysOpen_cons_closing (distinct : opens ≠ closes) (closing : token.kind = closes) :
    StaysOpen opens closes (spare + 1) (token :: rest) ↔ StaysOpen opens closes spare rest := by
  rw [staysOpen_cons]
  refine forall_congr' fun front => imp_congr_right fun _ => ?_
  simp only [kindCount_cons, closing, distinct.symm, if_true, if_false]
  omega

theorem staysOpen_cons_other (notOpening : token.kind ≠ opens) (notClosing : token.kind ≠ closes) :
    StaysOpen opens closes spare (token :: rest) ↔ StaysOpen opens closes spare rest := by
  rw [staysOpen_cons]
  refine forall_congr' fun front => imp_congr_right fun _ => ?_
  simp only [kindCount_cons, notOpening, notClosing, if_false]
  omega

/-! ## What the depth counter finds -/

theorem staysOpen_of_closingIndex?_eq_none (distinct : opens ≠ closes)
    (missing : closingIndex? opens closes (spare + 1) tokens = none) :
    StaysOpen opens closes spare tokens := by
  -- The counter runs one above the tokens to spare, since the opening token is open itself.
  induction tokens generalizing spare with
  | nil => exact staysOpen_nil
  | cons token rest ih =>
      unfold closingIndex? at missing
      split at missing
      · next opening =>
          exact (staysOpen_cons_opening distinct opening).2 (ih (Option.map_eq_none_iff.1 missing))
      · next notOpening =>
          split at missing
          · next closing =>
              cases spare with
              | zero => simp at missing
              | succ fewer =>
                  rw [if_neg (by omega)] at missing
                  exact (staysOpen_cons_closing distinct closing).2
                    (ih (Option.map_eq_none_iff.1 missing))
          · next notClosing =>
              exact (staysOpen_cons_other notOpening notClosing).2
                (ih (Option.map_eq_none_iff.1 missing))

theorem split_of_closingIndex?_eq_some {inside : Nat} (distinct : opens ≠ closes)
    (found : closingIndex? opens closes (spare + 1) tokens = some inside) :
    ∃ body close behind, tokens = body ++ close :: behind ∧ body.length = inside ∧
      close.kind = closes ∧ StaysOpen opens closes spare body ∧
      kindCount closes body = kindCount opens body + spare := by
  induction tokens generalizing spare inside with
  | nil => simp [closingIndex?] at found
  | cons token rest ih =>
      unfold closingIndex? at found
      split at found
      · next opening =>
          obtain ⟨later, within, rfl⟩ := Option.map_eq_some_iff.1 found
          obtain ⟨body, close, behind, rfl, rfl, closing, stays, even⟩ := ih within
          refine ⟨token :: body, close, behind, rfl, rfl, closing,
            (staysOpen_cons_opening distinct opening).2 stays, ?_⟩
          simp only [kindCount_cons, opening, distinct, if_true, if_false]
          omega
      · next notOpening =>
          split at found
          · next closing =>
              cases spare with
              | zero =>
                  -- Nothing is left to spare, so this is the closing token.
                  simp only [Nat.zero_add, Nat.le_refl, if_true, Option.some.injEq] at found
                  exact ⟨[], token, rest, rfl, found, closing, staysOpen_nil, by simp⟩
              | succ fewer =>
                  rw [if_neg (by omega)] at found
                  obtain ⟨later, within, rfl⟩ := Option.map_eq_some_iff.1 found
                  obtain ⟨body, close, behind, rfl, rfl, closes', stays, even⟩ := ih within
                  refine ⟨token :: body, close, behind, rfl, rfl, closes',
                    (staysOpen_cons_closing distinct closing).2 stays, ?_⟩
                  simp only [kindCount_cons, closing, distinct.symm, if_true, if_false]
                  omega
          · next notClosing =>
              obtain ⟨later, within, rfl⟩ := Option.map_eq_some_iff.1 found
              obtain ⟨body, close, behind, rfl, rfl, closing, stays, even⟩ := ih within
              refine ⟨token :: body, close, behind, rfl, rfl, closing,
                (staysOpen_cons_other notOpening notClosing).2 stays, ?_⟩
              simp only [kindCount_cons, notOpening, notClosing, if_false]
              omega

/-! ## The split -/

theorem encloses_splitBalanced (distinct : opens ≠ closes) (tokens : List Token) :
    Encloses opens closes tokens (splitBalanced opens closes tokens).1
      (splitBalanced opens closes tokens).2 := by
  unfold splitBalanced
  cases found : closingIndex? opens closes 1 tokens with
  | none => exact .unclosed (staysOpen_of_closingIndex?_eq_none distinct found)
  | some inside =>
      obtain ⟨body, close, behind, split, length, closing, stays, even⟩ :=
        split_of_closingIndex?_eq_some distinct found
      have inFront : tokens.take inside = body := by rw [split, ← length, List.take_left]
      have after : tokens.drop (inside + 1) = behind := by
        rw [split, ← length, ← List.drop_drop, List.drop_left, List.drop_one, List.tail_cons]
      simp only [inFront, after]
      exact .closed split closing stays (by omega)

/-- A body that is closed and stays open is no front part of one that is closed later. -/
theorem not_staysOpen_of_closed {body behind : List Token} {close : Token}
    (distinct : opens ≠ closes) (closing : close.kind = closes)
    (even : kindCount closes body = kindCount opens body) :
    ¬ StaysOpen opens closes 0 (body ++ close :: behind) := by
  intro stays
  have front : body ++ [close] <+: body ++ close :: behind :=
    (List.prefix_append_right_inj body).2 ⟨behind, rfl⟩
  have overdrawn := stays _ front
  simp only [kindCount_append, kindCount_cons, kindCount_nil, closing, distinct.symm, if_true,
    if_false] at overdrawn
  omega

theorem length_le_of_closed {body behind body' behind' : List Token} {close close' : Token}
    (distinct : opens ≠ closes) (same : body ++ close :: behind = body' ++ close' :: behind')
    (closing : close.kind = closes) (even : kindCount closes body = kindCount opens body)
    (stays : StaysOpen opens closes 0 body') : body'.length ≤ body.length := by
  refine Decidable.byContradiction fun longer => ?_
  -- A longer body would hold the shorter one together with the token that closes it.
  have inOne : body ++ [close] <+: body' ++ close' :: behind' :=
    same ▸ (List.prefix_append_right_inj body).2 ⟨behind, rfl⟩
  obtain ⟨front, split⟩ := List.prefix_of_prefix_length_le inOne (List.prefix_append _ _)
    (by rw [List.length_append, List.length_singleton]; omega)
  rw [← split, List.append_assoc, List.singleton_append] at stays
  exact not_staysOpen_of_closed distinct closing even stays

theorem Encloses.unique {body behind body' behind' : List Token} (distinct : opens ≠ closes)
    (first : Encloses opens closes tokens body behind)
    (second : Encloses opens closes tokens body' behind') : body = body' ∧ behind = behind' := by
  cases first with
  | closed split closing stays even =>
      cases second with
      | closed split' closing' stays' even' =>
          have same := split.symm.trans split'
          have lengths := Nat.le_antisymm
            (length_le_of_closed distinct same.symm closing' even' stays)
            (length_le_of_closed distinct same closing even stays')
          obtain ⟨bodies, rest⟩ := List.append_inj same lengths
          exact ⟨bodies, (List.cons.inj rest).2⟩
      | unclosed stays' =>
          exact absurd (split ▸ stays') (not_staysOpen_of_closed distinct closing even)
  | unclosed stays =>
      cases second with
      | closed split closing _ even =>
          exact absurd (split ▸ stays) (not_staysOpen_of_closed distinct closing even)
      | unclosed _ => exact ⟨rfl, rfl⟩

theorem encloses_iff {body behind : List Token} (distinct : opens ≠ closes) :
    Encloses opens closes tokens body behind ↔
      splitBalanced opens closes tokens = (body, behind) := by
  constructor
  · intro encloses
    obtain ⟨bodies, behinds⟩ := (encloses_splitBalanced distinct tokens).unique distinct encloses
    exact Prod.ext bodies behinds
  · intro split
    have encloses := encloses_splitBalanced distinct tokens
    rwa [split] at encloses

end

end StaticSite
