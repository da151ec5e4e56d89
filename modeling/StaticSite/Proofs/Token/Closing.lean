import StaticSite.Proofs.Token.Enclosure

/-!
# Closing tokens

The token that closes a span, said by its position: as many tokens are closed as opened in front of
it, and no front part closes more than it opens.  There is at most one such position,
`balancedSpan` ends at it, and the counter that looks for it never falls below zero.
-/

namespace StaticSite

/-- The token at index `close` belongs to a token opened right in front of index `start`. -/
structure ClosesAt (opens closes : TokenKind) (tokens : List Token) (start close : Nat) :
    Prop where
  start_le : start ≤ close
  closing : tokens[close]?.map Token.kind = some closes
  staysOpen : StaysOpen opens closes 0 (tokens.extract start close)
  even : kindCount closes (tokens.extract start close)
    = kindCount opens (tokens.extract start close)

/-- What a token opened right in front of index `start` spans: the tokens up to the one that closes
it, or all that are left. -/
inductive Balances (opens closes : TokenKind) (tokens : List Token) (start : Nat) :
    TokenSpan → Prop where
  | closed {close : Nat} (closed : ClosesAt opens closes tokens start close) :
      Balances opens closes tokens start ⟨start, close, close + 1⟩
  | unclosed (unclosed : ∀ close, ¬ ClosesAt opens closes tokens start close) :
      Balances opens closes tokens start ⟨start, max tokens.length start, max tokens.length start⟩

/-- The count of open tokens with one more token read.  Nothing keeps it from falling below zero. -/
def countToken (opens closes : TokenKind) (count : Int) (token : Token) : Int :=
  if token.kind = opens then count + 1 else if token.kind = closes then count - 1 else count

/-- How many tokens are open behind `front`, if one is open in front of it. -/
def openCount (opens closes : TokenKind) (front : List Token) : Int :=
  front.foldl (countToken opens closes) 1

section

variable {opens closes : TokenKind} {tokens front rest : List Token} {start close close' : Nat}

/-! ## Positions and splits -/

theorem closesAt_iff : ClosesAt opens closes tokens start close ↔
    ∃ body token behind, tokens.drop start = body ++ token :: behind ∧
      close = start + body.length ∧ token.kind = closes ∧ StaysOpen opens closes 0 body ∧
      kindCount closes body = kindCount opens body := by
  constructor
  · rintro ⟨start_le, closing, stays, even⟩
    obtain ⟨token, found, isClosing⟩ := Option.map_eq_some_iff.1 closing
    obtain ⟨inside, rfl⟩ := List.getElem?_eq_some_iff.1 found
    obtain ⟨between, rfl⟩ := Nat.exists_eq_add_of_le start_le
    rw [List.extract_eq_take_drop, Nat.add_sub_cancel_left] at stays even
    refine ⟨_, tokens[start + between], tokens.drop (start + between + 1), ?_, ?_, isClosing,
      stays, even⟩
    · rw [← List.drop_eq_getElem_cons inside, ← List.drop_drop, List.take_append_drop]
    · rw [List.length_take, List.length_drop]
      omega
  · rintro ⟨body, token, behind, split, rfl, isClosing, stays, even⟩
    have isBody : tokens.extract start (start + body.length) = body := by
      rw [List.extract_eq_take_drop, split, Nat.add_sub_cancel_left, List.take_left]
    refine ⟨Nat.le_add_right _ _, ?_, isBody.symm ▸ stays, isBody.symm ▸ even⟩
    rw [← List.getElem?_drop, split, List.getElem?_append_right (Nat.le_refl _), Nat.sub_self,
      List.getElem?_cons_zero, Option.map_some, isClosing]

/-- No two positions close the same span. -/
theorem ClosesAt.unique (distinct : opens ≠ closes)
    (first : ClosesAt opens closes tokens start close)
    (second : ClosesAt opens closes tokens start close') : close = close' := by
  obtain ⟨body, token, behind, split, rfl, closing, stays, even⟩ := closesAt_iff.1 first
  obtain ⟨body', token', behind', split', rfl, closing', stays', even'⟩ := closesAt_iff.1 second
  have same := split.symm.trans split'
  have longer := length_le_of_closed distinct same closing even stays'
  have shorter := length_le_of_closed distinct same.symm closing' even' stays
  omega

theorem ClosesAt.lt_length (closed : ClosesAt opens closes tokens start close) :
    close < tokens.length := by
  obtain ⟨token, found, _⟩ := Option.map_eq_some_iff.1 closed.closing
  exact (List.getElem?_eq_some_iff.1 found).1

/-! ## The span that is found -/

theorem closesAt_of_closingIndex? {inside : Nat} (distinct : opens ≠ closes)
    (found : closingIndex? opens closes 1 (tokens.drop start) = some inside) :
    ClosesAt opens closes tokens start (start + inside) := by
  obtain ⟨body, token, behind, split, rfl, closing, stays, even⟩ :=
    split_of_closingIndex?_eq_some distinct found
  exact closesAt_iff.2 ⟨body, token, behind, split, rfl, closing, stays, by omega⟩

theorem balancedSpan_of_closesAt (distinct : opens ≠ closes)
    (closed : ClosesAt opens closes tokens start close) :
    balancedSpan tokens start opens closes = ⟨start, close, close + 1⟩ := by
  unfold balancedSpan
  cases found : closingIndex? opens closes 1 (tokens.drop start) with
  | none =>
    obtain ⟨body, token, behind, split, _, closing, _, even⟩ := closesAt_iff.1 closed
    have stays := staysOpen_of_closingIndex?_eq_none distinct found
    exact absurd (split ▸ stays) (not_staysOpen_of_closed distinct closing even)
  | some inside =>
    obtain rfl := (closesAt_of_closingIndex? distinct found).unique distinct closed
    rfl

theorem balancedSpan_of_unclosed (distinct : opens ≠ closes)
    (unclosed : ∀ close, ¬ ClosesAt opens closes tokens start close) :
    balancedSpan tokens start opens closes
      = ⟨start, max tokens.length start, max tokens.length start⟩ := by
  unfold balancedSpan
  cases found : closingIndex? opens closes 1 (tokens.drop start) with
  | none => rfl
  | some inside => exact absurd (closesAt_of_closingIndex? distinct found) (unclosed _)

theorem balances_balancedSpan (distinct : opens ≠ closes) (tokens : List Token) (start : Nat) :
    Balances opens closes tokens start (balancedSpan tokens start opens closes) := by
  by_cases closed : ∃ close, ClosesAt opens closes tokens start close
  · obtain ⟨close, closed⟩ := closed
    rw [balancedSpan_of_closesAt distinct closed]
    exact .closed closed
  · have unclosed := not_exists.1 closed
    rw [balancedSpan_of_unclosed distinct unclosed]
    exact .unclosed unclosed

/-- A token spans one range, and that is the one that is found. -/
theorem balances_iff {span : TokenSpan} (distinct : opens ≠ closes) :
    Balances opens closes tokens start span ↔ balancedSpan tokens start opens closes = span := by
  constructor
  · intro balances
    cases balances with
    | closed closed => exact balancedSpan_of_closesAt distinct closed
    | unclosed unclosed => exact balancedSpan_of_unclosed distinct unclosed
  · rintro rfl
    exact balances_balancedSpan distinct tokens start

/-! ## The counter -/

theorem openCount_eq (distinct : opens ≠ closes) (front : List Token) :
    openCount opens closes front = 1 + kindCount opens front - kindCount closes front := by
  unfold openCount
  generalize (1 : Int) = count
  induction front generalizing count with
  | nil => simp
  | cons token rest ih =>
    rw [List.foldl_cons, ih, countToken]
    by_cases opening : token.kind = opens
    · simp only [kindCount_cons, opening, distinct, if_true, if_false]
      push_cast
      omega
    · by_cases closing : token.kind = closes
      · simp only [kindCount_cons, closing, distinct.symm, if_true, if_false]
        push_cast
        omega
      · simp only [kindCount_cons, opening, closing, if_false, Nat.add_zero]

/-- Behind tokens that stay open, the search goes on with the count of open tokens. -/
theorem closingIndex?_append {spare : Nat} (distinct : opens ≠ closes)
    (stays : StaysOpen opens closes spare front) :
    closingIndex? opens closes (spare + 1) (front ++ rest)
      = (closingIndex? opens closes (spare + 1 + kindCount opens front - kindCount closes front)
          rest).map (· + front.length) := by
  induction front generalizing spare with
  | nil => simp
  | cons token front ih =>
    rw [List.cons_append, closingIndex?]
    by_cases opening : token.kind = opens
    · rw [if_pos opening, ih ((staysOpen_cons_opening distinct opening).1 stays), Option.map_map]
      simp only [kindCount_cons, opening, distinct, if_true, if_false]
      congr 2
      omega
    · rw [if_neg opening]
      by_cases closing : token.kind = closes
      · -- The token is closed by one to spare, or the front part would close too much.
        obtain ⟨fewer, rfl⟩ : ∃ fewer, spare = fewer + 1 := by
          have enough := stays [token] (List.prefix_append [token] front)
          simp only [kindCount_cons, kindCount_nil, closing, distinct.symm, if_true, if_false]
            at enough
          exact Nat.exists_eq_add_of_le' (by omega)
        rw [if_pos closing, if_neg (by omega), Nat.add_sub_cancel,
          ih ((staysOpen_cons_closing distinct closing).1 stays), Option.map_map]
        simp only [kindCount_cons, closing, distinct.symm, if_true, if_false]
        congr 2
        omega
      · rw [if_neg closing, ih ((staysOpen_cons_other opening closing).1 stays), Option.map_map]
        simp only [kindCount_cons, opening, closing, if_false]
        congr 2

theorem StaysOpen.of_prefix {spare : Nat} (stays : StaysOpen opens closes spare tokens)
    (isFront : front <+: tokens) : StaysOpen opens closes spare front :=
  fun part isPart => stays part (isPart.trans isFront)

/-- The tokens inside a span stay open, whether it is closed or not. -/
theorem staysOpen_balancedSpan (distinct : opens ≠ closes) (tokens : List Token) (start : Nat) :
    StaysOpen opens closes 0
      (tokens.extract start (balancedSpan tokens start opens closes).stop) := by
  cases found : closingIndex? opens closes 1 (tokens.drop start) with
  | none =>
    have everything : tokens.extract start (balancedSpan tokens start opens closes).stop
        = tokens.drop start := by
      rw [balancedSpan, found, List.extract_eq_take_drop]
      refine List.take_of_length_le ?_
      rw [List.length_drop]
      exact Nat.sub_le_sub_right (Nat.le_max_left _ _) _
    rw [everything]
    exact staysOpen_of_closingIndex?_eq_none distinct found
  | some inside =>
    have closed := closesAt_of_closingIndex? distinct found
    rw [balancedSpan_of_closesAt distinct closed]
    exact closed.staysOpen

theorem openCount_pos (distinct : opens ≠ closes)
    (inside : front <+: tokens.extract start (balancedSpan tokens start opens closes).stop) :
    1 ≤ openCount opens closes front := by
  have notMore := staysOpen_balancedSpan distinct tokens start front inside
  rw [openCount_eq distinct]
  omega

/-- With the closing token read as well, the count may come down to zero and no further. -/
theorem openCount_nonneg (distinct : opens ≠ closes)
    (read : front <+: tokens.extract start (balancedSpan tokens start opens closes).resume) :
    0 ≤ openCount opens closes front := by
  generalize isSpan : balancedSpan tokens start opens closes = span at read
  cases (balances_iff distinct).2 isSpan with
  | @closed close closed =>
    obtain ⟨body, token, behind, split, rfl, closing, stays, even⟩ := closesAt_iff.1 closed
    have isRead : tokens.extract start (start + body.length + 1) = body ++ [token] := by
      rw [List.extract_eq_take_drop, split, Nat.add_assoc, Nat.add_sub_cancel_left,
        List.take_append, Nat.add_sub_cancel_left, List.take_of_length_le (Nat.le_succ _)]
      rfl
    rw [isRead, List.prefix_concat_iff] at read
    rw [openCount_eq distinct]
    rcases read with rfl | inBody
    · simp only [kindCount_append, kindCount_cons, kindCount_nil, closing, distinct.symm, if_true,
        if_false]
      push_cast
      omega
    · have notMore := stays front inBody
      omega
  | unclosed =>
    have inside : front <+: tokens.extract start (balancedSpan tokens start opens closes).stop := by
      rwa [isSpan]
    exact Int.le_trans (by decide) (openCount_pos distinct inside)

/-- Inside a span, the depth at which the search goes on is the count of open tokens. -/
theorem closingIndex?_inside (distinct : opens ≠ closes)
    (inside : front <+: tokens.extract start (balancedSpan tokens start opens closes).stop) :
    closingIndex? opens closes 1 (tokens.drop start)
      = (closingIndex? opens closes (openCount opens closes front).toNat
          (tokens.drop (start + front.length))).map (· + front.length) := by
  have stays := StaysOpen.of_prefix (staysOpen_balancedSpan distinct tokens start) inside
  have isFront : front <+: tokens.drop start := inside.trans (List.take_prefix _ _)
  obtain ⟨rest, split⟩ := isFront
  have isRest : tokens.drop (start + front.length) = rest := by
    rw [← List.drop_drop, ← split, List.drop_left]
  have isDepth : 1 + kindCount opens front - kindCount closes front
      = (openCount opens closes front).toNat := by
    rw [openCount_eq distinct]
    omega
  rw [isRest, ← split, ← isDepth]
  exact closingIndex?_append distinct stays

end

end StaticSite
