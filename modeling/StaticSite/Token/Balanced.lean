import StaticSite.Token

/-!
# Balanced spans

The body of an opening token ends at the closing token that balances it.
-/

namespace StaticSite

/-- A range of token indices and the index at which reading goes on after its close. -/
structure TokenSpan where
  start : Nat
  stop : Nat
  resume : Nat
  deriving DecidableEq, Repr

/-- The number of tokens before the one that closes `depth` open tokens, if there is one.
Opening is tested first. -/
def closingIndex? (opens closes : TokenKind) : Nat → List Token → Option Nat
  | _, [] => none
  | depth, token :: rest =>
      if token.kind = opens then (closingIndex? opens closes (depth + 1) rest).map (· + 1)
      else if token.kind = closes then
        if depth ≤ 1 then some 0
        else (closingIndex? opens closes (depth - 1) rest).map (· + 1)
      else (closingIndex? opens closes depth rest).map (· + 1)

/-- The span from `start` up to the token that closes one token opened before `start`.  A span
that is never closed runs to the end of the tokens. -/
def balancedSpan (tokens : List Token) (start : Nat) (opens closes : TokenKind) : TokenSpan :=
  match closingIndex? opens closes 1 (tokens.drop start) with
  | some inside => { start, stop := start + inside, resume := start + inside + 1 }
  | none =>
      let stop := max tokens.length start
      { start, stop, resume := stop }

end StaticSite
