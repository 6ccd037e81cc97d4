import FlatSyntax.Token

/-!
Patterns: what the tokens at the front of a list have to look like.
-/

namespace FlatSyntax

inductive PatternElement where
  /-- Any token. -/
  | any
  /-- A token of a kind, whatever its value. -/
  | kind (expected : TokenKind)
  /-- A token with a value, whatever its kind. -/
  | value (expected : String)
  /-- A token of a kind with a value. -/
  | exactly (kind : TokenKind) (value : String)
deriving DecidableEq, Repr

def PatternElement.admits : PatternElement → Token → Bool
  | any, _ => true
  | kind expected, token => token.kind == expected
  | value expected, token => token.value == expected
  | exactly k v, token => token.kind == k && token.value == v

abbrev Pattern := List PatternElement

namespace Pattern

/-- Whether a list of tokens starts with tokens that the pattern admits, one for each element. -/
def fits : Pattern → List Token → Bool
  | [], _ => true
  | _ :: _, [] => false
  | element :: pattern, token :: tokens => element.admits token && fits pattern tokens

/-- Whether a pattern fits at an index of a token list. Nothing fits beyond the end of the list. -/
def fitsAt (pattern : Pattern) (tokens : List Token) (index : Nat) : Bool :=
  decide (index ≤ tokens.length) && pattern.fits (tokens.drop index)

theorem length_le_of_fits {pattern : Pattern} {tokens : List Token}
    (hFits : pattern.fits tokens = true) : pattern.length ≤ tokens.length := by
  induction pattern generalizing tokens with
  | nil => simp
  | cons element pattern ih =>
      cases tokens with
      | nil => simp [fits] at hFits
      | cons token tokens =>
          simp only [fits, Bool.and_eq_true] at hFits
          simpa using ih hFits.2

end Pattern

end FlatSyntax
