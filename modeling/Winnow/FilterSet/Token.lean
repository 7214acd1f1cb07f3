import Winnow.Numeral

/-!
# Fresh ids

A new filter gets the id of its definition with a token behind it.  Tokens come from a list of
given ones first and from a counter after that; a token that makes an id that was issued before is
passed over.

* `Tokens.fresh`: the next id that was not issued, and the tokens that are left.
-/

namespace Winnow

/-- The tokens that are still to come. -/
structure Tokens where
  /-- The tokens that come first. -/
  given : List Text
  /-- How many tokens were counted. -/
  counter : Nat

namespace Tokens

/-- The length of a token. -/
def width : Nat := 12

/-- The token of a count. -/
def counted (n : Nat) : Text :=
  let ds := (Nat.toDigits 16 n)
  Text.ofChars (List.replicate (width - ds.length) '0' ++ ds)

/-- The id that a token makes. -/
def candidate (definitionId token : Text) : Text :=
  definitionId ++ (.scalar '_' :: token)

/-- The first count after `counter` whose token makes an id that was not issued.  One of as many
counts as there are issued ids and one more does. -/
def freshCount (definitionId : Text) (issued : List Text) (counter : Nat) : Nat :=
  let counts := (List.range (issued.length + 1)).map (counter + 1 + ·)
  (counts.find? fun n => !issued.contains (candidate definitionId (counted n))).getD (counter + 1)

/-- The next id that was not issued, where some tokens are given and others are counted. -/
def freshFrom (definitionId : Text) (issued : List Text) (counter : Nat) :
    List Text → Text × Tokens
  | [] =>
    let n := freshCount definitionId issued counter
    (candidate definitionId (counted n), ⟨[], n⟩)
  | token :: given =>
    let id := candidate definitionId (token.take width)
    if issued.contains id then freshFrom definitionId issued counter given
    else (id, ⟨given, counter⟩)

/-- The next id that was not issued, and the tokens that are left. -/
def fresh (definitionId : Text) (issued : List Text) (tokens : Tokens) : Text × Tokens :=
  freshFrom definitionId issued tokens.counter tokens.given

end Tokens

end Winnow
