/-!
# Score

A round is void when a bad dot is hit. Otherwise every formula scores for the good dots that its
curve hits: through `h` of them `2 ^ h - 1`, so one curve through several dots is worth more than
several curves through one each. Scores stay within 32 bits with a sign.

* `Score.bonus` is what one formula scores, `Score.total` the score of a round.
-/

set_option autoImplicit false

namespace CurvePuzzle.Score

/-- The largest score. -/
def maxScore : Nat := Nat.pow 2 31 - 1

/-- The score of a void round. -/
def void : Int := -1

/-- What a formula scores that hits this many good dots: the power is cut off at the largest score
before 1 is taken away. -/
def bonus (hits : Nat) : Nat := (if hits < 31 then Nat.pow 2 hits else maxScore) - 1

/-- A score with a bonus added, cut off at the largest score. -/
def add (score bonus : Nat) : Nat := min maxScore (score + bonus)

/-- The score of a round, by the good and the bad dots that every formula hits. -/
def total (good bad : List Nat) : Int :=
  if bad.any fun hits => decide (0 < hits) then void
  else (((good.filter fun hits => decide (0 < hits)).map bonus).foldl add 0 : Nat)

end CurvePuzzle.Score
