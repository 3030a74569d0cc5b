/-!
# Pseudorandom numbers

The generator xoshiro256++: four words of state, from which each step draws one word.  A generator
is seeded by eight steps of a linear congruential sequence, whose states are permuted to half words.

* `Generator.ofSeed`, `Generator.next`: seeding and drawing.
* `Generator.below`: a number below a bound, every one equally likely.
* `Draws`: what can be drawn, from this generator (`Generator.draws`) or from any other.
-/

namespace VoxelLogic

/-- The state of a generator. -/
structure Generator where
  s0 : UInt64
  s1 : UInt64
  s2 : UInt64
  s3 : UInt64
  deriving DecidableEq, Repr

namespace Generator

/-- Rotates a word to the left. -/
def rotateLeft (word : UInt64) (distance : UInt64) : UInt64 :=
  (word <<< distance) ||| (word >>> (64 - distance))

/-- The generator after a draw, and the word drawn. -/
def next (g : Generator) : UInt64 × Generator :=
  let drawn := rotateLeft (g.s0 + g.s3) 23 + g.s0
  let s2 := g.s2 ^^^ g.s0
  let s3 := g.s3 ^^^ g.s1
  (drawn, ⟨g.s0 ^^^ s3, g.s1 ^^^ s2, s2 ^^^ (g.s1 <<< 17), rotateLeft s3 45⟩)

/-! ## Seeding -/

/-- The next state of the congruential sequence. -/
def advance (state : UInt64) : UInt64 := state * 6364136223846793005 + 11634580027462260723

/-- Rotates a half word to the right. -/
def rotateRight (half : UInt32) (distance : UInt32) : UInt32 :=
  if distance = 0 then half else (half >>> distance) ||| (half <<< (32 - distance))

/-- The half word of a state of the congruential sequence. -/
def permute (state : UInt64) : UInt32 :=
  rotateRight (((state >>> 18) ^^^ state) >>> 27).toUInt32 (state >>> 59).toUInt32

/-- The next half words of the congruential sequence. -/
def halves (state : UInt64) : Nat → List UInt32
  | 0 => []
  | n + 1 => permute (advance state) :: halves (advance state) n

/-- A word of two half words, the lower one first. -/
def join (low high : UInt32) : UInt64 := low.toUInt64 ||| (high.toUInt64 <<< 32)

/-- The generator of a seed. -/
def ofSeed (seed : UInt64) : Generator :=
  match halves seed 8 with
  | [w0, w1, w2, w3, w4, w5, w6, w7] => ⟨join w0 w1, join w2 w3, join w4 w5, join w6 w7⟩
  | _ => ⟨0, 0, 0, 0⟩

/-! ## Draws of other kinds -/

/-- Whether the top bit of a drawn word is set. -/
def flip (g : Generator) : Bool × Generator :=
  let (word, g) := g.next
  (9223372036854775808 ≤ word, g)

/-- Whether a drawn word lies in the lower half. -/
def coin (g : Generator) : Bool × Generator :=
  let (word, g) := g.next
  (word < 9223372036854775808, g)

/-- The largest low word that `below` accepts: below it, every number of the range is met by equally
many words. -/
def zone (bound : Nat) : Nat := (bound <<< (63 - Nat.log2 bound)) - 1

/-- A number below a positive bound.  A drawn word times the bound has the number as its high word;
draws whose low word exceeds the zone are repeated, at most `tries` times. -/
def belowWithin (bound : Nat) : Nat → Generator → Nat × Generator
  | 0, g => (g.next.1.toNat * bound / UInt64.size, g.next.2)
  | tries + 1, g =>
    let (word, g) := g.next
    let product := word.toNat * bound
    if product % UInt64.size ≤ zone bound then (product / UInt64.size, g)
    else belowWithin bound tries g

/-- A number below a positive bound.  A draw is repeated with a probability of less than one half,
which puts the limit on repetitions out of reach. -/
def below (bound : Nat) (g : Generator) : Nat × Generator := belowWithin bound UInt64.size g

theorem belowWithin_lt {bound : Nat} (h : 0 < bound) :
    ∀ (tries : Nat) (g : Generator), (belowWithin bound tries g).1 < bound := by
  have hdiv : ∀ word : UInt64, word.toNat * bound / UInt64.size < bound := by
    intro word
    rw [Nat.div_lt_iff_lt_mul (by decide), Nat.mul_comm bound]
    exact Nat.mul_lt_mul_of_pos_right word.toNat_lt h
  intro tries
  induction tries with
  | zero => exact fun g => hdiv g.next.1
  | succ tries ih =>
    intro g
    unfold belowWithin
    dsimp only
    split
    · exact hdiv g.next.1
    · exact ih g.next.2

/-- The number is below the bound. -/
theorem below_lt {bound : Nat} (h : 0 < bound) (g : Generator) : (below bound g).1 < bound :=
  belowWithin_lt h UInt64.size g

end Generator

/-! ## Sources of draws -/

/-- What can be drawn from states of some kind.  Every draw gives a value and the state after it. -/
structure Draws (σ : Type) where
  /-- A truth value. -/
  flip : σ → Bool × σ
  /-- Whether something comes about that does so half of the time. -/
  coin : σ → Bool × σ
  /-- A number below a positive bound. -/
  below : Nat → σ → Nat × σ
  below_lt : ∀ {bound : Nat}, 0 < bound → ∀ s : σ, (below bound s).1 < bound

/-- What is drawn from the generator. -/
def Generator.draws : Draws Generator := ⟨flip, coin, below, below_lt⟩

end VoxelLogic
