import TapeMachine.Table.Random

/-!
# A generator of random numbers

The source of random numbers that sessions draw from is a stream of 64-bit numbers that a seed
determines. A number below a bound is the high half of a draw times the bound; a draw whose low half
falls into the part that would favour some numbers is drawn again. The stream visits every state
before it repeats one, so there is no need to look at more than `2 ^ 64` draws. Nothing that is
proved about random tables depends on this generator, only on its numbers being below their bounds.
-/

set_option autoImplicit false

namespace TapeMachine

/-- The state of a stream of random numbers. -/
structure Generator where
  state : UInt64
  deriving DecidableEq

namespace Generator

/-- The generator that starts from a seed. -/
def ofSeed (seed : UInt64) : Generator := { state := seed }

/-- The next number of the stream: the state advances by a constant, and its product with a mix of
its bits is folded in half. -/
def next (generator : Generator) : UInt64 × Generator :=
  let state := generator.state + 0x2d358dccaa6c78a5
  let product := state.toNat * (state ^^^ 0x8bb84b93962eacc9).toNat
  (UInt64.ofNat product ^^^ UInt64.ofNat (product / UInt64.size), { state := state })

/-- A number below a bound, with a limit on how often it is drawn again. -/
def belowWithin (bound : Nat) : (attempts : Nat) → Generator → Nat × Generator
  | attempts, generator =>
    let (draw, generator) := generator.next
    let product := draw.toNat * bound
    match attempts with
    | 0 => (product / UInt64.size, generator)
    | attempts + 1 =>
      if product % UInt64.size < (UInt64.size - bound) % bound then
        belowWithin bound attempts generator
      else (product / UInt64.size, generator)

/-- A number below a bound. -/
def below : Draw Generator := fun bound generator ↦ belowWithin bound UInt64.size generator

end Generator

/-- The machine of the table that a seed determines. -/
def Machine.ofSeed (states cells : Nat) (seed : UInt64) : Except RandomFailure Machine :=
  ofDraws Generator.below states cells (Generator.ofSeed seed)

end TapeMachine
