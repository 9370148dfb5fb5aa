/-!
# Loops over a finite supply

A loop whose every round takes something from a finite supply ends, and the size of the supply
bounds its rounds.

* `rounds`: the loop, with the bound and with what happens if the bound is reached.
-/

namespace BusBench

/-- Runs `round` from state `s` until it answers, for at most the given number of rounds. -/
@[specialize]
def rounds {m : Type → Type} [Monad m] {σ α : Type} (exhausted : m α) (round : σ → m (σ ⊕ α)) :
    Nat → σ → m α
  | 0, _ => exhausted
  | limit + 1, s => do
    match ← round s with
    | .inl s => rounds exhausted round limit s
    | .inr a => pure a

end BusBench
