/-!
Work that is done in turns, with a bound on their number.
-/

namespace ChatHub.Text

variable {τ σ α : Type}

/-- What the last turn gives.  Each turn starts from what the one before it has left, and work
that needs more than a number of turns fails. -/
def turns (turn : σ → StateT τ Option (σ ⊕ α)) : Nat → σ → StateT τ Option α
  | 0, _ => failure
  | n + 1, s => do
      match ← turn s with
      | .inl s => turns turn n s
      | .inr a => pure a

end ChatHub.Text
