import RelaySql.Trace

/-!
# Settings — attempts to connect

A connection that fails is tried again after a delay that doubles with every failure, a limited
number of times.  The last failure is the answer.

* `Attempts.make`: the attempts, with the second each started at and what was logged between them.
-/

namespace RelaySql.Settings

/-- How often a failed attempt is repeated. -/
def maxRetries : Nat := 5

/-- The seconds before the first repetition. -/
def firstDelay : Nat := 2

/-- A series of attempts: what the last one answered, the second each started at, the second the
series ended at, and what was logged. -/
structure Attempts (ε α : Type) where
  result : Except ε α
  starts : List Nat
  ended : Nat
  trace : Trace

namespace Attempts

variable {ε α : Type}

/-- What is logged of a failure that is followed by another attempt. -/
def warning (message : String) (delay : Nat) : Event :=
  .logged .warn ("Could not connect to database: " ++ message ++ ". Retrying in " ++
    toString delay ++ " seconds...")

/-- Makes attempts from the `n`-th on, at second `now`, of which `retries` may be repetitions. -/
def startingAt (connect : Nat → Except ε α) (message : ε → String) :
    (retries delay n now : Nat) → Attempts ε α
  | 0, _, n, now => ⟨connect n, [now], now, []⟩
  | retries + 1, delay, n, now =>
    match connect n with
    | .ok a => ⟨.ok a, [now], now, []⟩
    | .error e =>
      let later := startingAt connect message retries (2 * delay) (n + 1) (now + delay)
      { later with
        starts := now :: later.starts
        trace := warning (message e) delay :: later.trace }

/-- The attempts to connect. -/
def make (connect : Nat → Except ε α) (message : ε → String) : Attempts ε α :=
  startingAt connect message maxRetries firstDelay 1 0

end Attempts

end RelaySql.Settings
