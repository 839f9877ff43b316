import RelaySql.Settings.Basic
import RelaySql.Trace

/-!
# Settings — logging

A program sets up logging once.  Which messages are written is said by an environment variable or
else by the settings; another variable chooses between lines for people and lines of JSON.
-/

namespace RelaySql.Settings

/-- Why logging could not be set up. -/
inductive LoggingFault where
  | notTruth
  | alreadySet
deriving DecidableEq, Repr

def LoggingFault.message : LoggingFault → String
  | notTruth => "Expected `true` or `false` to be provided for `HUMAN_LOGGING`"
  | alreadySet => "a global default trace dispatcher has already been set"

/-- How messages are written. -/
structure Logging where
  /-- The lightest level that is written, if any is. -/
  threshold : Option Level
  json : Bool
deriving DecidableEq, Repr

namespace Logging

/-- The level that a filter lets through: no name is the heaviest level, and `off` is none. -/
def thresholdOf (filter : String) : Option Level :=
  if filter = "" then some .error else Level.ofName? filter

/-- The text that says which messages are written. -/
def filter (c : Config) (env : Environment) : String :=
  match env.get? "RUST_LOG" with
  | some filter => filter
  | none => if c.verbose then "debug" else c.logLevel

/-- How messages are to be written. -/
def ofConfig (c : Config) (env : Environment) : Except LoggingFault Logging :=
  let threshold := thresholdOf (filter c env)
  match env.get? "HUMAN_LOGGING" with
  | none | some "true" => .ok ⟨threshold, false⟩
  | some "false" => .ok ⟨threshold, true⟩
  | some _ => .error .notTruth

/-- Sets up logging, unless it is set up. -/
def setUp (c : Config) (env : Environment) : ExceptT LoggingFault (StateM (Option Logging)) Unit := do
  let logging ← ofConfig c env
  if (← get).isSome then throw .alreadySet
  set (some logging)

/-- A message of this level is written. -/
def writes (l : Logging) (level : Level) : Bool :=
  match l.threshold with
  | none => false
  | some threshold => Level.all.idxOf level ≤ Level.all.idxOf threshold

/-- The levels that are written, heaviest first. -/
def enabled (l : Logging) : List Level := Level.all.filter l.writes

end Logging

end RelaySql.Settings
