/-!
# Rounds

A build generates each of its targets once.  One call generates one target; when a call comes after
all targets have had theirs, the session has gone over to watching, and the targets are generated
anew.  The first round of each pass in watch mode is the one in which the import tree is checked
again.
-/

namespace Recompile

/-- Whether a session builds once or watches for changes. -/
inductive BuildMode where
  /-- The first pass over the targets. -/
  | build
  /-- Every later pass. -/
  | watch
deriving DecidableEq, Inhabited

/-- How far the targets of a session have been generated. -/
structure Rounds where
  /-- The place of the next target. -/
  round : Nat
  /-- The number of targets. -/
  targets : Nat
  /-- The mode. -/
  mode : BuildMode
deriving DecidableEq

namespace Rounds

/-- Nothing has been generated. -/
def start : Rounds := ⟨0, 0, .build⟩

instance : Inhabited Rounds := ⟨start⟩

/-- Begins a round, for so many targets; there is always at least one. -/
def begin (rounds : Rounds) (targets : Nat) : Rounds :=
  let targets := max targets 1
  if targets ≤ rounds.round then ⟨0, targets, .watch⟩ else { rounds with targets }

/-- Whether the round that has begun is the first one of a pass in watch mode. -/
def rechecks (rounds : Rounds) : Bool :=
  rounds.mode = .watch && rounds.round = 0

/-- Finishes a round. -/
def finish (rounds : Rounds) : Rounds :=
  { rounds with round := rounds.round + 1 }

end Rounds

end Recompile
