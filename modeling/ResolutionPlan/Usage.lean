import ResolutionPlan.Graph.Builder

namespace ResolutionPlan

variable {V : Type}

-- Work that may call factories: it stops at each call and goes on with the instance that comes back.
inductive Work (V α : Type) where
  | finished (result : α)
  | call (maker : Factory V) (next : V → Work V α)

namespace Work

def bind : Work V α → (α → Work V β) → Work V β
  | .finished result, rest => rest result
  | .call maker next, rest => .call maker fun made => (next made).bind rest

instance : Monad (Work V) where
  pure := .finished
  bind := bind

-- Calls are kept as the identities of the factories called, the newest first.
def run (calls : List Nat) : Work V α → α × List Nat
  | .finished result => (result, calls)
  | .call maker next => (next (maker.make (calls.count maker.id))).run (maker.id :: calls)

end Work

-- What is done with a plan, or with a copy made before anything was done.
inductive Usage where
  | analyze (costs : CostTable)
  | graph (costs : CostTable) (exportedAt : String)
  | describe (indented : Bool)
  | access (onCopy : Bool) (path : List Nat)
  deriving DecidableEq

inductive Outcome (V : Type) where
  | analysis (result : Analysis)
  | graph (g : Graph)
  | text (s : String)
  | value (held : Option V)

-- Calls the factory at the end of the path, or takes the constant there.
def Plan.access (p : Plan V) (path : List Nat) : Work V (Option V) :=
  match p.at? path with
  | some (.leaf (.factory _ maker)) => .call maker fun made => return some made
  | some (.leaf (.constant _ value)) => return some value
  | _ => return none

namespace Usage

def onCopy : Usage → Bool
  | .access onCopy _ => onCopy
  | _ => false

def work (p : Plan V) : Usage → Work V (Outcome V)
  | .analyze costs => return .analysis (← p.visit costs .root)
  | .graph costs exportedAt => return .graph (← p.graphIn costs exportedAt)
  | .describe indented => do
    let description ← p.describeIn
    return .text (if indented then description.indented else description.inline)
  | .access _ path => return .value (← p.access path)

end Usage

structure PlanInUse (V : Type) where
  plan : Plan V
  copy : Plan V
  calls : List Nat

namespace PlanInUse

def start (p : Plan V) : PlanInUse V := ⟨p, p, []⟩

def use (u : PlanInUse V) (step : Usage) : Outcome V × PlanInUse V :=
  let (outcome, calls) := (step.work (if step.onCopy then u.copy else u.plan)).run u.calls
  (outcome, { u with calls })

def counts (u : PlanInUse V) : List Nat :=
  u.plan.factories.map fun maker => u.calls.count maker.id

end PlanInUse

end ResolutionPlan
