import ResolutionPlan.Cost.Table
import ResolutionPlan.Plan

namespace ResolutionPlan

open Text

variable {V : Type}

-- What a code generator wants to know of a plan: roughly how much it emits, and whether it has to take
-- the scope lock.
structure Analysis where
  estimatedSize : Size
  requiresScopeLock : Bool
  deriving DecidableEq

namespace Analysis

def zero : Analysis := ⟨0, false⟩

def sized (size : Size) : Analysis := ⟨size, false⟩

def plus (a b : Analysis) : Analysis :=
  ⟨a.estimatedSize.plus b.estimatedSize, a.requiresScopeLock || b.requiresScopeLock⟩

instance : Add Analysis := ⟨plus⟩

def raise (more : Analysis) : StateM Analysis Unit :=
  modify (· + more)

def sum (results : List Analysis) : Analysis :=
  results.foldl (· + ·) zero

-- The sum of results that stand elsewhere, each of them looked up in its place.
def sumAt {α : Type} (look : α → Analysis) (places : List α) : Analysis :=
  sum (places.map look)

def describe (a : Analysis) : Description :=
  .record "AnalysisResult"
    [("estimated_size", .atom (String.ofList (decimal a.estimatedSize.toNat))),
      ("requires_scope_lock", .atom (if a.requiresScopeLock then "true" else "false"))]

theorem add_estimatedSize (a b : Analysis) :
    (a + b).estimatedSize = a.estimatedSize.plus b.estimatedSize := rfl

theorem add_requiresScopeLock (a b : Analysis) :
    (a + b).requiresScopeLock = (a.requiresScopeLock || b.requiresScopeLock) := rfl

end Analysis

-- A span of time; the seconds are a word, and the nanoseconds are below one second.
structure Duration where
  seconds : Nat
  nanoseconds : Nat
  deriving DecidableEq

inductive DurationFault where
  | tooLong
  deriving DecidableEq

def DurationFault.message : DurationFault → String
  | .tooLong => "overflow in Duration::new"

namespace Duration

def zero : Duration := ⟨0, 0⟩

def secondsLimit : Nat := Nat.pow 2 64

def nanosecondsPerSecond : Nat := 1000000000

def ofParts (seconds nanoseconds : Nat) : Except DurationFault Duration :=
  let whole := seconds + nanoseconds / nanosecondsPerSecond
  if whole < secondsLimit then .ok ⟨whole, nanoseconds % nanosecondsPerSecond⟩ else .error .tooLong

-- The decimals of a fraction with the given number of places, without zeros at the end.
def fractionDigits (places fraction : Nat) : List Char :=
  let digits := decimal fraction
  ((List.replicate (places - digits.length) '0' ++ digits).reverse.dropWhile (· == '0')).reverse

def pointed (whole places fraction : Nat) : List Char :=
  match fractionDigits places fraction with
  | [] => decimal whole
  | digits => decimal whole ++ '.' :: digits

-- In the largest of the units second, millisecond, microsecond and nanosecond that the span reaches.
def text (d : Duration) : String :=
  String.ofList <|
    if 0 < d.seconds then pointed d.seconds 9 d.nanoseconds ++ ['s']
    else if 1000000 ≤ d.nanoseconds then
      pointed (d.nanoseconds / 1000000) 6 (d.nanoseconds % 1000000) ++ ['m', 's']
    else if 1000 ≤ d.nanoseconds then
      pointed (d.nanoseconds / 1000) 3 (d.nanoseconds % 1000) ++ ['\xb5', 's']
    else decimal d.nanoseconds ++ ['n', 's']

end Duration

def CostTable.share (costs : CostTable) (k : Kind) : Analysis :=
  ⟨costs.baseCost k, k == .scoped⟩

namespace Plan

mutual
def analyze (costs : CostTable) : Plan V → Analysis
  | .leaf site => costs.share site.kind
  | .cached lifetime _ inner => costs.share (.ofLifetime lifetime) + inner.analyze costs
  | .constructor _ _ parameters => analyzeAll costs (costs.share .constructor) parameters
  | .enumerable _ _ elements => analyzeAll costs (costs.share .enumerable) elements

def analyzeAll (costs : CostTable) (found : Analysis) : List (Plan V) → Analysis
  | [] => found
  | p :: rest => analyzeAll costs (found + p.analyze costs) rest
end

end Plan

-- Someone who is told of an analysis, in a monad that holds what the telling does.
structure Observer (m : Type → Type) where
  visiting : Kind → Key → Nat → m Unit
  analyzed : Key → Analysis → Duration → m Unit

namespace Observer

def quiet [Pure m] : Observer m :=
  ⟨fun _ _ _ => pure (), fun _ _ _ => pure ()⟩

end Observer

structure Context (m : Type → Type) where
  observer : Option (Observer m)
  depth : Nat

namespace Context

def root : Context m := ⟨none, 0⟩

def observed (observer : Observer m) : Context m := ⟨some observer, 0⟩

def descend (context : Context m) : Context m := { context with depth := context.depth + 1 }

def visiting [Pure m] (context : Context m) (kind : Kind) (service : Key) : m Unit :=
  match context.observer with
  | some observer => observer.visiting kind service context.depth
  | none => pure ()

def describe (context : Context m) : Description :=
  .record "AnalysisContext"
    [("observed", .atom (if context.observer.isSome then "true" else "false")),
      ("depth", .atom (String.ofList (decimal context.depth)))]

end Context

namespace Plan

mutual
def visit [Monad m] (costs : CostTable) (context : Context m) : Plan V → m Analysis
  | .leaf site => do
    context.visiting site.kind site.service
    return costs.share site.kind
  | .cached lifetime service inner => do
    context.visiting (.ofLifetime lifetime) service
    let found ← inner.visit costs context.descend
    return costs.share (.ofLifetime lifetime) + found
  | .constructor service _ parameters => do
    context.visiting .constructor service
    visitAll costs context.descend (costs.share .constructor) parameters
  | .enumerable service _ elements => do
    context.visiting .enumerable service
    visitAll costs context.descend (costs.share .enumerable) elements

def visitAll [Monad m] (costs : CostTable) (context : Context m) (found : Analysis) : List (Plan V) → m Analysis
  | [] => return found
  | p :: rest => do
    let more ← p.visit costs context
    visitAll costs context (found + more) rest
end

-- `elapsed` is what the clock says of the walk.
def analyzeObserved [Monad m] (costs : CostTable) (observer : Observer m) (elapsed : Duration) (p : Plan V) :
    m Analysis := do
  let result ← p.visit costs (.observed observer)
  observer.analyzed p.service result elapsed
  return result

end Plan

inductive Event where
  | visiting (kind : Kind) (service : Key) (depth : Nat)
  | analyzed (root : Key) (result : Analysis)
  deriving DecidableEq

-- The newest event comes first.
abbrev Record := StateM (List Event)

namespace Observer

def recorder : Observer Record where
  visiting kind service depth := modify (.visiting kind service depth :: ·)
  analyzed root result _ := modify (.analyzed root result :: ·)

end Observer

namespace Record

def run (walk : Record α) : α × List Event :=
  let (result, events) := StateT.run walk []
  (result, events.reverse)

end Record

inductive LogFault where
  | indentTooWide
  deriving DecidableEq

def LogFault.message : LogFault → String
  | .indentTooWide => "Formatting argument out of range"

-- Lines end in a line feed; the newest comes first.
abbrev Log := StateT (List String) (Except LogFault)

structure Logger where
  tag : String

namespace Logger

def standard : Logger := ⟨"[ferrous-callsite]"⟩

def widestIndent : Nat := 65535

-- Two columns a level; a width is a machine word, so that twice a depth wraps around.
def indent (depth : Nat) : Nat := depth * 2 % Size.limit

def visitLine (l : Logger) (kind : Kind) (service : Key) (depth : Nat) : Except LogFault String :=
  if widestIndent < indent depth then
    .error .indentTooWide
  else
    .ok (l.tag ++ " " ++ String.ofList (List.replicate (indent depth) ' ') ++ kind.name ++ " "
      ++ service.shortName ++ "\n")

def resultLead (l : Logger) (root : Key) (result : Analysis) : String :=
  l.tag ++ " Analyzed " ++ root.shortName ++ ": size="
    ++ String.ofList (decimal result.estimatedSize.toNat) ++ " scope_lock="
    ++ (if result.requiresScopeLock then "true" else "false") ++ " in "

def resultLine (l : Logger) (root : Key) (result : Analysis) (elapsed : Duration) : String :=
  l.resultLead root result ++ elapsed.text ++ "\n"

def observer (l : Logger) : Observer Log where
  visiting kind service depth := do
    let line ← l.visitLine kind service depth
    modify (line :: ·)
  analyzed root result elapsed := modify (l.resultLine root result elapsed :: ·)

end Logger

namespace Log

def run (walk : Log α) : Except LogFault (α × List String) := do
  let (result, lines) ← StateT.run walk []
  return (result, lines.reverse)

end Log

inductive Program (α : Type) where
  | finished (result : α)
  | report (event : Event) (next : Program α)

namespace Program

def bind : Program α → (α → Program β) → Program β
  | .finished result, rest => rest result
  | .report event next, rest => .report event (next.bind rest)

instance : Monad Program where
  pure := .finished
  bind := bind

def reporter : Observer Program where
  visiting kind service depth := .report (.visiting kind service depth) (.finished ())
  analyzed root result _ := .report (.analyzed root result) (.finished ())

def events : Program α → List Event
  | .finished _ => []
  | .report event next => event :: next.events

def outcome : Program α → α
  | .finished result => result
  | .report _ next => next.outcome

def result? : Program α → Option α
  | .finished result => some result
  | .report _ _ => none

end Program

-- Programs that share a recorder, which notes whose event it is. The newest event comes first.
structure Session (α : Type) where
  programs : List (Program α)
  recorded : List (Nat × Event)

namespace Session

def start (programs : List (Program α)) : Session α := ⟨programs, []⟩

-- The chosen program goes on to its next report. A program that has finished, or is not there, does nothing.
def step (s : Session α) (chosen : Nat) : Session α :=
  match s.programs[chosen]? with
  | some (.report event next) => ⟨s.programs.set chosen next, (chosen, event) :: s.recorded⟩
  | _ => s

def run (s : Session α) (schedule : List Nat) : Session α :=
  schedule.foldl step s

def inTurn (s : Session α) : List Nat :=
  let rounds := (s.programs.map fun p => p.events.length).foldl max 0
  (List.replicate rounds (List.range s.programs.length)).flatten

def results? (s : Session α) : Option (List α) :=
  s.programs.mapM Program.result?

end Session

def Session.ofAnalyses (plans : List (CostTable × Plan V)) : Session Analysis :=
  .start (plans.map fun (costs, p) => p.analyzeObserved costs Program.reporter .zero)

end ResolutionPlan
