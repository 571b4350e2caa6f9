import ResolutionPlan.Proofs.Analysis.Totals
import ResolutionPlan.Proofs.Text.ShortName

namespace ResolutionPlan

open Text

variable {V : Type}

-- One report of a walk, before an observer makes something of it.
structure Visit where
  kind : Kind
  service : Key
  depth : Nat
  deriving DecidableEq

namespace Visit

def event (v : Visit) : Event :=
  .visiting v.kind v.service v.depth

def ofLevel (level : Nat × Plan V) : Visit :=
  ⟨level.2.kind, level.2.service, level.1⟩

end Visit

namespace Plan

-- The distance of a node from the root is the length of its place.
def visits (p : Plan V) : List Visit :=
  p.places.filterMap fun place =>
    (p.at? place).map fun node => { kind := node.kind, service := node.service, depth := place.length }

def events (costs : CostTable) (p : Plan V) : List Event :=
  p.visits.map Visit.event ++ [.analyzed p.service (p.analyze costs)]

theorem visits_levels (p : Plan V) : p.visits = (p.levelsFrom 0).map Visit.ofLevel := by
  rw [levels_places.1, List.map_filterMap, visits]
  congr
  funext place
  simp [levelAt?, Visit.ofLevel, Function.comp_def]

theorem length_visits (p : Plan V) : p.visits.length = p.nodeCount := by
  rw [visits_levels, List.length_map, length_levelsFrom]

theorem length_events (costs : CostTable) (p : Plan V) : (p.events costs).length = p.nodeCount + 1 := by
  rw [events, List.length_append, List.length_map, length_visits]
  rfl

theorem max_visit_depth (p : Plan V) : (p.visits.map (·.depth + 1)).max? = some p.depth := by
  rw [visits_levels, List.map_map, List.max?_eq_some_iff]
  constructor
  · obtain ⟨level, member, deepest⟩ := levels_reach.1 p 0
    exact List.mem_map.mpr ⟨level, member, deepest.trans (Nat.zero_add _)⟩
  · intro reported among
    obtain ⟨level, member, rfl⟩ := List.mem_map.mp among
    have bound := levels_within.1 p 0 level member
    rw [Nat.zero_add] at bound
    exact bound

end Plan

def announce [Pure m] (observer : Option (Observer m)) (v : Visit) : m Unit :=
  Context.visiting ⟨observer, v.depth⟩ v.kind v.service

-- An observer as a listener to events; the clock is read once, at the end.
def Observer.hear (observer : Observer m) (elapsed : Duration) : Event → m Unit
  | .visiting kind service depth => observer.visiting kind service depth
  | .analyzed root result => observer.analyzed root result elapsed

namespace Plan

section walk

variable {m : Type → Type} [Monad m] [LawfulMonad m]

theorem visit_eq (costs : CostTable) (context : Context m) (p : Plan V) :
    p.visit costs context =
      (do
        context.visiting p.kind p.service
        visitAll costs context.descend (costs.share p.kind) p.children) := by
  cases p <;> simp [visit, visitAll, kind, service, children]

-- A walk is its announcements in order, and then the silent result; listening changes neither.
theorem visit_announces (costs : CostTable) (observer : Option (Observer m)) :
    (∀ (p : Plan V) depth, visit costs ⟨observer, depth⟩ p = do
      ((levelsFrom depth p).map Visit.ofLevel).forM (announce observer)
      return p.analyze costs) ∧
    (∀ (ps : List (Plan V)) depth found, visitAll costs ⟨observer, depth⟩ found ps = do
      ((levelsAll depth ps).map Visit.ofLevel).forM (announce observer)
      return analyzeAll costs found ps) := by
  refine forest_induction ?node ?nil ?cons
  case node =>
    intro p below depth
    rw [visit_eq, levelsFrom_eq, analyze_eq, Context.descend, below]
    simp [announce, Visit.ofLevel]
  case nil =>
    intro depth found
    simp [visitAll, levelsAll, analyzeAll]
  case cons =>
    intro p others first remaining depth found
    rw [visitAll, first, levelsAll, analyzeAll]
    simp [remaining]

theorem visit_root (costs : CostTable) (p : Plan V) : p.visit costs (.root : Context m) = pure (p.analyze costs) := by
  have quiet (visits : List Visit) : visits.forM (announce none) = (pure () : m Unit) := by
    induction visits with
    | nil => rfl
    | cons first rest ih =>
      rw [List.forM_eq_forM] at ih ⊢
      simp [ih, announce, Context.visiting]
  rw [Context.root, (visit_announces costs none).1, quiet, pure_bind]

theorem analyzeObserved_hear (costs : CostTable) (observer : Observer m) (elapsed : Duration) (p : Plan V) :
    p.analyzeObserved costs observer elapsed =
      (do
        (p.events costs).forM (observer.hear elapsed)
        return p.analyze costs) := by
  have told : announce (some observer) = fun v => observer.hear elapsed v.event := rfl
  rw [analyzeObserved, Context.observed, (visit_announces costs (some observer)).1, events, visits_levels, told]
  simp [Observer.hear]

end walk

end Plan

-- An observer with a state of its own makes one update for each event, in the order of the events.
theorem Observer.forM_hear {σ : Type} (observer : Observer (StateM σ)) (elapsed : Duration) (events : List Event)
    (s : σ) : StateT.run (events.forM (observer.hear elapsed)) s =
      ((), events.foldl (fun s event => (StateT.run (observer.hear elapsed event) s).2) s) := by
  induction events generalizing s with
  | nil => rfl
  | cons event rest ih => exact ih (StateT.run (observer.hear elapsed event) s).2

namespace Plan

theorem analyzeObserved_run {σ : Type} (costs : CostTable) (observer : Observer (StateM σ)) (elapsed : Duration)
    (p : Plan V) (s : σ) : StateT.run (p.analyzeObserved costs observer elapsed) s =
      (p.analyze costs,
        (p.events costs).foldl (fun s event => (StateT.run (observer.hear elapsed event) s).2) s) := by
  have heard := observer.forM_hear elapsed (p.events costs) s
  rw [analyzeObserved_hear, StateT.run_bind, heard]
  rfl

theorem recorded_events (costs : CostTable) (elapsed : Duration) (p : Plan V) :
    Record.run (p.analyzeObserved costs .recorder elapsed) = (p.analyze costs, p.events costs) := by
  have noted (event : Event) (earlier : List Event) :
      (StateT.run (Observer.hear .recorder elapsed event) earlier).2 = event :: earlier := by
    cases event <;> rfl
  have newestFirst (events earlier : List Event) :
      events.foldl (fun s event => (StateT.run (Observer.hear .recorder elapsed event) s).2) earlier =
        events.reverse ++ earlier := by
    induction events generalizing earlier with
    | nil => rfl
    | cons event rest ih =>
      rw [List.foldl_cons, ih, noted, List.reverse_cons, List.append_assoc]
      rfl
  simp [Record.run, analyzeObserved_run, newestFirst]

-- The silent walk is the analysis. Whatever an observer does with its state, it is told of every place once, in
-- increasing order of places, which puts a node before its children and children in declaration order; the
-- result comes last.
theorem observed_trace {σ : Type} (costs : CostTable) (observer : Observer (StateM σ)) (elapsed : Duration)
    (p : Plan V) (s : σ) :
    p.visit costs (.root : Context (StateM σ)) = pure (p.analyze costs) ∧
    StateT.run (p.analyzeObserved costs observer elapsed) s =
      (p.analyze costs,
        (p.events costs).foldl (fun s event => (StateT.run (observer.hear elapsed event) s).2) s) ∧
    Record.run (p.analyzeObserved costs .recorder elapsed) = (p.analyze costs, p.events costs) ∧
    (p.places.Pairwise (· < ·) ∧ ∀ place, place ∈ p.places ↔ ∃ node, p.at? place = some node) ∧
    (p.events costs).length = p.nodeCount + 1 ∧
    (p.visits.map (·.depth + 1)).max? = some p.depth := by
  refine ⟨visit_root costs p, analyzeObserved_run costs observer elapsed p s, recorded_events costs elapsed p,
    ⟨places_increasing.1 p, fun place => mem_places_exact⟩, ?_, max_visit_depth p⟩
  rw [events, List.length_append, List.length_map, length_visits]
  rfl

end Plan

def Event.visit? : Event → Option Visit
  | .visiting kind service depth => some ⟨kind, service, depth⟩
  | .analyzed _ _ => none

def Visit.level (v : Visit) : Nat × (Kind × Key) :=
  (v.depth, v.kind, v.service)

theorem Visit.level_injective {v w : Visit} (same : v.level = w.level) : v = w := by
  cases v
  cases w
  cases same
  rfl

def Outline.ofVisits? (visits : List Visit) : Option (Outline (Kind × Key)) :=
  ofLevels? (visits.map Visit.level)

namespace Plan

def heading (p : Plan V) : Kind × Key :=
  (p.kind, p.service)

def reported (costs : CostTable) (elapsed : Duration) (p : Plan V) : List Visit :=
  (Record.run (p.analyzeObserved costs .recorder elapsed)).2.filterMap Event.visit?

theorem reported_visits (costs : CostTable) (elapsed : Duration) (p : Plan V) :
    p.reported costs elapsed = p.visits := by
  have told : Event.visit? ∘ Visit.event = some := rfl
  rw [reported, recorded_events, events, List.filterMap_append, List.filterMap_map, told, List.filterMap_some]
  exact List.append_nil _

theorem visits_marked (p : Plan V) : p.visits.map Visit.level = Outline.marked heading p.levels := by
  rw [visits_levels, List.map_map]
  rfl

-- Cost tables and clocks leave no trace, and no two trees share one; reading the trace gives the tree back.
theorem trace_determines (costs costs' : CostTable) (elapsed elapsed' : Duration) (p q : Plan V) :
    (p.reported costs elapsed = q.reported costs' elapsed' ↔ p.outline heading = q.outline heading) ∧
    Outline.ofVisits? (p.reported costs elapsed) = some (p.outline heading) := by
  simp only [reported_visits]
  constructor
  · rw [← Outline.marked_exact, ← visits_marked, ← visits_marked]
    exact (List.map_inj_right fun _ _ => Visit.level_injective).symm
  · rw [Outline.ofVisits?, visits_marked, Outline.ofLevels?_levels]

-- Between the root and the deepest node no distance is left out.
theorem levels_every :
    (∀ (p : Plan V) depth d, depth ≤ d → d < depth + p.depth → ∃ level ∈ levelsFrom depth p, level.1 = d) ∧
    (∀ (ps : List (Plan V)) depth d, depth ≤ d → d < depth + depthAll ps → ∃ level ∈ levelsAll depth ps, level.1 = d) := by
  refine forest_induction ?node ?nil ?cons
  case node =>
    intro p below depth d least most
    rw [depth_eq] at most
    rw [levelsFrom_eq]
    rcases Nat.eq_or_lt_of_le least with rfl | deeper
    · exact ⟨(depth, p), List.mem_cons_self, rfl⟩
    · obtain ⟨level, member, same⟩ := below (depth + 1) d deeper (by omega)
      exact ⟨level, List.mem_cons_of_mem _ member, same⟩
  case nil =>
    intro depth d least most
    exact absurd most (Nat.not_lt.mpr least)
  case cons =>
    intro p others first remaining depth d least most
    rw [depthAll] at most
    rw [levelsAll]
    by_cases reached : d < depth + p.depth
    · obtain ⟨level, member, same⟩ := first depth d least reached
      exact ⟨level, List.mem_append_left _ member, same⟩
    · obtain ⟨level, member, same⟩ := remaining depth d least (by omega)
      exact ⟨level, List.mem_append_right _ member, same⟩

end Plan

namespace Logger

-- The depth of the deepest plans that can be logged.
def deepest : Nat := 32768

def line (l : Logger) (v : Visit) : String :=
  l.tag ++ " " ++ String.ofList (List.replicate (2 * v.depth) ' ') ++ v.kind.name ++ " " ++ v.service.shortName ++ "\n"

theorem visitLine_line (l : Logger) {v : Visit} (fits : v.depth < deepest) :
    l.visitLine v.kind v.service v.depth = .ok (l.line v) := by
  have width : indent v.depth = 2 * v.depth := by
    unfold deepest at fits
    unfold indent Size.limit
    omega
  have narrow : ¬ widestIndent < 2 * v.depth := by
    unfold deepest at fits
    unfold widestIndent
    omega
  rw [visitLine, width, if_neg narrow]
  rfl

theorem visitLine_deepest (l : Logger) (kind : Kind) (service : Key) :
    l.visitLine kind service deepest = .error .indentTooWide :=
  if_pos (by decide)

def lines (l : Logger) (costs : CostTable) (elapsed : Duration) (p : Plan V) : List String :=
  p.visits.map l.line ++ [l.resultLine p.service (p.analyze costs) elapsed]

theorem hear_visits (l : Logger) (elapsed : Duration) {visits : List Visit} (fit : ∀ v ∈ visits, v.depth < deepest)
    (earlier : List String) :
    StateT.run ((visits.map Visit.event).forM (l.observer.hear elapsed)) earlier =
      .ok ((), (visits.map l.line).reverse ++ earlier) := by
  induction visits generalizing earlier with
  | nil => rfl
  | cons v rest ih =>
    have here := l.visitLine_line (fit v List.mem_cons_self)
    have later := ih (fun w member => fit w (List.mem_cons_of_mem v member)) (l.line v :: earlier)
    have told : StateT.run (l.observer.hear elapsed v.event) earlier = .ok ((), l.line v :: earlier) := by
      change StateT.run (do
        let line ← l.visitLine v.kind v.service v.depth
        modify (line :: ·) : Log Unit) earlier = _
      rw [here]
      rfl
    rw [List.forM_eq_forM] at later
    rw [List.map_cons, List.forM_eq_forM, List.forM_cons, StateT.run_bind, told]
    change StateT.run (forM (rest.map Visit.event) (l.observer.hear elapsed)) (l.line v :: earlier) = _
    rw [later, List.map_cons, List.reverse_cons, List.append_assoc]
    rfl

end Logger

namespace Log

-- There is one fault, so it does not matter which node raises it first.
theorem forM_fails {f : α → Log Unit} {as : List α} {a : α} (member : a ∈ as)
    (fails : ∀ earlier, StateT.run (f a) earlier = .error .indentTooWide) (earlier : List String) :
    StateT.run (as.forM f) earlier = .error .indentTooWide := by
  induction as generalizing earlier with
  | nil => cases member
  | cons b rest ih =>
    rw [List.forM_eq_forM] at ih ⊢
    rw [List.forM_cons, StateT.run_bind]
    cases told : StateT.run (f b) earlier with
    | error fault =>
      cases fault
      rfl
    | ok found =>
      rcases List.mem_cons.mp member with rfl | inRest
      · rw [fails] at told
        cases told
      · exact ih inRest found.2

end Log

namespace Plan

theorem log_shallow (l : Logger) (costs : CostTable) (elapsed : Duration) {p : Plan V}
    (shallow : p.depth ≤ Logger.deepest) :
    Log.run (p.analyzeObserved costs l.observer elapsed) = .ok (p.analyze costs, l.lines costs elapsed p) := by
  have fit : ∀ v ∈ p.visits, v.depth < Logger.deepest := by
    intro v member
    rw [visits_levels] at member
    obtain ⟨level, listed, rfl⟩ := List.mem_map.mp member
    have within := levels_within.1 p 0 level listed
    rw [Nat.zero_add] at within
    exact Nat.lt_of_lt_of_le within shallow
  have told := l.hear_visits elapsed fit []
  rw [List.forM_eq_forM, List.append_nil] at told
  rw [analyzeObserved_hear, events, List.forM_eq_forM, List.forM_append, Log.run, StateT.run_bind, StateT.run_bind,
    told]
  change Except.ok (p.analyze costs, (l.resultLine p.service (p.analyze costs) elapsed ::
    (p.visits.map l.line).reverse).reverse) = _
  rw [List.reverse_cons, List.reverse_reverse, Logger.lines]

theorem log_deep (l : Logger) (costs : CostTable) (elapsed : Duration) {p : Plan V}
    (deep : Logger.deepest < p.depth) :
    Log.run (p.analyzeObserved costs l.observer elapsed) = .error .indentTooWide := by
  obtain ⟨level, listed, reached⟩ := levels_every.1 p 0 Logger.deepest (Nat.zero_le _) (by omega)
  have member : (Visit.ofLevel level).event ∈ p.events costs := by
    rw [events, visits_levels]
    exact List.mem_append_left _ (List.mem_map_of_mem (List.mem_map_of_mem listed))
  have fails (earlier : List String) :
      StateT.run (l.observer.hear elapsed (Visit.ofLevel level).event) earlier = .error .indentTooWide := by
    change StateT.run (do
      let line ← l.visitLine level.2.kind level.2.service level.1
      modify (line :: ·) : Log Unit) earlier = _
    rw [reached, l.visitLine_deepest]
    rfl
  have told := Log.forM_fails member fails []
  rw [analyzeObserved_hear, Log.run, StateT.run_bind, told]
  rfl

theorem log_exact (l : Logger) (costs : CostTable) (elapsed : Duration) (p : Plan V) :
    Log.run (p.analyzeObserved costs l.observer elapsed) =
      if p.depth ≤ Logger.deepest then .ok (p.analyze costs, l.lines costs elapsed p) else .error .indentTooWide := by
  split
  · next shallow => exact log_shallow l costs elapsed shallow
  · next deep => exact log_deep l costs elapsed (Nat.lt_of_not_le deep)

-- A leaf in so many wrappers, each of which keeps nothing.
def nested : Nat → Plan Value
  | 0 => .leaf (.serviceProvider (.ofInterface "a"))
  | n + 1 => .cached .transient (.ofInterface "a") (nested n)

theorem depth_nested (n : Nat) : (nested n).depth = n + 1 := by
  induction n with
  | zero => rfl
  | succ n ih => rw [nested, depth, ih, Nat.add_comm]

-- The silent analysis is defined for every plan; the logged one is not for this.
theorem log_nested :
    Log.run ((nested 32768).analyzeObserved .stock Logger.standard.observer .zero) = .error .indentTooWide := by
  have deep : Logger.deepest < (nested 32768).depth := by
    rw [depth_nested]
    decide
  exact log_deep Logger.standard .stock .zero deep

end Plan

namespace Logger

-- The line of a node at a level, by what it shows of the node.
def lineAt (l : Logger) (entry : Nat × (Kind × String)) : List Char :=
  l.tag.toList ++ ' ' :: (List.replicate (2 * entry.1) ' ' ++ (entry.2.1.name.toList ++ ' ' :: (entry.2.2.toList ++ ['\n'])))

theorem lineAt_cut (l : Logger) {a b : Nat × (Kind × String)} {rest rest' : List Char} (without : '\n' ∉ a.2.2.toList)
    (without' : '\n' ∉ b.2.2.toList) (same : l.lineAt a ++ rest = l.lineAt b ++ rest') : a = b ∧ rest = rest' := by
  obtain ⟨level, kind, name⟩ := a
  obtain ⟨level', kind', name'⟩ := b
  simp only [lineAt, List.append_assoc, List.cons_append, List.nil_append] at same
  have blank (n : Nat) : ∀ c ∈ List.replicate n ' ', (c == ' ') = true := by simp
  have word (k : Kind) (rest : List Char) : Outside (· == ' ') (k.name.toList ++ rest) := by
    cases k <;> exact outside_append rfl rest
  obtain ⟨blanks, same⟩ := class_cut (blank (2 * level)) (blank (2 * level')) (word kind _) (word kind' _)
    (List.cons.inj (List.append_cancel_left same)).2
  obtain ⟨kinds, same⟩ := Kind.name_cut (outside_cons rfl) (outside_cons rfl) same
  obtain ⟨names, rests⟩ := first_cut without without' (List.cons.inj same).2
  have levels : level = level' := by simpa using congrArg List.length blanks
  have texts : name = name' := String.toList_injective names
  rw [levels, kinds, texts]
  exact ⟨rfl, rests⟩

-- The word in the place of the kind is not indented, and no kind begins like it.
theorem lineAt_ne_lead (l : Logger) (entry : Nat × (Kind × String)) (rest : List Char) (root : Key) (result : Analysis) :
    l.lineAt entry ++ rest ≠ (l.resultLead root result).toList := by
  intro same
  obtain ⟨level, kind, name⟩ := entry
  have word : " Analyzed ".toList = ' ' :: 'A' :: "nalyzed ".toList := rfl
  simp only [lineAt, resultLead, String.toList_append, List.append_assoc, List.cons_append, word] at same
  have begun := congrArg List.head? (List.cons.inj (List.append_cancel_left same)).2
  cases level with
  | zero => cases kind <;> simp [Kind.name] at begun
  | succ level => simp [Nat.mul_succ, List.replicate_succ] at begun

end Logger

namespace Plan

def shortHeading (p : Plan V) : Kind × String :=
  (p.kind, p.service.shortName)

def NamesUnbroken (p : Plan V) : Prop :=
  ∀ node ∈ p.preorder, '\n' ∉ node.service.displayName.toList

def visitLines (l : Logger) (p : Plan V) : List String :=
  p.visits.map l.line

def resultLead (l : Logger) (costs : CostTable) (p : Plan V) : String :=
  l.resultLead p.service (p.analyze costs)

def logText (l : Logger) (costs : CostTable) (p : Plan V) : String :=
  String.join (p.visitLines l) ++ p.resultLead l costs

theorem visitLines_marked (l : Logger) (p : Plan V) :
    (p.visitLines l).map String.toList = (Outline.marked shortHeading p.levels).map l.lineAt := by
  rw [visitLines, visits_levels, Outline.marked, List.map_map, List.map_map, List.map_map]
  apply List.map_congr_left
  intro level _
  simp [Logger.line, Logger.lineAt, Visit.ofLevel, shortHeading]

theorem logText_marked (l : Logger) (costs : CostTable) (p : Plan V) :
    (p.logText l costs).toList =
      (Outline.marked shortHeading p.levels).flatMap l.lineAt ++ (p.resultLead l costs).toList := by
  rw [logText, String.toList_append, String.toList_join, List.flatMap_def, visitLines_marked, List.flatMap_def]

theorem NamesUnbroken.marked {p : Plan V} (unbroken : p.NamesUnbroken) :
    ∀ entry ∈ Outline.marked shortHeading p.levels, '\n' ∉ entry.2.2.toList := by
  intro entry member broken
  obtain ⟨level, among, rfl⟩ := List.mem_map.mp member
  have node : level.2 ∈ p.preorder := by
    rw [← levelsFrom_preorder 0]
    exact List.mem_map_of_mem among
  exact unbroken level.2 node (level.2.service.shortName_sublist.subset broken)

-- The lines of the nodes show the tree, as far as it can be seen where they end.
theorem lines_outline (l : Logger) {p q : Plan V} (unbroken : p.NamesUnbroken) (unbroken' : q.NamesUnbroken)
    {tail tail' : List Char} (ends : ∀ entry rest, l.lineAt entry ++ rest ≠ tail)
    (ends' : ∀ entry rest, l.lineAt entry ++ rest ≠ tail')
    (same : (Outline.marked shortHeading p.levels).flatMap l.lineAt ++ tail =
      (Outline.marked shortHeading q.levels).flatMap l.lineAt ++ tail') :
    p.outline shortHeading = q.outline shortHeading := by
  have entries := (flatMap_cut id
    (fun a among b among' _ _ => l.lineAt_cut (unbroken.marked a among) (unbroken'.marked b among'))
    (fun a _ => ends' a) (fun b _ => ends b) same).1
  rw [List.map_id, List.map_id] at entries
  exact (Outline.marked_exact shortHeading p q).mp entries

theorem outline_visitLines (l : Logger) {p q : Plan V} (same : p.outline shortHeading = q.outline shortHeading) :
    p.visitLines l = q.visitLines l := by
  apply (List.map_inj_right fun _ _ => String.toList_injective).mp
  rw [visitLines_marked, visitLines_marked, Outline.marked_outline same]

theorem outline_resultLead (l : Logger) (costs : CostTable) {p q : Plan V}
    (same : p.outline shortHeading = q.outline shortHeading) : p.resultLead l costs = q.resultLead l costs := by
  have results := analyze_outline costs (outline_coarser (fun _ _ heading => congrArg Prod.fst heading) same)
  rw [outline_eq, outline_eq] at same
  have roots : p.service.shortName = q.service.shortName := congrArg Prod.snd (Outline.node.inj same).1
  rw [resultLead, resultLead, results, Logger.resultLead, Logger.resultLead, roots]

-- Each run writes a line for every node and then the line of the result. What it writes up to the duration is the same
-- for two plans exactly if they are the same tree of kinds and short names.
theorem log_determines (l : Logger) (costs : CostTable) {p q : Plan V} (shallow : p.depth ≤ Logger.deepest)
    (shallow' : q.depth ≤ Logger.deepest) (unbroken : p.NamesUnbroken) (unbroken' : q.NamesUnbroken) :
    (∀ r ∈ [p, q], (r.visitLines l).length = r.nodeCount ∧ ∀ elapsed : Duration,
      Log.run (r.analyzeObserved costs l.observer elapsed) =
        .ok (r.analyze costs, r.visitLines l ++ [r.resultLead l costs ++ elapsed.text ++ "\n"])) ∧
    (p.visitLines l = q.visitLines l ↔ p.outline shortHeading = q.outline shortHeading) ∧
    (p.logText l costs = q.logText l costs ↔ p.outline shortHeading = q.outline shortHeading) := by
  refine ⟨?runs, ⟨?seen, outline_visitLines l⟩, ?read, ?written⟩
  case runs =>
    intro r member
    have fits : r.depth ≤ Logger.deepest := by
      rcases List.mem_cons.mp member with rfl | other
      · exact shallow
      · exact List.mem_singleton.mp other ▸ shallow'
    refine ⟨by rw [visitLines, List.length_map, length_visits], ?_⟩
    intro elapsed
    rw [log_shallow l costs elapsed fits]
    rfl
  case seen =>
    intro same
    have begun (entry : Nat × (Kind × String)) (rest : List Char) : l.lineAt entry ++ rest ≠ [] := by
      simp [Logger.lineAt]
    apply lines_outline l unbroken unbroken' begun begun
    rw [List.flatMap_def, List.flatMap_def, ← visitLines_marked, ← visitLines_marked, same]
  case read =>
    intro same
    have texts := congrArg String.toList same
    rw [logText_marked, logText_marked] at texts
    exact lines_outline l unbroken unbroken' (fun entry rest => l.lineAt_ne_lead entry rest _ _)
      (fun entry rest => l.lineAt_ne_lead entry rest _ _) texts
  case written =>
    intro same
    rw [logText, logText, outline_visitLines l same, outline_resultLead l costs same]

-- One list of kinds and names in two trees, with a name that looks like a line.
theorem log_determines_nesting :
    let leaf : Plan Value := .leaf (.serviceProvider (.ofInterface "Scoped a"))
    let several (elements : List (Plan Value)) : Plan Value := .enumerable (.ofInterface "b") (.ofInterface "b") elements
    let p := several [several [leaf], leaf]
    let q := several [several [leaf, leaf]]
    p.depth ≤ Logger.deepest ∧ q.depth ≤ Logger.deepest ∧ p.NamesUnbroken ∧ q.NamesUnbroken ∧
    p.preorder.map shortHeading = q.preorder.map shortHeading ∧
    p.logText .standard .stock ≠ q.logText .standard .stock := by
  intro leaf several p q
  have unbroken : p.NamesUnbroken ∧ q.NamesUnbroken := by
    simp [NamesUnbroken, p, q, several, leaf, preorder, preorderOnto, preorderAllOnto, service, Leaf.service, Key.ofInterface]
  have shallow : p.depth ≤ Logger.deepest := by decide
  have shallow' : q.depth ≤ Logger.deepest := by decide
  refine ⟨shallow, shallow', unbroken.1, unbroken.2, rfl, ?_⟩
  intro same
  have trees := (log_determines .standard .stock shallow shallow' unbroken.1 unbroken.2).2.2.mp same
  simp [p, q, several, outline, outlineAll] at trees

end Plan

end ResolutionPlan
