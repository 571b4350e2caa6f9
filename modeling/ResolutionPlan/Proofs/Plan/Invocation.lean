import Mathlib.Data.List.Induction
import Mathlib.Data.List.Nodup
import ResolutionPlan.Graph.Export
import ResolutionPlan.Proofs.Graph.Lossless
import ResolutionPlan.Usage

namespace ResolutionPlan

variable {V : Type}

-- A constant under the same key with any value, a factory under the same key with any function.
inductive Leaf.SameButHeld : Leaf V → Leaf V → Prop where
  | constant (service : Key) (value value' : V) : SameButHeld (.constant service value) (.constant service value')
  | factory (service : Key) (maker maker' : Factory V) : SameButHeld (.factory service maker) (.factory service maker')
  | same (site : Leaf V) : SameButHeld site site

namespace Plan

mutual
inductive SameButHeld : Plan V → Plan V → Prop where
  | leaf {site site' : Leaf V} (same : site.SameButHeld site') : SameButHeld (.leaf site) (.leaf site')
  | cached {inner inner' : Plan V} (lifetime : Lifetime) (service : Key) (inside : SameButHeld inner inner') :
      SameButHeld (.cached lifetime service inner) (.cached lifetime service inner')
  | constructor {parameters parameters' : List (Plan V)} (service : Key) (implementation : String)
      (each : SameButHeldAll parameters parameters') :
      SameButHeld (.constructor service implementation parameters) (.constructor service implementation parameters')
  | enumerable {elements elements' : List (Plan V)} (service item : Key) (each : SameButHeldAll elements elements') :
      SameButHeld (.enumerable service item elements) (.enumerable service item elements')

inductive SameButHeldAll : List (Plan V) → List (Plan V) → Prop where
  | nil : SameButHeldAll [] []
  | cons {p q : Plan V} {ps qs : List (Plan V)} (first : SameButHeld p q) (others : SameButHeldAll ps qs) :
      SameButHeldAll (p :: ps) (q :: qs)
end

structure Face where
  kind : Kind
  service : Key
  implementation : Option String
  item : Option Key

def face (p : Plan V) : Face :=
  ⟨p.kind, p.service, p.implementation?, p.item?⟩

def Face.signature (f : Face) : Signature :=
  ⟨f.kind, f.service.displayName, f.service.registration, f.implementation⟩

theorem sameButHeld_node {p q : Plan V} (same : p.SameButHeld q) :
    p.face = q.face ∧ SameButHeldAll p.children q.children := by
  cases same with
  | leaf same => cases same <;> exact ⟨rfl, .nil⟩
  | cached _ _ inside => exact ⟨rfl, .cons inside .nil⟩
  | constructor _ _ each => exact ⟨rfl, each⟩
  | enumerable _ _ each => exact ⟨rfl, each⟩

theorem sameButHeld_outline :
    (∀ p q : Plan V, SameButHeld p q → p.outline face = q.outline face) ∧
    (∀ ps qs : List (Plan V), SameButHeldAll ps qs → outlineAll face ps = outlineAll face qs) := by
  refine forest_induction ?node ?nil ?cons
  case node =>
    intro p below q same
    obtain ⟨faces, each⟩ := sameButHeld_node same
    rw [outline_eq, outline_eq, faces, below q.children each]
  case nil =>
    intro qs same
    cases same
    rfl
  case cons =>
    intro p others first remaining qs same
    cases same with
    | cons head tail => rw [outlineAll, outlineAll, first _ head, remaining _ tail]

theorem sameButHeld_analyze (costs : CostTable) {p q : Plan V} (same : p.SameButHeld q) :
    p.analyze costs = q.analyze costs :=
  analyze_outline costs (outline_coarser (fun _ _ faces => congrArg Face.kind faces) (sameButHeld_outline.1 p q same))

theorem sameButHeld_graph (costs : CostTable) (exportedAt : String) {p q : Plan V} (same : p.SameButHeld q) :
    p.graph costs exportedAt = q.graph costs exportedAt := by
  have signatures : p.outline signature = q.outline signature :=
    outline_coarser (fun _ _ faces => congrArg Face.signature faces) (sameButHeld_outline.1 p q same)
  exact Graph.graph_of_outline costs exportedAt signatures

theorem sameButHeld_describe :
    (∀ p q : Plan V, SameButHeld p q → p.describe = q.describe) ∧
    (∀ ps qs : List (Plan V), SameButHeldAll ps qs → describeAll ps = describeAll qs) := by
  refine forest_induction ?node ?nil ?cons
  case node =>
    intro p below q same
    cases same with
    | leaf same => cases same <;> rfl
    | @cached inner inner' _ _ inside =>
      have alone : [inner.describe] = [inner'.describe] := below [inner'] (.cons inside .nil)
      rw [describe_cached, describe_cached, List.head_eq_of_cons_eq alone]
    | @constructor parameters parameters' _ _ each =>
      have told : describeAll parameters = describeAll parameters' := below parameters' each
      rw [describe_constructor, describe_constructor, told]
    | @enumerable elements elements' _ _ each =>
      have told : describeAll elements = describeAll elements' := below elements' each
      rw [describe_enumerable, describe_enumerable, told]
  case nil =>
    intro qs same
    cases same
    rfl
  case cons =>
    intro p others first remaining qs same
    cases same with
    | cons head tail => rw [describeAll_cons, describeAll_cons, first _ head, remaining _ tail]

end Plan

-- The lines of a logged analysis up to the duration, which only the last of them tells.
def Logger.untimed (l : Logger) (costs : CostTable) (p : Plan V) : Except LogFault (List String × String) :=
  if p.depth ≤ deepest then .ok (p.visits.map l.line, l.resultLead p.service (p.analyze costs))
  else .error .indentTooWide

namespace Plan

theorem log_untimed (l : Logger) (costs : CostTable) (elapsed : Duration) (p : Plan V) :
    Log.run (p.analyzeObserved costs l.observer elapsed) = (l.untimed costs p).map fun (lines, lead) =>
      (p.analyze costs, lines ++ [lead ++ elapsed.text ++ "\n"]) := by
  unfold Logger.untimed
  split
  · next shallow => exact log_shallow l costs elapsed shallow
  · next deep => exact log_deep l costs elapsed (Nat.lt_of_not_le deep)

theorem visits_outline {p q : Plan V} (same : p.outline face = q.outline face) : p.visits = q.visits := by
  have told (p : Plan V) : p.visits = (Outline.marked face p.levels).map fun (depth, face) =>
      ⟨face.kind, face.service, depth⟩ := by
    rw [visits_levels, Outline.marked, List.map_map]
    rfl
  rw [told, told, Outline.marked_outline same]

-- Whatever a plan is asked: its analysis, what an observer is told, its measures, its graph in every format, its log
-- and its descriptions are the same for every choice of held values.
theorem held_values_unseen {p q : Plan V} (same : p.SameButHeld q) (costs : CostTable) (exportedAt : String)
    (l : Logger) :
    p.analyze costs = q.analyze costs ∧
    (∀ elapsed elapsed', Record.run (p.analyzeObserved costs .recorder elapsed) =
      Record.run (q.analyzeObserved costs .recorder elapsed')) ∧
    (p.nodeCount = q.nodeCount ∧ p.depth = q.depth) ∧
    p.graph costs exportedAt = q.graph costs exportedAt ∧
    (∀ detail format, (p.graph costs exportedAt).render detail format =
      (q.graph costs exportedAt).render detail format) ∧
    (∃ told : Except LogFault (List String × String), ∀ elapsed,
      Log.run (p.analyzeObserved costs l.observer elapsed) = told.map (fun (lines, lead) =>
        (p.analyze costs, lines ++ [lead ++ elapsed.text ++ "\n"])) ∧
      Log.run (q.analyzeObserved costs l.observer elapsed) = told.map fun (lines, lead) =>
        (q.analyze costs, lines ++ [lead ++ elapsed.text ++ "\n"])) ∧
    p.describe.inline = q.describe.inline ∧ p.describe.indented = q.describe.indented := by
  have faces := sameButHeld_outline.1 p q same
  have root : p.service = q.service := congrArg Face.service (sameButHeld_node same).1
  have results := sameButHeld_analyze costs same
  have visits := visits_outline faces
  have depths := outline_depth faces
  have graphs := sameButHeld_graph costs exportedAt same
  have descriptions := sameButHeld_describe.1 p q same
  refine ⟨results, ?_, ⟨outline_nodeCount faces, depths⟩, graphs, ?_, ?_, ?_⟩
  · intro elapsed elapsed'
    rw [recorded_events, recorded_events, events, events, results, visits, root]
  · intro detail format
    rw [graphs]
  · have untimed : l.untimed costs p = l.untimed costs q := by
      rw [Logger.untimed, Logger.untimed, depths, visits, root, results]
    refine ⟨l.untimed costs p, fun elapsed => ⟨log_untimed l costs elapsed p, ?_⟩⟩
    rw [untimed]
    exact log_untimed l costs elapsed q
  · rw [descriptions]
    exact ⟨rfl, rfl⟩

-- A password below two wrappers, beside a factory.
theorem held_values_unseen_password :
    let plan (password : String) (maker : Factory Value) : Plan Value := .enumerable (.ofInterface "a::A") (.ofInterface "a::B")
      [.cached .scoped (.ofInterface "b::B")
          (.cached .transient (.ofInterface "c::C") (constantValue (.text password))),
        .leaf (.factory (.ofInterface "f::F") maker)]
    let p := plan "hunter2" ⟨0, fun _ => .unit⟩
    let q := plan "" ⟨7, fun _ => .flag true⟩
    p ≠ q ∧ p.graph .stock "" = q.graph .stock "" ∧ p.describe.indented = q.describe.indented := by
  intro plan p q
  have differ : p ≠ q := by
    intro same
    simp [p, q, plan, constantValue] at same
  have same : p.SameButHeld q :=
    .enumerable _ _ (.cons (.cached _ _ (.cached _ _ (.leaf (.constant _ _ _))))
      (.cons (.leaf (.factory _ _ _)) .nil))
  obtain ⟨_, _, _, graphs, _, _, _, descriptions⟩ := held_values_unseen same .stock "" .standard
  exact ⟨differ, graphs, descriptions⟩

def makers (p : Plan V) : List (List Nat × Factory V) :=
  p.places.filterMap fun place => ((p.at? place).bind maker?).map (place, ·)

-- What a node gives when it is accessed, if factories have been called so often.
def held? (calls : Nat → Nat) : Plan V → Option V
  | .leaf (.factory _ maker) => some (maker.make (calls maker.id))
  | .leaf (.constant _ value) => some value
  | _ => none

theorem maker?_exact {p : Plan V} {maker : Factory V} :
    p.maker? = some maker ↔ ∃ service, p = .leaf (.factory service maker) := by
  constructor
  · intro found
    unfold maker? at found
    split at found
    · cases found
      exact ⟨_, rfl⟩
    · cases found
  · intro known
    obtain ⟨service, rfl⟩ := known
    rfl

theorem mem_makers {p : Plan V} {place : List Nat} {maker : Factory V} :
    (place, maker) ∈ p.makers ↔ (p.at? place).bind maker? = some maker := by
  rw [makers, List.mem_filterMap]
  constructor
  · intro listed
    obtain ⟨_, _, found⟩ := listed
    obtain ⟨_, found, same⟩ := Option.map_eq_some_iff.mp found
    cases same
    exact found
  · intro found
    obtain ⟨node, reached, _⟩ := Option.bind_eq_some_iff.mp found
    exact ⟨place, mem_places_exact.mpr ⟨node, reached⟩, by rw [found, Option.map_some]⟩

theorem mem_makers_exact {p : Plan V} {place : List Nat} {maker : Factory V} :
    (place, maker) ∈ p.makers ↔ ∃ service, p.at? place = some (.leaf (.factory service maker)) := by
  rw [mem_makers, Option.bind_eq_some_iff]
  simp only [maker?_exact]
  constructor
  · intro found
    obtain ⟨_, reached, service, rfl⟩ := found
    exact ⟨service, reached⟩
  · intro found
    obtain ⟨service, reached⟩ := found
    exact ⟨_, reached, service, rfl⟩

theorem makers_factories (p : Plan V) : p.makers.map (·.2) = p.factories := by
  rw [makers, factories, preorder_places, List.map_filterMap, List.filterMap_filterMap]
  simp [Function.comp_def]

theorem makers_increasing (p : Plan V) : (p.makers.map (·.1)).Pairwise (· < ·) := by
  rw [List.pairwise_map, makers, List.pairwise_filterMap]
  apply (places_increasing.1 p).imp
  intro place place' before entry found entry' found'
  obtain ⟨_, _, rfl⟩ := Option.map_eq_some_iff.mp found
  obtain ⟨_, _, rfl⟩ := Option.map_eq_some_iff.mp found'
  exact before

def identities (nodes : List (Plan V)) : List Nat :=
  (nodes.filterMap maker?).map (·.id)

theorem identities_append (nodes others : List (Plan V)) :
    identities (nodes ++ others) = identities nodes ++ identities others := by
  rw [identities, List.filterMap_append, List.map_append, identities, identities]

theorem distinguish_identities :
    (∀ (p : Plan V) next, ∃ q count, p.distinguishFrom next = (q, next + count) ∧
      identities q.preorder = List.range' next count) ∧
    (∀ (ps : List (Plan V)) next, ∃ qs count, distinguishAll next ps = (qs, next + count) ∧
      identities (preorderAll qs) = List.range' next count) := by
  refine forest_induction ?node ?nil ?cons
  case node =>
    intro p below next
    obtain ⟨qs, count, made, listed⟩ := below next
    cases p with
    | leaf site =>
      cases site with
      | factory service maker => exact ⟨.leaf (.factory service { maker with id := next }), 1, rfl, rfl⟩
      | _ => exact ⟨_, 0, rfl, rfl⟩
    | cached lifetime service inner =>
      simp only [children, distinguishAll] at made
      obtain ⟨rfl, last⟩ := Prod.mk.inj made
      refine ⟨.cached lifetime service (inner.distinguishFrom next).1, count, by simp only [distinguishFrom, last], ?_⟩
      rw [preorder_eq]
      exact listed
    | constructor service implementation parameters =>
      rw [children] at made
      refine ⟨.constructor service implementation qs, count, by rw [distinguishFrom, made], ?_⟩
      rw [preorder_eq]
      exact listed
    | enumerable service item elements =>
      rw [children] at made
      refine ⟨.enumerable service item qs, count, by rw [distinguishFrom, made], ?_⟩
      rw [preorder_eq]
      exact listed
  case nil =>
    intro next
    exact ⟨[], 0, rfl, rfl⟩
  case cons =>
    intro p others first remaining next
    obtain ⟨q, count, made, listed⟩ := first next
    obtain ⟨qs, further, made', listed'⟩ := remaining (next + count)
    refine ⟨q :: qs, count + further, ?_, ?_⟩
    · rw [distinguishAll, made]
      simp only [made', Nat.add_assoc]
    · rw [preorderAll_cons, identities_append, listed, listed', List.range'_append_1]

-- Every factory is one of its own; keys and values may be equal.
def Apart (p : Plan V) : Prop :=
  (p.factories.map (·.id)).Nodup

theorem distinguish_apart (p : Plan V) : p.distinguish.Apart := by
  obtain ⟨q, count, made, listed⟩ := distinguish_identities.1 p 0
  rw [Apart, factories, ← identities, distinguish, made, listed]
  exact List.nodup_range'

-- The identity of a factory tells the place of its node.
theorem Apart.entry {p : Plan V} (apart : p.Apart) {entry entry' : List Nat × Factory V} (member : entry ∈ p.makers)
    (member' : entry' ∈ p.makers) (same : entry.2.id = entry'.2.id) : entry = entry' := by
  rw [Apart, ← makers_factories, List.map_map] at apart
  exact List.inj_on_of_nodup_map apart member member' same

end Plan

namespace Work

instance : LawfulMonad (Work V) :=
  have id_map {α : Type} (work : Work V α) : work.bind .finished = work := by
    induction work with
    | finished => rfl
    | call maker next ih => exact congrArg (call maker) (funext ih)
  have bind_assoc {α β γ : Type} (work : Work V α) (f : α → Work V β) (g : β → Work V γ) :
      (work.bind f).bind g = work.bind fun result => (f result).bind g := by
    induction work with
    | finished => rfl
    | call maker next ih => exact congrArg (call maker) (funext ih)
  LawfulMonad.mk' (Work V) id_map (fun _ _ => rfl) bind_assoc

end Work

section passes

variable {m : Type → Type} [Monad m] [LawfulMonad m]

-- A pass asks nothing of the monad it runs in.
mutual
theorem GraphBuilder.walk_eq : ∀ (p : Plan V) (b : GraphBuilder) (parent : Option (Nat × Relation)),
    (b.walk parent p : m (Nat × GraphBuilder)) = pure (b.visit parent p)
  | .leaf site, b, parent => rfl
  | .cached lifetime service inner, b, parent => by
    rw [GraphBuilder.walk]
    simp only [GraphBuilder.walk_eq inner, pure_bind]
    rfl
  | .constructor service implementation parameters, b, parent => by
    rw [GraphBuilder.walk]
    simp only [GraphBuilder.walkAll_eq parameters, pure_bind]
    rfl
  | .enumerable service item elements, b, parent => by
    rw [GraphBuilder.walk]
    simp only [GraphBuilder.walkAll_eq elements, pure_bind]
    rfl

theorem GraphBuilder.walkAll_eq : ∀ (ps : List (Plan V)) (b : GraphBuilder) (parent : Nat) (relation : Nat → Relation)
    (position : Nat), (b.walkAll parent relation position ps : m GraphBuilder) = pure (b.visitAll parent relation position ps)
  | [], b, parent, relation, position => rfl
  | p :: rest, b, parent, relation, position => by
    rw [GraphBuilder.walkAll]
    simp only [GraphBuilder.walk_eq p, GraphBuilder.walkAll_eq rest, pure_bind]
    rfl
end

namespace Plan

theorem graphIn_eq (costs : CostTable) (exportedAt : String) (p : Plan V) :
    (p.graphIn costs exportedAt : m Graph) = pure (p.graph costs exportedAt) := by
  rw [graphIn, GraphBuilder.walk_eq, pure_bind]
  simp only [visit_root, pure_bind]
  rfl

mutual
theorem describeIn_eq : ∀ p : Plan V, (p.describeIn : m Text.Description) = pure p.describe
  | .leaf site => rfl
  | .cached lifetime service inner => by
    rw [describeIn, describeIn_eq inner, pure_bind]
    rfl
  | .constructor service implementation parameters => by
    rw [describeIn, describeAllIn_eq parameters, pure_bind]
    rfl
  | .enumerable service item elements => by
    rw [describeIn, describeAllIn_eq elements, pure_bind]
    rfl

theorem describeAllIn_eq : ∀ ps : List (Plan V), (describeAllIn ps : m (List Text.Description)) = pure (describeAll ps)
  | [] => rfl
  | p :: rest => by
    rw [describeAllIn, describeIn_eq p, pure_bind, describeAllIn_eq rest, pure_bind]
    rfl
end

end Plan

end passes

namespace Usage

def isPass : Usage → Bool
  | .access _ _ => false
  | _ => true

-- The path leads to the place, on the plan or on the copy.
def leadsTo (place : List Nat) : Usage → Bool
  | .access _ path => path == place
  | _ => false

def called? (p : Plan V) : Usage → Option Nat
  | .access _ path => ((p.at? path).bind Plan.maker?).map (·.id)
  | _ => none

def answer (p : Plan V) (calls : Nat → Nat) : Usage → Outcome V
  | .analyze costs => .analysis (p.analyze costs)
  | .graph costs exportedAt => .graph (p.graph costs exportedAt)
  | .describe indented => .text (if indented then p.describe.indented else p.describe.inline)
  | .access _ path => .value ((p.at? path).bind (Plan.held? calls))

theorem called?_leadsTo {p : Plan V} (apart : p.Apart) {place : List Nat} {maker : Factory V}
    (member : (place, maker) ∈ p.makers) (step : Usage) :
    step.called? p = some maker.id ↔ step.leadsTo place = true := by
  cases step with
  | access onCopy path =>
    rw [called?, leadsTo, beq_iff_eq]
    constructor
    · intro known
      obtain ⟨maker', found, same⟩ := Option.map_eq_some_iff.mp known
      exact congrArg Prod.fst (apart.entry (Plan.mem_makers.mpr found) member same)
    · intro same
      rw [same, Plan.mem_makers.mp member, Option.map_some]
  | _ => simp [called?, leadsTo]

theorem called?_pass {p : Plan V} {step : Usage} (pass : step.isPass = true) : step.called? p = none := by
  cases step with
  | access => cases pass
  | _ => rfl

-- The work of a pass is done before it could call a factory.
theorem work_pass (p : Plan V) (calls : Nat → Nat) {step : Usage} (pass : step.isPass = true) :
    step.work p = .finished (step.answer p calls) := by
  cases step with
  | analyze costs =>
    rw [work, Plan.visit_root, pure_bind]
    rfl
  | graph costs exportedAt =>
    rw [work, Plan.graphIn_eq, pure_bind]
    rfl
  | describe indented =>
    rw [work, Plan.describeIn_eq, pure_bind]
    rfl
  | access => cases pass

theorem work_run (p : Plan V) (calls : List Nat) (step : Usage) :
    (step.work p).run calls = (step.answer p calls.count, (step.called? p).toList ++ calls) := by
  cases pass : step.isPass with
  | true =>
    rw [work_pass p calls.count pass, called?_pass pass]
    rfl
  | false =>
    cases step with
    | access onCopy path =>
      rw [work, Plan.access, answer, called?]
      cases p.at? path with
      | none => rfl
      | some node =>
        cases node with
        | leaf site => cases site <;> rfl
        | _ => rfl
    | _ => cases pass

theorem answer_pass {p q : Plan V} (same : p.SameButHeld q) {step : Usage} (pass : step.isPass = true)
    (calls calls' : Nat → Nat) : step.answer p calls = step.answer q calls' := by
  cases step with
  | analyze costs => rw [answer, answer, Plan.sameButHeld_analyze costs same]
  | graph costs exportedAt => rw [answer, answer, Plan.sameButHeld_graph costs exportedAt same]
  | describe => rw [answer, answer, Plan.sameButHeld_describe.1 p q same]
  | access => cases pass

end Usage

namespace PlanInUse

def after (u : PlanInUse V) (steps : List Usage) : PlanInUse V :=
  steps.foldl (fun u step => (u.use step).2) u

theorem use_exact (p : Plan V) (calls : List Nat) (step : Usage) :
    use ⟨p, p, calls⟩ step = (step.answer p calls.count, ⟨p, p, (step.called? p).toList ++ calls⟩) := by
  rw [use, ite_self, Usage.work_run]

theorem after_start (p : Plan V) (steps : List Usage) :
    (start p).after steps = ⟨p, p, (steps.filterMap (·.called? p)).reverse⟩ := by
  induction steps using List.reverseRecOn with
  | nil => rfl
  | append_singleton steps step ih =>
    have last : (start p).after (steps ++ [step]) = (((start p).after steps).use step).2 := List.foldl_append
    rw [last, ih, use_exact, List.filterMap_append, List.reverse_append]
    cases called : step.called? p <;> simp [called]

theorem calls_count {p : Plan V} (apart : p.Apart) (steps : List Usage) {place : List Nat} {maker : Factory V}
    (member : (place, maker) ∈ p.makers) :
    ((start p).after steps).calls.count maker.id = steps.countP (·.leadsTo place) := by
  rw [after_start, List.count_reverse, List.count, List.countP_filterMap]
  apply List.countP_congr
  intro step _
  rw [← Usage.called?_leadsTo apart member]
  cases step.called? p <;> simp

-- A factory at the end of the path has been called as often as a path has led there.
theorem held_count {p : Plan V} (apart : p.Apart) (steps : List Usage) (path : List Nat) :
    (p.at? path).bind (Plan.held? ((start p).after steps).calls.count) =
      (p.at? path).bind (Plan.held? fun _ => steps.countP (·.leadsTo path)) := by
  apply Option.bind_congr
  intro node reached
  cases made : node.maker? with
  | some maker =>
    obtain ⟨service, rfl⟩ := Plan.maker?_exact.mp made
    have listed : (path, maker) ∈ p.makers := Plan.mem_makers_exact.mpr ⟨service, reached⟩
    rw [Plan.held?, Plan.held?, calls_count apart steps listed]
  | none =>
    cases node with
    | leaf site =>
      cases site with
      | factory => cases made
      | _ => rfl
    | _ => rfl

-- After any steps a factory has been called as often as a path has led to its node, on the plan or on the copy. A pass
-- ends without a call, leaves everything as it is and gives the same whatever is held and was called; an access gives
-- the constant at its node, or what the factory there makes after these calls.
theorem accesses_counted {p : Plan V} (apart : p.Apart) (steps : List Usage) :
    let u := (start p).after steps
    u.counts = p.makers.map (fun entry => steps.countP (·.leadsTo entry.1)) ∧
    (p.makers.map (·.2) = p.factories ∧ (p.makers.map (·.1)).Pairwise (· < ·) ∧
      ∀ place maker, (place, maker) ∈ p.makers ↔ ∃ service, p.at? place = some (.leaf (.factory service maker))) ∧
    (∀ step : Usage, step.isPass = true → (∃ outcome, step.work p = .finished outcome) ∧ (u.use step).2 = u ∧
      ∀ q, p.SameButHeld q → ∀ steps', (u.use step).1 = (((start q).after steps').use step).1) ∧
    ∀ onCopy path,
      (u.use (.access onCopy path)).1 =
        .value ((p.at? path).bind (Plan.held? fun _ => steps.countP (·.leadsTo path))) ∧
      ((p.at? path).bind Plan.maker? = none → (u.use (.access onCopy path)).2 = u) := by
  intro u
  have reached : u = ⟨p, p, (steps.filterMap (·.called? p)).reverse⟩ := after_start p steps
  have untouched {step : Usage} (uncalled : step.called? p = none) : (u.use step).2 = u := by
    rw [reached, use_exact, uncalled, Option.toList_none, List.nil_append]
  refine ⟨?counted, ⟨p.makers_factories, p.makers_increasing, fun _ _ => Plan.mem_makers_exact⟩, ?passes, ?accesses⟩
  case counted =>
    have plan : u.plan = p := by rw [reached]
    rw [counts, plan, ← p.makers_factories, List.map_map]
    apply List.map_congr_left
    intro entry member
    exact calls_count apart steps member
  case passes =>
    intro step pass
    refine ⟨⟨_, Usage.work_pass p (fun _ => 0) pass⟩, untouched (Usage.called?_pass pass), ?_⟩
    intro q same steps'
    rw [reached, after_start, use_exact, use_exact]
    exact Usage.answer_pass same pass _ _
  case accesses =>
    intro onCopy path
    constructor
    · rw [← held_count apart, after_start, reached, use_exact, Usage.answer]
    · intro elsewhere
      apply untouched
      rw [Usage.called?, elsewhere, Option.map_none]

-- Two factories alike beside a constant, on the plan and on the copy; each makes the number of its earlier calls.
theorem accesses_counted_copy :
    let maker : Plan Value := .leaf (.factory (.ofInterface "a::A") ⟨0, fun calls => .nat64 calls.toUInt64⟩)
    let p : Plan Value := (Plan.enumerable (.ofInterface "b::B") (.ofInterface "a::A")
      [maker, .cached .scoped (.ofInterface "a::A") maker, Plan.constantValue (.flag true)]).distinguish
    let steps : List Usage := [.access false [0], .graph .stock "now", .access true [0], .access true [1, 0],
      .describe true, .analyze .stock, .access false [2], .access false [1]]
    p.Apart ∧ ((start p).after steps).counts = [2, 1] ∧
      (((start p).after steps).use (.access false [0])).1 = .value (some (.nat64 2)) := by
  intro maker p steps
  have apart : p.Apart := Plan.distinguish_apart _
  obtain ⟨counted, _, _, accessed⟩ := accesses_counted apart steps
  exact ⟨apart, counted.trans rfl, (accessed false [0]).1.trans rfl⟩

end PlanInUse

end ResolutionPlan
