import ResolutionPlan.Proofs.Graph.Layout

namespace ResolutionPlan

variable {V : Type}

def Kind.constructs : Kind → Bool
  | .constructor | .createInstance => true
  | _ => false

namespace Plan

def ownConstructions (p : Plan V) : Nat :=
  if p.kind.constructs then 1 else 0

theorem constructions_eq (p : Plan V) : p.constructions = p.ownConstructions + constructionsAll p.children := by
  cases p with
  | leaf site => cases site <;> rfl
  | cached lifetime => cases lifetime <;> simp [constructions, children, constructionsAll, ownConstructions, kind,
      Kind.ofLifetime, Kind.constructs]
  | constructor => rfl
  | enumerable => simp [constructions, children, ownConstructions, kind, Kind.constructs]

theorem constructionsWithin_eq (budget : Nat) (p : Plan V) : p.constructionsWithin budget =
    p.ownConstructions + if budget = 0 then 0 else constructionsWithinAll (budget - 1) p.children := by
  cases p with
  | leaf site => cases site <;> simp [constructionsWithin, children, constructionsWithinAll, ownConstructions, kind,
      Leaf.kind, Kind.constructs]
  | cached lifetime => cases lifetime <;> simp [constructionsWithin, children, constructionsWithinAll, ownConstructions,
      kind, Kind.ofLifetime, Kind.constructs]
  | constructor => rfl
  | enumerable => simp [constructionsWithin, children, ownConstructions, kind, Kind.constructs]

theorem constructions_preorder :
    (∀ p : Plan V, constructions p = p.preorder.countP (·.kind.constructs)) ∧
    ∀ ps : List (Plan V), constructionsAll ps = (preorderAll ps).countP (·.kind.constructs) := by
  refine forest_induction ?node ?nil ?cons
  case node =>
    intro p below
    rw [constructions_eq, below, preorder_eq, List.countP_cons, Nat.add_comm]
    rfl
  case nil => rfl
  case cons =>
    intro p others first remaining
    rw [constructionsAll, first, remaining, preorderAll_cons, List.countP_append]

-- The nodes of a walk that a budget reaches, which is counted from the level at which the walk began.
def reached (limit : Nat) (level : Nat × Plan V) : Bool :=
  level.1 ≤ limit && level.2.kind.constructs

theorem levels_above :
    (∀ (p : Plan V) depth, ∀ level ∈ levelsFrom depth p, depth ≤ level.1) ∧
    ∀ (ps : List (Plan V)) depth, ∀ level ∈ levelsAll depth ps, depth ≤ level.1 := by
  refine forest_induction ?node ?nil ?cons
  case node =>
    intro p below depth level member
    rw [levelsFrom_eq] at member
    rcases List.mem_cons.mp member with rfl | deeper
    · exact Nat.le_refl depth
    · exact Nat.le_of_succ_le (below (depth + 1) level deeper)
  case nil =>
    intro depth level member
    cases member
  case cons =>
    intro p others first remaining depth level member
    rcases List.mem_append.mp member with inFirst | inOthers
    · exact first depth level inFirst
    · exact remaining depth level inOthers

theorem constructionsWithin_levels :
    (∀ (p : Plan V) budget depth, constructionsWithin budget p = (levelsFrom depth p).countP (reached (depth + budget))) ∧
    ∀ (ps : List (Plan V)) budget depth, constructionsWithinAll budget ps = (levelsAll depth ps).countP (reached (depth + budget)) := by
  refine forest_induction ?node ?nil ?cons
  case node =>
    intro p below budget depth
    have own : (if reached (depth + budget) (depth, p) then 1 else 0) = p.ownConstructions := by
      simp [reached, ownConstructions]
    rw [constructionsWithin_eq, levelsFrom_eq, List.countP_cons, own, Nat.add_comm]
    congr 1
    cases budget with
    | zero =>
      -- The budget is used up: whatever stands below is out of reach.
      refine (List.countP_eq_zero.mpr ?_).symm
      intro level member inReach
      have above := levels_above.2 p.children (depth + 1) level member
      have near : level.1 ≤ depth + 0 := of_decide_eq_true (Bool.and_eq_true_iff.mp inReach).1
      omega
    | succ budget =>
      rw [if_neg (Nat.succ_ne_zero budget), below (budget + 1 - 1) (depth + 1), Nat.add_sub_cancel, Nat.add_assoc,
        Nat.add_comm 1]
  case nil =>
    intro budget depth
    rfl
  case cons =>
    intro p others first remaining budget depth
    rw [constructionsWithinAll, first budget depth, remaining budget depth, levelsAll, List.countP_append]

theorem constructionsWithin_places (budget : Nat) (p : Plan V) : p.constructionsWithin budget =
    p.places.countP fun place => place.length ≤ budget && (p.at? place).any (·.kind.constructs) := by
  rw [constructionsWithin_levels.1 p budget 0, levels_places.1, List.countP_filterMap]
  congr 1
  funext place
  rw [levelAt?]
  cases p.at? place <;> simp [reached]

theorem constructionsWithin_all {budget : Nat} {p : Plan V} (enough : p.depth - 1 ≤ budget) :
    p.constructionsWithin budget = p.constructions := by
  have counted : p.levels.countP (reached (0 + budget)) = p.levels.countP (·.2.kind.constructs) := by
    apply List.countP_congr
    intro level member
    have within := levels_within.1 p 0 level member
    have near : level.1 ≤ budget := by omega
    simp [reached, near]
  rw [constructionsWithin_levels.1 p budget 0, constructions_preorder.1, ← levelsFrom_preorder 0 p, List.countP_map]
  exact counted

theorem implementation?_constructs (p : Plan V) : p.implementation?.isSome = p.kind.constructs := by
  cases p with
  | leaf site => cases site <;> rfl
  | cached lifetime => cases lifetime <;> rfl
  | constructor => rfl
  | enumerable => rfl

theorem constructions_graph (costs : CostTable) (exportedAt : String) (p : Plan V) :
    p.constructions = (p.graph costs exportedAt).nodes.countP (·.implementation.isSome) := by
  have shown : (p.graph costs exportedAt).nodes.map (·.implementation.isSome) = p.preorder.map (·.kind.constructs) := by
    rw [graph_nodes]
    exact map_numbered (fun _ node => node.implementation?_constructs) 0 p.preorder
  have counted := congrArg (List.countP id) shown
  rw [List.countP_map, List.countP_map] at counted
  exact (constructions_preorder.1 p).trans counted.symm

-- A budget counts the places within its distance. A larger one counts no less, one that covers the longest path counts
-- everything, and everything is what the graph names an implementation for.
theorem constructions_counted (p : Plan V) :
    (∀ budget, p.constructionsWithin budget =
      p.places.countP fun place => place.length ≤ budget && (p.at? place).any (·.kind.constructs)) ∧
    (∀ budget budget', budget ≤ budget' → p.constructionsWithin budget ≤ p.constructionsWithin budget') ∧
    (∀ budget, p.depth - 1 ≤ budget → p.constructionsWithin budget = p.constructions) ∧
    ∀ costs exportedAt, p.constructions = (p.graph costs exportedAt).nodes.countP (·.implementation.isSome) := by
  refine ⟨fun budget => p.constructionsWithin_places budget, ?_, fun budget => constructionsWithin_all, ?_⟩
  · intro budget budget' larger
    rw [constructionsWithin_places, constructionsWithin_places]
    apply List.countP_mono_left
    intro place _ inReach
    obtain ⟨near, constructs⟩ := Bool.and_eq_true_iff.mp inReach
    have near' : place.length ≤ budget' := Nat.le_trans (of_decide_eq_true near) larger
    simp [near', constructs]
  · intro costs exportedAt
    exact p.constructions_graph costs exportedAt

-- The budget of one cuts below a wrapper and between the parameters of the root: the constructor under the wrapper is
-- two steps away.
theorem constructions_counted_cut :
    let key : Key := .ofInterface "a::A"
    let made : Plan Value := .leaf (.createInstance key "A")
    let p : Plan Value := .constructor key "A" [.cached .scoped key (.constructor key "A" [made]), made, .enumerable key key [made]]
    p.depth - 1 = 3 ∧ p.constructionsWithin 1 = 2 ∧ p.constructionsWithin 2 = 4 ∧ 1 ≤ 2 ∧
      p.constructionsWithin 1 ≤ p.constructionsWithin 2 ∧ p.constructionsWithin 3 = p.constructions ∧
      p.constructions = 5 ∧ (p.graph .stock "").nodes.countP (·.implementation.isSome) = 5 := by
  intro key made p
  obtain ⟨_, grows, settles, listed⟩ := constructions_counted p
  have all : p.constructions = 5 := by decide
  exact ⟨by decide, by decide, by decide, by decide, grows 1 2 (by decide), settles 3 (by decide), all,
    (listed .stock "").symm.trans all⟩

end Plan

end ResolutionPlan
