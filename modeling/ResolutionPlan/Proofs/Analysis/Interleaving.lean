import Mathlib.Algebra.BigOperators.Group.List.Basic
import Mathlib.Data.List.Infix
import ResolutionPlan.Proofs.Analysis.Trace

namespace ResolutionPlan

variable {V : Type}

namespace Program

variable {α β : Type}

instance : LawfulMonad Program :=
  have id_map {α : Type} (walk : Program α) : walk.bind .finished = walk := by
    induction walk with
    | finished => rfl
    | report event next ih => exact congrArg (report event) ih
  have bind_assoc {α β γ : Type} (walk : Program α) (f : α → Program β) (g : β → Program γ) :
      (walk.bind f).bind g = walk.bind fun result => (f result).bind g := by
    induction walk with
    | finished => rfl
    | report event next ih => exact congrArg (report event) ih
  LawfulMonad.mk' Program id_map (fun _ _ => rfl) bind_assoc

theorem events_bind (walk : Program α) (rest : α → Program β) :
    (walk >>= rest).events = walk.events ++ (rest walk.outcome).events := by
  induction walk with
  | finished => rfl
  | report event next ih => exact congrArg (event :: ·) ih

theorem outcome_bind (walk : Program α) (rest : α → Program β) :
    (walk >>= rest).outcome = (rest walk.outcome).outcome := by
  induction walk with
  | finished => rfl
  | report event next ih => exact ih

theorem events_forM (elapsed : Duration) (events : List Event) :
    (events.forM (reporter.hear elapsed)).events = events := by
  induction events with
  | nil => rfl
  | cons event rest ih =>
    have first : (reporter.hear elapsed event).events = [event] := by cases event <;> rfl
    rw [List.forM_eq_forM] at ih ⊢
    rw [List.forM_cons, events_bind, first, ih]
    rfl

theorem events_analysis (costs : CostTable) (elapsed : Duration) (p : Plan V) :
    (p.analyzeObserved costs reporter elapsed).events = p.events costs := by
  rw [Plan.analyzeObserved_hear, events_bind, events_forM]
  exact List.append_nil _

theorem outcome_analysis (costs : CostTable) (elapsed : Duration) (p : Plan V) :
    (p.analyzeObserved costs reporter elapsed).outcome = p.analyze costs := by
  rw [Plan.analyzeObserved_hear, outcome_bind]
  rfl

theorem result?_exact (walk : Program α) (result : α) :
    walk.result? = some result ↔ walk.events = [] ∧ walk.outcome = result := by
  cases walk <;> simp [result?, events, outcome]

theorem results?_exact (programs : List (Program α)) (results : List α) :
    programs.mapM result? = some results ↔
      (∀ program ∈ programs, program.events = []) ∧ programs.map outcome = results := by
  induction programs generalizing results with
  | nil => simp
  | cons program rest ih =>
    cases program with
    | finished result =>
      have split : (finished result :: rest).mapM result? = (rest.mapM result?).map (result :: ·) := by
        rw [List.mapM_cons, Option.map_eq_bind]
        rfl
      rw [split, Option.map_eq_some_iff]
      constructor
      · rintro ⟨others, read, rfl⟩
        obtain ⟨done, rfl⟩ := (ih others).mp read
        exact ⟨List.forall_mem_cons.mpr ⟨rfl, done⟩, rfl⟩
      · rintro ⟨done, rfl⟩
        exact ⟨rest.map outcome, (ih _).mpr ⟨(List.forall_mem_cons.mp done).2, rfl⟩, rfl⟩
    | report event next => simp [List.mapM_cons, result?, events]

end Program

namespace Session

variable {α : Type}

def told (s : Session α) (i : Nat) : List Event :=
  (s.recorded.reverse.filter (·.1 = i)).map (·.2)

def pending (s : Session α) (i : Nat) : List Event :=
  (s.programs[i]?).elim [] Program.events

def unreported (s : Session α) : Nat :=
  (s.programs.map (·.events.length)).sum

def outcomes (s : Session α) : List α :=
  s.programs.map Program.outcome

def result? (s : Session α) (i : Nat) : Option α :=
  (s.programs[i]?).bind Program.result?

-- A turn moves the chosen program, if it can move at all, and nobody else.
theorem step_cases (s : Session α) (chosen : Nat) :
    (∃ event next, s.programs[chosen]? = some (.report event next) ∧
      s.step chosen = ⟨s.programs.set chosen next, (chosen, event) :: s.recorded⟩) ∨
    (s.pending chosen = [] ∧ s.step chosen = s) := by
  unfold step pending
  cases found : s.programs[chosen]? with
  | none => exact .inr ⟨rfl, rfl⟩
  | some program =>
    cases program with
    | finished => exact .inr ⟨rfl, rfl⟩
    | report event next => exact .inl ⟨event, next, rfl, rfl⟩

theorem step_told (s : Session α) (chosen i : Nat) :
    (s.step chosen).told i = s.told i ++ (s.pending i).take (if chosen = i then 1 else 0) := by
  obtain ⟨event, next, found, moved⟩ | ⟨done, stays⟩ := s.step_cases chosen
  · rw [moved]
    by_cases mine : chosen = i
    · subst mine
      simp [told, pending, found, Program.events]
    · simp [told, mine]
  · rw [stays]
    by_cases mine : chosen = i
    · subst mine
      simp [done]
    · simp [mine]

theorem step_pending (s : Session α) (chosen i : Nat) :
    (s.step chosen).pending i = (s.pending i).drop (if chosen = i then 1 else 0) := by
  obtain ⟨event, next, found, moved⟩ | ⟨done, stays⟩ := s.step_cases chosen
  · rw [moved]
    by_cases mine : chosen = i
    · subst mine
      have within := (List.getElem?_eq_some_iff.mp found).1
      simp [pending, List.getElem?_set_self within, found, Program.events]
    · simp [pending, mine]
  · rw [stays]
    by_cases mine : chosen = i
    · subst mine
      simp [done]
    · simp [mine]

theorem step_outcomes (s : Session α) (chosen : Nat) : (s.step chosen).outcomes = s.outcomes := by
  obtain ⟨event, next, found, moved⟩ | ⟨_, stays⟩ := s.step_cases chosen
  · have same : s.outcomes[chosen]? = some next.outcome := by simp [outcomes, found, Program.outcome]
    obtain ⟨within, same⟩ := List.getElem?_eq_some_iff.mp same
    rw [moved, outcomes, List.map_set, ← same]
    exact List.set_getElem_self within
  · rw [stays]

theorem sum_set (f : α → Nat) {items : List α} {i : Nat} {old : α} (here : items[i]? = some old) (new : α) :
    ((items.set i new).map f).sum + f old = (items.map f).sum + f new := by
  induction items generalizing i with
  | nil => simp at here
  | cons first rest ih =>
    cases i with
    | zero =>
      cases here
      simp only [List.set_cons_zero, List.map_cons, List.sum_cons]
      omega
    | succ i =>
      have later := ih (i := i) (by simpa using here)
      simp only [List.set_cons_succ, List.map_cons, List.sum_cons]
      omega

theorem step_balance (s : Session α) (chosen : Nat) :
    (s.step chosen).recorded.length + (s.step chosen).unreported = s.recorded.length + s.unreported := by
  obtain ⟨event, next, found, moved⟩ | ⟨_, stays⟩ := s.step_cases chosen
  · have sums := sum_set (·.events.length) found next
    simp only [Program.events, List.length_cons] at sums
    simp only [moved, unreported, List.length_cons]
    omega
  · rw [stays]

theorem run_cons (s : Session α) (chosen : Nat) (rest : List Nat) :
    s.run (chosen :: rest) = (s.step chosen).run rest := rfl

theorem run_told (s : Session α) (schedule : List Nat) (i : Nat) :
    (s.run schedule).told i = s.told i ++ (s.pending i).take (schedule.count i) := by
  induction schedule generalizing s with
  | nil => simp [run]
  | cons chosen rest ih =>
    rw [run_cons, ih, step_told, step_pending, List.append_assoc, ← List.take_add, List.count_cons, Nat.add_comm]
    simp only [beq_iff_eq]

theorem run_pending (s : Session α) (schedule : List Nat) (i : Nat) :
    (s.run schedule).pending i = (s.pending i).drop (schedule.count i) := by
  induction schedule generalizing s with
  | nil => simp [run]
  | cons chosen rest ih =>
    rw [run_cons, ih, step_pending, List.drop_drop, List.count_cons, Nat.add_comm]
    simp only [beq_iff_eq]

-- Nothing is lost or altered on the way from a program to the record.
theorem run_accounts (s : Session α) (schedule : List Nat) (i : Nat) :
    (s.run schedule).told i ++ (s.run schedule).pending i = s.told i ++ s.pending i := by
  rw [run_told, run_pending, List.append_assoc, List.take_append_drop]

theorem run_outcomes (s : Session α) (schedule : List Nat) : (s.run schedule).outcomes = s.outcomes := by
  induction schedule generalizing s with
  | nil => rfl
  | cons chosen rest ih => exact (ih (s.step chosen)).trans (s.step_outcomes chosen)

theorem run_balance (s : Session α) (schedule : List Nat) :
    (s.run schedule).recorded.length + (s.run schedule).unreported = s.recorded.length + s.unreported := by
  induction schedule generalizing s with
  | nil => rfl
  | cons chosen rest ih => exact (ih (s.step chosen)).trans (s.step_balance chosen)

theorem result?_exact (s : Session α) (i : Nat) (result : α) :
    s.result? i = some result ↔ s.pending i = [] ∧ s.outcomes[i]? = some result := by
  unfold result? pending outcomes
  cases found : s.programs[i]? with
  | none => simp [found]
  | some program => simp [found, program.result?_exact]

theorem nothing_pending (s : Session α) :
    (∀ program ∈ s.programs, program.events = []) ↔ ∀ i, s.pending i = [] := by
  constructor
  · intro done i
    unfold pending
    cases found : s.programs[i]? with
    | none => rfl
    | some program => exact done program (List.mem_of_getElem? found)
  · intro done program member
    obtain ⟨i, found⟩ := List.getElem?_of_mem member
    have empty := done i
    rwa [pending, found] at empty

theorem results?_exact (s : Session α) (results : List α) :
    s.results? = some results ↔ (∀ i, s.pending i = []) ∧ s.outcomes = results := by
  rw [results?, Program.results?_exact, nothing_pending, outcomes]

theorem nothing_unreported {s : Session α} (done : ∀ i, s.pending i = []) : s.unreported = 0 := by
  refine List.sum_eq_zero fun length member => ?_
  obtain ⟨program, among, rfl⟩ := List.mem_map.mp member
  rw [s.nothing_pending.mpr done program among, List.length_nil]

def alone (plans : List (CostTable × Plan V)) (i : Nat) : List Event :=
  (plans[i]?).elim [] fun (costs, p) => p.events costs

theorem ofAnalyses_pending (plans : List (CostTable × Plan V)) (i : Nat) :
    (ofAnalyses plans).pending i = alone plans i := by
  rw [pending, ofAnalyses, start, List.getElem?_map, alone]
  cases plans[i]? with
  | none => rfl
  | some analysis => exact Program.events_analysis analysis.1 .zero analysis.2

theorem ofAnalyses_outcomes (plans : List (CostTable × Plan V)) :
    (ofAnalyses plans).outcomes = plans.map fun (costs, p) => p.analyze costs := by
  simp [outcomes, ofAnalyses, start, Function.comp_def, Program.outcome_analysis]

theorem ofAnalyses_unreported (plans : List (CostTable × Plan V)) :
    (ofAnalyses plans).unreported = (plans.map fun (_, p) => p.nodeCount + 1).sum := by
  simp [unreported, ofAnalyses, start, Function.comp_def, Program.events_analysis, Plan.length_events]

section analyses

variable {plans : List (CostTable × Plan V)} {schedule : List Nat}

theorem analysis_done {i : Nat} {costs : CostTable} {p : Plan V} (here : plans[i]? = some (costs, p)) :
    ((ofAnalyses plans).run schedule).pending i = [] ↔ p.nodeCount < schedule.count i := by
  rw [run_pending, ofAnalyses_pending, alone, here, Option.elim_some, List.drop_eq_nil_iff, Plan.length_events]
  exact Nat.succ_le_iff

theorem analyses_done : (∀ i, ((ofAnalyses plans).run schedule).pending i = []) ↔
    ∀ i costs p, plans[i]? = some (costs, p) → p.nodeCount < schedule.count i := by
  refine ⟨fun done i costs p here => (analysis_done here).mp (done i), ?_⟩
  intro turns i
  cases here : plans[i]? with
  | none => rw [run_pending, ofAnalyses_pending, alone, here, Option.elim_none, List.drop_nil]
  | some analysis => exact (analysis_done here).mpr (turns i analysis.1 analysis.2 here)

theorem analysis_result? {i : Nat} {costs : CostTable} {p : Plan V} (here : plans[i]? = some (costs, p)) :
    ((ofAnalyses plans).run schedule).result? i =
      if p.nodeCount < schedule.count i then some (p.analyze costs) else none := by
  have outcome : ((ofAnalyses plans).run schedule).outcomes[i]? = some (p.analyze costs) := by
    rw [run_outcomes, ofAnalyses_outcomes, List.getElem?_map, here, Option.map_some]
  split
  · next turns => exact (result?_exact _ i _).mpr ⟨(analysis_done here).mpr turns, outcome⟩
  · next turns =>
    refine Option.eq_none_iff_forall_ne_some.mpr fun result found => turns ?_
    exact (analysis_done here).mp ((result?_exact _ i result).mp found).1

theorem analyses_told (done : ∀ i, ((ofAnalyses plans).run schedule).pending i = []) (i : Nat) :
    ((ofAnalyses plans).run schedule).told i = alone plans i := by
  have account := (ofAnalyses plans).run_accounts schedule i
  rw [done i, List.append_nil, ofAnalyses_pending] at account
  exact account

theorem analyses_counted (done : ∀ i, ((ofAnalyses plans).run schedule).pending i = []) :
    ((ofAnalyses plans).run schedule).recorded.length = (plans.map fun (_, p) => p.nodeCount + 1).sum := by
  have balance := (ofAnalyses plans).run_balance schedule
  rw [nothing_unreported done, ofAnalyses_unreported] at balance
  exact balance.trans (Nat.zero_add _)

end analyses

-- Whatever the schedule and wherever it stops, the record holds of each analysis the first events it would report
-- alone, one for each of its turns; an analysis has returned as soon as it has had its turns, with the silent
-- result. All have returned when all have had their turns, and then the record is complete.
theorem interleaved_analyses (plans : List (CostTable × Plan V)) (schedule : List Nat) :
    let s := (ofAnalyses plans).run schedule
    (∀ i, s.told i = (alone plans i).take (schedule.count i)) ∧
    (∀ i costs p, plans[i]? = some (costs, p) →
      s.result? i = if p.nodeCount < schedule.count i then some (p.analyze costs) else none) ∧
    (∀ results, s.results? = some results ↔
      (∀ i costs p, plans[i]? = some (costs, p) → p.nodeCount < schedule.count i) ∧
      results = plans.map fun (costs, p) => p.analyze costs) ∧
    (s.results?.isSome →
      (∀ i, s.told i = alone plans i) ∧ s.recorded.length = (plans.map fun (_, p) => p.nodeCount + 1).sum) := by
  intro s
  refine ⟨?_, fun i costs p here => analysis_result? here, ?_, ?_⟩
  · intro i
    rw [run_told, ofAnalyses_pending]
    rfl
  · intro results
    rw [s.results?_exact, analyses_done, run_outcomes, ofAnalyses_outcomes, eq_comm (a := results)]
  · intro returned
    obtain ⟨results, found⟩ := Option.isSome_iff_exists.mp returned
    have done := ((s.results?_exact results).mp found).1
    exact ⟨analyses_told done, analyses_counted done⟩

-- Two programs on one plan, whose turns are mixed.
theorem interleaved_analyses_shared :
    let shared : Plan Value := .cached .scoped (.ofInterface "a") (.leaf (.serviceProvider (.ofInterface "b")))
    let s := (ofAnalyses [(.stock, shared), (.stock, shared)]).run [0, 1, 1, 0, 1, 0]
    s.results? = some [⟨65, true⟩, ⟨65, true⟩] ∧ s.recorded.length = 6 := by
  intro shared s
  obtain ⟨_, _, returned, complete⟩ :=
    interleaved_analyses [(.stock, shared), (.stock, shared)] [0, 1, 1, 0, 1, 0]
  have turns : ∀ i costs p, [(CostTable.stock, shared), (.stock, shared)][i]? = some (costs, p) →
      p.nodeCount < [0, 1, 1, 0, 1, 0].count i := by
    intro i costs p here
    match i, here with
    | 0, rfl => decide
    | 1, rfl => decide
  have results := (returned _).mpr ⟨turns, rfl⟩
  exact ⟨results, (complete (Option.isSome_of_eq_some results)).2⟩

-- A log that takes from each program its next reports only is the log of the schedule it spells.
theorem run_follows (s : Session α) (log : List (Nat × Event))
    (next : ∀ i, (log.filter (·.1 = i)).map (·.2) <+: s.pending i) :
    (s.run (log.map (·.1))).recorded = log.reverse ++ s.recorded := by
  induction log generalizing s with
  | nil => rfl
  | cons entry rest ih =>
    obtain ⟨chosen, event⟩ := entry
    have due := next chosen
    simp only [List.filter_cons, decide_true, if_true, List.map_cons] at due
    obtain ⟨reported, after, found, moved⟩ | ⟨done, _⟩ := s.step_cases chosen
    · have same : event = reported := by
        rw [pending, found] at due
        exact (List.cons_prefix_cons.mp due).1
      have later : ∀ i, (rest.filter (·.1 = i)).map (·.2) <+: (s.step chosen).pending i := by
        intro i
        rw [step_pending]
        by_cases mine : chosen = i
        · simpa [mine] using (next i).drop 1
        · simpa [mine] using next i
      rw [List.map_cons, run_cons, ih _ later, moved, ← same, List.reverse_cons, List.append_assoc]
      rfl
    · rw [done] at due
      simp at due

-- The records that some schedule leads to are exactly the interleavings of what the analyses report alone.
theorem complete_record_exact (plans : List (CostTable × Plan V)) (log : List (Nat × Event)) :
    (∃ schedule, ((ofAnalyses plans).run schedule).results?.isSome ∧
      ((ofAnalyses plans).run schedule).recorded.reverse = log) ↔
    ∀ i, (log.filter (·.1 = i)).map (·.2) = alone plans i := by
  constructor
  · rintro ⟨schedule, returned, rfl⟩ i
    obtain ⟨results, found⟩ := Option.isSome_iff_exists.mp returned
    exact analyses_told ((results?_exact _ results).mp found).1 i
  · intro shares
    have record := (ofAnalyses plans).run_follows log fun i => by rw [shares, ofAnalyses_pending]
    have whole : ((ofAnalyses plans).run (log.map (·.1))).recorded.reverse = log := by
      rw [record]
      simp [ofAnalyses, start]
    refine ⟨log.map (·.1), ?_, whole⟩
    have done (i : Nat) : ((ofAnalyses plans).run (log.map (·.1))).pending i = [] := by
      have account := (ofAnalyses plans).run_accounts (log.map (·.1)) i
      rw [ofAnalyses_pending, ← shares, told, whole] at account
      exact List.append_right_eq_self.mp account
    exact Option.isSome_iff_exists.mpr ⟨_, (results?_exact _ _).mpr ⟨done, rfl⟩⟩

end Session

end ResolutionPlan
