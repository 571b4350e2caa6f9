import Mathlib.Data.List.Induction
import Mathlib.Data.List.Nodup
import Mathlib.Data.List.TakeWhile
import ResolutionPlan.Proofs.Cost.Environment
import ResolutionPlan.Proofs.Text.ShortName

namespace ResolutionPlan

open Text

namespace Environment

inductive Change where
  | set (name : String) (value : ByteArray)
  | unset (name : String)

namespace Change

def name : Change → String
  | .set name _ | .unset name => name

def left? : Change → Option ByteArray
  | .set name value => if isName name then some value else none
  | .unset _ => none

end Change

def perform (e : Environment) : Change → Environment
  | .set name value => e.set name value
  | .unset name => e.unset name

def after (changes : List Change) : Environment :=
  changes.foldl perform empty

def last? (name : String) (changes : List Change) : Option Change :=
  (changes.filter (·.name == name)).getLast?

def variableNames (group : String) : List String :=
  Setting.all.map fun s => variableName group s.name

section names

theorem variableName_toList (group name : String) :
    (variableName group name).toList = (upperCase group).toList ++ '_' :: (upperCase name).toList := by
  simp [variableName]

-- No entry's name, with the underscore before it, ends in that of another entry.
theorem entry_suffix {s t : Setting}
    (ends : '_' :: (upperCase s.name).toList <:+ '_' :: (upperCase t.name).toList) : s = t := by
  have all : ∀ s ∈ Setting.all, ∀ t ∈ Setting.all,
      '_' :: (upperCase s.name).toList <:+ '_' :: (upperCase t.name).toList → s = t := by decide +kernel
  exact all s s.mem_all t t.mem_all ends

theorem variableName_injective {group group' : String} {s t : Setting}
    (same : variableName group s.name = variableName group' t.name) : upperCase group = upperCase group' ∧ s = t := by
  have texts := congrArg String.toList same
  rw [variableName_toList, variableName_toList] at texts
  have endsLeft := List.suffix_append (upperCase group).toList ('_' :: (upperCase s.name).toList)
  have endsRight := List.suffix_append (upperCase group').toList ('_' :: (upperCase t.name).toList)
  rw [texts] at endsLeft
  have entries : s = t := by
    rcases List.suffix_or_suffix_of_suffix endsLeft endsRight with ends | ends
    · exact entry_suffix ends
    · exact (entry_suffix ends).symm
  subst entries
  exact ⟨String.toList_injective (List.append_cancel_right texts), rfl⟩

theorem variableNames_nodup (group : String) : (variableNames group).Nodup := by
  refine List.Nodup.map ?_ (by decide)
  intro s t same
  exact (variableName_injective same).2

theorem variableNames_disjoint {group group' : String} (differ : upperCase group ≠ upperCase group') :
    (variableNames group).Disjoint (variableNames group') := by
  intro name inGroup inOther
  obtain ⟨s, _, named⟩ := List.mem_map.mp inGroup
  obtain ⟨t, _, named'⟩ := List.mem_map.mp inOther
  exact differ (variableName_injective (named.trans named'.symm)).1

end names

section histories

theorem after_snoc (changes : List Change) (c : Change) : after (changes ++ [c]) = (after changes).perform c := by
  rw [after, List.foldl_append]
  rfl

theorem last?_snoc (name : String) (changes : List Change) (c : Change) :
    last? name (changes ++ [c]) = if c.name = name then some c else last? name changes := by
  by_cases same : c.name = name <;> simp [last?, same]

theorem perform_other (e : Environment) (c : Change) {name : String} (other : c.name ≠ name) :
    (e.perform c).held? name = e.held? name := by
  cases c with
  | set changed value => exact (held?_set e changed name value).trans (if_neg other.symm)
  | unset changed => exact (held?_unset e changed name).trans (if_neg other.symm)

theorem perform_own (e : Environment) (c : Change) : (e.perform c).held? c.name = c.left? := by
  cases c with
  | set name value => exact (held?_set e name name value).trans (if_pos rfl)
  | unset name => exact (held?_unset e name name).trans (if_pos rfl)

-- The whole history of a variable is its last change.
theorem held?_after (changes : List Change) (name : String) :
    (after changes).held? name = (last? name changes).bind Change.left? := by
  induction changes using List.reverseRecOn with
  | nil => simp [after, empty, held?, last?]
  | append_singleton changes c ih =>
    rw [after_snoc, last?_snoc]
    by_cases same : c.name = name
    · subst same
      rw [if_pos rfl, Option.bind_some, perform_own]
    · rw [if_neg same, perform_other _ c same, ih]

theorem last?_within {names : List String} {changes changes' : List Change}
    (same : changes.filter (·.name ∈ names) = changes'.filter (·.name ∈ names)) {name : String}
    (member : name ∈ names) : last? name changes = last? name changes' := by
  have narrowed (changes : List Change) :
      changes.filter (·.name == name) = (changes.filter (·.name ∈ names)).filter (·.name == name) := by
    rw [List.filter_filter]
    apply List.filter_congr
    intro c _
    by_cases named : c.name = name <;> simp [named, member]
  rw [last?, last?, narrowed changes, narrowed changes', same]

end histories

section lookups

theorem stem_same {name : String} (plain : '=' ∉ name.toList) : stem name = name := by
  have ends : Outside (· != '=') [] := by simp [Outside]
  have whole := (span_class (bne_class plain) ends).1
  rw [List.append_nil] at whole
  rw [stem, whole, String.ofList_toList]

theorem stem_append {name : String} (sign : '=' ∈ name.toList) (more : String) : stem (name ++ more) = stem name := by
  obtain ⟨front, inner, shape, plain⟩ := List.eq_append_cons_of_mem sign
  have cut (rest : List Char) : (front ++ '=' :: rest).takeWhile (· != '=') = front :=
    (span_class (bne_class plain) (outside_cons (by simp))).1
  rw [stem, stem, String.toList_append, shape, List.append_assoc, List.cons_append, cut, cut]

theorem notMem_stem (name : String) : '=' ∉ (stem name).toList := by
  rw [stem, String.toList_ofList]
  intro member
  simpa using List.mem_takeWhile_imp member

theorem stem_split {name : String} (sign : '=' ∈ name.toList) : ∃ inner, name = stem name ++ "=" ++ inner := by
  obtain ⟨front, inner, shape, plain⟩ := List.eq_append_cons_of_mem sign
  have cut : (front ++ '=' :: inner).takeWhile (· != '=') = front :=
    (span_class (bne_class plain) (outside_cons (by simp))).1
  refine ⟨String.ofList inner, String.toList_injective ?_⟩
  simp [stem, shape, cut]

-- One variable at most answers a look-up.
theorem bytes?_congr {e e' : Environment} {name : String} (same : e.held? (stem name) = e'.held? (stem name)) :
    e.bytes? name = e'.bytes? name := by
  unfold bytes?
  split
  · rfl
  · split
    · next whole =>
      have plain : '=' ∉ name.toList := by
        intro sign
        simpa using List.dropWhile_eq_nil_iff.mp whole '=' sign
      rwa [stem_same plain] at same
    · rw [same]

theorem bytes?_none {e : Environment} {name : String} (absent : '\x00' ∈ name.toList ∨ e.held? (stem name) = none) :
    e.bytes? name = none := by
  rcases absent with null | none
  · exact if_pos null
  · have empty : e.bytes? name = (Environment.empty).bytes? name := by
      apply bytes?_congr
      rw [none]
      simp [Environment.empty, held?]
    rw [empty]
    unfold bytes?
    split
    · rfl
    · split <;> simp [Environment.empty, held?]

theorem bytes?_inside {e : Environment} {front inner : String} {rest : ByteArray} (plain : '=' ∉ front.toList)
    (proper : '\x00' ∉ (front ++ "=" ++ inner).toList) (held : e.held? front = some ((inner ++ "=").toUTF8 ++ rest)) :
    e.bytes? (front ++ "=" ++ inner) = some rest := by
  have shape : (front ++ "=" ++ inner).toList = front.toList ++ '=' :: inner.toList := by simp
  have ends : Outside (· != '=') ('=' :: inner.toList) := outside_cons (by simp)
  obtain ⟨taken, left⟩ := span_class (bne_class plain) ends
  have found : stem (front ++ "=" ++ inner) = front := by rw [stem, shape, taken, String.ofList_toList]
  unfold bytes?
  rw [if_neg proper, found, shape, left, held]
  simp

-- Such a group reads the value of one variable, which is none of its own.
def Borrows (group : String) : Prop :=
  '=' ∈ (upperCase group).toList ∧ isName (stem (upperCase group)) = true ∧ '\x00' ∉ (upperCase group).toList

theorem entry_plain (s : Setting) : '=' ∉ (upperCase s.name).toList ∧ '\x00' ∉ (upperCase s.name).toList := by
  have all : ∀ s ∈ Setting.all, '=' ∉ (upperCase s.name).toList ∧ '\x00' ∉ (upperCase s.name).toList := by
    decide +kernel
  exact all s s.mem_all

theorem stem_variableName {group : String} (sign : '=' ∈ (upperCase group).toList) (name : String) :
    stem (variableName group name) = stem (upperCase group) := by
  rw [variableName, String.append_assoc, stem_append sign]

theorem reads_own {group : String} (sound : ¬ Borrows group) (s : Setting) :
    stem (variableName group s.name) = variableName group s.name ∨
      ∀ e : Environment, e.bytes? (variableName group s.name) = none := by
  obtain ⟨plain, _⟩ := entry_plain s
  by_cases sign : '=' ∈ (upperCase group).toList
  · right
    intro e
    apply bytes?_none
    by_cases null : '\x00' ∈ (upperCase group).toList
    · exact .inl (by simp [variableName, null])
    · have improper : ¬ isName (stem (upperCase group)) = true := fun proper => sound ⟨sign, proper, null⟩
      rw [stem_variableName sign]
      exact .inr (if_neg improper)
  · left
    apply stem_same
    simp [variableName, sign, plain]

-- The value of the stem goes on where the group's own look-up ends.
theorem reads_borrowed {group : String} (borrows : Borrows group) (s : Setting) (rest : ByteArray) :
    ∃ value, (after [.set (stem (upperCase group)) value]).bytes? (variableName group s.name) = some rest := by
  obtain ⟨sign, proper, sound⟩ := borrows
  obtain ⟨inner, split⟩ := stem_split sign
  have shape : variableName group s.name = stem (upperCase group) ++ "=" ++ (inner ++ "_" ++ upperCase s.name) := by
    rw [variableName]
    nth_rewrite 1 [split]
    simp only [String.append_assoc]
  have whole : '\x00' ∉ (variableName group s.name).toList := by
    simp [variableName, sound, (entry_plain s).2]
  rw [shape] at whole ⊢
  refine ⟨(inner ++ "_" ++ upperCase s.name ++ "=").toUTF8 ++ rest, bytes?_inside (notMem_stem _) whole ?_⟩
  rw [held?_after]
  simp [last?, Change.name, Change.left?, proper]

theorem stem_notMem {group : String} (sign : '=' ∈ (upperCase group).toList) :
    stem (upperCase group) ∉ variableNames group := by
  intro member
  obtain ⟨s, _, named⟩ := List.mem_map.mp member
  apply notMem_stem (upperCase group)
  rw [← named]
  simp [variableName, sign]

end lookups

end Environment

namespace CostTable

open Environment

theorem ofEnvironment_congr {e e' : Environment} {group : String}
    (same : ∀ name ∈ variableNames group, e.bytes? name = e'.bytes? name) :
    ofEnvironment e group = ofEnvironment e' group := by
  have described : (e.source group).describe = (e'.source group).describe := rfl
  apply ofSource_congr described
  intro s
  rw [source_get, source_get, same _ (List.mem_map_of_mem s.mem_all)]

-- One text that is no cost is enough for the two to differ.
theorem ofEnvironment_borrowed {group : String} (borrows : Borrows group) :
    ∃ value, ofEnvironment (after [.set (stem (upperCase group)) value]) group ≠ ofEnvironment (after []) group := by
  obtain ⟨value, found⟩ := reads_borrowed borrows .constructor "".toUTF8
  refine ⟨value, fun same => ?_⟩
  obtain ⟨t, made⟩ : ∃ t, ofEnvironment (after []) group = .ok t := by
    apply (ofSource_succeeds _).mpr
    intro s text bad
    have given := (source_bad.mp bad).1
    rw [SetTo, bytes?_none (.inr (by simp [after, Environment.empty, held?]))] at given
    cases given
  have bad : ((after [.set (stem (upperCase group)) value]).source group).Bad .constructor "" := by
    refine source_bad.mpr ⟨found, fun cost spelled => ?_⟩
    cases (readCost_exact "" cost).mpr spelled
  exact (ofSource_succeeds _).mp ⟨t, same.trans made⟩ .constructor "" bad

-- The variables of two groups are ten. A table depends on the last changes of the variables that are called like the
-- stems of the group's names. These are the names themselves, or nothing is read at all, exactly if the group does not
-- borrow: then a table depends on the last change of each of its own variables, and histories with the same changes of
-- these, whatever stands before, between and behind them, make the same table or the same error.
theorem groups_isolated (other group : String) :
    (upperCase other ≠ upperCase group → (variableNames other ++ variableNames group).Nodup) ∧
    (∀ changes changes', (∀ name ∈ variableNames group, last? (stem name) changes = last? (stem name) changes') →
      ofEnvironment (after changes) group = ofEnvironment (after changes') group) ∧
    ((∀ changes changes', (∀ name ∈ variableNames group, last? name changes = last? name changes') →
      ofEnvironment (after changes) group = ofEnvironment (after changes') group) ↔ ¬ Borrows group) ∧
    ((∀ changes changes', changes.filter (·.name ∈ variableNames group) = changes'.filter (·.name ∈ variableNames group) →
      ofEnvironment (after changes) group = ofEnvironment (after changes') group) ↔ ¬ Borrows group) := by
  have own (sound : ¬ Borrows group) {changes changes' : List Change}
      (lasts : ∀ name ∈ variableNames group, last? name changes = last? name changes') :
      ofEnvironment (after changes) group = ofEnvironment (after changes') group := by
    apply ofEnvironment_congr
    intro name member
    obtain ⟨s, _, rfl⟩ := List.mem_map.mp member
    rcases reads_own sound s with same | none
    · apply bytes?_congr
      rw [same, held?_after, held?_after, lasts _ member]
    · rw [none, none]
  have foreign (borrows : Borrows group) (value : ByteArray) :
      [Change.set (stem (upperCase group)) value].filter (·.name ∈ variableNames group) = [] := by
    simp [Change.name, stem_notMem borrows.1]
  refine ⟨fun differ => ?_, fun changes changes' lasts => ?_, ⟨fun isolated borrows => ?_, fun sound _ _ => own sound⟩,
    fun isolated borrows => ?_, fun sound _ _ same => own sound fun name member => last?_within same member⟩
  · exact (variableNames_nodup other).append (variableNames_nodup group) (variableNames_disjoint differ)
  · apply ofEnvironment_congr
    intro name member
    apply bytes?_congr
    rw [held?_after, held?_after, lasts name member]
  · obtain ⟨value, differ⟩ := ofEnvironment_borrowed borrows
    exact differ (isolated _ _ fun name member => last?_within ((foreign borrows value).trans rfl) member)
  · obtain ⟨value, differ⟩ := ofEnvironment_borrowed borrows
    exact differ (isolated _ _ ((foreign borrows value).trans rfl))

-- The variables of the group a begin like those of the group a_service.
theorem groups_isolated_service :
    let changes : List Change := [.set "A_SERVICE_PROVIDER" "x".toUTF8, .set "A_SERVICE_SCOPED" "7".toUTF8,
      .unset "A_SERVICE_PROVIDER", .set "A_SERVICE_SCOPED" "8".toUTF8, .set "A_SCOPED" "".toUTF8]
    let own : List Change := [.set "A_SERVICE_SCOPED" "7".toUTF8, .set "A_SERVICE_SCOPED" "8".toUTF8]
    let last : List Change := [.set "A_SERVICE_SCOPED" "8".toUTF8]
    upperCase "a" ≠ upperCase "a_service" ∧ (variableNames "a" ++ variableNames "a_service").Nodup ∧
      ¬ Borrows "a_service" ∧
      changes.filter (·.name ∈ variableNames "a_service") = own.filter (·.name ∈ variableNames "a_service") ∧
      ofEnvironment (after changes) "a_service" = ofEnvironment (after own) "a_service" ∧
      ofEnvironment (after changes) "a_service" = ofEnvironment (after last) "a_service" := by
  intro changes own last
  have differ : upperCase "a" ≠ upperCase "a_service" := by decide +kernel
  have plain : '=' ∉ (upperCase "a_service").toList := by decide +kernel
  have sound : ¬ Borrows "a_service" := fun borrows => plain borrows.1
  have names : variableNames "a_service" = ["A_SERVICE_CONSTRUCTOR", "A_SERVICE_SCOPED", "A_SERVICE_CONSTANT",
      "A_SERVICE_SERVICE_PROVIDER", "A_SERVICE_FACTORY"] := by decide +kernel
  have same : changes.filter (·.name ∈ variableNames "a_service") =
      own.filter (·.name ∈ variableNames "a_service") := by simp [changes, own, names, Change.name]
  have lasts : ∀ name ∈ variableNames "a_service", last? name changes = last? name last := by
    simp [changes, last, names, last?, Change.name]
  obtain ⟨distinct, _, byLast, byOwn⟩ := groups_isolated "a" "a_service"
  exact ⟨differ, distinct differ, sound, same, byOwn.mpr sound changes own same, byLast.mpr sound changes last lasts⟩

-- No variable of the group a_constructor=x can be set; one of the group a decides its table.
theorem groups_isolated_borrowed :
    let group := "a_constructor=x"
    let changes : List Change := [.set "A_CONSTRUCTOR" "X_CONSTRUCTOR=7".toUTF8]
    upperCase "a" ≠ upperCase group ∧ "A_CONSTRUCTOR" ∈ variableNames "a" ∧
      changes.filter (·.name ∈ variableNames group) = [] ∧ ofEnvironment (after []) group = .ok stock ∧
      ofEnvironment (after changes) group = .ok (stock.set .constructor 7) := by
  intro group changes
  have unset : ∀ s ∈ Setting.all, ((after []).source group).get s.name = none := by decide +kernel
  have found : ∀ s ∈ Setting.all, ((after changes).source group).get s.name =
      if s = .constructor then some "7" else none := by decide +kernel
  refine ⟨by decide +kernel, by decide +kernel, ?_, ?_, ?_⟩
  · have foreign : "A_CONSTRUCTOR" ∉ variableNames group := by decide +kernel
    simp [changes, Change.name, foreign]
  · rw [ofEnvironment, ofSource_ok]
    intro s
    rw [CostSource.Gives, unset s s.mem_all]
  · rw [ofEnvironment, ofSource_ok]
    intro s
    rw [CostSource.Gives, found s s.mem_all, get_set]
    by_cases first : s = .constructor
    · rw [if_pos first, if_pos first]
      exact (readCost_exact "7" 7).mp (by decide +kernel)
    · rw [if_neg first, if_neg first]

end CostTable

end ResolutionPlan
