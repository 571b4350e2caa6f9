import Mathlib.Data.List.Induction
import ResolutionPlan.Cost.Loading

namespace ResolutionPlan

open Text

structure CostText (text : List Char) (cost : Size) : Prop where
  parts : ∃ before sign digits after, text = before ++ (sign ++ digits ++ after) ∧
    (∀ c ∈ before, isBlank c = true) ∧ (sign = [] ∨ sign = ['+']) ∧ digits ≠ [] ∧
    (∀ c ∈ digits, c.isDigit = true) ∧ digitsValue digits = cost.toNat ∧ ∀ c ∈ after, isBlank c = true

namespace Text

theorem digit_visible {c : Char} (digit : c.isDigit = true) : isBlank c = false := by
  have range := Bool.and_eq_true_iff.mp digit
  have least : 48 ≤ c.toNat := of_decide_eq_true range.1
  have most : c.toNat ≤ 57 := of_decide_eq_true range.2
  simp [isBlank]
  omega

theorem dropWhile_visible {core : List Char} (visible : ∀ c ∈ core, isBlank c = false) (some : core ≠ [])
    (after : List Char) : (core ++ after).dropWhile isBlank = core ++ after := by
  cases core with
  | nil => exact absurd rfl some
  | cons c rest => simp [visible c List.mem_cons_self]

theorem trim_core {before core after : List Char} (blank : ∀ c ∈ before, isBlank c = true)
    (visible : ∀ c ∈ core, isBlank c = false) (some : core ≠ []) (blank' : ∀ c ∈ after, isBlank c = true) :
    trim (before ++ (core ++ after)) = core := by
  have reversed : ∀ c ∈ core.reverse, isBlank c = false := fun c member => visible c (List.mem_reverse.mp member)
  have blankReversed : ∀ c ∈ after.reverse, isBlank c = true := fun c member => blank' c (List.mem_reverse.mp member)
  have left := dropWhile_visible reversed (by simpa using some) []
  rw [List.append_nil] at left
  rw [trim, List.dropWhile_append_of_pos blank, dropWhile_visible visible some, List.reverse_append,
    List.dropWhile_append_of_pos blankReversed, left, List.reverse_reverse]

theorem trim_parts (text : List Char) : ∃ before after, text = before ++ (trim text ++ after) ∧
    (∀ c ∈ before, isBlank c = true) ∧ ∀ c ∈ after, isBlank c = true := by
  have taken (s : List Char) : ∀ c ∈ s.takeWhile isBlank, isBlank c = true := fun c member =>
    List.all_eq_true.mp List.all_takeWhile c member
  refine ⟨text.takeWhile isBlank, ((text.dropWhile isBlank).reverse.takeWhile isBlank).reverse, ?_, taken text, ?_⟩
  · rw [trim, ← List.reverse_append, List.takeWhile_append_dropWhile, List.reverse_reverse,
      List.takeWhile_append_dropWhile]
  · intro c member
    exact taken _ c (List.mem_reverse.mp member)

end Text

theorem readCost_trimmed (text : String) (cost : Size) : readCost text = some cost ↔
    ∃ sign digits, trim text.toList = sign ++ digits ∧ (sign = [] ∨ sign = ['+']) ∧ digits ≠ [] ∧
      (∀ c ∈ digits, c.isDigit = true) ∧ digitsValue digits = cost.toNat := by
  simp only [← Size.ofNat?_exact, ← List.all_eq_true]
  constructor
  · intro read
    unfold readCost at read
    dsimp only at read
    split at read
    · next rest same =>
      split at read
      · next given => exact ⟨['+'], rest, same, .inr rfl, given.1, given.2, read⟩
      · cases read
    · split at read
      · next given => exact ⟨[], _, rfl, .inl rfl, given.1, given.2, read⟩
      · cases read
  · rintro ⟨sign, digits, core, signed, some, all, value⟩
    unfold readCost
    rw [core]
    rcases signed with rfl | rfl
    · cases digits with
      | nil => exact absurd rfl some
      | cons c rest =>
        have notPlus : c ≠ '+' := by
          rintro rfl
          cases List.all_eq_true.mp all '+' List.mem_cons_self
        simp_all
    · simp_all

theorem readCost_exact (text : String) (cost : Size) : readCost text = some cost ↔ CostText text.toList cost := by
  rw [readCost_trimmed]
  constructor
  · rintro ⟨sign, digits, core, signed, some, digit, value⟩
    obtain ⟨before, after, whole, blank, blank'⟩ := trim_parts text.toList
    rw [core] at whole
    exact ⟨before, sign, digits, after, whole, blank, signed, some, digit, value, blank'⟩
  · rintro ⟨before, sign, digits, after, whole, blank, signed, some, digit, value, blank'⟩
    have visible : ∀ c ∈ sign ++ digits, isBlank c = false := by
      intro c member
      rcases List.mem_append.mp member with inSign | inDigits
      · rcases signed with rfl | rfl
        · cases inSign
        · rw [List.mem_singleton.mp inSign]
          rfl
      · exact digit_visible (digit c inDigits)
    have core := trim_core blank visible (by simp [some]) blank'
    rw [← whole] at core
    exact ⟨sign, digits, core, signed, some, digit, value⟩

theorem CostText.unique {text : List Char} {a b : Size} (first : CostText text a) (second : CostText text b) :
    a = b := by
  have read := (readCost_exact (String.ofList text) a).mpr (by rwa [String.toList_ofList])
  have read' := (readCost_exact (String.ofList text) b).mpr (by rwa [String.toList_ofList])
  exact Option.some.inj (read.symm.trans read')

namespace CostSource

def Bad (source : CostSource) (s : Setting) (text : String) : Prop :=
  source.get s.name = some text ∧ ∀ cost, ¬ CostText text.toList cost

-- What the source makes of an entry that was there before.
def Gives (source : CostSource) (s : Setting) (before cost : Size) : Prop :=
  match source.get s.name with
  | some text => CostText text.toList cost
  | none => cost = before

theorem cost?_error {source : CostSource} {s : Setting} {error : Error} (read : source.cost? s = .error error) :
    ∃ text, source.Bad s text ∧ error = .invalidCost (source.describe s.name) text := by
  unfold cost? at read
  split at read
  · cases read
  · next text given =>
    split at read
    · cases read
    · next notCost =>
      cases read
      refine ⟨text, ⟨given, fun cost spelled => ?_⟩, rfl⟩
      rw [(readCost_exact text cost).mpr spelled] at notCost
      cases notCost

theorem cost?_ok {source : CostSource} {s : Setting} {found : Option Size} (read : source.cost? s = .ok found) :
    (∀ text, ¬ source.Bad s text) ∧ ∀ before cost, source.Gives s before cost ↔ cost = found.getD before := by
  unfold cost? at read
  split at read
  · next none =>
    cases read
    refine ⟨fun text bad => ?_, fun before cost => ?_⟩
    · rw [bad.1] at none
      cases none
    · simp [Gives, none]
  · next text given =>
    split at read
    · next cost isCost =>
      cases read
      have spelled := (readCost_exact text cost).mp isCost
      refine ⟨fun other bad => ?_, fun before cost' => ?_⟩
      · obtain rfl := Option.some.inj (given.symm.trans bad.1)
        exact bad.2 cost spelled
      · have same : CostText text.toList cost' ↔ cost' = cost :=
          ⟨fun spelled' => spelled'.unique spelled, fun same => same ▸ spelled⟩
        simpa [Gives, given] using same
    · cases read

theorem Bad.not_gives {source : CostSource} {s : Setting} {text : String} (bad : source.Bad s text)
    (before cost : Size) : ¬ source.Gives s before cost := by
  unfold Gives
  rw [bad.1]
  exact bad.2 cost

end CostSource

namespace CostTable

-- One entry that is not bad: the loop goes on with a table that differs in this entry at most.
theorem applyAll_step {source : CostSource} {s : Setting} {found : Option Size} (read : source.cost? s = .ok found)
    (t : CostTable) (rest : List Setting) : ∃ next : CostTable,
      t.applyAll source (s :: rest) = next.applyAll source rest ∧
      ∀ r, next.get r = if r = s then found.getD (t.get s) else t.get r := by
  cases found with
  | none =>
    refine ⟨t, by rw [applyAll, read], fun r => ?_⟩
    split
    · next same => rw [same, Option.getD_none]
    · rfl
  | some cost => exact ⟨t.set s cost, by rw [applyAll, read], fun r => get_set t s r cost⟩

-- Each entry listed is given by the source, and the others stay.
def Applied (source : CostSource) (settings : List Setting) (t u : CostTable) : Prop :=
  (∀ s ∈ settings, source.Gives s (t.get s) (u.get s)) ∧ ∀ s, s ∉ settings → u.get s = t.get s

theorem applied_nil (source : CostSource) (t u : CostTable) : Applied source [] t u ↔ t = u := by
  constructor
  · rintro ⟨_, same⟩
    exact ext_get fun s => (same s List.not_mem_nil).symm
  · rintro rfl
    exact ⟨fun s member => (by cases member), fun s _ => rfl⟩

theorem applied_cons {source : CostSource} {s : Setting} {rest : List Setting} (alone : s ∉ rest) {t next u : CostTable}
    (gives : source.Gives s (t.get s) (u.get s) ↔ u.get s = next.get s) (others : ∀ r, r ≠ s → next.get r = t.get r) :
    Applied source (s :: rest) t u ↔ Applied source rest next u := by
  constructor
  · rintro ⟨given, kept⟩
    refine ⟨fun r member => ?_, fun r outside => ?_⟩
    · have differ : r ≠ s := fun same => alone (same ▸ member)
      rw [others r differ]
      exact given r (List.mem_cons_of_mem s member)
    · by_cases same : r = s
      · rw [same]
        exact gives.mp (given s List.mem_cons_self)
      · rw [others r same]
        exact kept r (List.not_mem_cons_of_ne_of_not_mem same outside)
  · rintro ⟨given, kept⟩
    refine ⟨fun r member => ?_, fun r outside => ?_⟩
    · rcases List.mem_cons.mp member with rfl | inRest
      · exact gives.mpr (kept r alone)
      · have differ : r ≠ s := fun same => alone (same ▸ inRest)
        rw [← others r differ]
        exact given r inRest
    · have differ := List.ne_of_not_mem_cons outside
      rw [kept r (List.not_mem_of_not_mem_cons outside), others r differ]

theorem applyAll_ok (source : CostSource) {settings : List Setting} (distinct : settings.Nodup) (t u : CostTable) :
    t.applyAll source settings = .ok u ↔ Applied source settings t u := by
  induction settings generalizing t with
  | nil =>
    rw [applyAll, applied_nil, Except.ok.injEq]
  | cons s rest ih =>
    obtain ⟨alone, distinctRest⟩ := List.nodup_cons.mp distinct
    cases read : source.cost? s with
    | error error =>
      obtain ⟨text, bad, _⟩ := CostSource.cost?_error read
      constructor
      · intro done
        rw [applyAll, read] at done
        cases done
      · rintro ⟨given, _⟩
        exact absurd (given s List.mem_cons_self) (bad.not_gives _ _)
    | ok found =>
      obtain ⟨next, step, entries⟩ := applyAll_step read t rest
      have gives : source.Gives s (t.get s) (u.get s) ↔ u.get s = next.get s := by
        rw [(CostSource.cost?_ok read).2, entries, if_pos rfl]
      have others (r : Setting) (differ : r ≠ s) : next.get r = t.get r := by rw [entries, if_neg differ]
      rw [step, ih distinctRest, applied_cons alone gives others]

-- The error tells the first of the entries that is bad.
def FirstBad (source : CostSource) (settings : List Setting) (error : Error) : Prop :=
  ∃ earlier s later text, settings = earlier ++ s :: later ∧ source.Bad s text ∧
    error = .invalidCost (source.describe s.name) text ∧ ∀ r ∈ earlier, ∀ text, ¬ source.Bad r text

theorem not_firstBad_nil (source : CostSource) (error : Error) : ¬ FirstBad source [] error := by
  rintro ⟨earlier, s, later, text, split, _⟩
  cases earlier <;> cases split

theorem firstBad_here {source : CostSource} {s : Setting} {text : String} (bad : source.Bad s text)
    (rest : List Setting) (error : Error) :
    FirstBad source (s :: rest) error ↔ error = .invalidCost (source.describe s.name) text := by
  constructor
  · rintro ⟨earlier, r, later, text', split, bad', message, none⟩
    cases earlier with
    | nil =>
      cases split
      obtain rfl := Option.some.inj (bad.1.symm.trans bad'.1)
      exact message
    | cons first earlier =>
      cases split
      exact absurd bad (none _ List.mem_cons_self text)
  · intro message
    exact ⟨[], s, rest, text, rfl, bad, message, fun r member => (by cases member)⟩

theorem firstBad_later {source : CostSource} {s : Setting} (good : ∀ text, ¬ source.Bad s text)
    (rest : List Setting) (error : Error) : FirstBad source (s :: rest) error ↔ FirstBad source rest error := by
  constructor
  · rintro ⟨earlier, r, later, text, split, bad, message, none⟩
    cases earlier with
    | nil =>
      cases split
      exact absurd bad (good text)
    | cons first earlier =>
      cases split
      exact ⟨earlier, r, later, text, rfl, bad, message, fun r member => none r (List.mem_cons_of_mem _ member)⟩
  · rintro ⟨earlier, r, later, text, split, bad, message, none⟩
    refine ⟨s :: earlier, r, later, text, by rw [split, List.cons_append], bad, message, fun r member => ?_⟩
    rcases List.mem_cons.mp member with rfl | inEarlier
    · exact good
    · exact none r inEarlier

theorem applyAll_error (source : CostSource) (settings : List Setting) (t : CostTable) (error : Error) :
    t.applyAll source settings = .error error ↔ FirstBad source settings error := by
  induction settings generalizing t with
  | nil =>
    refine iff_of_false ?_ (not_firstBad_nil source error)
    intro failed
    cases failed
  | cons s rest ih =>
    cases read : source.cost? s with
    | error found =>
      obtain ⟨text, bad, message⟩ := CostSource.cost?_error read
      rw [applyAll, read, firstBad_here bad, ← message]
      exact ⟨fun same => (Except.error.inj same).symm, fun same => congrArg Except.error same.symm⟩
    | ok found =>
      obtain ⟨next, step, _⟩ := applyAll_step read t rest
      rw [step, ih, firstBad_later (CostSource.cost?_ok read).1]

theorem applyAll_congr {source source' : CostSource} {settings : List Setting}
    (same : ∀ s ∈ settings, source.cost? s = source'.cost? s) (t : CostTable) :
    t.applyAll source settings = t.applyAll source' settings := by
  induction settings generalizing t with
  | nil => rfl
  | cons s rest ih =>
    have later := ih fun r member => same r (List.mem_cons_of_mem s member)
    rw [applyAll, applyAll, same s List.mem_cons_self]
    simp only [later]

theorem ofSource_ok (source : CostSource) (t : CostTable) :
    ofSource source = .ok t ↔ ∀ s, source.Gives s (stock.get s) (t.get s) := by
  refine (applyAll_ok source (by decide) stock t).trans ⟨?_, ?_⟩
  · intro ⟨given, _⟩ s
    exact given s s.mem_all
  · intro given
    exact ⟨fun s _ => given s, fun s outside => absurd s.mem_all outside⟩

theorem ofSource_error (source : CostSource) (error : Error) :
    ofSource source = .error error ↔ ∃ earlier s later text, Setting.all = earlier ++ s :: later ∧
      source.Bad s text ∧ error = .invalidCost (source.describe s.name) text ∧
      ∀ r ∈ earlier, ∀ text, ¬ source.Bad r text :=
  applyAll_error source Setting.all stock error

theorem ofSource_succeeds (source : CostSource) :
    (∃ t, ofSource source = .ok t) ↔ ∀ s text, ¬ source.Bad s text := by
  constructor
  · rintro ⟨t, made⟩ s text bad
    exact bad.not_gives _ _ ((ofSource_ok source t).mp made s)
  · intro good
    cases made : ofSource source with
    | ok t => exact ⟨t, rfl⟩
    | error error =>
      obtain ⟨_, s, _, text, _, bad, _⟩ := (ofSource_error source error).mp made
      exact absurd bad (good s text)

theorem ofSource_congr {source source' : CostSource} (described : source.describe = source'.describe)
    (same : ∀ s : Setting, source.get s.name = source'.get s.name) : ofSource source = ofSource source' := by
  apply applyAll_congr
  intro s _
  rw [CostSource.cost?, CostSource.cost?, same, described]

end CostTable

namespace Environment

theorem fromUTF8?_exact (bytes : ByteArray) (text : String) :
    String.fromUTF8? bytes = some text ↔ bytes = text.toUTF8 := by
  unfold String.fromUTF8?
  constructor
  · intro read
    split at read
    · cases read
      rfl
    · cases read
  · rintro rfl
    exact dif_pos text.isValidUTF8

def SetTo (e : Environment) (group : String) (s : Setting) (text : String) : Prop :=
  e.bytes? (variableName group s.name) = some text.toUTF8

theorem source_get (e : Environment) (group name : String) :
    (e.source group).get name = (e.bytes? (variableName group name)).bind String.fromUTF8? := by
  simp only [source, text?]

theorem get_source {e : Environment} {group : String} {s : Setting} {text : String} :
    (e.source group).get s.name = some text ↔ e.SetTo group s text := by
  rw [source_get, Option.bind_eq_some_iff, SetTo]
  constructor
  · rintro ⟨bytes, given, read⟩
    rw [given, (fromUTF8?_exact bytes text).mp read]
  · intro given
    exact ⟨_, given, (fromUTF8?_exact _ text).mpr rfl⟩

theorem source_bad {e : Environment} {group : String} {s : Setting} {text : String} :
    (e.source group).Bad s text ↔ e.SetTo group s text ∧ ∀ cost, ¬ CostText text.toList cost := by
  rw [CostSource.Bad, get_source]

theorem source_gives {e : Environment} {group : String} {s : Setting} {before cost : Size} :
    (e.source group).Gives s before cost ↔ (∃ text, e.SetTo group s text ∧ CostText text.toList cost) ∨
      ((∀ text, ¬ e.SetTo group s text) ∧ cost = before) := by
  unfold CostSource.Gives
  cases read : (e.source group).get s.name with
  | some text =>
    have given := get_source.mp read
    constructor
    · intro spelled
      exact .inl ⟨text, given, spelled⟩
    · rintro (⟨other, given', spelled⟩ | ⟨none, _⟩)
      · obtain rfl := Option.some.inj (read.symm.trans (get_source.mpr given'))
        exact spelled
      · exact absurd given (none text)
  | none =>
    have notSet : ∀ text, ¬ e.SetTo group s text := by
      intro text given
      rw [get_source.mpr given] at read
      cases read
    constructor
    · intro same
      exact .inr ⟨notSet, same⟩
    · rintro (⟨text, given, _⟩ | ⟨_, same⟩)
      · exact absurd given (notSet text)
      · exact same

end Environment

namespace CostTable

open Environment

-- Every environment, completely: which table it makes, or which variable it is refused for.
theorem ofEnvironment_exact (e : Environment) (group : String) :
    (∀ t, ofEnvironment e group = .ok t ↔ ∀ s,
      (∃ text, e.SetTo group s text ∧ CostText text.toList (t.get s)) ∨
        ((∀ text, ¬ e.SetTo group s text) ∧ t.get s = stock.get s)) ∧
    (∀ error, ofEnvironment e group = .error error ↔ ∃ earlier s later text,
      Setting.all = earlier ++ s :: later ∧ e.SetTo group s text ∧ (∀ cost, ¬ CostText text.toList cost) ∧
        error = .invalidCost (variableName group s.name) text ∧
        ∀ r ∈ earlier, ∀ text, e.SetTo group r text → ∃ cost, CostText text.toList cost) := by
  refine ⟨fun t => ?_, fun error => ?_⟩
  · rw [ofEnvironment, ofSource_ok]
    exact forall_congr' fun s => source_gives
  · rw [ofEnvironment, ofSource_error]
    have described (s : Setting) : (e.source group).describe s.name = variableName group s.name := rfl
    simp only [source_bad, and_assoc, described, not_and, Classical.not_forall_not]

-- A byte that begins no character: the variable is set to no cost, and is passed over.
theorem ofEnvironment_unreadable :
    let name := variableName defaultGroup Setting.constructor.name
    let bytes : ByteArray := ⟨#[0xFF]⟩
    let e := Environment.empty.set name bytes
    e.bytes? name = some bytes ∧ (∀ text : String, bytes ≠ text.toUTF8) ∧
      ofEnvironment e defaultGroup = .ok stock := by
  intro name bytes e
  have unreadable : String.fromUTF8? bytes = none := by decide +kernel
  have nothing : ∀ s ∈ Setting.all, (e.source defaultGroup).get s.name = none := by decide +kernel
  have passed : ∀ s ∈ Setting.all, (e.source defaultGroup).Gives s (stock.get s) (stock.get s) := by
    intro s listed
    simp [CostSource.Gives, nothing s listed]
  refine ⟨by decide +kernel, fun text same => ?_, (applyAll_ok _ (by decide) stock stock).mpr ⟨passed, fun _ _ => rfl⟩⟩
  rw [(fromUTF8?_exact bytes text).mpr same] at unreadable
  cases unreadable

end CostTable

namespace CostMap

def ofList (values : List (String × String)) : CostMap :=
  values.foldl (fun m (name, value) => m.insert name value) empty

def last? (name : String) (values : List (String × String)) : Option String :=
  (values.filter (·.1 == name)).getLast?.map (·.2)

theorem ofList_get (values : List (String × String)) (name : String) :
    (ofList values).source.get name = last? name values := by
  change (ofList values).get? name = last? name values
  induction values using List.reverseRecOn with
  | nil => rfl
  | append_singleton values value ih =>
    have extended : ofList (values ++ [value]) = (ofList values).insert value.1 value.2 := by simp [ofList]
    rw [extended, get?_insert, ih]
    by_cases same : value.1 = name
    · simp [last?, same]
    · simp [last?, same, Ne.symm same]

theorem ofList_bad {values : List (String × String)} {s : Setting} {text : String} :
    (ofList values).source.Bad s text ↔ last? s.name values = some text ∧ ∀ cost, ¬ CostText text.toList cost := by
  rw [CostSource.Bad, ofList_get]

theorem ofList_gives {values : List (String × String)} {s : Setting} {before cost : Size} :
    (ofList values).source.Gives s before cost ↔ (∃ text, last? s.name values = some text ∧ CostText text.toList cost) ∨
      (last? s.name values = none ∧ cost = before) := by
  unfold CostSource.Gives
  rw [ofList_get]
  cases last? s.name values <;> simp

-- The five last values decide, and nothing else does: neither other names, nor values that were replaced, nor what was
-- set before or after something else.
theorem last_values_decide (values : List (String × String)) :
    ((∃ t, CostTable.ofSource (ofList values).source = .ok t) ↔
      ∀ (s : Setting) (text : String), last? s.name values = some text → ∃ cost, CostText text.toList cost) ∧
    (∀ t, CostTable.ofSource (ofList values).source = .ok t ↔ ∀ s,
      (∃ text, last? s.name values = some text ∧ CostText text.toList (t.get s)) ∨
        (last? s.name values = none ∧ t.get s = CostTable.stock.get s)) ∧
    (∀ error, CostTable.ofSource (ofList values).source = .error error ↔ ∃ earlier s later text,
      Setting.all = earlier ++ s :: later ∧ last? s.name values = some text ∧ (∀ cost, ¬ CostText text.toList cost) ∧
        error = .invalidCost s.name text ∧
        ∀ r ∈ earlier, ∀ text, last? r.name values = some text → ∃ cost, CostText text.toList cost) ∧
    ∀ values', (∀ s : Setting, last? s.name values = last? s.name values') →
      CostTable.ofSource (ofList values).source = CostTable.ofSource (ofList values').source := by
  refine ⟨?_, ?_, ?_, ?_⟩
  · rw [CostTable.ofSource_succeeds]
    simp only [ofList_bad, not_and, Classical.not_forall_not]
  · intro t
    rw [CostTable.ofSource_ok]
    simp only [ofList_gives]
  · intro error
    have described (s : Setting) : (ofList values).source.describe s.name = s.name := rfl
    rw [CostTable.ofSource_error]
    simp only [ofList_bad, and_assoc, described, not_and, Classical.not_forall_not]
  · intro values' same
    have described : (ofList values).source.describe = (ofList values').source.describe := rfl
    apply CostTable.ofSource_congr described
    intro s
    rw [ofList_get, ofList_get, same]

-- Blanks that are not ASCII, a sign and leading zeros around the largest word; a bad value that is replaced; a name in
-- upper case. One more call makes the number too large.
theorem last_values_decide_limits :
    let largest := "\u0085+0018446744073709551615\u2003"
    let values := [("scoped", "lots"), ("SCOPED", ""), ("factory", largest), ("scoped", "7")]
    let values' := [("scoped", "7"), ("constructor ", "x"), ("factory", largest)]
    let beyond := values ++ [("factory", "18446744073709551616")]
    (∀ s : Setting, last? s.name values = last? s.name values') ∧
      CostTable.ofSource (ofList values').source = .ok ⟨6, 7, 4, 1, 18446744073709551615⟩ ∧
      CostTable.ofSource (ofList values).source = .ok ⟨6, 7, 4, 1, 18446744073709551615⟩ ∧
      CostTable.ofSource (ofList beyond).source = .error (.invalidCost "factory" "18446744073709551616") := by
  intro largest values values' beyond
  have same : ∀ s : Setting, last? s.name values = last? s.name values' := by
    intro s
    cases s <;> decide
  have made : CostTable.ofSource (ofList values').source = .ok ⟨6, 7, 4, 1, 18446744073709551615⟩ := by decide +kernel
  have refused : CostTable.ofSource (ofList beyond).source = .error (.invalidCost "factory" "18446744073709551616") := by
    decide +kernel
  obtain ⟨_, _, _, unseen⟩ := last_values_decide values
  exact ⟨same, made, (unseen values' same).trans made, refused⟩

end CostMap

end ResolutionPlan
