import ResolutionPlan.Proofs.Cost.Loaders
import ResolutionPlan.Proofs.Json.AnyValue

namespace ResolutionPlan

open Text
open Json (Blank Ends Members WellFormed)

theorem Size.reader_exact {text gap rest left : List Char} {cost : Size} (formed : WellFormed .value text)
    (blank : Blank gap) (ends : Ends rest) :
    Size.reader (gap ++ (text ++ rest)) = .ok (cost, left) ↔ text = decimal cost.toNat ∧ left = rest := by
  constructor
  · intro done
    obtain ⟨⟨n, behind⟩, read, same⟩ := Json.of_map_ok done
    obtain ⟨number, fits, rfl⟩ := (Json.readNatural_exact formed blank ends).mp read
    cases same
    rw [UInt64.toNat_ofNat_of_lt' fits]
    exact ⟨number, rfl⟩
  · rintro ⟨rfl, rfl⟩
    exact Size.reads cost _ (.number _) gap left blank ends

namespace CostTable

theorem slot_unknown {name : String} (unknown : ∀ s : Setting, s.name ≠ name) (found : Setting → Option Size) :
    fields.slot name (stateOf found) = .unknown := by
  have apart (s : Setting) : name ≠ (field s).name := (unknown s).symm
  simp [fields, stateOf, Json.Fields.map, Json.Fields.cons, Json.Fields.nil, Json.Slot.into, apart]

theorem slot_taken {found : Setting → Option Size} {s : Setting} {cost : Size} (given : found s = some cost) :
    fields.slot s.name (stateOf found) = .taken := by
  cases s <;> simp [fields, stateOf, Json.Fields.map, Json.Fields.cons, Json.Slot.into, field, Json.Field.withDefault,
    Setting.name, given]

theorem slot_vacant {found : Setting → Option Size} {s : Setting} (vacant : found s = none) :
    ∃ value, fields.slot s.name (stateOf found) = .vacant value ∧
      ∀ text, value text = (Size.reader text).map fun (cost, rest) => (stateOf (noted found (s, cost)), rest) := by
  have same : Size.reader = (field s).value := rfl
  rw [same]
  cases s
  all_goals
    rw [stateOf, vacant]
    refine ⟨_, rfl, fun text => ?_⟩
    dsimp only
    cases (field _).value text <;> rfl

-- The entries that are found one after the other among the members of an object.
inductive Collects : (Setting → Option Size) → List (String × List Char) → (Setting → Option Size) → Prop
  | nil {found : Setting → Option Size} : Collects found [] found
  | other {found final : Setting → Option Size} {name : String} {text : List Char} {rest : List (String × List Char)}
      (unknown : ∀ s : Setting, s.name ≠ name) (others : Collects found rest final) :
      Collects found ((name, text) :: rest) final
  | entry {found final : Setting → Option Size} {s : Setting} {cost : Size} {rest : List (String × List Char)}
      (vacant : found s = none) (others : Collects (noted found (s, cost)) rest final) :
      Collects found ((s.name, decimal cost.toNat) :: rest) final

section collecting

variable {found final : Setting → Option Size} {members rest : List (String × List Char)} {text : List Char}

theorem collects_other {name : String} (unknown : ∀ s : Setting, s.name ≠ name) :
    Collects found ((name, text) :: rest) final ↔ Collects found rest final := by
  constructor
  · intro collects
    cases collects with
    | other _ others => exact others
    | entry => exact absurd rfl (unknown _)
  · exact .other unknown

theorem collects_entry {s : Setting} : Collects found ((s.name, text) :: rest) final ↔
    found s = none ∧ ∃ cost : Size, text = decimal cost.toNat ∧ Collects (noted found (s, cost)) rest final := by
  constructor
  · generalize named : (s.name, text) :: rest = members
    intro collects
    cases collects with
    | nil => cases named
    | other unknown =>
      cases named
      exact absurd rfl (unknown s)
    | entry vacant others =>
      simp only [List.cons.injEq, Prod.mk.injEq] at named
      obtain ⟨⟨same, number⟩, rfl⟩ := named
      obtain rfl := Setting.name_injective same
      exact ⟨vacant, _, number, others⟩
  · rintro ⟨vacant, cost, rfl, others⟩
    exact .entry vacant others

-- Each setting is the name of one member at most, and its value is a number that fits into a word.
structure Admissible (members : List (String × List Char)) : Prop where
  once : ∀ s : Setting, (members.map (·.1)).count s.name ≤ 1
  numbers : ∀ (s : Setting) text, (s.name, text) ∈ members → ∃ n < Size.limit, text = decimal n

namespace Admissible

theorem later {name : String} (admissible : Admissible ((name, text) :: rest)) : Admissible rest := by
  obtain ⟨once, numbers⟩ := admissible
  refine ⟨fun s => ?_, fun s value member => numbers s value (List.mem_cons_of_mem _ member)⟩
  have fewer := once s
  rw [List.map_cons, List.count_cons] at fewer
  omega

theorem alone {s : Setting} (admissible : Admissible ((s.name, text) :: rest)) : s.name ∉ rest.map (·.1) := by
  intro again
  have twice := admissible.once s
  have some := List.count_pos_iff.mpr again
  rw [List.map_cons, List.count_cons_self] at twice
  omega

variable (admissible : Admissible rest)

include admissible

theorem other {name : String} (unknown : ∀ s : Setting, s.name ≠ name) : Admissible ((name, text) :: rest) := by
  refine ⟨fun s => ?_, fun s value member => ?_⟩
  · rw [List.map_cons, List.count_cons_of_ne (unknown s).symm]
    exact admissible.once s
  · rcases List.mem_cons.mp member with same | later
    · cases same
      exact absurd rfl (unknown s)
    · exact admissible.numbers s value later

theorem entry {r : Setting} (alone : r.name ∉ rest.map (·.1)) (cost : Size) :
    Admissible ((r.name, decimal cost.toNat) :: rest) := by
  refine ⟨fun s => ?_, fun s value member => ?_⟩
  · rw [List.map_cons]
    by_cases same : s = r
    · have none := List.count_eq_zero.mpr alone
      rw [same, List.count_cons_self]
      omega
    · have differ : r.name ≠ s.name := fun named => same (Setting.name_injective named).symm
      rw [List.count_cons_of_ne differ]
      exact admissible.once s
  · rcases List.mem_cons.mp member with same | later
    · exact ⟨cost.toNat, cost.toNat_lt, (Prod.mk.inj same).2⟩
    · exact admissible.numbers s value later

end Admissible

theorem collects_admissible (collects : Collects found members final) :
    Admissible members ∧ ∀ s : Setting, s.name ∈ members.map (·.1) → found s = none := by
  induction collects with
  | nil => exact ⟨⟨fun s => Nat.zero_le 1, fun s text member => by cases member⟩, fun s member => by cases member⟩
  | other unknown _ ih =>
    refine ⟨ih.1.other unknown, fun s member => ?_⟩
    rcases List.mem_cons.mp member with same | later
    · exact absurd same (unknown s)
    · exact ih.2 s later
  | @entry found _ r cost rest vacant _ ih =>
    obtain ⟨admissible, fresh⟩ := ih
    have alone : r.name ∉ rest.map (·.1) := by
      intro again
      have none := fresh r again
      rw [noted, if_pos rfl] at none
      cases none
    refine ⟨admissible.entry alone cost, fun s member => ?_⟩
    rcases List.mem_cons.mp member with same | later
    · rw [Setting.name_injective same]
      exact vacant
    · have none := fresh s later
      rw [noted] at none
      split at none
      · cases none
      · exact none

theorem admissible_collects (admissible : Admissible members)
    (fresh : ∀ s : Setting, s.name ∈ members.map (·.1) → found s = none) :
    ∃ final, Collects found members final := by
  induction members generalizing found with
  | nil => exact ⟨found, .nil⟩
  | cons member rest ih =>
    obtain ⟨name, text⟩ := member
    have freshLater (r : Setting) (later : r.name ∈ rest.map (·.1)) : found r = none :=
      fresh r (List.mem_cons_of_mem _ later)
    by_cases known : ∃ s : Setting, s.name = name
    · obtain ⟨s, rfl⟩ := known
      obtain ⟨n, fits, rfl⟩ := admissible.numbers s text List.mem_cons_self
      have freshRest : ∀ r : Setting, r.name ∈ rest.map (·.1) → noted found (s, UInt64.ofNat n) r = none := by
        intro r later
        have differ : r ≠ s := by
          rintro rfl
          exact admissible.alone later
        rw [noted, if_neg differ]
        exact freshLater r later
      obtain ⟨final, collects⟩ := ih admissible.later freshRest
      have value : (UInt64.ofNat n).toNat = n := UInt64.toNat_ofNat_of_lt' fits
      exact ⟨final, collects_entry.mpr ⟨fresh s List.mem_cons_self, UInt64.ofNat n, by rw [value], collects⟩⟩
    · obtain ⟨final, collects⟩ := ih admissible.later freshLater
      exact ⟨final, .other (fun s same => known ⟨s, same⟩) collects⟩

theorem collects_given (collects : Collects found members final) (s : Setting) (cost : Size) :
    final s = some cost ↔ found s = some cost ∨ (s.name, decimal cost.toNat) ∈ members := by
  induction collects with
  | nil => simp
  | other unknown _ ih =>
    rw [ih, List.mem_cons, Prod.mk.injEq]
    simp [unknown s]
  | @entry found _ r given _ vacant _ ih =>
    rw [ih, List.mem_cons, Prod.mk.injEq, ← or_assoc]
    refine or_congr_left ?_
    by_cases same : s = r
    · rw [same, noted, if_pos rfl, vacant]
      constructor
      · rintro ⟨⟩
        exact .inr ⟨rfl, rfl⟩
      · rintro (wrong | ⟨_, number⟩)
        · cases wrong
        · rw [UInt64.toNat_inj.mp (decimal_injective number)]
    · have differ : s.name ≠ r.name := fun named => same (Setting.name_injective named)
      simp [noted, same, differ]

end collecting

-- A vacant entry is filled where its value is a number that fits, and the reading goes on behind it.
theorem entry_read {found : Setting → Option Size} {s : Setting}
    {value : Json.Reader (Option Size × Option Size × Option Size × Option Size × Option Size × Unit)}
    (reads : ∀ text, value text = (Size.reader text).map fun (cost, rest) => (stateOf (noted found (s, cost)), rest))
    {text gap rest left : List Char} (formed : WellFormed .value text) (blank : Blank gap) (ends : Ends rest)
    {bound : List Char} {t : CostTable} :
    (value (gap ++ (text ++ rest)) >>= fun (next, rest) => fields.readMembers bound false next rest) = .ok (t, left) ↔
      ∃ cost : Size, text = decimal cost.toNat ∧
        fields.readMembers bound false (stateOf (noted found (s, cost))) rest = .ok (t, left) := by
  rw [reads]
  constructor
  · intro done
    obtain ⟨⟨state, behind⟩, read, after⟩ := Json.of_bind_ok done
    obtain ⟨⟨cost, behind'⟩, number, same⟩ := Json.of_map_ok read
    cases same
    obtain ⟨given, rfl⟩ := (Size.reader_exact formed blank ends).mp number
    exact ⟨cost, given, after⟩
  · rintro ⟨cost, given, after⟩
    rw [(Size.reader_exact formed blank ends).mpr ⟨given, rfl⟩]
    exact after

-- Member by member. The bound is longer than the list of members, so it never ends the reading.
theorem readMembers_exact {members : List (String × List Char)} {first : Bool} {text : List Char}
    (object : Members first members text) {found : Setting → Option Size} {bound : List Char}
    (enough : members.length < bound.length) {rest left : List Char} {t : CostTable} :
    fields.readMembers bound first (stateOf found) (text ++ rest) = .ok (t, left) ↔
      ∃ final, Collects found members final ∧ t = stock.override final ∧ left = '\x7d' :: rest := by
  induction object generalizing found bound with
  | @nil first gap blank =>
    cases bound with
    | nil => cases enough
    | cons b bound =>
      have closing : fields.readMembers (b :: bound) first (stateOf found) (gap ++ '\x7d' :: rest) =
          .ok (stock.override found, '\x7d' :: rest) := by
        simp [Json.Fields.readMembers, Json.nextName_close blank, fields_complete, bind, Except.bind]
      rw [List.append_assoc, List.singleton_append, closing]
      constructor
      · intro done
        cases done
        exact ⟨found, .nil, rfl, rfl⟩
      · rintro ⟨final, collects, rfl, rfl⟩
        cases collects
        rfl
  | @cons first lead pieces gap gap' text after name others leads named before behind value object ih =>
    cases bound with
    | nil => cases enough
    | cons b bound =>
      have fits := Nat.lt_of_succ_lt_succ enough
      have ends := Json.members_ends (Json.members_formed object) rest
      simp only [List.append_assoc, List.cons_append]
      rw [Json.readMembers_member leads named before]
      by_cases known : ∃ s : Setting, s.name = name
      · obtain ⟨s, rfl⟩ := known
        simp only [collects_entry]
        cases given : found s with
        | some cost => simp [slot_taken given]
        | none =>
          obtain ⟨reader, vacant, reads⟩ := slot_vacant given
          simp only [vacant, entry_read reads value behind ends, ih fits]
          constructor
          · rintro ⟨cost, number, final, collects, table, behind⟩
            exact ⟨final, ⟨trivial, cost, number, collects⟩, table, behind⟩
          · rintro ⟨final, ⟨_, cost, number, collects⟩, table, behind⟩
            exact ⟨cost, number, final, collects, table, behind⟩
      · have unknown : ∀ s : Setting, s.name ≠ name := fun s same => known ⟨s, same⟩
        have skipped := Json.skipValue_formed value behind ends
        simp only [slot_unknown unknown, skipped, collects_other unknown]
        exact ih fits

theorem reader_object {before inside rest left : List Char} {members : List (String × List Char)} {t : CostTable}
    (blank : Blank before) (object : Members true members inside) :
    reader (before ++ '\x7b' :: (inside ++ rest)) = .ok (t, left) ↔
      ∃ final, Collects (fun _ => none) members final ∧ t = stock.override final ∧ left = rest := by
  have opened : Json.skipSpace ('\x7b' :: (inside ++ rest)) = '\x7b' :: (inside ++ rest) := rfl
  have closes {t : CostTable} : Json.closed Json.closeObject (.ok (t, '\x7d' :: rest)) = .ok (t, rest) := rfl
  have enough : members.length < (inside ++ rest).length := by
    have fewer := Json.members_count object
    rw [List.length_append]
    omega
  rw [reader, Json.Fields.read, Json.skipSpace_gap blank, opened]
  change Json.closed _ (fields.readMembers (inside ++ rest) true (stateOf fun _ => none) (inside ++ rest)) = _ ↔ _
  constructor
  · intro done
    obtain ⟨behind, read⟩ := Json.closed_ok done
    obtain ⟨final, collects, rfl, rfl⟩ := (readMembers_exact object enough).mp read
    rw [read, closes] at done
    cases done
    exact ⟨final, collects, rfl, rfl⟩
  · rintro ⟨final, collects, rfl, rfl⟩
    rw [(readMembers_exact object enough).mpr ⟨final, collects, rfl, rfl⟩, closes]

theorem ofJson_collects {before inside after : List Char} {members : List (String × List Char)} (blank : Blank before)
    (object : Members true members inside) (blank' : Blank after) (t : CostTable) :
    ofJson (String.ofList (before ++ '\x7b' :: (inside ++ after))) = .ok t ↔
      ∃ final, Collects (fun _ => none) members final ∧ t = stock.override final := by
  have spent := Json.skipSpace_blank blank'
  have same : ofJson (String.ofList (before ++ '\x7b' :: (inside ++ after))) = .ok t ↔
      Json.readAll reader (String.ofList (before ++ '\x7b' :: (inside ++ after))) = .ok t := by
    unfold ofJson
    split
    · next read => rw [read, Except.ok.injEq, Except.ok.injEq]
    · next read =>
      rw [read]
      constructor <;> intro wrong <;> cases wrong
  rw [same, Json.readAll_exact]
  simp only [reader_object blank object]
  constructor
  · rintro ⟨_, ⟨final, collects, table, rfl⟩, _⟩
    exact ⟨final, collects, table⟩
  · rintro ⟨final, collects, table⟩
    exact ⟨after, ⟨final, collects, table, rfl⟩, spent⟩

theorem ofJson_refuses {text : String} (none : ¬ ∃ t, ofJson text = .ok t) :
    ∃ detail, ofJson text = .error (.config detail) := by
  unfold ofJson at none ⊢
  split
  · next t read =>
    rw [read] at none
    exact absurd ⟨t, rfl⟩ none
  · exact ⟨_, rfl⟩

-- Of any object the settings decide: whether there is a table, and each entry of it. What stands under other names, how
-- often, and in which order all members come makes no difference.
theorem ofJson_object {before inside after : List Char} {members : List (String × List Char)} (blank : Blank before)
    (object : Members true members inside) (blank' : Blank after) :
    let answer := ofJson (String.ofList (before ++ '\x7b' :: (inside ++ after)))
    ((∃ t, answer = .ok t) ↔ Admissible members) ∧
    (∀ t, answer = .ok t → ∀ s : Setting,
      (∀ n, (s.name, decimal n) ∈ members → (t.get s).toNat = n) ∧
        (s.name ∉ members.map (·.1) → t.get s = stock.get s)) ∧
    (¬ Admissible members → ∃ detail, answer = .error (.config detail)) := by
  intro answer
  have succeeds : (∃ t, answer = .ok t) ↔ Admissible members := by
    constructor
    · rintro ⟨t, read⟩
      obtain ⟨final, collects, _⟩ := (ofJson_collects blank object blank' t).mp read
      exact (collects_admissible collects).1
    · intro admissible
      obtain ⟨final, collects⟩ := admissible_collects admissible fun _ _ => rfl
      exact ⟨_, (ofJson_collects blank object blank' _).mpr ⟨final, collects, rfl⟩⟩
  refine ⟨succeeds, fun t read s => ?_, fun refused => ?_⟩
  · obtain ⟨final, collects, rfl⟩ := (ofJson_collects blank object blank' t).mp read
    rw [get_override]
    refine ⟨fun n member => ?_, fun absent => ?_⟩
    · obtain ⟨m, fits, same⟩ := (collects_admissible collects).1.numbers s _ member
      obtain rfl := decimal_injective same
      have value : (UInt64.ofNat n).toNat = n := UInt64.toNat_ofNat_of_lt' fits
      have given := (collects_given collects s (UInt64.ofNat n)).mpr (.inr (value.symm ▸ member))
      rw [given, Option.getD_some, value]
    · cases given : final s with
      | none => rfl
      | some cost =>
        rcases (collects_given collects s cost).mp given with wrong | member
        · cases wrong
        · exact absurd (List.mem_map_of_mem member) absent
  · exact ofJson_refuses fun some => refused (succeeds.mp some)

-- An escaped letter in the name of a setting, a number in every part and half a character in a list that is skipped, and
-- a name that comes twice.
theorem ofJson_object_nested :
    let skipped := "[-0.5e+3,\"\\ud800\"]".toList
    let members := [("x", skipped), ("scoped", "80".toList), ("x", "null".toList)]
    let inside := "\"x\":[-0.5e+3,\"\\ud800\"],\"sc\\u006fped\" : 80 ,\"x\":null\x7d".toList
    Members true members inside ∧ Admissible members ∧
      ∃ t, ofJson (String.ofList ([' '] ++ '\x7b' :: (inside ++ ['\n']))) = .ok t ∧ (t.get .scoped).toNat = 80 ∧
        t.get .factory = stock.get .factory := by
  intro skipped members inside
  have x : Json.SpellsText "x".toList ['x'] := .cons (.raw (by decide) (by decide) (by decide)) .nil
  have named : Json.SpellsText "scoped".toList "sc\\u006fped".toList :=
    .cons (.raw (by decide) (by decide) (by decide)) <| .cons (.raw (by decide) (by decide) (by decide)) <|
      .cons (.unit (.quad rfl rfl rfl rfl rfl)) <| .cons (.raw (by decide) (by decide) (by decide)) <|
        .cons (.raw (by decide) (by decide) (by decide)) <| .cons (.raw (by decide) (by decide) (by decide)) .nil
  have digit {c : Char} (known : c.isDigit = true) : Json.Digits [c] :=
    ⟨List.cons_ne_nil c [], List.forall_mem_singleton.mpr known⟩
  have number : Json.Literal (['-'] ++ (decimal 0 ++ ('.' :: ['5'] ++ 'e' :: (['+'] ++ ['3'])))) :=
    .literal (by decide) 0 (.some (digit rfl)) (.some (by decide) (by decide) (digit rfl))
  have half : WellFormed .value ('"' :: ("\\ud800".toList ++ ['"'])) :=
    .text (.unit (.quad rfl rfl rfl rfl rfl) .nil)
  have list := WellFormed.array (.item (.first Json.blank_nil) (.number number) <|
    .item (.later Json.blank_nil Json.blank_nil) half (.lastItem Json.blank_nil))
  have eighty : WellFormed .value ([] ++ (decimal 80 ++ ([] ++ []))) :=
    .number (.literal (by decide) 80 .none .none)
  have object : Members true members inside :=
    .cons (.first Json.blank_nil) x Json.blank_nil Json.blank_nil list <|
      .cons (.later Json.blank_nil Json.blank_nil) named Json.blank_space Json.blank_space eighty <|
        .cons (.later Json.blank_space Json.blank_nil) x Json.blank_nil Json.blank_nil .null (.nil Json.blank_nil)
  have admissible : Admissible members := by
    refine ⟨fun s => by cases s <;> decide, fun s text member => ⟨80, by decide, ?_⟩⟩
    cases s <;> simp [members, Setting.name] at member
    exact member
  have newline : Blank ['\n'] := Json.blank_cons rfl Json.blank_nil
  obtain ⟨succeeds, result, _⟩ := ofJson_object Json.blank_space object newline
  obtain ⟨t, read⟩ := succeeds.mpr admissible
  exact ⟨object, admissible, t, read, (result t read .scoped).1 80 (by decide), (result t read .factory).2 (by decide)⟩

end CostTable

end ResolutionPlan
