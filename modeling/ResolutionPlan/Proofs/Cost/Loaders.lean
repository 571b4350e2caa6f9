import Mathlib.Data.List.Nodup
import ResolutionPlan.Proofs.Cost.Environment
import ResolutionPlan.Proofs.Graph.RoundTrip

namespace ResolutionPlan

open Text
open Json (Blank Spells Reads)

-- Exactly the given entries, in some order.
structure Lists (given : Setting → Option Size) (order : List (Setting × Size)) : Prop where
  distinct : (order.map (·.1)).Nodup
  exact : ∀ s cost, (s, cost) ∈ order ↔ given s = some cost

section writing

variable {τ γ : Type} (write : τ → Setting × Size → τ) (read : τ → Setting → γ) (written : Setting × Size → γ)

theorem read_unwritten (step : ∀ t e s, read (write t e) s = if s = e.1 then written e else read t s)
    {order : List (Setting × Size)} {s : Setting} (absent : s ∉ order.map (·.1)) (t : τ) :
    read (order.foldl write t) s = read t s := by
  induction order generalizing t with
  | nil => rfl
  | cons e rest ih =>
    rw [List.map_cons, List.mem_cons, not_or] at absent
    rw [List.foldl_cons, ih absent.2, step, if_neg absent.1]

theorem read_written (step : ∀ t e s, read (write t e) s = if s = e.1 then written e else read t s)
    {order : List (Setting × Size)} (distinct : (order.map (·.1)).Nodup) {e : Setting × Size} (member : e ∈ order)
    (t : τ) : read (order.foldl write t) e.1 = written e := by
  induction order generalizing t with
  | nil => cases member
  | cons first rest ih =>
    obtain ⟨alone, distinctRest⟩ := List.nodup_cons.mp distinct
    rw [List.foldl_cons]
    rcases List.mem_cons.mp member with rfl | later
    · rw [read_unwritten write read written step alone, step, if_pos rfl]
    · exact ih distinctRest later _

theorem Lists.read_all (step : ∀ t e s, read (write t e) s = if s = e.1 then written e else read t s)
    {given : Setting → Option Size} {order : List (Setting × Size)} (lists : Lists given order) (t : τ)
    (s : Setting) : read (order.foldl write t) s = ((given s).map fun cost => written (s, cost)).getD (read t s) := by
  cases known : given s with
  | some cost =>
    have member := (lists.exact s cost).mpr known
    exact read_written write read written step lists.distinct member t
  | none =>
    apply read_unwritten write read written step
    intro among
    obtain ⟨⟨r, cost⟩, member, rfl⟩ := List.mem_map.mp among
    rw [(lists.exact r cost).mp member] at known
    cases known

end writing

section sources

-- A way to write costs as texts; the decimal one is the plainest.
def Writes (text : Setting → Size → String) : Prop :=
  ∀ s cost, CostText (text s cost).toList cost

def decimalText (_ : Setting) (cost : Size) : String :=
  String.ofList (decimal cost.toNat)

theorem decimal_costText (cost : Size) : CostText (decimal cost.toNat) cost := by
  obtain ⟨c, rest, shape, _, _⟩ := Json.Number.decimal_cons cost.toNat
  have some : decimal cost.toNat ≠ [] := by
    rw [shape]
    exact List.cons_ne_nil c rest
  have digits : ∀ c ∈ decimal cost.toNat, c.isDigit = true := fun c member => isDigit_of_mem_decimal member
  refine ⟨[], [], decimal cost.toNat, [], by simp, ?_, .inl rfl, some, digits, digitsValue_decimal _, ?_⟩
  all_goals exact List.forall_mem_nil _

theorem writes_decimal : Writes decimalText := by
  intro s cost
  rw [decimalText, String.toList_ofList]
  exact decimal_costText cost

theorem Setting.name_injective {s r : Setting} (same : s.name = r.name) : s = r := by
  have found := ofName?_name s
  rw [same, ofName?_name] at found
  exact (Option.some.inj found).symm

namespace CostTable

variable {given : Setting → Option Size} {text : Setting → Size → String}

theorem ofSource_given (writes : Writes text) {source : CostSource}
    (texts : ∀ s, source.get s.name = (given s).map (text s)) : ofSource source = .ok (stock.override given) := by
  apply (ofSource_ok source _).mpr
  intro s
  rw [CostSource.Gives, texts, get_override]
  cases given s with
  | some cost => exact writes s cost
  | none => rfl

theorem ofSource_map (writes : Writes text) {order : List (Setting × Size)} (lists : Lists given order) :
    ofSource (order.foldl (fun m e => m.insert e.1.name (text e.1 e.2)) CostMap.empty).source =
      .ok (stock.override given) := by
  have step (m : CostMap) (e : Setting × Size) (s : Setting) : (m.insert e.1.name (text e.1 e.2)).get? s.name =
      if s = e.1 then some (text e.1 e.2) else m.get? s.name := by
    rw [CostMap.get?_insert]
    by_cases same : s = e.1
    · rw [if_pos same, if_pos (congrArg Setting.name same)]
    · rw [if_neg same, if_neg fun named => same (Setting.name_injective named)]
  apply ofSource_given writes
  intro s
  refine (lists.read_all _ (fun m s => m.get? s.name) (fun e => some (text e.1 e.2)) step CostMap.empty s).trans ?_
  cases given s <;> rfl

theorem ofEnvironment_texts (writes : Writes text) {e : Environment} {group : String}
    (held : ∀ s, e.bytes? (Environment.variableName group s.name) = (given s).map fun cost => (text s cost).toUTF8) :
    ofEnvironment e group = .ok (stock.override given) := by
  apply ofSource_given writes
  intro s
  rw [Environment.source_get, held]
  cases given s with
  | some cost => exact (Environment.fromUTF8?_exact _ _).mpr rfl
  | none => rfl

end CostTable

end sources

section members

-- What a reader of entries has found, with one entry more.
def noted (found : Setting → Option Size) (e : Setting × Size) : Setting → Option Size :=
  fun s => if s = e.1 then some e.2 else found s

theorem Lists.noted_all {given : Setting → Option Size} {order : List (Setting × Size)} (lists : Lists given order) :
    order.foldl noted (fun _ => none) = given := by
  funext s
  have step (found : Setting → Option Size) (e : Setting × Size) (s : Setting) :
      noted found e s = if s = e.1 then some e.2 else found s := rfl
  refine (lists.read_all noted (fun found s => found s) (fun e => some e.2) step (fun _ => none) s).trans ?_
  cases given s <;> rfl

namespace CostTable

def member (e : Setting × Size) : String × JsonValue := (e.1.name, .number e.2.toNat)

def stateOf (found : Setting → Option Size) :
    Option Size × Option Size × Option Size × Option Size × Option Size × Unit :=
  (found .constructor, found .scoped, found .constant, found .serviceProvider, found .factory, ())

theorem fields_accept {found : Setting → Option Size} {s : Setting} (vacant : found s = none) (cost : Size) :
    Json.Fields.Accepts fields (stateOf found) s.name (.number cost.toNat) (stateOf (noted found (s, cost))) := by
  have reads := Size.reads cost
  unfold fields
  apply Json.Fields.Accepts.map
  cases s
  all_goals rw [stateOf, vacant]
  · exact .own reads
  · exact .other (.own reads) (by decide) _
  · exact .other (.other (.own reads) (by decide) _) (by decide) _
  · exact .other (.other (.other (.own reads) (by decide) _) (by decide) _) (by decide) _
  · exact .other (.other (.other (.other (.own reads) (by decide) _) (by decide) _) (by decide) _) (by decide) _

theorem fields_fill {order : List (Setting × Size)} (distinct : (order.map (·.1)).Nodup)
    (found : Setting → Option Size) (vacant : ∀ e ∈ order, found e.1 = none) :
    Json.Fields.Fills fields (stateOf found) (order.map member) (stateOf (order.foldl noted found)) := by
  induction order generalizing found with
  | nil => exact .nil
  | cons e rest ih =>
    obtain ⟨alone, distinctRest⟩ := List.nodup_cons.mp distinct
    have later : ∀ r ∈ rest, noted found e r.1 = none := by
      intro r among
      have differ : r.1 ≠ e.1 := fun same => alone (List.mem_map.mpr ⟨r, among, same⟩)
      rw [noted, if_neg differ]
      exact vacant r (List.mem_cons_of_mem e among)
    exact (fields_accept (vacant e List.mem_cons_self) e.2).fills (ih distinctRest _ later)

theorem fields_complete (found : Setting → Option Size) :
    fields.complete (stateOf found) = .ok (stock.override found) := by
  simp [fields, stateOf, Json.Fields.map, Json.Fields.cons, Json.Fields.nil, field, Json.Field.withDefault, override,
    Except.map]

theorem reader_reads {given : Setting → Option Size} {order : List (Setting × Size)} (lists : Lists given order) :
    Reads reader (.object (order.map member)) (stock.override given) := by
  have fills := fields_fill lists.distinct (fun _ => none) fun _ _ => rfl
  rw [lists.noted_all] at fills
  exact Json.Fields.read_filled fills (fields_complete given) "EmitCostTable"

end CostTable

end members

namespace CostTable

open Environment

theorem foldl_set {given : Setting → Option Size} {order : List (Setting × Size)} (lists : Lists given order) :
    order.foldl (fun t e => t.set e.1 e.2) stock = stock.override given := by
  apply ext_get
  intro s
  have step (t : CostTable) (e : Setting × Size) (s : Setting) := get_set t e.1 s e.2
  rw [lists.read_all (fun t e => t.set e.1 e.2) get (·.2) step, get_override, Option.map_id']

theorem ofJson_members {given : Setting → Option Size} {order : List (Setting × Size)} (lists : Lists given order)
    {before document after : List Char} (blank : Blank before)
    (spelled : Spells (.object (order.map fun e => (e.1.name, .number e.2.toNat))) document) (blank' : Blank after) :
    ofJson (String.ofList (before ++ (document ++ after))) = .ok (stock.override given) := by
  rw [ofJson, Json.readAll_between (reader_reads lists) blank spelled blank']

theorem lists_get (t : CostTable) : Lists (fun s => some (t.get s)) (Setting.all.map fun s => (s, t.get s)) := by
  refine ⟨?_, fun s cost => ?_⟩
  · change Setting.all.Nodup
    decide
  · simp [Setting.mem_all]

theorem override_get (t u : CostTable) : t.override (fun s => some (u.get s)) = u := by
  apply ext_get
  intro s
  rw [get_override, Option.getD_some]

-- The stock table with the given entries comes from setting them one after the other; from a map with a text for
-- each; from an environment that holds such texts; and from an object with these members. A table is what its own
-- document says.
theorem loaders_agree (given : Setting → Option Size) :
    (∀ order, Lists given order → order.foldl (fun t e => t.set e.1 e.2) stock = stock.override given) ∧
    (Writes decimalText ∧ ∀ text, Writes text →
      (∀ order, Lists given order →
        ofSource (order.foldl (fun m e => m.insert e.1.name (text e.1 e.2)) CostMap.empty).source =
          .ok (stock.override given)) ∧
      ∀ e group, (∀ s, e.bytes? (variableName group s.name) = (given s).map fun cost => (text s cost).toUTF8) →
        ofEnvironment e group = .ok (stock.override given)) ∧
    (∀ order before document after, Lists given order → Blank before →
      Spells (.object (order.map fun e => (e.1.name, .number e.2.toNat))) document → Blank after →
        ofJson (String.ofList (before ++ (document ++ after))) = .ok (stock.override given)) ∧
    ∀ t : CostTable, ofJson t.toJson.toPretty = .ok t := by
  refine ⟨fun order lists => foldl_set lists, ⟨writes_decimal, fun text writes => ⟨fun order lists => ?_, ?_⟩⟩, ?_, ?_⟩
  · exact ofSource_map writes lists
  · intro e group held
    exact ofEnvironment_texts writes held
  · intro order before document after lists blank spelled blank'
    exact ofJson_members lists blank spelled blank'
  · intro t
    have read := ofJson_members t.lists_get Json.blank_nil (Json.pretty_spells 0 t.toJson) Json.blank_nil
    rwa [override_get, List.nil_append, List.append_nil] at read

-- The largest word, and a number between two neighbouring floating point numbers.
theorem loaders_agree_large :
    let given : Setting → Option Size := fun s =>
      match s with
      | .constructor => some 18446744073709551615
      | .serviceProvider => some 9007199254740993
      | _ => none
    let order : List (Setting × Size) := [(.serviceProvider, 9007199254740993), (.constructor, 18446744073709551615)]
    let environment := (Environment.empty.set "GEN_SERVICE_PROVIDER" "9007199254740993".toUTF8).set
      "GEN_CONSTRUCTOR" "18446744073709551615".toUTF8
    let document := JsonValue.prettyAt 0 (.object (order.map fun e => (e.1.name, .number e.2.toNat)))
    let table : CostTable := ⟨18446744073709551615, 64, 4, 9007199254740993, 16⟩
    Lists given order ∧ order.foldl (fun t e => t.set e.1 e.2) stock = table ∧
      ofSource (order.foldl (fun m e => m.insert e.1.name (decimalText e.1 e.2)) CostMap.empty).source = .ok table ∧
      ofEnvironment environment "gen" = .ok table ∧
      ofJson (String.ofList ([' '] ++ (document ++ ['\n']))) = .ok table := by
  intro given order environment document table
  have lists : Lists given order := by
    refine ⟨by decide, fun s cost => ?_⟩
    cases s <;> simp [order, given, eq_comm]
  have held : ∀ s, environment.bytes? (variableName "gen" s.name) =
      (given s).map fun cost => (decimalText s cost).toUTF8 := by
    intro s
    cases s <;> decide +kernel
  have spelled := Json.pretty_spells 0 (.object (order.map member))
  have same : stock.override given = table := by decide
  obtain ⟨built, ⟨decimal, loaded⟩, read, _⟩ := loaders_agree given
  obtain ⟨fromMap, fromEnvironment⟩ := loaded decimalText decimal
  rw [same] at built fromMap fromEnvironment read
  exact ⟨lists, built order lists, fromMap order lists, fromEnvironment environment "gen" held,
    read order [' '] document ['\n'] lists Json.blank_space spelled (Json.blank_cons rfl Json.blank_nil)⟩

end CostTable

end ResolutionPlan
