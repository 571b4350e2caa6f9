import ResolutionPlan.Json.Reader

namespace ResolutionPlan.Json

theorem of_bind_ok {x : Except ε α} {f : α → Except ε β} {b : β} (done : x >>= f = .ok b) :
    ∃ a, x = .ok a ∧ f a = .ok b := by
  cases x with
  | error e => cases done
  | ok a => exact ⟨a, rfl, done⟩

theorem of_map_ok {x : Except ε α} {f : α → β} {b : β} (done : x.map f = .ok b) : ∃ a, x = .ok a ∧ f a = b := by
  cases x with
  | error e => cases done
  | ok a => exact ⟨a, rfl, Except.ok.inj done⟩

def Yields (value : Reader α) (holds : α → Prop) : Prop :=
  ∀ text a rest, value text = .ok (a, rest) → holds a

theorem Yields.anything (value : Reader α) : Yields value fun _ => True :=
  fun _ _ _ _ => trivial

namespace Number

theorem takeBelow_lt {limit value : Nat} (start : value < limit) (digits : List Char) :
    (takeBelow limit value digits).1 < limit := by
  induction digits generalizing value with
  | nil => exact start
  | cons c rest ih =>
    unfold takeBelow
    split
    · next below => exact ih below
    · exact start

-- A number with a point or an exponent is never an integer.
theorem assemble_real {isNegative : Bool} {significand : Nat} {power : Int} {rest left : List Char} {number : Number}
    (done : assemble isNegative significand power rest = .ok (number, left)) : ∃ digits, number = .real digits := by
  unfold assemble at done
  split at done
  · cases done
    exact ⟨_, rfl⟩
  · cases done

theorem readExponent_real {isNegative : Bool} {significand : Nat} {power : Int} {text left : List Char}
    {number : Number} (done : readExponent isNegative significand power text = .ok (number, left)) :
    ∃ digits, number = .real digits := by
  unfold readExponent at done
  split at done
  next shrinks unsigned _ =>
    split at done
    · cases done
    · split at done
      · dsimp only at done
        split at done
        · exact assemble_real done
        · split at done
          · cases done
          · exact assemble_real done
      · cases done

theorem readDecimals_real {isNegative : Bool} {significand : Nat} {power : Int} {text left : List Char}
    {number : Number} (done : readDecimals isNegative significand power text = .ok (number, left)) :
    ∃ digits, number = .real digits := by
  unfold readDecimals at done
  dsimp only at done
  split at done
  · cases done
  · split at done
    · exact readExponent_real done
    · exact readExponent_real done
    · exact assemble_real done

-- What is known of the digits before the tail when it makes a natural number of them.
structure Plain (isNegative : Bool) (significand dropped : Nat) (text : List Char) (n : Nat) (rest : List Char) :
    Prop where
  unsigned : isNegative = false
  whole : dropped = 0
  value : n = significand
  untouched : rest = text
  ended : ∀ c ∈ text.head?, c ∉ ['.', 'e', 'E']

theorem readTail_plain {isNegative : Bool} {significand dropped n : Nat} {text rest : List Char}
    (done : readTail isNegative significand dropped text = .ok (.natural n, rest)) :
    Plain isNegative significand dropped text n rest := by
  have notReal {found : Except Failure (Number × List Char)} (isReal : ∀ number left, found = .ok (number, left) →
      ∃ digits, number = .real digits) (same : found = .ok (.natural n, rest)) : False := by
    obtain ⟨digits, wrong⟩ := isReal _ _ same
    cases wrong
  unfold readTail at done
  split at done
  · exact absurd done (notReal fun _ _ => readDecimals_real)
  · exact absurd done (notReal fun _ _ => readExponent_real)
  · exact absurd done (notReal fun _ _ => readExponent_real)
  · next notPoint notSmall notLarge =>
    split at done
    · exact absurd done (notReal fun _ _ => assemble_real)
    · next whole =>
      split at done
      · next unsigned =>
        cases done
        refine ⟨by simpa using unsigned, Decidable.not_not.mp whole, rfl, rfl, ?_⟩
        intro c head
        cases text with
        | nil => cases head
        | cons d others =>
          cases head
          simp only [List.mem_cons, List.not_mem_nil, or_false, not_or]
          exact ⟨fun same => notPoint others (by rw [same]), fun same => notSmall others (by rw [same]),
            fun same => notLarge others (by rw [same])⟩
      · split at done
        · cases done
        · exact absurd done (notReal fun _ _ => assemble_real)

theorem read_natural_lt {isNegative : Bool} {text rest : List Char} {n : Nat}
    (done : Number.read isNegative text = .ok (.natural n, rest)) : n < wordLimit := by
  unfold Number.read at done
  split at done
  · cases done
  · split at done
    · cases done
    · rw [(readTail_plain done).value]
      decide
  · split at done
    · rw [(readTail_plain done).value]
      exact takeBelow_lt (by decide) _
    · cases done

end Number

theorem mismatch_fails (expected : String) (text : List Char) (a : α) (rest : List Char) :
    mismatch expected text ≠ .ok (a, rest) := by
  intro done
  have fails {β : Type} {x : Except Failure β} {f : β → Except Failure (α × List Char)} (same : x >>= f = .ok (a, rest))
      (never : ∀ b, f b ≠ .ok (a, rest)) : False := by
    obtain ⟨b, _, after⟩ := of_bind_ok same
    exact never b after
  unfold mismatch at done
  split at done
  · cases done
  iterate 5 exact fails done (fun b after => by cases after)
  · cases done
  · cases done
  · split at done
    · exact fails done (fun b after => by cases after)
    · cases done

-- The number in the digits that the text begins with, behind a sign if there is one.
def Begins (text : List Char) (n : Nat) (rest : List Char) : Prop :=
  (∃ digits, text = '-' :: digits ∧ Number.read true digits = .ok (.natural n, rest)) ∨
    ∃ c digits, text = c :: digits ∧ c.isDigit = true ∧ Number.read false text = .ok (.natural n, rest)

theorem readNatural_begins {text rest : List Char} {n : Nat} (done : readNatural text = .ok (n, rest)) :
    Begins (skipSpace text) n rest := by
  have natural {found : Except Failure (Number × List Char)}
      {next : Number × List Char → Except Failure (Nat × List Char)}
      (only : ∀ number left, next (number, left) = .ok (n, rest) → number = .natural n ∧ left = rest)
      (same : found >>= next = .ok (n, rest)) : found = .ok (.natural n, rest) := by
    obtain ⟨⟨number, left⟩, read, after⟩ := of_bind_ok same
    obtain ⟨rfl, rfl⟩ := only number left after
    exact read
  unfold readNatural at done
  dsimp only at done
  split at done
  · next digits shape =>
    exact .inl ⟨digits, shape, natural (fun number left after => by cases number <;> cases after; exact ⟨rfl, rfl⟩) done⟩
  · next c digits _ shape =>
    split at done
    · next digit =>
      have read := natural (fun number left after => by cases number <;> cases after; exact ⟨rfl, rfl⟩) done
      exact .inr ⟨c, digits, shape, digit, read⟩
    · have read := natural (fun number left after => by cases number <;> cases after; exact ⟨rfl, rfl⟩) done
      exact absurd read (mismatch_fails _ _ _ _)
  · have read := natural (fun number left after => by cases number <;> cases after; exact ⟨rfl, rfl⟩) done
    exact absurd read (mismatch_fails _ _ _ _)

theorem readNatural_yields : Yields readNatural (· < Number.wordLimit) := by
  intro text n rest done
  rcases readNatural_begins done with ⟨digits, _, read⟩ | ⟨c, digits, _, _, read⟩
  · exact Number.read_natural_lt read
  · exact Number.read_natural_lt read

theorem mapped_yields {value : Reader α} {holds : α → Prop} {holds' : β → Prop} {f : α → β}
    (yields : Yields value holds) (carried : ∀ a, holds a → holds' (f a)) : Yields (mapped f value) holds' := by
  intro text b rest done
  obtain ⟨⟨a, left⟩, read, same⟩ := of_map_ok done
  cases same
  exact carried a (yields _ _ _ read)

theorem closed_ok {close : List Char → Closing} {inside : Except Failure (α × List Char)} {a : α} {rest : List Char}
    (done : closed close inside = .ok (a, rest)) : ∃ left, inside = .ok (a, left) := by
  unfold closed at done
  split at done
  · cases done
  · cases done
  · split at done
    · cases done
    · cases done
      exact ⟨_, rfl⟩

theorem readItems_yields {item : Reader α} {holds : α → Prop} (yields : Yields item holds) (bound : List Char) :
    ∀ first, Yields (readItems item bound first) fun as => ∀ a ∈ as, holds a := by
  induction bound with
  | nil =>
    intro first text as rest done
    cases done
  | cons b bound ih =>
    intro first text as rest done
    obtain ⟨⟨more, left⟩, _, after⟩ := of_bind_ok done
    cases more with
    | false =>
      cases after
      intro a member
      cases member
    | true =>
      obtain ⟨⟨a, behind⟩, read, after⟩ := of_bind_ok after
      obtain ⟨⟨others, behind'⟩, readOthers, after⟩ := of_bind_ok after
      cases after
      intro a' member
      rcases List.mem_cons.mp member with rfl | later
      · exact yields _ _ _ read
      · exact ih false _ _ _ readOthers a' later

theorem readList_yields {item : Reader α} {holds : α → Prop} (yields : Yields item holds) :
    Yields (readList item) fun as => ∀ a ∈ as, holds a := by
  intro text as rest done
  unfold readList at done
  split at done
  · obtain ⟨left, read⟩ := closed_ok done
    exact readItems_yields yields _ _ _ _ _ read
  · exact absurd done (mismatch_fails _ _ _ _)

namespace Choice

def Holds (holds : α → Prop) : Variant α → Prop
  | .bare a => holds a
  | .carrying value => Yields value holds

theorem readName_yields {choice : Choice α} {holds : Variant α → Prop} (all : ∀ entry ∈ choice, holds entry.2) :
    Yields choice.readName holds := by
  intro text variant rest done
  obtain ⟨⟨name, left⟩, _, after⟩ := of_bind_ok done
  cases found : List.lookup name choice with
  | none =>
    simp only [found] at after
    cases after
  | some known =>
    simp only [found] at after
    cases after
    obtain ⟨before, behind, split, _⟩ := List.lookup_eq_some_iff.mp found
    exact all (name, variant) (split ▸ by simp)

theorem readKey_yields {choice : Choice α} {holds : Variant α → Prop} (all : ∀ entry ∈ choice, holds entry.2) :
    Yields choice.readKey holds := by
  intro text variant rest done
  unfold readKey at done
  split at done
  · cases done
  · exact readName_yields all _ _ _ done
  · cases done
  · cases done

theorem read_yields {choice : Choice α} {holds : α → Prop} (all : ∀ entry ∈ choice, Holds holds entry.2) :
    Yields choice.read holds := by
  intro text a rest done
  unfold read at done
  split at done
  · cases done
  · obtain ⟨⟨variant, left⟩, name, after⟩ := of_bind_ok done
    have held := readName_yields all _ _ _ name
    cases variant with
    | bare value =>
      cases after
      exact held
    | carrying value => cases after
  · obtain ⟨⟨variant, left⟩, key, after⟩ := of_bind_ok done
    have held := readKey_yields all _ _ _ key
    obtain ⟨⟨⟩, _, after⟩ := of_bind_ok after
    cases variant with
    | bare known =>
      obtain ⟨⟨value, left'⟩, carried, after⟩ := of_bind_ok after
      obtain ⟨_, _, same⟩ := of_map_ok carried
      cases same
      dsimp only at after
      split at after
      · cases after
      · cases after
        exact held
      · cases after
    | carrying reader =>
      obtain ⟨⟨value, left'⟩, carried, after⟩ := of_bind_ok after
      dsimp only at after
      split at after
      · cases after
      · cases after
        exact held _ _ _ carried
      · cases after
  · cases done

end Choice

namespace Fields

-- What is known of the fields read so far, and of the record in the end.
structure Keeps (fields : Fields σ α) (kept : σ → Prop) (holds : α → Prop) : Prop where
  blank : kept fields.blank
  slot : ∀ {name state value}, fields.slot name state = .vacant value → kept state → Yields value kept
  complete : ∀ {state a}, kept state → fields.complete state = .ok a → holds a
  fromList : ∀ short index, Yields (fields.fromList short index) holds

theorem Keeps.nil : Keeps Fields.nil (fun _ => True) (fun _ => True) where
  blank := trivial
  slot := fun _ _ => .anything _
  complete := fun _ _ => trivial
  fromList := fun _ _ => .anything _

-- A free place is that of the first field, or one of the others', which leaves the first field as it is.
theorem slot_cons {field : Field α} {others : Fields σ β} {name : String} {found : Option α} {state : σ}
    {value : Reader (Option α × σ)} (vacant : (cons field others).slot name (found, state) = .vacant value)
    {text rest : List Char} {next : Option α × σ} (done : value text = .ok (next, rest)) :
    (∃ a, field.value text = .ok (a, rest) ∧ next = (some a, state)) ∨
      ∃ inner filled, others.slot name state = .vacant inner ∧ inner text = .ok (filled, rest) ∧ next = (found, filled) := by
  simp only [cons] at vacant
  split at vacant
  · split at vacant
    · cases vacant
    · cases vacant
      obtain ⟨⟨a, left⟩, read, same⟩ := of_map_ok done
      cases same
      exact .inl ⟨a, read, rfl⟩
  · cases known : others.slot name state with
    | unknown => rw [known] at vacant; cases vacant
    | taken => rw [known] at vacant; cases vacant
    | vacant inner =>
      rw [known] at vacant
      cases vacant
      obtain ⟨⟨filled, left⟩, read, same⟩ := of_map_ok done
      cases same
      exact .inr ⟨inner, filled, rfl, read, rfl⟩

theorem complete_cons {field : Field α} {others : Fields σ β} {found : Option α} {state : σ} {a : α} {b : β}
    (done : (cons field others).complete (found, state) = .ok (a, b)) :
    (found = some a ∨ field.ifMissing = some a) ∧ others.complete state = .ok b := by
  simp only [cons] at done
  split at done
  · next given =>
    obtain ⟨b', completed, same⟩ := of_map_ok done
    cases same
    refine ⟨?_, completed⟩
    cases found with
    | none => exact .inr given
    | some found => exact .inl given
  · cases done

theorem fromList_cons {field : Field α} {others : Fields σ β} {short : Nat → Cause} {index : Nat}
    {text rest : List Char} {a : α} {b : β} (done : (cons field others).fromList short index text = .ok ((a, b), rest)) :
    ∃ middle left, (field.value middle = .ok (a, left) ∨ field.ifShort = some a) ∧
      others.fromList short (index + 1) left = .ok (b, rest) := by
  have others_ok {found : α} {left : List Char}
      (same : (others.fromList short (index + 1) left >>= fun read => Except.ok ((found, read.1), read.2)) =
        .ok ((a, b), rest)) : found = a ∧ others.fromList short (index + 1) left = .ok (b, rest) := by
    obtain ⟨⟨b', left'⟩, read, after⟩ := of_bind_ok same
    cases after
    exact ⟨rfl, read⟩
  obtain ⟨⟨more, middle⟩, _, after⟩ := of_bind_ok done
  cases more with
  | true =>
    obtain ⟨⟨found, left⟩, first, after⟩ := of_bind_ok after
    obtain ⟨rfl, read⟩ := others_ok after
    exact ⟨middle, left, .inl first, read⟩
  | false =>
    cases given : field.ifShort with
    | none =>
      simp only [given] at after
      cases after
    | some default =>
      simp only [given] at after
      obtain ⟨rfl, read⟩ := others_ok after
      exact ⟨middle, middle, .inr rfl, read⟩

theorem Keeps.cons {field : Field α} {others : Fields σ β} {holds : α → Prop} {kept : σ → Prop} {holds' : β → Prop}
    (yields : Yields field.value holds) (missing : ∀ a ∈ field.ifMissing, holds a)
    (short : ∀ a ∈ field.ifShort, holds a) (keeps : Keeps others kept holds') :
    Keeps (Fields.cons field others) (fun (found, state) => (∀ a ∈ found, holds a) ∧ kept state)
      (fun (a, b) => holds a ∧ holds' b) where
  blank := ⟨fun a member => (by cases member), keeps.blank⟩
  slot := by
    rintro name ⟨found, state⟩ value vacant ⟨foundHolds, stateKept⟩ text next rest done
    rcases slot_cons vacant done with ⟨a, read, rfl⟩ | ⟨inner, filled, known, read, rfl⟩
    · refine ⟨?_, stateKept⟩
      rintro b ⟨⟩
      exact yields _ _ _ read
    · exact ⟨foundHolds, keeps.slot known stateKept _ _ _ read⟩
  complete := by
    rintro ⟨found, state⟩ ⟨a, b⟩ ⟨foundHolds, stateKept⟩ done
    obtain ⟨given, completed⟩ := complete_cons done
    exact ⟨given.elim (foundHolds a) (missing a), keeps.complete stateKept completed⟩
  fromList := by
    rintro late index text ⟨a, b⟩ rest done
    obtain ⟨middle, left, given, read⟩ := fromList_cons done
    exact ⟨given.elim (yields _ _ _) (short a), keeps.fromList _ _ _ _ _ read⟩

theorem Keeps.required {value : Reader α} {others : Fields σ β} {holds : α → Prop} {kept : σ → Prop}
    {holds' : β → Prop} (name : String) (yields : Yields value holds) (keeps : Keeps others kept holds') :
    Keeps (Fields.cons (.required name value) others) (fun (found, state) => (∀ a ∈ found, holds a) ∧ kept state)
      (fun (a, b) => holds a ∧ holds' b) :=
  .cons yields (fun a default => by cases default) (fun a default => by cases default) keeps

theorem Keeps.skip {field : Field α} {others : Fields σ β} {kept : σ → Prop} {holds' : β → Prop}
    (keeps : Keeps others kept holds') :
    Keeps (Fields.cons field others) (fun (found, state) => (∀ a ∈ found, True) ∧ kept state)
      (fun (_, b) => True ∧ holds' b) :=
  .cons (.anything _) (fun _ _ => trivial) (fun _ _ => trivial) keeps

theorem Keeps.map {fields : Fields σ α} {kept : σ → Prop} {holds : α → Prop} {holds' : β → Prop} {f : α → β}
    (keeps : Keeps fields kept holds) (carried : ∀ a, holds a → holds' (f a)) :
    Keeps (Fields.map f fields) kept holds' where
  blank := keeps.blank
  slot := keeps.slot
  complete := by
    intro state b stateKept done
    obtain ⟨a, completed, rfl⟩ := of_map_ok done
    exact carried a (keeps.complete stateKept completed)
  fromList := by
    intro late index text b rest done
    obtain ⟨⟨a, left⟩, read, same⟩ := of_map_ok done
    cases same
    exact carried a (keeps.fromList late index _ _ _ read)

theorem readMembers_yields {fields : Fields σ α} {kept : σ → Prop} {holds : α → Prop} (keeps : Keeps fields kept holds)
    (bound : List Char) : ∀ first state, kept state → Yields (fields.readMembers bound first state) holds := by
  induction bound with
  | nil =>
    intro first state _ text a rest done
    cases done
  | cons b bound ih =>
    intro first state stateKept text a rest done
    unfold readMembers at done
    obtain ⟨⟨name, left⟩, _, after⟩ := of_bind_ok done
    cases name with
    | none =>
      dsimp only at after
      split at after
      · next completed =>
        cases after
        exact keeps.complete stateKept completed
      · cases after
    | some name =>
      dsimp only at after
      split at after
      · obtain ⟨_, _, after⟩ := of_bind_ok after
        obtain ⟨_, _, after⟩ := of_bind_ok after
        exact ih false state stateKept _ _ _ after
      · cases after
      · next vacant =>
        obtain ⟨_, _, after⟩ := of_bind_ok after
        obtain ⟨⟨next, left'⟩, read, after⟩ := of_bind_ok after
        exact ih false next (keeps.slot vacant stateKept _ _ _ read) _ _ _ after

theorem read_yields {fields : Fields σ α} {kept : σ → Prop} {holds : α → Prop} (keeps : Keeps fields kept holds)
    (record : String) : Yields (fields.read record) holds := by
  intro text a rest done
  unfold read at done
  split at done
  · obtain ⟨left, read⟩ := closed_ok done
    exact readMembers_yields keeps _ true _ keeps.blank _ _ _ read
  · obtain ⟨left, read⟩ := closed_ok done
    exact keeps.fromList _ _ _ _ _ read
  · exact absurd done (mismatch_fails _ _ _ _)

end Fields

theorem readAll_yields {value : Reader α} {holds : α → Prop} (yields : Yields value holds) {text : String} {a : α}
    (done : readAll value text = .ok a) : holds a := by
  unfold readAll at done
  dsimp only at done
  split at done
  · cases done
  · next read =>
    split at done
    · cases done
      exact yields _ _ _ read
    · cases done

end ResolutionPlan.Json
