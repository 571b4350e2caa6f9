import ResolutionPlan.Json.Lexeme

namespace ResolutionPlan.Json

open Text

-- A scalar, or nothing if the text goes on with a list or an object.
def skipScalar (text : List Char) : Except Failure (Option (List Char)) :=
  match text with
  | [] => failNext .endInValue []
  | 'n' :: rest => (readWord "ull".toList rest).map (some ·.2)
  | 't' :: rest => (readWord "rue".toList rest).map (some ·.2)
  | 'f' :: rest => (readWord "alse".toList rest).map (some ·.2)
  | '-' :: rest => (Number.skip rest).map some
  | '"' :: rest => (skipQuoted rest).map some
  | '[' :: _ => .ok none
  | '\x7b' :: _ => .ok none
  | c :: rest => if c.isDigit then (Number.skip (c :: rest)).map some else failNext .valueExpected (c :: rest)

-- The name of a member after its opening quote, and the colon.
def skipName (text : List Char) : Except Failure (List Char) := do
  let rest ← skipQuoted text
  match skipSpace rest with
  | [] => failNext .endInObject []
  | ':' :: rest => .ok rest
  | rest => failNext .colonExpected rest

-- The first argument only bounds the recursion: it is never shorter than the text.
mutual
def skipWithin : List Char → List Char → Except Failure (List Char)
  | [], _ => failNext .endInValue []
  | _ :: bound, text => do
    let text := skipSpace text
    match ← skipScalar text with
    | some rest => .ok rest
    | none =>
      match text with
      | '[' :: inside =>
        match skipSpace inside with
        | [] => failNext .endInList []
        | ']' :: rest => .ok rest
        | inside => do
          let rest ← skipWithin bound inside
          skipItems bound rest
      | _ =>
        match skipSpace text.tail with
        | [] => failNext .endInObject []
        | '\x7d' :: rest => .ok rest
        | '"' :: name => do
          let value ← skipName name
          let rest ← skipWithin bound value
          skipMembers bound rest
        | inside => failNext .keyNotText inside

def skipItems : List Char → List Char → Except Failure (List Char)
  | [], _ => failNext .endInList []
  | _ :: bound, text =>
    match skipSpace text with
    | [] => failNext .endInList []
    | ']' :: rest => .ok rest
    | ',' :: item => do
      let rest ← skipWithin bound item
      skipItems bound rest
    | rest => failNext .listCommaExpected rest

def skipMembers : List Char → List Char → Except Failure (List Char)
  | [], _ => failNext .endInObject []
  | _ :: bound, text =>
    match skipSpace text with
    | [] => failNext .endInObject []
    | '\x7d' :: rest => .ok rest
    | ',' :: member =>
      match skipSpace member with
      | [] => failNext .endInObject []
      | '"' :: name => do
        let value ← skipName name
        let rest ← skipWithin bound value
        skipMembers bound rest
      | rest => failNext .keyNotText rest
    | rest => failNext .objectCommaExpected rest
end

def skipValue (text : List Char) : Except Failure (List Char) :=
  skipWithin text text

def mismatch (expected : String) (text : List Char) : Except Failure α :=
  match text with
  | [] => failNext .endInValue []
  | 'n' :: rest => do
    let (_, rest) ← readWord "ull".toList rest
    failHere (.wrongType .null expected) rest
  | 't' :: rest => do
    let (_, rest) ← readWord "rue".toList rest
    failHere (.wrongType (.flag true) expected) rest
  | 'f' :: rest => do
    let (_, rest) ← readWord "alse".toList rest
    failHere (.wrongType (.flag false) expected) rest
  | '-' :: rest => do
    let (number, rest) ← Number.read true rest
    failHere (.wrongType number.found expected) rest
  | '"' :: rest => do
    let (found, rest) ← readQuoted rest
    failHere (.wrongType (.text found) expected) rest
  | '[' :: rest => failHere (.wrongType .sequence expected) ('[' :: rest)
  | '\x7b' :: rest => failHere (.wrongType .map expected) ('\x7b' :: rest)
  | c :: rest =>
    if c.isDigit then do
      let (number, rest) ← Number.read false (c :: rest)
      failHere (.wrongType number.found expected) rest
    else
      failNext .valueExpected (c :: rest)

def wordName : String := "usize"

def readNatural : Reader Nat := fun text => do
  let text := skipSpace text
  let (number, rest) ← match text with
    | '-' :: digits => Number.read true digits
    | c :: _ => if c.isDigit then Number.read false text else mismatch wordName text
    | [] => mismatch wordName []
  match number with
  | .natural n => .ok (n, rest)
  | .negative n => failHere (.wrongValue (.negative n) wordName) rest
  | .real digits => failHere (.wrongType (.real digits) wordName) rest

def mapped (f : α → β) (value : Reader α) : Reader β := fun text =>
  (value text).map fun (a, rest) => (f a, rest)

def readFlag : Reader Bool := fun text =>
  match skipSpace text with
  | 't' :: rest => (readWord "rue".toList rest).map fun (_, rest) => (true, rest)
  | 'f' :: rest => (readWord "alse".toList rest).map fun (_, rest) => (false, rest)
  | rest => mismatch "a boolean" rest

def readText : Reader String := fun text =>
  match skipSpace text with
  | '"' :: rest => readQuoted rest
  | rest => mismatch "a string" rest

def readNull : Reader Unit := fun text =>
  match skipSpace text with
  | 'n' :: rest => readWord "ull".toList rest
  | rest => mismatch "unit" rest

def readOption (value : Reader α) : Reader (Option α) := fun text =>
  match skipSpace text with
  | 'n' :: rest => (readWord "ull".toList rest).map fun (_, rest) => (none, rest)
  | rest => (value rest).map fun (a, rest) => (some a, rest)

def readColon : Reader Unit := fun text =>
  match skipSpace text with
  | [] => failNext .endInObject []
  | ':' :: rest => .ok ((), rest)
  | rest => failNext .colonExpected rest

-- A named alternative: it stands alone, or it carries a value.
inductive Variant (α : Type) where
  | bare (value : α)
  | carrying (value : Reader α)

abbrev Choice (α : Type) := List (String × Variant α)

namespace Choice

-- The name of an alternative after its opening quote; any other name is a failure.
def readName (choice : Choice α) : Reader (Variant α) := fun text => do
  let (name, rest) ← readQuoted text
  match choice.lookup name with
  | some variant => .ok (variant, rest)
  | none => failHere (.unknownVariant name (choice.map (·.1))) rest

def readKey (choice : Choice α) : Reader (Variant α) := fun text =>
  match skipSpace text with
  | [] => failNext .endInObject []
  | '"' :: name => choice.readName name
  | '\x7d' :: rest => failNext .valueExpected ('\x7d' :: rest)
  | rest => failNext .keyNotText rest

-- As a text, or as an object whose one member has the alternative's name; the value of an alternative
-- that stands alone is null.
def read (choice : Choice α) : Reader α := fun text =>
  match skipSpace text with
  | [] => failNext .endInValue []
  | '"' :: name => do
    let (variant, rest) ← choice.readName name
    match variant with
    | .bare value => .ok (value, rest)
    | .carrying _ => .error (.floating (.wrongType .bareVariant "newtype variant") rest)
  | '\x7b' :: inside => do
    let (variant, rest) ← choice.readKey inside
    let (_, rest) ← readColon rest
    let (value, rest) ← match variant with
      | .bare value => (readNull rest).map fun (_, rest) => (value, rest)
      | .carrying value => value rest
    match skipSpace rest with
    | [] => failHere .endInObject []
    | '\x7d' :: rest => .ok (value, rest)
    | rest => failHere .valueExpected rest
  | rest => failNext .valueExpected rest

end Choice

-- How a list or an object ends: the fault if it does not, and what is left in either case.
structure Closing where
  fault : Option Failure
  rest : List Char

def closeList (text : List Char) : Closing :=
  match skipSpace text with
  | [] => ⟨some (.placed .endInList [] 1), []⟩
  | ']' :: rest => ⟨none, rest⟩
  | ',' :: rest =>
    let rest := skipSpace rest
    ⟨some (.placed (if rest.head? = some ']' then .trailingComma else .trailingCharacters) rest 1), rest⟩
  | rest => ⟨some (.placed .trailingCharacters rest 1), rest⟩

def closeObject (text : List Char) : Closing :=
  match skipSpace text with
  | [] => ⟨some (.placed .endInObject [] 1), []⟩
  | '\x7d' :: rest => ⟨none, rest⟩
  | ',' :: rest => ⟨some (.placed .trailingComma (',' :: rest) 1), ',' :: rest⟩
  | rest => ⟨some (.placed .trailingCharacters rest 1), rest⟩

-- The inside of a list or an object with its end. A failure of the inside comes first, and one without
-- a place gets the place behind the end.
def closed (close : List Char → Closing) (inside : Except Failure (α × List Char)) :
    Except Failure (α × List Char) :=
  match inside with
  | .error (.floating cause rest) => .error (.placed cause (close rest).rest 0)
  | .error failure => .error failure
  | .ok (a, rest) =>
    match close rest with
    | ⟨some failure, _⟩ => .error failure
    | ⟨none, rest⟩ => .ok (a, rest)

-- Whether a list goes on, and the text at its next item or at its closing bracket.
def nextItem (first : Bool) (text : List Char) : Except Failure (Bool × List Char) :=
  match skipSpace text with
  | [] => failNext .endInList []
  | ']' :: rest => .ok (false, ']' :: rest)
  | ',' :: rest =>
    if first then .ok (true, ',' :: rest)
    else
      match skipSpace rest with
      | [] => failNext .endInValue []
      | ']' :: rest => failNext .trailingComma (']' :: rest)
      | rest => .ok (true, rest)
  | rest => if first then .ok (true, rest) else failNext .listCommaExpected rest

def nextName (first : Bool) (text : List Char) : Except Failure (Option String × List Char) :=
  let name (rest : List Char) : Except Failure (Option String × List Char) :=
    match rest with
    | [] => failNext .endInValue []
    | '"' :: quoted => (readQuoted quoted).map fun (name, rest) => (some name, rest)
    | '\x7d' :: rest => failNext .trailingComma ('\x7d' :: rest)
    | rest => failNext .keyNotText rest
  match skipSpace text with
  | [] => failNext .endInObject []
  | '\x7d' :: rest => .ok (none, '\x7d' :: rest)
  | ',' :: rest => if first then failNext .keyNotText (',' :: rest) else name (skipSpace rest)
  | rest => if first then name rest else failNext .objectCommaExpected rest

-- The first argument only bounds the recursion: it is never shorter than the text.
def readItems (item : Reader α) : List Char → Bool → Reader (List α)
  | [], _, _ => failNext .endInList []
  | _ :: bound, first, text => do
    match ← nextItem first text with
    | (false, rest) => .ok ([], rest)
    | (true, text) => do
      let (a, text) ← item text
      let (others, rest) ← readItems item bound false text
      .ok (a :: others, rest)

def readList (item : Reader α) : Reader (List α) := fun text =>
  match skipSpace text with
  | '[' :: inside => closed closeList (readItems item inside true inside)
  | rest => mismatch "a sequence" rest

def readAll (value : Reader α) (text : String) : Except Fault α :=
  let whole := text.toList
  match value whole with
  | .error failure => .error (.ofFailure whole failure)
  | .ok (a, rest) =>
    match skipSpace rest with
    | [] => .ok a
    | rest => .error (.ofFailure whole (.placed .trailingCharacters rest 1))

-- What becomes of a member: it is skipped, it was there before, or its value is read into the record.
inductive Slot (σ : Type) where
  | unknown
  | taken
  | vacant (value : Reader σ)

-- The same slot beside a field that the member does not belong to.
def Slot.into (found : Option α) : Slot σ → Slot (Option α × σ)
  | .unknown => .unknown
  | .taken => .taken
  | .vacant value => .vacant fun text => (value text).map fun (others, rest) => ((found, others), rest)

structure Fields (σ α : Type) where
  names : List String
  blank : σ
  slot : String → σ → Slot σ
  complete : σ → Except Cause α
  fromList : (Nat → Cause) → Nat → Reader α

-- One field: how it is read, and what stands for it in an object or in a list that ends before it.
structure Field (α : Type) where
  name : String
  value : Reader α
  ifMissing : Option α
  ifShort : Option α

namespace Field

def required (name : String) (value : Reader α) : Field α := ⟨name, value, none, none⟩

def optional (name : String) (value : Reader α) : Field (Option α) :=
  ⟨name, readOption value, some none, none⟩

def withDefault (name : String) (value : Reader α) (default : α) : Field α :=
  ⟨name, value, some default, some default⟩

end Field

namespace Fields

def nil : Fields Unit Unit where
  names := []
  blank := ()
  slot _ _ := .unknown
  complete _ := .ok ()
  fromList _ _ text := .ok ((), text)

def cons (field : Field α) (others : Fields σ β) : Fields (Option α × σ) (α × β) where
  names := field.name :: others.names
  blank := (none, others.blank)
  slot name
    | (found, state) =>
      if name = field.name then
        match found with
        | some _ => .taken
        | none => .vacant fun text => (field.value text).map fun (a, rest) => ((some a, state), rest)
      else
        (others.slot name state).into found
  complete
    | (found, state) =>
      match found <|> field.ifMissing with
      | some a => (others.complete state).map (a, ·)
      | none => .error (.missingField field.name)
  fromList short index text := do
    let (more, text) ← nextItem (index == 0) text
    let (a, text) ←
      if more then field.value text
      else
        match field.ifShort with
        | some a => .ok (a, text)
        | none => .error (.floating (short index) text)
    let (b, rest) ← others.fromList short (index + 1) text
    .ok ((a, b), rest)

def map (f : α → β) (fields : Fields σ α) : Fields σ β where
  names := fields.names
  blank := fields.blank
  slot := fields.slot
  complete state := (fields.complete state).map f
  fromList short index text := (fields.fromList short index text).map fun (a, rest) => (f a, rest)

-- The first argument of the recursion only bounds it: it is never shorter than the text.
def readMembers (fields : Fields σ α) : List Char → Bool → σ → Reader α
  | [], _, _, _ => failNext .endInObject []
  | _ :: bound, first, state, text => do
    match ← nextName first text with
    | (none, rest) =>
      match fields.complete state with
      | .ok a => .ok (a, rest)
      | .error cause => .error (.floating cause rest)
    | (some name, rest) =>
      match fields.slot name state with
      | .unknown => do
        let (_, rest) ← readColon rest
        let rest ← skipValue rest
        fields.readMembers bound false state rest
      | .taken => .error (.floating (.duplicateField name) rest)
      | .vacant value => do
        let (_, rest) ← readColon rest
        let (state, rest) ← value rest
        fields.readMembers bound false state rest

def expectation (fields : Fields σ α) (record : String) : String :=
  "struct " ++ record ++ " with " ++ String.ofList (decimal fields.names.length) ++ " elements"

def read (fields : Fields σ α) (record : String) : Reader α := fun text =>
  match skipSpace text with
  | '\x7b' :: inside => closed closeObject (fields.readMembers inside true fields.blank inside)
  | '[' :: inside =>
    closed closeList (fields.fromList (fun length => .wrongLength length (fields.expectation record)) 0 inside)
  | rest => mismatch ("struct " ++ record) rest

end Fields

end ResolutionPlan.Json
