import ResolutionPlan.Text.Notation

namespace ResolutionPlan.Yaml

open Text

def words : List String :=
  ["", "~", "null", "Null", "NULL", "true", "True", "TRUE", "false", "False", "FALSE",
    ".inf", ".Inf", ".INF", "+.inf", "+.Inf", "+.INF", "-.inf", "-.Inf", "-.INF", ".nan", ".NaN", ".NAN"]

def isSign (c : Char) : Bool := c == '+' || c == '-'

def unsigned (text : List Char) : List Char :=
  match text with
  | c :: rest => if isSign c then rest else text
  | [] => []

def isNegative (text : List Char) : Bool := text.head? == some '-'

def digitIn? (base : Nat) (c : Char) : Option Nat :=
  let value :=
    if '0' ≤ c ∧ c ≤ '9' then c.toNat - '0'.toNat
    else if 'a' ≤ c ∧ c ≤ 'f' then c.toNat - 'a'.toNat + 10
    else if 'A' ≤ c ∧ c ≤ 'F' then c.toNat - 'A'.toNat + 10
    else base
  if value < base then some value else none

def valueIn? (base : Nat) (digits : List Char) : Option Nat :=
  if digits = [] then none
  else digits.foldl (fun value c => value.bind fun n => (digitIn? base c).map (n * base + ·)) (some 0)

-- Integers have at most 128 bits.
def isInteger (text : List Char) : Bool :=
  let magnitude? : Option Nat := match unsigned text with
    | '0' :: 'x' :: digits => valueIn? 16 digits
    | '0' :: 'o' :: digits => valueIn? 8 digits
    | '0' :: 'b' :: digits => valueIn? 2 digits
    | digits => valueIn? 10 digits
  match magnitude? with
  | some n => if isNegative text then n ≤ Nat.pow 2 127 else n < Nat.pow 2 128
  | none => false

-- A zero before other digits: no number, and still not left plain.
def isPadded (text : List Char) : Bool :=
  match unsigned text with
  | '0' :: digit :: digits => (digit :: digits).all Char.isDigit
  | _ => false

-- Reals from here on round to infinity.
def realLimit : Nat := Nat.pow 2 1024 - Nat.pow 2 970

-- Whether the number mantissa · 10 ^ power stays below the limit. Away from the limit the number of its
-- digits says so.
def isFinite (mantissa : Nat) (power : Int) : Bool :=
  if mantissa = 0 then true
  else
    let places : Int := (decimal mantissa).length + power
    if 310 < places then false
    else if places < 300 then true
    else mantissa * Nat.pow 10 power.toNat < realLimit * Nat.pow 10 (-power).toNat

-- The power of ten that an exponent part stands for; no part is zero.
def exponent? (text : List Char) : Option Int :=
  match text with
  | [] => some 0
  | letter :: part =>
    if letter == 'e' || letter == 'E' then
      (valueIn? 10 (unsigned part)).map fun n => if isNegative part then -(n : Int) else n
    else none

def isReal (text : List Char) : Bool :=
  let body := unsigned text
  let whole := body.takeWhile Char.isDigit
  let (fraction, tail) := match body.dropWhile Char.isDigit with
    | '.' :: rest => (rest.takeWhile Char.isDigit, rest.dropWhile Char.isDigit)
    | rest => ([], rest)
  match whole ++ fraction, exponent? tail with
  | [], _ => false
  | _, none => false
  | digits, some power => isFinite (digitsValue digits) (power - fraction.length)

-- Whether a plain scalar would be taken for something else than a text.
def isResolved (text : List Char) : Bool :=
  words.any (·.toList == text) || isInteger text || isPadded text || isReal text

def isBreak (c : Char) : Bool :=
  c.toNat ∈ [0x0A, 0x0D, 0x85, 0x2028, 0x2029]

def isPrintable (c : Char) : Bool :=
  c == '\n' || (0x20 ≤ c.toNat && c.toNat ≤ 0x7E) || (0xA0 ≤ c.toNat && !(c.toNat ∈ [0xFEFF, 0xFFFE, 0xFFFF]))

def isGap (c : Char) : Bool :=
  c == ' ' || c == '\t' || c == '\x00' || isBreak c

def gapFollows (text : List Char) : Bool :=
  text.head?.all isGap

def hasNeighbours (related : Char → Char → Bool) (text : List Char) : Bool :=
  (text.zip text.tail).any fun (a, b) => related a b

def isSpecial (text : List Char) : Bool :=
  !text.all isPrintable

def spaceBeforeBreak (text : List Char) : Bool :=
  hasNeighbours (fun a b => a == ' ' && isBreak b) text

def spaceAfterBreak (text : List Char) : Bool :=
  hasNeighbours (fun a b => isBreak a && b == ' ') text

def openEdge (text : List Char) : Bool :=
  (text.head?.toList ++ text.getLast?.toList).any fun c => c == ' ' || isBreak c

-- A colon before a gap, or a hash after one; `before` is the character before the text.
def hasInnerIndicator (before : Char) : List Char → Bool
  | [] => false
  | c :: rest =>
    (c == ':' && gapFollows rest) || (c == '#' && isGap before) || hasInnerIndicator c rest

def startsDocument (text : List Char) : Bool :=
  "---".toList.isPrefixOf text || "...".toList.isPrefixOf text

-- Whether the text would be read as structure if it were plain.
def hasIndicator (text : List Char) : Bool :=
  startsDocument text ||
    match text with
    | [] => false
    | c :: rest =>
      "#,[]\x7b\x7d&*!|>'\"%@\x60".toList.contains c ||
        ((c == '?' || c == ':' || c == '-') && gapFollows rest) || hasInnerIndicator c rest

inductive Style where
  | plain
  | singleQuoted
  | doubleQuoted
  | literal
  deriving DecidableEq

-- Single quotes do not show special characters, nor spaces beside breaks.
def quotedStyle (text : List Char) : Style :=
  if isSpecial text || spaceBeforeBreak text || spaceAfterBreak text then .doubleQuoted else .singleQuoted

def styleOf (text : List Char) : Style :=
  if text.contains '\n' then
    if isSpecial text || spaceBeforeBreak text || text.getLast? == some ' ' then .doubleQuoted else .literal
  else if isResolved text then quotedStyle text
  else if openEdge text || isSpecial text || text.any isBreak || hasIndicator text then quotedStyle text
  else .plain

-- Scalars are set in by four spaces where they go on after a break.
def margin : List Char := List.replicate 4 ' '

def singleQuotedFrom (afterBreak : Bool) : List Char → List Char
  | [] => if afterBreak then margin else []
  | c :: rest =>
    if isBreak c then c :: singleQuotedFrom true rest
    else (if afterBreak then margin else []) ++ (if c = '\'' then ['\'', '\''] else [c]) ++ singleQuotedFrom false rest

def hexDigit (n : Nat) : Char := (Nat.digitChar (n % 16)).toUpper

def hex (n : Nat) : Nat → List Char
  | 0 => []
  | places + 1 => hex (n / 16) places ++ [hexDigit n]

def namedEscapes : List (Nat × Char) :=
  [(0x00, '0'), (0x07, 'a'), (0x08, 'b'), (0x09, 't'), (0x0A, 'n'), (0x0B, 'v'), (0x0C, 'f'), (0x0D, 'r'),
    (0x1B, 'e'), (0x22, '"'), (0x5C, '\\'), (0x85, 'N'), (0x2028, 'L'), (0x2029, 'P')]

def doubleQuotedChar (c : Char) : List Char :=
  match namedEscapes.lookup c.toNat with
  | some letter => ['\\', letter]
  | none =>
    if isPrintable c then [c]
    else if c.toNat ≤ 0xFF then '\\' :: 'x' :: hex c.toNat 2
    else if c.toNat ≤ 0xFFFF then '\\' :: 'u' :: hex c.toNat 4
    else '\\' :: 'U' :: hex c.toNat 8

-- The lines of a literal block. Lines without characters are not set in.
def literalFrom (afterBreak : Bool) : List Char → List Char
  | [] => []
  | c :: rest =>
    if isBreak c then c :: literalFrom true rest
    else (if afterBreak then margin else []) ++ c :: literalFrom false rest

def endsInBreak (text : List Char) : Bool :=
  text.getLast?.any isBreak

-- What becomes of the breaks at the end: none there, one, or more that are all kept.
def chomping (text : List Char) : List Char :=
  if !endsInBreak text then ['-']
  else if text.length = 1 || endsInBreak text.dropLast then ['+']
  else []

def literalHeader (text : List Char) : List Char :=
  '|' :: (if text.head?.any fun c => c == ' ' || isBreak c then ['2'] else []) ++ chomping text

-- A text after its key, with the end of its last line.
def scalarLine (text : String) : List Char :=
  let chars := text.toList
  match styleOf chars with
  | .plain => chars ++ ['\n']
  | .singleQuoted => '\'' :: singleQuotedFrom false chars ++ ['\'', '\n']
  | .doubleQuoted => '"' :: chars.flatMap doubleQuotedChar ++ ['"', '\n']
  | .literal =>
    literalHeader chars ++ '\n' :: literalFrom true chars ++ (if endsInBreak chars then [] else ['\n'])

end ResolutionPlan.Yaml
