import ResolutionPlan.Text.Notation

namespace ResolutionPlan

open Text

namespace Json

-- What stands in the text where something else was expected.
inductive Found where
  | null
  | flag (b : Bool)
  | natural (n : Nat)
  | negative (n : Nat)
  | real (digits : String)
  | text (s : String)
  | sequence
  | map
  | bareVariant
  deriving DecidableEq

inductive Cause where
  | endInValue
  | endInObject
  | endInList
  | endInText
  | colonExpected
  | objectCommaExpected
  | listCommaExpected
  | valueExpected
  | wordExpected
  | numberMalformed
  | numberTooLarge
  | escapeUnknown
  | surrogateAlone
  | surrogateUnfinished
  | controlCharacter
  | keyNotText
  | trailingComma
  | trailingCharacters
  | missingField (name : String)
  | duplicateField (name : String)
  | unknownVariant (name : String) (known : List String)
  | wrongType (found : Found) (expected : String)
  | wrongValue (found : Found) (expected : String)
  | wrongLength (length : Nat) (expected : String)
  deriving DecidableEq

namespace Found

def message : Found → String
  | .null => "null"
  | .flag b => "boolean `" ++ (if b then "true" else "false") ++ "`"
  | .natural n => "integer `" ++ String.ofList (decimal n) ++ "`"
  | .negative n => "integer `-" ++ String.ofList (decimal n) ++ "`"
  | .real digits => "floating point `" ++ digits ++ "`"
  | .text s => "string " ++ quoted s
  | .sequence => "sequence"
  | .map => "map"
  | .bareVariant => "unit variant"

end Found

namespace Cause

def listed : List String → String
  | [] => ""
  | [name] => "`" ++ name ++ "`"
  | name :: rest => "`" ++ name ++ "`, " ++ listed rest

def message : Cause → String
  | .endInValue => "EOF while parsing a value"
  | .endInObject => "EOF while parsing an object"
  | .endInList => "EOF while parsing a list"
  | .endInText => "EOF while parsing a string"
  | .colonExpected => "expected `:`"
  | .objectCommaExpected => "expected `,` or `\x7d`"
  | .listCommaExpected => "expected `,` or `]`"
  | .valueExpected => "expected value"
  | .wordExpected => "expected ident"
  | .numberMalformed => "invalid number"
  | .numberTooLarge => "number out of range"
  | .escapeUnknown => "invalid escape"
  | .surrogateAlone => "lone leading surrogate in hex escape"
  | .surrogateUnfinished => "unexpected end of hex escape"
  | .controlCharacter => "control character (\\u0000-\\u001F) found while parsing a string"
  | .keyNotText => "key must be a string"
  | .trailingComma => "trailing comma"
  | .trailingCharacters => "trailing characters"
  | .missingField name => "missing field `" ++ name ++ "`"
  | .duplicateField name => "duplicate field `" ++ name ++ "`"
  | .unknownVariant name known => "unknown variant `" ++ name ++ "`, expected one of " ++ listed known
  | .wrongType found expected => "invalid type: " ++ found.message ++ ", expected " ++ expected
  | .wrongValue found expected => "invalid value: " ++ found.message ++ ", expected " ++ expected
  | .wrongLength length expected =>
    "invalid length " ++ String.ofList (decimal length) ++ ", expected " ++ expected

end Cause

-- Lines count from one. Columns count the bytes since the last line feed.
structure Position where
  line : Nat
  column : Nat
  deriving DecidableEq

namespace Position

def start : Position := ⟨1, 0⟩

def next (p : Position) (c : Char) : Position :=
  if c = '\n' then ⟨p.line + 1, 0⟩ else ⟨p.line, p.column + c.utf8Size⟩

def advance (p : Position) (bytes : Nat) : List Char → Position
  | [] => p
  | c :: rest =>
    if bytes = 0 then p
    else if bytes < c.utf8Size then ⟨p.line, p.column + bytes⟩
    else (p.next c).advance (bytes - c.utf8Size) rest

-- The place where `rest` is left of the whole text, and so many bytes further.
def ofRest (whole rest : List Char) (ahead : Nat) : Position :=
  ((whole.take (whole.length - rest.length)).foldl next start).advance ahead rest

def text (p : Position) : String :=
  " at line " ++ String.ofList (decimal p.line) ++ " column " ++ String.ofList (decimal p.column)

end Position

-- A failure is at its place from the start, or gets one from the record around it once that is closed.
inductive Failure where
  | placed (cause : Cause) (rest : List Char) (ahead : Nat)
  | floating (cause : Cause) (rest : List Char)
  deriving DecidableEq

-- A fault as reported. One that no record was around has no position.
structure Fault where
  cause : Cause
  position : Option Position
  deriving DecidableEq

namespace Fault

def message (f : Fault) : String :=
  match f.position with
  | some position => f.cause.message ++ position.text
  | none => f.cause.message

def ofFailure (whole : List Char) : Failure → Fault
  | .placed cause rest ahead => ⟨cause, some (.ofRest whole rest ahead)⟩
  | .floating cause _ => ⟨cause, none⟩

end Fault

abbrev Reader (α : Type) := List Char → Except Failure (α × List Char)

-- Failures after what has been read, and at the byte that comes next.
def failHere (cause : Cause) (rest : List Char) : Except Failure α :=
  .error (.placed cause rest 0)

def failNext (cause : Cause) (rest : List Char) : Except Failure α :=
  .error (.placed cause rest 1)

def isSpace (c : Char) : Bool :=
  c = ' ' || c = '\n' || c = '\t' || c = '\r'

def skipSpace (text : List Char) : List Char :=
  text.dropWhile isSpace

def readWord : List Char → Reader Unit
  | [], text => .ok ((), text)
  | _ :: _, [] => failHere .endInValue []
  | expected :: letters, c :: rest =>
    if c = expected then readWord letters rest else failNext .wordExpected (c :: rest)

def hexValue? (c : Char) : Option Nat :=
  if '0' ≤ c ∧ c ≤ '9' then some (c.toNat - '0'.toNat)
  else if 'a' ≤ c ∧ c ≤ 'f' then some (c.toNat - 'a'.toNat + 10)
  else if 'A' ≤ c ∧ c ≤ 'F' then some (c.toNat - 'A'.toNat + 10)
  else none

def hasBytes (bytes : Nat) : List Char → Bool
  | [] => bytes = 0
  | c :: rest => bytes ≤ c.utf8Size || hasBytes (bytes - c.utf8Size) rest

-- Four hexadecimal digits. Four bytes are taken before they are looked at.
def readHex (text : List Char) : Except Failure (Nat × List Char) :=
  let digits := (text.take 4).map hexValue?
  match digits with
  | [some a, some b, some c, some d] => .ok (((a * 16 + b) * 16 + c) * 16 + d, text.drop 4)
  | _ => if hasBytes 4 text then .error (.placed .escapeUnknown text 4) else failHere .endInText []

def isHighSurrogate (n : Nat) : Bool := 0xD800 ≤ n && n ≤ 0xDBFF

def isLowSurrogate (n : Nat) : Bool := 0xDC00 ≤ n && n ≤ 0xDFFF

def readLowHalf (high : Nat) (text : List Char) : Except Failure (Char × List Char) :=
  match text with
  | [] => failHere .endInText []
  | '\\' :: afterBackslash =>
    match afterBackslash with
    | [] => failHere .endInText []
    | 'u' :: digits => do
      let (low, rest) ← readHex digits
      if isLowSurrogate low then
        .ok (Char.ofNat (0x10000 + (high - 0xD800) * 0x400 + (low - 0xDC00)), rest)
      else
        failHere .surrogateAlone rest
    | _ => failNext .surrogateUnfinished afterBackslash
  | _ => failNext .surrogateUnfinished text

-- The character that an escape stands for; the backslash has been read.
def readEscape (text : List Char) : Except Failure (Char × List Char) :=
  match text with
  | [] => failHere .endInText []
  | '"' :: rest => .ok ('"', rest)
  | '\\' :: rest => .ok ('\\', rest)
  | '/' :: rest => .ok ('/', rest)
  | 'b' :: rest => .ok ('\x08', rest)
  | 'f' :: rest => .ok ('\x0c', rest)
  | 'n' :: rest => .ok ('\n', rest)
  | 'r' :: rest => .ok ('\r', rest)
  | 't' :: rest => .ok ('\t', rest)
  | 'u' :: digits => do
    let (code, rest) ← readHex digits
    if isLowSurrogate code then failHere .surrogateAlone rest
    else if isHighSurrogate code then readLowHalf code rest
    else .ok (Char.ofNat code, rest)
  | _ => failNext .escapeUnknown text

-- The characters up to the closing quote. The first argument only bounds the recursion: it is never
-- shorter than the text.
def readContents : List Char → Reader (List Char)
  | [], _ => failHere .endInText []
  | _ :: _, [] => failHere .endInText []
  | _ :: _, '"' :: rest => .ok ([], rest)
  | _ :: bound, '\\' :: rest => do
    let (c, rest) ← readEscape rest
    let (contents, rest) ← readContents bound rest
    .ok (c :: contents, rest)
  | _ :: bound, c :: rest =>
    if c.toNat < 0x20 then failNext .controlCharacter (c :: rest)
    else do
      let (contents, rest) ← readContents bound rest
      .ok (c :: contents, rest)

def readQuoted (text : List Char) : Except Failure (String × List Char) := do
  let (contents, rest) ← readContents text text
  .ok (String.ofList contents, rest)

-- A skipped text is not decoded: halves of a character may stand alone in it.
def skipEscape (text : List Char) : Except Failure (List Char) :=
  match text with
  | [] => failHere .endInText []
  | 'u' :: digits => do
    let (_, rest) ← readHex digits
    .ok rest
  | c :: rest =>
    if c ∈ ['"', '\\', '/', 'b', 'f', 'n', 'r', 't'] then .ok rest else failNext .escapeUnknown text

def skipContents : List Char → List Char → Except Failure (List Char)
  | [], _ => failHere .endInText []
  | _ :: _, [] => failHere .endInText []
  | _ :: _, '"' :: rest => .ok rest
  | _ :: bound, '\\' :: rest => do
    let rest ← skipEscape rest
    skipContents bound rest
  | _ :: bound, c :: rest =>
    if c.toNat < 0x20 then failHere .controlCharacter (c :: rest) else skipContents bound rest

def skipQuoted (text : List Char) : Except Failure (List Char) :=
  skipContents text text

inductive Number where
  | natural (n : Nat)
  | negative (n : Nat)
  | real (digits : String)
  deriving DecidableEq

namespace Number

def found : Number → Found
  | .natural n => .natural n
  | .negative n => .negative n
  | .real digits => .real digits

def wordLimit : Nat := Nat.pow 2 64

def signedLimit : Nat := Nat.pow 2 63

def exponentLimit : Nat := Nat.pow 2 31

def digitValue (c : Char) : Nat := c.toNat - '0'.toNat

-- Takes digits while the number they make stays below the limit; answers the number and the digits left.
def takeBelow (limit value : Nat) : List Char → Nat × List Char
  | [] => (value, [])
  | c :: rest =>
    if value * 10 + digitValue c < limit then takeBelow limit (value * 10 + digitValue c) rest
    else (value, c :: rest)

def widestPower : Nat := 308

def powerOfTen (n : Nat) : Float := Float.ofScientific 1 false n

-- Multiplied or divided by a power of ten, as one rounded step, or several where the power is too small
-- for one; `none` if the result is too large.
def scale : Nat → Float → Int → Option Float
  | 0, x, _ => some x
  | steps + 1, x, power =>
    if power.natAbs ≤ widestPower then
      if 0 ≤ power then
        let scaled := x * powerOfTen power.natAbs
        if scaled.isInf then none else some scaled
      else
        some (x / powerOfTen power.natAbs)
    else if x == 0.0 then some x
    else if 0 ≤ power then none
    else scale steps (x / powerOfTen widestPower) (power + widestPower)

-- Four steps bring every word to zero.
def assemble (isNegative : Bool) (significand : Nat) (power : Int) (rest : List Char) :
    Except Failure (Number × List Char) :=
  match scale 4 (UInt64.ofNat significand).toFloat power with
  | some x => .ok (.real (String.ofList (realText (if isNegative then -x else x))), rest)
  | none => failHere .numberTooLarge rest

-- An exponent after its letter; `power` is that of the digits before it.
def readExponent (isNegative : Bool) (significand : Nat) (power : Int) (text : List Char) :
    Except Failure (Number × List Char) :=
  let (shrinks, unsigned) := match text with
    | '+' :: rest => (false, rest)
    | '-' :: rest => (true, rest)
    | _ => (false, text)
  match unsigned with
  | [] => failHere .endInValue []
  | c :: _ =>
    if c.isDigit then
      let digits := unsigned.takeWhile Char.isDigit
      let rest := unsigned.dropWhile Char.isDigit
      match takeBelow exponentLimit 0 digits with
      | (exponent, []) =>
        assemble isNegative significand (if shrinks then power - exponent else power + exponent) rest
      | (_, _ :: left) =>
        if significand ≠ 0 ∧ !shrinks then failHere .numberTooLarge (left ++ rest)
        else assemble isNegative 0 0 rest
    else
      failNext .numberMalformed unsigned

-- Decimals after their point. Digits that no longer fit into a word are dropped.
def readDecimals (isNegative : Bool) (significand : Nat) (power : Int) (text : List Char) :
    Except Failure (Number × List Char) :=
  let digits := text.takeWhile Char.isDigit
  let rest := text.dropWhile Char.isDigit
  match digits with
  | [] => failNext (if rest = [] then .endInValue else .numberMalformed) rest
  | _ =>
    let (value, left) := takeBelow wordLimit significand digits
    let lowered := power - (digits.length - left.length : Nat)
    match rest with
    | 'e' :: exponent | 'E' :: exponent => readExponent isNegative value lowered exponent
    | _ => assemble isNegative value lowered rest

-- What follows the integer digits. `dropped` of them did not fit into a word.
def readTail (isNegative : Bool) (significand dropped : Nat) (rest : List Char) :
    Except Failure (Number × List Char) :=
  match rest with
  | '.' :: decimals => readDecimals isNegative significand dropped decimals
  | 'e' :: exponent | 'E' :: exponent => readExponent isNegative significand dropped exponent
  | _ =>
    if dropped ≠ 0 then assemble isNegative significand dropped rest
    else if !isNegative then .ok (.natural significand, rest)
    else if 0 < significand ∧ significand ≤ signedLimit then .ok (.negative significand, rest)
    else assemble true significand 0 rest

def read (isNegative : Bool) (text : List Char) : Except Failure (Number × List Char) :=
  match text with
  | [] => failHere .endInValue []
  | '0' :: rest =>
    if rest.head?.any Char.isDigit then failNext .numberMalformed rest else readTail isNegative 0 0 rest
  | c :: _ =>
    if c.isDigit then
      let (significand, left) := takeBelow wordLimit 0 (text.takeWhile Char.isDigit)
      readTail isNegative significand left.length (text.dropWhile Char.isDigit)
    else
      failNext .numberMalformed text

end Number

-- Skipped numbers are checked for their form only. One that ends too early is malformed.
namespace Number

def skipExponent (text : List Char) : Except Failure (List Char) :=
  let unsigned := match text with
    | '+' :: rest => rest
    | '-' :: rest => rest
    | _ => text
  match unsigned with
  | [] => failHere .numberMalformed []
  | c :: _ => if c.isDigit then .ok (unsigned.dropWhile Char.isDigit) else failNext .numberMalformed unsigned

def skipTail (rest : List Char) : Except Failure (List Char) :=
  match rest with
  | '.' :: decimals =>
    if decimals.head?.any Char.isDigit then
      match decimals.dropWhile Char.isDigit with
      | 'e' :: exponent | 'E' :: exponent => skipExponent exponent
      | others => .ok others
    else
      failNext .numberMalformed decimals
  | 'e' :: exponent | 'E' :: exponent => skipExponent exponent
  | _ => .ok rest

def skip (text : List Char) : Except Failure (List Char) :=
  match text with
  | [] => failHere .numberMalformed []
  | '0' :: rest => if rest.head?.any Char.isDigit then failNext .numberMalformed rest else skipTail rest
  | c :: _ => if c.isDigit then skipTail (text.dropWhile Char.isDigit) else failNext .numberMalformed text

end Number

end Json

-- Numbers are the natural ones: nothing else is ever written.
inductive JsonValue where
  | null
  | flag (b : Bool)
  | number (n : Nat)
  | text (s : String)
  | array (items : List JsonValue)
  | object (members : List (String × JsonValue))

namespace JsonValue

def hexDigits (n : Nat) : List Char :=
  [(n / 16).digitChar, (n % 16).digitChar]

-- Quotes, backslashes and control characters are escaped; everything else stands for itself.
def escapeChar (c : Char) : List Char :=
  match c with
  | '"' => "\\\"".toList
  | '\\' => "\\\\".toList
  | '\x08' => "\\b".toList
  | '\t' => "\\t".toList
  | '\n' => "\\n".toList
  | '\x0c' => "\\f".toList
  | '\r' => "\\r".toList
  | _ => if c.toNat < 0x20 then "\\u00".toList ++ hexDigits c.toNat else [c]

def quote (s : String) : List Char :=
  '"' :: s.toList.flatMap escapeChar ++ ['"']

def word (b : Bool) : List Char :=
  if b then "true".toList else "false".toList

mutual
def compact : JsonValue → List Char
  | .null => "null".toList
  | .flag b => word b
  | .number n => decimal n
  | .text s => quote s
  | .array items => '[' :: compactItems true items ++ [']']
  | .object members => '\x7b' :: compactMembers true members ++ ['\x7d']

def compactItems (first : Bool) : List JsonValue → List Char
  | [] => []
  | item :: rest => (if first then [] else [',']) ++ item.compact ++ compactItems false rest

def compactMembers (first : Bool) : List (String × JsonValue) → List Char
  | [] => []
  | member :: rest => (if first then [] else [',']) ++ compactMember member ++ compactMembers false rest

def compactMember : String × JsonValue → List Char
  | (name, value) => quote name ++ ':' :: value.compact
end

def margin (level : Nat) : List Char :=
  List.replicate (2 * level) ' '

def line (first : Bool) (level : Nat) : List Char :=
  (if first then ['\n'] else [',', '\n']) ++ margin level

mutual
def prettyAt (level : Nat) : JsonValue → List Char
  | .null => "null".toList
  | .flag b => word b
  | .number n => decimal n
  | .text s => quote s
  | .array [] => "[]".toList
  | .array (item :: rest) =>
    '[' :: line true (level + 1) ++ item.prettyAt (level + 1) ++ prettyItems (level + 1) rest
      ++ '\n' :: margin level ++ [']']
  | .object [] => "\x7b\x7d".toList
  | .object (member :: rest) =>
    '\x7b' :: line true (level + 1) ++ prettyMember (level + 1) member ++ prettyMembers (level + 1) rest
      ++ '\n' :: margin level ++ ['\x7d']

def prettyItems (level : Nat) : List JsonValue → List Char
  | [] => []
  | item :: rest => line false level ++ item.prettyAt level ++ prettyItems level rest

def prettyMembers (level : Nat) : List (String × JsonValue) → List Char
  | [] => []
  | member :: rest => line false level ++ prettyMember level member ++ prettyMembers level rest

def prettyMember (level : Nat) : String × JsonValue → List Char
  | (name, value) => quote name ++ ':' :: ' ' :: value.prettyAt level
end

def toCompact (j : JsonValue) : String := String.ofList j.compact

def toPretty (j : JsonValue) : String := String.ofList (j.prettyAt 0)

end JsonValue

end ResolutionPlan
