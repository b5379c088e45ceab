import Intake.Json.Writer
import Intake.Text.Quoted

/-!
What can be wrong with a text that should hold a document: its causes, their wording, and where in
the text each was noticed.
-/

set_option autoImplicit false
set_option relaxedAutoImplicit false

namespace Intake.Json

/-- A value that stands where another kind was wanted. -/
inductive Found where
  | null
  | bool (b : Bool)
  | number (n : Number)
  | string (s : String)
  | sequence
  | map
  deriving DecidableEq, Repr

def Found.message : Found → String
  | null => "null"
  | bool b => "boolean `" ++ String.ofList (boolText b) ++ "`"
  | number (.float x _) => "floating point `" ++ String.ofList x.shortestText ++ "`"
  | number n => "integer `" ++ String.ofList n.text ++ "`"
  | string s => "string " ++ Text.quoted s
  | sequence => "sequence"
  | map => "map"

/-- What a text may be in the middle of when it ends. -/
inductive Unfinished where
  | value
  | array
  | object
  | string
  deriving DecidableEq, Repr

/-- What is wrong with a text. -/
inductive Problem where
  /-- The text ends too early. -/
  | ends (within : Unfinished)
  | colonExpected
  | commaOrBracketExpected
  | commaOrBraceExpected
  | wordExpected
  | valueExpected
  | keyExpected
  | trailingComma
  | trailingCharacters
  | badNumber
  | numberOutOfRange
  | badEscape
  | loneSurrogate
  | unpairedEscape
  | controlCharacter
  | tooDeep
  /-- A value of another kind than wanted. -/
  | wrongKind (found : Found) (wanted : String)
  /-- A whole number outside the wanted range. -/
  | wrongValue (found : Found) (wanted : String)
  /-- An array that ends before the fields of a record do. -/
  | wrongLength (length : Nat) (record : String) (fields : Nat)
  | missingField (name : String)
  | duplicateField (name : String)
  /-- A name that is none of the names of a choice. -/
  | unknownName (name : String) (names : List String)
  deriving DecidableEq, Repr

/-- The three kinds of problems: text that ends too early, text that is no document, and a
document that does not say what is wanted. -/
inductive Problem.Class where
  | ending
  | form
  | content
  deriving DecidableEq, Repr

namespace Problem

def toClass : Problem → Class
  | ends _ => .ending
  | wrongKind .. | wrongValue .. | wrongLength .. | missingField _ | duplicateField _
  | unknownName .. => .content
  | _ => .form

def ticked (name : String) : String := "`" ++ name ++ "`"

/-- The names of a choice, as they are listed to a reader. -/
def alternatives : List String → String
  | [] => "there are no variants"
  | [a] => "expected " ++ ticked a
  | [a, b] => "expected " ++ ticked a ++ " or " ++ ticked b
  | names => "expected one of " ++ ", ".intercalate (names.map ticked)

def message : Problem → String
  | ends .value => "EOF while parsing a value"
  | ends .array => "EOF while parsing a list"
  | ends .object => "EOF while parsing an object"
  | ends .string => "EOF while parsing a string"
  | colonExpected => "expected `:`"
  | commaOrBracketExpected => "expected `,` or `]`"
  | commaOrBraceExpected => "expected `,` or `\x7d`"
  | wordExpected => "expected ident"
  | valueExpected => "expected value"
  | keyExpected => "key must be a string"
  | trailingComma => "trailing comma"
  | trailingCharacters => "trailing characters"
  | badNumber => "invalid number"
  | numberOutOfRange => "number out of range"
  | badEscape => "invalid escape"
  | loneSurrogate => "lone leading surrogate in hex escape"
  | unpairedEscape => "unexpected end of hex escape"
  | controlCharacter => "control character (\\u0000-\\u001F) found while parsing a string"
  | tooDeep => "recursion limit exceeded"
  | wrongKind found wanted => "invalid type: " ++ found.message ++ ", expected " ++ wanted
  | wrongValue found wanted => "invalid value: " ++ found.message ++ ", expected " ++ wanted
  | wrongLength length record fields =>
    "invalid length " ++ toString length ++ ", expected struct " ++ record ++ " with " ++
      toString fields ++ (if fields = 1 then " element" else " elements")
  | missingField name => "missing field " ++ ticked name
  | duplicateField name => "duplicate field " ++ ticked name
  | unknownName name names => "unknown variant " ++ ticked name ++ ", " ++ alternatives names

end Problem

/-- A problem and where it was noticed: `beyond` bytes after the beginning of `rest`, which is
what was left of the text. -/
structure Failure where
  problem : Problem
  rest : Text
  beyond : Nat
  deriving DecidableEq, Repr

namespace Failure

/-- A problem noticed just before what is left. -/
def before (problem : Problem) (rest : Text) : Failure := ⟨problem, rest, 0⟩

/-- A problem noticed at the first byte of what is left. -/
def upon (problem : Problem) (rest : Text) : Failure :=
  ⟨problem, rest, if rest.isEmpty then 0 else 1⟩

end Failure

def byteCount (s : Text) : Nat := (s.map Char.utf8Size).foldr (· + ·) 0

/-- A place in a text: the line from one, and the number of bytes of that line before it. -/
structure Place where
  line : Nat
  column : Nat
  deriving DecidableEq, Repr

namespace Place

/-- The place a number of bytes further on in a text. -/
def advance (place : Place) : (bytes : Nat) → Text → Place
  | _, [] => place
  | 0, _ => place
  | bytes, c :: rest =>
    if bytes < c.utf8Size then ⟨place.line, place.column + bytes⟩
    else
      advance (if c = '\n' then ⟨place.line + 1, 0⟩ else ⟨place.line, place.column + c.utf8Size⟩)
        (bytes - c.utf8Size) rest

end Place

/-- The place in the whole text where a failure was noticed. -/
def Failure.place (whole : Text) (failure : Failure) : Place :=
  Place.advance ⟨1, 0⟩ (byteCount whole - byteCount failure.rest + failure.beyond) whole

def Failure.located (whole : Text) (failure : Failure) : String :=
  let place := failure.place whole
  failure.problem.message ++ " at line " ++ toString place.line ++ " column " ++
    toString place.column

end Intake.Json
