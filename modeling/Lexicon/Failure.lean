import Lexicon.Path

/-!
# Validation failures

What a value does wrong, and where. A problem is a cause: its sentence and the details that go
with it are computed from it.
-/

namespace Lexicon

/-- The shapes that a schema may ask for. -/
inductive Shape
  | boolean | integer | string | array | object | bytes
  deriving DecidableEq, Repr

/-- What a bound limits. -/
inductive Quantity
  /-- The number itself. -/
  | number
  /-- The length of a text in UTF-8 bytes. -/
  | textBytes
  /-- The number of user-perceived characters of a text. -/
  | graphemes
  /-- The number of items of an array. -/
  | items
  /-- The number of raw bytes. -/
  | rawBytes
  deriving DecidableEq, Repr

/-- Which of the two bounds of a quantity is meant. -/
inductive Side
  | lower | upper
  deriving DecidableEq, Repr

/-- What a value does wrong. -/
inductive Problem
  | wrongShape (expected : Shape) (actual : String)
  | outOfBounds (quantity : Quantity) (side : Side) (bound actual : Value)
  | badFormat (format message : String) (actual : Value)
  | noMatch (pattern : String) (actual : Value)
  | notEqual (expected actual : Value)
  | notOneOf (expected : List Value) (actual : Value)
  | missing
  | notAllowed
  | badBase64
  /-- No alternative accepts the value; `last` is the failure of the last one. -/
  | noAlternative (description : String) (count : Nat) (last : Option (List Segment × Problem))
  /-- No reference of a union accepts the value; `last` is the failure of the last one. -/
  | noReference (references : List String) (last : Option (List Segment × Problem))
  /-- A problem in the words of a caller. -/
  | stated (message : String) (details : List (String × Value))
  deriving Repr, Inhabited

/-- A problem and the path to the part that has it. -/
structure Failure where
  path : Path
  problem : Problem
  deriving Repr, Inhabited

/-- A detail that goes with a problem. -/
inductive Detail
  | value (v : Value)
  | failure (f : Failure)
  deriving Repr

namespace Shape

/-- What a value of another shape is told. -/
def message : Shape → String
  | .boolean => "should be a boolean"
  | .integer => "should be an integer"
  | .string => "should be a string"
  | .array => "should be an array"
  | .object => "should be an object"
  | .bytes => "should be an object of the form \x7b\"$bytes\": <base64>\x7d"

end Shape

namespace Quantity

/-- The sentence on a bound that is not kept. -/
def message (q : Quantity) (side : Side) (bound : Value) : String :=
  let limit := (match side with | .lower => "at least " | .upper => "at most ") ++ bound.display
  match q with
  | .number => "should be " ++ limit
  | .textBytes => "should be " ++ limit ++ " bytes long"
  | .graphemes => "should have " ++ limit ++ " graphemes"
  | .items => "should have " ++ limit ++ " items"
  | .rawBytes => "should be " ++ limit ++ " bytes"

/-- The name of a bound among the details. -/
def boundName : Quantity → Side → String
  | .number, .lower => "minimum"
  | .number, .upper => "maximum"
  | .graphemes, .lower => "min_graphemes"
  | .graphemes, .upper => "max_graphemes"
  | _, .lower => "min_length"
  | _, .upper => "max_length"

end Quantity

namespace Problem

/-- The sentence on a problem. -/
def message : Problem → String
  | .wrongShape expected _ => expected.message
  | .outOfBounds q side bound _ => q.message side bound
  | .badFormat _ message _ => message
  | .noMatch pattern _ => "should match " ++ Text.quoted pattern
  | .notEqual expected _ => "should equal " ++ expected.literal
  | .notOneOf expected _ => "should be one of " ++ (Value.list expected).literal
  | .missing => "is required"
  | .notAllowed => "is not an allowed key"
  | .badBase64 => "should be valid base64"
  | .noAlternative description _ _ => "should be a valid " ++ description
  | .noReference references _ =>
    "should match one of " ++ (Value.list (references.map .str)).literal
  | .stated message _ => message

/-- A failure that another one carries, as a detail. -/
private def lastDetail : Option (List Segment × Problem) → Detail
  | some (path, problem) => .failure ⟨path, problem⟩
  | none => .value .null

/-- The details of a problem in order. -/
def details : Problem → List (String × Detail)
  | .wrongShape _ actual => [("actual", .value (.str actual))]
  | .outOfBounds q side bound actual =>
    [(q.boundName side, .value bound), ("actual", .value actual)]
  | .badFormat format _ actual => [("format", .value (.str format)), ("actual", .value actual)]
  | .noMatch pattern actual => [("pattern", .value (.str pattern)), ("actual", .value actual)]
  | .notEqual expected actual => [("expected", .value expected), ("actual", .value actual)]
  | .notOneOf expected actual =>
    [("expected", .value (.list expected)), ("actual", .value actual)]
  | .missing | .notAllowed | .badBase64 => []
  | .noAlternative _ count last =>
    [("alternatives", .value (.int count)), ("last_error", lastDetail last)]
  | .noReference references last =>
    [("expected", .value (.list (references.map .str))), ("last_error", lastDetail last)]
  | .stated _ details => details.map fun d => (d.1, .value d.2)

end Problem

namespace Failure

/-- The path and the sentence. -/
def message (f : Failure) : String :=
  f.path.text ++ ": " ++ f.problem.message

/-- The failure as another one carries it. -/
def nested (f : Failure) : List Segment × Problem :=
  (f.path, f.problem)

end Failure

end Lexicon
