import Lexicon.Value.Literal

/-!
# Paths

The way from a value to one of its parts: a list of keys and indices, outermost first.
-/

namespace Lexicon

/-- One step of a path. -/
inductive Segment
  | key (name : String)
  | index (position : Nat)
  deriving DecidableEq, Repr, Inhabited

/-- The steps from a value to a part of it. -/
abbrev Path := List Segment

/-- A step as a value. -/
def Segment.toValue : Segment → Value
  | .key name => .str name
  | .index position => .int position

/-- The text of one step: numbers in brackets, anything else after a point. -/
def stepText : Value → String
  | .int n => "[" ++ toString n ++ "]"
  | .bool b => "[" ++ (Value.bool b).literal ++ "]"
  | v => "." ++ v.display

/-- The text of a list of steps, from the whole value on. -/
def stepsText (steps : List Value) : String :=
  "$" ++ String.join (steps.map stepText)

/-- The text of a path. -/
def Path.text (path : Path) : String :=
  stepsText (path.map Segment.toValue)

/-- The part of a value that a path leads to, if there is one. -/
def Path.follow? : Path → Value → Option Value
  | [], v => some v
  | .key name :: rest, .object entries => (Entries.find? entries name).bind (follow? rest)
  | .index i :: rest, .list items | .index i :: rest, .tuple items =>
    items[i]?.bind (follow? rest)
  | _ :: _, _ => none

/-- A path that goes on leads to a part of the part that its beginning leads to. -/
theorem Path.follow?_append (p q : Path) (v : Value) :
    Path.follow? (p ++ q) v = (Path.follow? p v).bind (Path.follow? q) := by
  induction p generalizing v with
  | nil => rfl
  | cons step rest ih =>
    have ih' : follow? (rest ++ q) = fun v => (follow? rest v).bind (follow? q) := funext ih
    cases step <;> cases v <;> simp [follow?, Option.bind_assoc, ih']

end Lexicon
