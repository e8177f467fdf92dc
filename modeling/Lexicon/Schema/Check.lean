import Lexicon.Check
import Lexicon.Schema.Basic
import Lexicon.Text.Base64
import Lexicon.Text.Grapheme

/-!
# Checking values

A schema checks a value at a path and gives the normalized value: absent fields with their
defaults, wrapped bytes decoded, tuples as lists, declared keys before the others. The first problem
ends the check. `follow` says what a reference does; everything else here is recursion on the
schema.
-/

namespace Lexicon

variable {σ : Type}

/-- Checks a quantity against its lower and then its upper bound. -/
def Bounds.check (b : Bounds) (quantity : Quantity) (actual : Value) (path : Path) :
    Check σ Unit := do
  match b.lower with
  | none => pure ()
  | some bound =>
    match actual.below? bound with
    | none => throw .wrongType
    | some true => Check.fail path (.outOfBounds quantity .lower bound actual)
    | some false => pure ()
  match b.upper with
  | none => pure ()
  | some bound =>
    match bound.below? actual with
    | none => throw .wrongType
    | some true => Check.fail path (.outOfBounds quantity .upper bound actual)
    | some false => pure ()

/-- Checks a text: its format, its pattern, its length in bytes, and its length in characters. -/
def TextRules.check (rules : TextRules) (s : String) (path : Path) : Check σ Unit := do
  match rules.format with
  | none => pure ()
  | some format =>
    if format.accepts s then pure ()
    else Check.fail path (.badFormat format.name format.message (.str s))
  match rules.pattern with
  | none => pure ()
  | some pattern =>
    if pattern.accepts s then pure ()
    else Check.fail path (.noMatch pattern.text (.str s))
  rules.bytes.check .textBytes (.int s.utf8ByteSize) path
  rules.graphemes.check .graphemes (.int (Text.Grapheme.count s.toList)) path

/-- The bytes that a value stands for: raw, or in base 64 under the key `$bytes`. -/
def readBytes (v : Value) (path : Path) : Check σ (List UInt8) :=
  match v with
  | .bytes b => pure b
  | .object entries =>
    match Entries.find? entries "$bytes" with
    | some (.str s) =>
      match Text.Base64.decode? s.toList with
      | some b => pure b
      | none => Check.fail (path ++ [.key "$bytes"]) .badBase64
    | _ => Check.fail path (.wrongShape .bytes v.kind)
  | _ => Check.fail path (.wrongShape .bytes v.kind)

/-- Checks the items of an array, from a position on. -/
def checkItems (check : Value → Path → Check σ Value) (path : Path) :
    Nat → List Value → Check σ (List Value)
  | _, [] => pure []
  | i, x :: xs => do
    let y ← check x (path ++ [.index i])
    return y :: (← checkItems check path (i + 1) xs)

/-- Checks the entries of an object, each by its key and value. -/
def checkEntries (check : String → Value → Path → Check σ Value) (path : Path) :
    List (String × Value) → Check σ (List (String × Value))
  | [] => pure []
  | (k, x) :: rest => do
    let y ← check k x (path ++ [.key k])
    return (k, y) :: (← checkEntries check path rest)

namespace Schema

mutual

/-- Checks a value at a path and gives the normalized value. -/
def checkWith (follow : Reference → Value → Path → Check σ Value) :
    Schema → Value → Path → Check σ Value
  | .any, v, _ | .noop, v, _ => pure v
  | .boolean, v, path =>
    match v with
    | .bool _ => pure v
    | _ => Check.fail path (.wrongShape .boolean v.kind)
  | .integer bounds, v, path =>
    match v with
    | .int _ => do
      bounds.check .number v path
      return v
    | _ => Check.fail path (.wrongShape .integer v.kind)
  | .string rules, v, path =>
    match v with
    | .str s => do
      rules.check s path
      return v
    | _ => Check.fail path (.wrongShape .string v.kind)
  | .literal value, v, path =>
    if v.identical value then pure v else Check.fail path (.notEqual value v)
  | .enum values, v, path =>
    if values.any v.identical then pure v else Check.fail path (.notOneOf values v)
  | .array items bounds, v, path =>
    match v with
    | .list xs | .tuple xs => do
      bounds.check .items (.int xs.length) path
      return .list (← checkItems (checkWith follow items) path 0 xs)
    | _ => Check.fail path (.wrongShape .array v.kind)
  | .map values keys, v, path =>
    match v with
    | .object entries => do
      let entries ← checkEntries (fun k x at_ => do
        checkKey follow keys k at_
        checkWith follow values x at_) path entries
      return .object entries
    | _ => Check.fail path (.wrongShape .object v.kind)
  | .object fields extra closed, v, path =>
    match v with
    | .object entries => do
      let declared ← checkFields follow fields entries path
      let others ← checkEntries (fun _ x at_ => checkExtra follow extra closed x at_) path
        (entries.filter fun e => !Entries.has fields e.1)
      return .object (declared ++ others)
    | _ => Check.fail path (.wrongShape .object v.kind)
  | .required inner, v, path | .withDefault inner _, v, path => checkWith follow inner v path
  | .nullable inner, v, path =>
    match v with
    | .null => pure .null
    | _ => checkWith follow inner v path
  | .anyOf alternatives description, v, path => do
    match ← Check.firstOf none (checkAll follow alternatives v path) with
    | .ok n => return n
    | .error last =>
      Check.fail path (.noAlternative description alternatives.length (last.map (·.nested)))
  | .bytes bounds, v, path => do
    let b ← readBytes v path
    bounds.check .rawBytes (.int b.length) path
    return .bytes b
  | .ref target, v, path => follow target v path
  | .union targets, v, path =>
    match v with
    | .object _ =>
      if targets.isEmpty then pure v
      else do
        match ← Check.firstOf none (targets.map fun target => follow target v path) with
        | .ok n => return n
        | .error last =>
          Check.fail path (.noReference (targets.map (·.text)) (last.map (·.nested)))
    | _ => Check.fail path (.wrongShape .object v.kind)
  | .tagged tag variants fallback, v, path =>
    match v with
    | .object entries =>
      match Entries.find? entries tag with
      | none => Check.fail (path ++ [.key tag]) .missing
      | some kind =>
        match kind.str?.bind (checkVariant follow variants) with
        | some check => check v path
        | none =>
          checkFallback follow fallback
            (.notOneOf (((variants.map (·.1)).mergeSort (· ≤ ·)).map .str) kind)
            (path ++ [.key tag]) v path
    | _ => Check.fail path (.wrongShape .object v.kind)

/-- Checks the declared fields of an object in order. -/
def checkFields (follow : Reference → Value → Path → Check σ Value) :
    List (String × Schema) → List (String × Value) → Path → Check σ (List (String × Value))
  | [], _, _ => pure []
  | (key, field) :: rest, entries, path =>
    match Entries.find? entries key with
    | some x => do
      let y ← checkWith follow field x (path ++ [.key key])
      return (key, y) :: (← checkFields follow rest entries path)
    | none =>
      match field.default? with
      | some value => return (key, value) :: (← checkFields follow rest entries path)
      | none =>
        if field.isRequired then Check.fail (path ++ [.key key]) .missing
        else checkFields follow rest entries path

/-- Checks a key of a map. -/
def checkKey (follow : Reference → Value → Path → Check σ Value) :
    Option Schema → String → Path → Check σ Unit
  | none, _, _ => pure ()
  | some keys, key, path => do
    let _ ← checkWith follow keys (.str key) path

/-- Checks the value of an undeclared key. -/
def checkExtra (follow : Reference → Value → Path → Check σ Value) :
    Option Schema → Bool → Value → Path → Check σ Value
  | _, true, _, path => Check.fail path .notAllowed
  | some extra, false, v, path => checkWith follow extra v path
  | none, false, v, _ => pure v

/-- The checks of the alternatives in order. -/
def checkAll (follow : Reference → Value → Path → Check σ Value) :
    List Schema → Value → Path → List (Check σ Value)
  | [], _, _ => []
  | s :: rest, v, path => checkWith follow s v path :: checkAll follow rest v path

/-- The check of the variant with a given tag value. -/
def checkVariant (follow : Reference → Value → Path → Check σ Value) :
    List (String × Schema) → String → Option (Value → Path → Check σ Value)
  | [], _ => none
  | (k, s) :: rest, kind =>
    if k = kind then some (checkWith follow s) else checkVariant follow rest kind

/-- Checks a value whose tag value has no variant. -/
def checkFallback (follow : Reference → Value → Path → Check σ Value) :
    Option Schema → Problem → Path → Value → Path → Check σ Value
  | some fallback, _, _, v, path => checkWith follow fallback v path
  | none, problem, place, _, _ => Check.fail place problem

end

/-- What the check of a whole value found: the normalized value or the failure. -/
abbrev Verdict := Except Failure Value

/-- Checks a whole value; a failure of the value is a result. -/
def verdict (follow : Reference → Value → Path → Check σ Value) (s : Schema) (v : Value) :
    Check σ Verdict :=
  Check.attempt (s.checkWith follow v [])

/-- The check of a whole value by a schema without references. -/
def plainVerdict (s : Schema) (v : Value) : Except Fault Verdict :=
  let unfollowed : Reference → Value → Path → Check Unit Value :=
    fun target _ _ => throw (.unresolved target.nsid target.fragment [])
  ((s.verdict unfollowed v).run ()).1

end Schema

end Lexicon
