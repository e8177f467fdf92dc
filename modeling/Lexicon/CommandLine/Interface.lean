import Lexicon.Text.Digit
import Lexicon.Text.Quoted
import Lexicon.Text.Split

/-!
# Interfaces of programs

An interface lists the switches and the operands that a program takes. Arguments are read in two
steps. First each argument is told by its form to be a switch or an operand; after a separator
everything is an operand. Then switches and operands are taken in order, where each switch may take
the argument after it. A long name may be shortened as long as only one name begins like it, and
short names may share a hyphen.
-/

namespace Lexicon.CommandLine

/-- What a switch does. -/
inductive SwitchKind
  /-- Asks for the help text. -/
  | help
  | flag
  /-- Takes a value. -/
  | value
  deriving DecidableEq, Repr

/-- A switch and its names, hyphens included. -/
structure Switch where
  names : List String
  kind : SwitchKind
  deriving Repr

/-- How many arguments an operand takes. -/
inductive OperandKind
  | one
  /-- At least one. -/
  | many
  /-- One of the given commands, and all arguments after it. It may be absent. -/
  | command (names : List String)
  deriving Repr

/-- An operand. One that takes more than a single argument stands last. -/
structure Operand where
  name : String
  kind : OperandKind
  deriving Repr

/-- What a program takes, and how it presents itself. -/
structure Interface where
  program : String
  usage : String
  help : String
  switches : List Switch
  operands : List Operand
  deriving Repr

/-- What can be wrong with arguments. -/
inductive Misuse
  | ambiguous (argument : String) (names : List String)
  | missingValue (switch : Switch)
  | unwantedValue (switch : Switch) (value : String)
  | unknownCommand (operand : Operand) (value : String) (names : List String)
  | missingOperands (names : List String)
  | unrecognized (arguments : List String)
  deriving Repr

/-- Why the arguments of a program are not read to their end. -/
inductive Stop
  | help
  | misuse (reason : Misuse)
  deriving Repr

/-- What was given: for each switch and operand, by its name, the arguments it took, in the order in
which they were taken; and the arguments that nothing took. -/
structure Arguments where
  given : List (String × List String) := []
  extras : List String := []
  deriving Repr

/-- The name by which a switch is known. -/
def Switch.key (s : Switch) : String :=
  s.names.headD ""

/-- The wording of a misuse. -/
def Misuse.message : Misuse → String
  | .ambiguous argument names =>
    "ambiguous option: " ++ argument ++ " could match " ++ ", ".intercalate names
  | .missingValue switch => "argument " ++ "/".intercalate switch.names ++ ": expected one argument"
  | .unwantedValue switch value =>
    "argument " ++ "/".intercalate switch.names ++ ": ignored explicit argument " ++
      Text.quoted value
  | .unknownCommand operand value names =>
    "argument " ++ operand.name ++ ": invalid choice: " ++ Text.quoted value ++ " (choose from " ++
      ", ".intercalate (names.map Text.quoted) ++ ")"
  | .missingOperands names => "the following arguments are required: " ++ ", ".intercalate names
  | .unrecognized arguments => "unrecognized arguments: " ++ " ".intercalate arguments

namespace Arguments

/-- All arguments that were given under a name. -/
def values (a : Arguments) (name : String) : List String :=
  (a.given.filter (·.1 == name)).flatMap (·.2)

/-- Whether something was given under a name. -/
def has (a : Arguments) (name : String) : Bool :=
  a.given.any (·.1 == name)

/-- The arguments with one more thing given. -/
def add (a : Arguments) (name : String) (values : List String) : Arguments :=
  { a with given := a.given ++ [(name, values)] }

/-- The arguments with more that nothing took. -/
def addExtras (a : Arguments) (texts : List String) : Arguments :=
  { a with extras := a.extras ++ texts }

end Arguments

/-! ## Telling switches from operands -/

/-- Text that is attached to the name of a switch, and whether an equals sign stands between. -/
structure Attached where
  separated : Bool
  text : List Char
  deriving Repr

/-- A switch as an argument gives it: the name that is meant, and what is attached to it. -/
structure Spelling where
  switch : Switch
  name : List Char
  attached : Option Attached
  deriving Repr

/-- An argument after its form is known. A switch that the interface does not have has no
spelling. -/
inductive Token
  | operand (text : String)
  | separator
  | switch (text : String) (spelling : Option Spelling)
  deriving Repr

namespace Token

/-- The argument that a token was read from. -/
def text : Token → String
  | .operand text | .switch text _ => text
  | .separator => "--"

/-- Whether a token is a switch. -/
def isSwitch : Token → Bool
  | .switch _ _ => true
  | _ => false

/-- Whether a token is the separator. -/
def isSeparator : Token → Bool
  | .separator => true
  | _ => false

end Token

/-- Whether a text is a negative decimal number; one newline may follow. -/
def isNegativeNumber (cs : List Char) : Bool :=
  match Text.dropFinalNewline cs with
  | '-' :: rest =>
    match Text.cutAt '.' rest with
    | (whole, none) => !whole.isEmpty && whole.all Text.isDecimal
    | (whole, some fraction) =>
      whole.all Text.isDecimal && !fraction.isEmpty && fraction.all Text.isDecimal
  | _ => false

namespace Interface

/-- All names of switches in order, each with its switch. -/
def names (i : Interface) : List (List Char × Switch) :=
  i.switches.flatMap fun s => s.names.map fun name => (name.toList, s)

/-- The switch with a given name. -/
def find? (i : Interface) (name : List Char) : Option Switch :=
  (i.names.find? (·.1 == name)).map (·.2)

/-- The switches that an argument may mean which is not the name of one: long names may be
shortened, and a short name may have text attached to it. -/
def spellings (i : Interface) (arg : List Char) : List Spelling :=
  match arg with
  | '-' :: '-' :: _ =>
    let (shortened, value) := Text.cutAt '=' arg
    (i.names.filter fun n => shortened.isPrefixOf n.1).map fun n =>
      ⟨n.2, n.1, value.map (⟨true, ·⟩)⟩
  | _ =>
    i.names.filterMap fun n =>
      if n.1 = arg.take 2 then some ⟨n.2, n.1, some ⟨false, arg.drop 2⟩⟩
      else if arg.isPrefixOf n.1 then some ⟨n.2, n.1, none⟩
      else none

/-- An argument that is not the name of a switch as a whole or up to an equals sign. Negative
numbers and texts with a blank are operands unless they can mean a switch. -/
def readUnnamed (i : Interface) (arg : String) : Except Misuse Token :=
  match i.spellings arg.toList with
  | [] =>
    if isNegativeNumber arg.toList || arg.toList.contains ' ' then .ok (.operand arg)
    else .ok (.switch arg none)
  | [spelling] => .ok (.switch arg (some spelling))
  | several => .error (.ambiguous arg (several.map fun s => String.ofList s.name))

/-- An argument that begins with a hyphen and has more characters. -/
def readHyphened (i : Interface) (arg : String) : Except Misuse Token :=
  match i.find? arg.toList with
  | some switch => .ok (.switch arg (some ⟨switch, arg.toList, none⟩))
  | none =>
    match Text.cutAt '=' arg.toList with
    | (name, some value) =>
      match i.find? name with
      | some switch => .ok (.switch arg (some ⟨switch, name, some ⟨true, value⟩⟩))
      | none => i.readUnnamed arg
    | (_, none) => i.readUnnamed arg

/-- An argument before the separator. -/
def readToken (i : Interface) (arg : String) : Except Misuse Token :=
  match arg.toList with
  | '-' :: _ :: _ => i.readHyphened arg
  | _ => .ok (.operand arg)

/-- The forms of all arguments. -/
def readTokens (i : Interface) : List String → Except Misuse (List Token)
  | [] => .ok []
  | "--" :: rest => .ok (.separator :: rest.map .operand)
  | arg :: rest => return (← i.readToken arg) :: (← readTokens i rest)

/-! ## Taking switches and operands -/

/-- What one argument gives: switches with their values, a part that nothing takes, and whether the
next argument is used up as a value. -/
structure Taken where
  given : List (Switch × List String)
  extra : Option String := none
  takesNext : Bool := false
  deriving Repr

/-- The switches that an argument gives: the one that is spelled, and those whose short names follow
its own short name. A flag has no value. -/
def take (i : Interface) (switch : Switch) (name : List Char) (next : Option Token)
    (attached : Option Attached) : Except Misuse Taken :=
  match attached with
  | none =>
    match switch.kind, next with
    | .value, some (.operand value) => .ok { given := [(switch, [value])], takesNext := true }
    | .value, _ => .error (.missingValue switch)
    | _, _ => .ok { given := [(switch, [])] }
  | some ⟨separated, text⟩ =>
    if switch.kind = .value then .ok { given := [(switch, [String.ofList text])] }
    else
      match text with
      | [] => .error (.unwantedValue switch "")
      | c :: more =>
        if name.take 2 = ['-', '-'] ∨ separated = true ∨ c = '-' then
          .error (.unwantedValue switch (String.ofList text))
        else
          match i.find? ['-', c] with
          | none => .ok { given := [(switch, [])], extra := some (String.ofList ('-' :: text)) }
          | some other => do
            let taken ← match more with
              | [] => take i other ['-', c] next none
              | '=' :: value => take i other ['-', c] next (some ⟨true, value⟩)
              | more => take i other ['-', c] next (some ⟨false, more⟩)
            return { taken with given := (switch, []) :: taken.given }
termination_by attached.elim 0 fun a => a.text.length + 1

end Interface

namespace Operand

/-- How many tokens an operand takes, if it can be taken. -/
def extent? (o : Operand) (tokens : List Token) : Option Nat :=
  let before := (tokens.takeWhile Token.isSeparator).length
  match tokens.drop before with
  | .operand _ :: rest =>
    match o.kind with
    | .one => some (before + 1 + (rest.takeWhile Token.isSeparator).length)
    | .many => some (before + 1 + (rest.takeWhile (!·.isSwitch)).length)
    | .command _ => some tokens.length
  | _ => none

/-- The arguments of an operand that takes the given tokens. The first separator does not count, or
what looks like one; but a command and what follows it are kept as they are. -/
def values (o : Operand) (tokens : List Token) : List String :=
  match o.kind with
  | .command _ => tokens.map Token.text
  | _ => (tokens.map Token.text).erase "--"

/-- Refuses a command that does not exist. -/
def check (o : Operand) (values : List String) : Except Misuse Unit :=
  match o.kind, values with
  | .command names, value :: _ =>
    if names.contains value then .ok () else .error (.unknownCommand o value names)
  | _, _ => .ok ()

/-- Whether an operand must be given. -/
def isRequired (o : Operand) : Bool :=
  match o.kind with
  | .command _ => false
  | _ => true

end Operand

/-- The arguments of as many operands as can be taken, and the number of tokens they take. -/
def takeOperands : List Operand → List Token → List (Operand × List String) × Nat
  | [], _ => ([], 0)
  | o :: rest, tokens =>
    match o.extent? tokens with
    | none => ([], 0)
    | some n =>
      let (more, count) := takeOperands rest (tokens.drop n)
      ((o, o.values (tokens.take n)) :: more, n + count)

namespace Arguments

/-- Adds what switches were given; one that asks for help ends the reading. -/
def addSwitches (a : Arguments) : List (Switch × List String) → Except Stop Arguments
  | [] => .ok a
  | (switch, values) :: rest =>
    if switch.kind = .help then .error .help else addSwitches (a.add switch.key values) rest

/-- Adds what operands were given. -/
def addOperands (a : Arguments) : List (Operand × List String) → Except Stop Arguments
  | [] => .ok a
  | (operand, values) :: rest => do
    (operand.check values).mapError .misuse
    addOperands (a.add operand.name values) rest

end Arguments

namespace Interface

/-- Takes the operands at the end of the arguments; those that must be given may not be missing. -/
def finish (pending : List Operand) (done : Arguments) (tokens : List Token) :
    Except Stop Arguments := do
  let (taken, count) := takeOperands pending tokens
  let done ← done.addOperands taken
  let missing := (pending.drop taken.length).filter Operand.isRequired
  unless missing.isEmpty do
    throw (.misuse (.missingOperands (missing.map (·.name))))
  return done.addExtras ((tokens.drop count).map Token.text)

/-- Takes switches and operands in turn. Operands that stand before a switch and cannot be taken are
left over. -/
def takeAll (i : Interface) (pending : List Operand) (done : Arguments) (tokens : List Token) :
    Except Stop Arguments :=
  if tokens.any Token.isSwitch then
    match tokens with
    | [] => finish pending done []
    | .switch text none :: rest => takeAll i pending (done.addExtras [text]) rest
    | .switch _ (some spelling) :: rest => do
      let taken ←
        (i.take spelling.switch spelling.name rest.head? spelling.attached).mapError .misuse
      let done ← done.addSwitches taken.given
      takeAll i pending (done.addExtras taken.extra.toList)
        (rest.drop (if taken.takesNext then 1 else 0))
    | first :: rest =>
      match takeOperands pending (first :: rest) with
      | (taken, count + 1) => do
        let done ← done.addOperands taken
        takeAll i (pending.drop taken.length) done (rest.drop count)
      | (_, 0) =>
        let skipped := rest.takeWhile (!·.isSwitch)
        takeAll i pending (done.addExtras ((first :: skipped).map Token.text))
          (rest.drop skipped.length)
  else finish pending done tokens
termination_by tokens.length
decreasing_by all_goals simp only [List.length_cons, List.length_drop]; omega

/-- Reads arguments; those that nothing takes are left over. -/
def read (i : Interface) (args : List String) : Except Stop Arguments := do
  takeAll i i.operands {} (← (i.readTokens args).mapError .misuse)

/-- What is printed before the wording of a misuse. -/
def usageLine (i : Interface) : String :=
  "usage: " ++ i.usage ++ "\n"

/-- The help text. -/
def helpText (i : Interface) : String :=
  i.usageLine ++ i.help

/-- What is printed on a misuse. -/
def misuseText (i : Interface) (reason : Misuse) : String :=
  i.usageLine ++ i.program ++ ": error: " ++ reason.message ++ "\n"

end Interface

end Lexicon.CommandLine
