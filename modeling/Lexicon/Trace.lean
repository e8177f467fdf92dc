import Lexicon.Fault

/-!
# Events

What is reported while documents are compiled and loaded. A traced computation collects its events
and keeps them even where it ends with a fault.
-/

namespace Lexicon

/-- How serious an event is. -/
inductive Level
  | debug | info | warning | error
  deriving DecidableEq, Repr, Inhabited

/-- The name of a level. -/
def Level.name : Level → String
  | .debug => "debug"
  | .info => "info"
  | .warning => "warning"
  | .error => "error"

/-- How far an operation has got. -/
inductive Stage
  | started | completed | failed
  deriving DecidableEq, Repr, Inhabited

/-- Something that is reported. -/
inductive Event
  | operation (name : String) (stage : Stage) (context : Entries Value)
  | unrecognizedType (nsid : String) (type : Value)
  | loading (nsid source : String)
  | generated (nsid path : String)
  deriving Repr, Inhabited

namespace Event

/-- How serious an event is. -/
def level : Event → Level
  | .operation _ .started _ | .loading _ _ => .debug
  | .operation _ .completed _ | .generated _ _ => .info
  | .operation _ .failed _ => .error
  | .unrecognizedType _ _ => .warning

/-- The context of an operation, as it stands in brackets. -/
def contextText (context : Entries Value) : String :=
  ", ".intercalate (context.map fun e => e.1 ++ "=" ++ e.2.display)

/-- The wording of an event; `elapsed` is the time that an operation took. -/
def message (elapsed : String) : Event → String
  | .operation name stage context =>
    let progress := match stage with
      | .started => "started"
      | .completed => "completed in " ++ elapsed
      | .failed => "failed after " ++ elapsed
    let suffix := contextText context
    name ++ ": " ++ progress ++ if suffix = "" then "" else " (" ++ suffix ++ ")"
  | .unrecognizedType nsid type =>
    "Lexicon " ++ nsid ++ ": unrecognized field type " ++ type.literal ++ " accepts any value"
  | .loading nsid source => "Loading lexicon " ++ nsid ++ " from " ++ source
  | .generated nsid path => "Generated " ++ nsid ++ " -> " ++ path

end Event

/-- A result or a fault, and the events on the way to it. -/
structure Traced (α : Type) where
  outcome : Except Fault α
  events : List Event := []

namespace Traced

variable {α β : Type}

/-- Goes on with the result, and keeps the events. -/
protected def bind (t : Traced α) (f : α → Traced β) : Traced β :=
  match t.outcome with
  | .ok a => ⟨(f a).outcome, t.events ++ (f a).events⟩
  | .error e => ⟨.error e, t.events⟩

/-- Later steps happen after the events of earlier ones, and not at all after a failure. -/
instance : Monad Traced where
  pure a := ⟨.ok a, []⟩
  bind := Traced.bind

/-- A silent computation. -/
instance : MonadLift (Except Fault) Traced where
  monadLift e := ⟨e, []⟩

/-- Ends with a fault. -/
def fault (e : Fault) : Traced α :=
  ⟨.error e, []⟩

/-- Reports an event. -/
def report (event : Event) : Traced Unit :=
  ⟨.ok (), [event]⟩

/-- Reports the beginning and the end of an operation. -/
def operation (name : String) (context : Entries Value) (t : Traced α) : Traced α :=
  let last := match t.outcome with
    | .ok _ => Stage.completed
    | .error _ => Stage.failed
  ⟨t.outcome, .operation name .started context :: t.events ++ [.operation name last context]⟩

/-- A value alone is its own outcome. -/
@[simp] theorem outcome_pure (a : α) : (pure a : Traced α).outcome = .ok a := rfl

/-- The outcome of a sequence does not depend on events. -/
theorem outcome_bind (t : Traced α) (f : α → Traced β) :
    (t >>= f).outcome = t.outcome.bind fun a => (f a).outcome := by
  show (Traced.bind t f).outcome = _
  unfold Traced.bind
  cases t.outcome <;> rfl

/-- Reporting an operation does not change its outcome. -/
@[simp] theorem outcome_operation (name : String) (context : Entries Value) (t : Traced α) :
    (operation name context t).outcome = t.outcome := rfl

end Traced

end Lexicon
