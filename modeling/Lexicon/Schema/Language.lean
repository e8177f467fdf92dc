import Lexicon.Schema.Check

/-!
# The schema of documents

What a document may look like. Any definition may be the main one; under other names stand only
types of values, not records and calls. A field type that is not known is let through with no more
than its `type`, so that the compiler can decide whether to warn or to refuse.
-/

namespace Lexicon.Language

/-- The least integer is zero. -/
def nonNegative : Schema :=
  .integer ⟨some (.int 0), none⟩

/-- Any integer. -/
def anyInteger : Schema :=
  .integer {}

/-- A list of texts. -/
def texts : Schema :=
  .array .text {}

/-- An object of a given type with a description and further fields. -/
def shape (type : String) (fields : List (String × Schema)) : Schema :=
  .fields (("type", .required (.literal (.str type))) :: ("description", .text) :: fields)

/-- The bounds of a length. -/
def lengths : List (String × Schema) :=
  [("minLength", nonNegative), ("maxLength", nonNegative)]

/-- A truth value. -/
def booleanField : Schema :=
  shape "boolean" [("default", .boolean), ("const", .boolean)]

/-- An integer, within bounds or one of a list. -/
def integerField : Schema :=
  shape "integer" [("minimum", anyInteger), ("maximum", anyInteger), ("enum", .array anyInteger {}),
    ("default", anyInteger), ("const", anyInteger)]

/-- A text, with the names of formats that it may have. -/
def stringField : Schema :=
  shape "string" [("format", .enum (Format.all.map (.str ·.name))), ("maxLength", nonNegative),
    ("minLength", nonNegative), ("maxGraphemes", nonNegative), ("minGraphemes", nonNegative),
    ("knownValues", texts), ("enum", texts), ("default", .text), ("const", .text)]

/-- A value of which nothing is said. -/
def unknownField : Schema :=
  shape "unknown" []

/-- A reference to another definition. -/
def referenceField : Schema :=
  shape "ref" [("ref", .required .text)]

/-- A choice of references, closed or open. -/
def unionField : Schema :=
  shape "union" [("refs", .required texts), ("closed", .boolean)]

/-- A field of a type that is not known. -/
def unrecognizedField : Schema :=
  .fields [("type", .required .text)]

/-- The types of array items by name. -/
def itemTypes : List (String × Schema) :=
  [("boolean", booleanField),
    ("integer", integerField),
    ("string", stringField),
    ("bytes", shape "bytes" lengths),
    ("cid-link", shape "cid-link" []),
    ("blob", shape "blob" [("accept", texts), ("maxSize", nonNegative)]),
    ("unknown", unknownField),
    ("ref", referenceField),
    ("union", unionField)]

/-- An array with a type for its items. -/
def arrayField : Schema :=
  shape "array"
    (("items", .required (.tagged "type" itemTypes (some unrecognizedField))) :: lengths)

/-- A property of an object. -/
def field : Schema :=
  .tagged "type" (itemTypes ++ [("array", arrayField)]) (some unrecognizedField)

/-- An object: its properties, and which of them are required or may be null. -/
def objectDefinition : Schema :=
  shape "object" [("properties", .required (.map field none)), ("required", texts),
    ("nullable", texts)]

/-- The types of parameters by name, arrays apart. -/
def primitiveTypes : List (String × Schema) :=
  [("boolean", booleanField), ("integer", integerField), ("string", stringField),
    ("unknown", unknownField)]

/-- An array among the parameters. -/
def parameterArray : Schema :=
  shape "array" (("items", .required (.tagged "type" primitiveTypes none)) :: lengths)

/-- The parameters of a call. -/
def parameters : Schema :=
  shape "params" [
    ("properties",
      .required (.map (.tagged "type" (primitiveTypes ++ [("array", parameterArray)]) none) none)),
    ("required", texts)]

/-- The schema of a body. -/
def bodySchema : Schema :=
  .tagged "type" [("object", objectDefinition), ("ref", referenceField), ("union", unionField)] none

/-- The body of a request or an answer. -/
def body : Schema :=
  .fields [("description", .text), ("encoding", .required .text), ("schema", bodySchema)]

/-- A message of a subscription. -/
def message : Schema :=
  .fields [("description", .text), ("schema", bodySchema)]

/-- The errors that a call names. -/
def errors : Schema :=
  .array (.fields [("name", .required .text), ("description", .text)]) {}

/-- A record: the kind of its key, and its object. -/
def recordDefinition : Schema :=
  shape "record" [("key", .text), ("record", .required objectDefinition)]

/-- A call that only reads. -/
def queryDefinition : Schema :=
  shape "query" [("parameters", parameters), ("output", body), ("errors", errors)]

/-- A call that takes a body. -/
def procedureDefinition : Schema :=
  shape "procedure"
    [("parameters", parameters), ("input", body), ("output", body), ("errors", errors)]

/-- A stream of messages. -/
def subscriptionDefinition : Schema :=
  shape "subscription" [("parameters", parameters), ("message", message), ("errors", errors)]

/-- The types of values that may be defined under any name. -/
def valueTypes : List (String × Schema) :=
  itemTypes ++ [("array", arrayField), ("object", objectDefinition), ("token", shape "token" [])]

/-- The types of definitions that a document may be named after alone. -/
def mainTypes : List (String × Schema) :=
  [("record", recordDefinition), ("query", queryDefinition), ("procedure", procedureDefinition),
    ("subscription", subscriptionDefinition)]

/-- A whole document. -/
def document : Schema :=
  .fields [
    ("lexicon", .required (.literal (.int 1))),
    ("id", .required (.string { format := some .nsid })),
    ("revision", nonNegative),
    ("description", .text),
    ("defs", .required (.object [("main", .tagged "type" (mainTypes ++ valueTypes) none)]
      (some (.tagged "type" valueTypes none)) false))]

end Lexicon.Language
