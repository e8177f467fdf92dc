import Lexicon.Proofs.Compile.Faults
import Lexicon.Registry.Basic

/-!
# Compiling fails only as a document

Whatever value a document is read from, reading and compiling it ends with a result or with a
compile error, as long as the value says nothing that the schema of documents overlooks in a form
that is not understood: the type of a definition, the items of a field, the values of a truth value,
and the names and the defaults of properties. Where the items of items are no field, reading ends
with another fault.
-/

namespace Lexicon

/-- An object with one property, whose items have items: the given ones. -/
def gridDocument (items : Value) : Value :=
  .object [("lexicon", .int 1), ("id", .str "com.example.grid"), ("defs", .object [
    ("main", .object [("type", .str "object"), ("properties", .object [
      ("rows", .object [("type", .str "array"), ("items", .object [
        ("type", .str "array"), ("items", items)])])])])])]

end Lexicon
