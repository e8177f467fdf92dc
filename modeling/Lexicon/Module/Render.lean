import Lexicon.Compile.Bundle
import Lexicon.Files.FilePath
import Lexicon.Module.Docstring
import Lexicon.Module.Layout

/-!
# Generated modules

The source text of a module for a bundle: the document as a literal, one class for each definition
that has records, and one constant for each token. The classes are bound to the bundle that the
module registers, so that records read through it are instances of them.
-/

namespace Lexicon.Module

/-- A docstring at an indentation. -/
def docstring (text indent : String) : String :=
  String.ofList (Docstring.render text.toList indent.toList)

/-- What stands before the literal of the document. -/
def headerStart : String :=
  "from __future__ import annotations\n\nfrom dataclasses import dataclass\n" ++
    "from typing import Any, ClassVar\n\n" ++
    "from atlex.lexicon import LexiconObject, default_registry\n\nLEXICON = "

/-- What stands after the literal of the document. -/
def headerEnd : String :=
  "\n\n_BUNDLE = default_registry().register(LEXICON)"

/-- A description, or other words where there is none. -/
def describe (description : Value) (otherwise : String) : String :=
  if description.isTrue then description.display else otherwise

/-- Texts as a sorted literal. -/
def sortedLiteral (keys : List String) : String :=
  (Value.list ((keys.mergeSort (· ≤ ·)).map .str)).literal

/-- The classes of a bundle by their definitions. -/
def classesOf (b : Bundle) : List (String × Binding) :=
  b.keys.filterMap fun key => (b.binding? key).map (key, ·)

/-- The classes of a bundle, as annotations refer to them. -/
def localClasses (b : Bundle) : LocalClasses :=
  (classesOf b).map fun c => (⟨b.document.id, c.1⟩, c.2.recordType.name)

/-- The annotation of a slot. -/
def annotation (classes : LocalClasses) (slot : Slot) : Option Property → String
  | none => if slot.key = Naming.typeKey then "str" else "Any"
  | some p =>
    let text := p.type.annotation classes
    if p.required || p.type.isNullable || text = "Any" then text else text ++ " | None"

/-- The lines of one attribute. -/
def slotLines (classes : LocalClasses) (t : RecordType) (type : DefinitionType) (slot : Slot) :
    List String :=
  let p := type.property? slot.key
  let declared := "    " ++ slot.attr ++ ": " ++ annotation classes slot p
  let line := if t.enforced.contains slot.key then declared
    else declared ++ " = " ++ slot.default.literal
  let doc := match p with
    | some p => if p.description.isTrue then [docstring p.description.display "    "] else []
    | none => []
  ["", line] ++ doc

/-- The line of a slot in the table of all slots. -/
def tableLine (slot : Slot) : String :=
  "        (" ++ Text.quoted slot.key ++ ", " ++ Text.quoted slot.attr ++ ", " ++
    slot.default.literal ++ "),"

/-- The lines of a class. -/
def classLines (b : Bundle) (classes : LocalClasses) (c : CompiledDefinition) (t : RecordType) :
    List String :=
  let description := describe c.description ("``" ++ c.canonicalName ++ "``.")
  ["@dataclass(kw_only=True)",
    "class " ++ t.name ++ "(LexiconObject):",
    docstring description "    ",
    "",
    "    __lexicon_id__: ClassVar[str] = \"" ++ b.document.id ++ "\"",
    "    __schema_key__: ClassVar[str] = \"" ++ c.key ++ "\"",
    "    __lexicon_fields__: ClassVar[tuple[tuple[str, str, Any], ...]] = ("] ++
  t.slots.map tableLine ++
  ["    )",
    "    __enforced_keys__: ClassVar[frozenset[str]] = frozenset(" ++
      sortedLiteral t.enforced ++ ")",
    "    __omit_if_none__: ClassVar[frozenset[str]] = frozenset(" ++
      sortedLiteral t.omitted ++ ")"]
  ++ t.slots.flatMap (slotLines classes t c.type)

/-- The part of a module that belongs to a compiled definition, if there is one. -/
def definitionPart (b : Bundle) (classes : LocalClasses) (c : CompiledDefinition) : Option String :=
  match c.type with
  | .token name => some (Naming.constantName c.key ++ " = " ++ Text.quoted name)
  | _ => (b.binding? c.key).map fun binding =>
    "\n".intercalate ("" :: classLines b classes c binding.recordType)

/-- The line that binds a class. -/
def bindLine (key : String) (binding : Binding) : String :=
  "_BUNDLE.bind_value_class(" ++ Text.quoted key ++ ", " ++ binding.recordType.name ++ ")"

/-- The docstring of a module. -/
def summary (d : Document) : String :=
  let description := describe d.description ("Generated from the Lexicon ``" ++ d.id ++ "``.")
  docstring ("Lexicon " ++ d.id ++ ".\n\n" ++ description ++
    "\n\nAuto-generated by ``atlex compile``; edit the Lexicon JSON instead.") ""

/-- The source text of the module of a bundle. -/
def render (b : Bundle) : String :=
  let classes := localClasses b
  let binds := (classesOf b).map fun c => bindLine c.1 c.2
  let parts :=
    [summary b.document, headerStart ++ Layout.layOut 0 0 b.document.source ++ headerEnd] ++
    b.definitions.filterMap (fun e => definitionPart b classes e.2) ++
    if binds.isEmpty then [] else ["\n" ++ "\n".intercalate binds]
  String.ofList (Text.dropFinalBlanks ("\n\n".intercalate parts).toList) ++ "\n"

/-- The path of the module of a document below a directory. -/
def pathOf (directory : FilePath) (nsid : String) : Except Fault FilePath := do
  let nsid ← Nsid.ofValue (.str nsid)
  return directory.joinAll nsid.moduleFile

end Lexicon.Module
