import Lexicon.Module.Render
import Lexicon.Proofs.Compile.ClassNames
import Lexicon.Proofs.Naming

/-!
# Names of a module

The constants and the classes that the module of a bundle introduces, and when they are clear of
each other and of what the module itself uses. Main statement: the names of classes are always
identifiers, and the constants are never keywords, but nothing keeps a class from the name of what
the header imports, nor a constant from the name of another, of a class or of no identifier at all;
a module is clear exactly where these do not happen.
-/

namespace Lexicon

namespace Module

/-- The words that cannot be names. -/
def keywords : List String :=
  ["False", "None", "True", "and", "as", "assert", "async", "await", "break", "class", "continue",
    "def", "del", "elif", "else", "except", "finally", "for", "from", "global", "if", "import",
    "in", "is", "lambda", "nonlocal", "not", "or", "pass", "raise", "return", "try", "while",
    "with", "yield"]

/-- The names that the header of a module uses or binds. -/
def headerNames : List String :=
  ["LEXICON", "_BUNDLE", "dataclass", "Any", "ClassVar", "LexiconObject", "default_registry"]

/-- The keywords and the names of the header that a class can be called like. -/
def capitalNames : List String :=
  ["None", "True", "False", "LEXICON", "Any", "ClassVar", "LexiconObject"]

/-- The names of the header that a constant can be called like. -/
def upperNames : List String :=
  ["LEXICON", "_BUNDLE"]

theorem mem_capitalNames {name : String} (capital : Naming.isCapitalized name = true)
    (h : name ∈ keywords ∨ name ∈ headerNames) : name ∈ capitalNames := by
  have all : ∀ name ∈ keywords ++ headerNames,
      Naming.isCapitalized name = true → name ∈ capitalNames := by
    decide
  exact all name (List.mem_append.mpr h) capital

theorem mem_upperNames {key : String} (h : Naming.constantName key ∈ keywords ∨
    Naming.constantName key ∈ headerNames) : Naming.constantName key ∈ upperNames := by
  have all : ∀ name ∈ keywords ++ headerNames,
      name.toList.any Char.isLower = true ∨ name ∈ upperNames := by
    decide
  rcases all _ (List.mem_append.mpr h) with lower | upper
  · exact absurd rfl (Naming.constantName_ne lower)
  · exact upper

theorem words_or_header {name : String} (h : name ∈ capitalNames) :
    name ∈ keywords ∨ name ∈ headerNames := by
  revert h name
  decide

theorem header_of_upper {name : String} (h : name ∈ upperNames) : name ∈ headerNames := by
  revert h name
  decide

/-- What a part of a module introduces: a constant or a class of records. -/
inductive TopLevel
  | constant (name : String)
  | records (name : String)

namespace TopLevel

def name : TopLevel → String
  | constant name | records name => name

/-- The text that introduces the name. -/
def opening : TopLevel → String
  | constant name => name ++ " = "
  | records name =>
    "\n" ++ "@dataclass(kw_only=True)" ++ "\n" ++ "class " ++ name ++ "(LexiconObject):" ++ "\n"

def constant? : TopLevel → Option String
  | constant name => some name
  | records _ => none

def records? : TopLevel → Option String
  | constant _ => none
  | records name => some name

end TopLevel

/-- What the part of a compiled definition introduces, if there is one. -/
def topLevel? (b : Bundle) (c : CompiledDefinition) : Option TopLevel :=
  match c.type with
  | .token _ => some (.constant (Naming.constantName c.key))
  | _ => (b.binding? c.key).map fun binding => .records binding.recordType.name

/-- What the parts of a module introduce, in order. -/
def topLevels (b : Bundle) : List TopLevel :=
  b.definitions.filterMap fun e => topLevel? b e.2

/-- The names of the constants of a module. -/
def constants (b : Bundle) : List String :=
  (topLevels b).filterMap TopLevel.constant?

/-- The names of the classes of a module. -/
def recordNames (b : Bundle) : List String :=
  (topLevels b).filterMap TopLevel.records?

theorem mem_constants_iff {b : Bundle} {name : String} :
    name ∈ constants b ↔ .constant name ∈ topLevels b := by
  rw [constants, List.mem_filterMap]
  constructor
  · rintro ⟨top, htop, hname⟩
    cases top with
    | constant => exact Option.some.inj hname ▸ htop
    | records => cases hname
  · exact fun h => ⟨_, h, rfl⟩

theorem mem_recordNames_iff {b : Bundle} {name : String} :
    name ∈ recordNames b ↔ .records name ∈ topLevels b := by
  rw [recordNames, List.mem_filterMap]
  constructor
  · rintro ⟨top, htop, hname⟩
    cases top with
    | constant => cases hname
    | records => exact Option.some.inj hname ▸ htop
  · exact fun h => ⟨_, h, rfl⟩

/-- The names of a module are identifiers and no keywords, they hide nothing that the header uses,
and each constant has a name of its own. -/
structure Clear (b : Bundle) : Prop where
  identifiers : ∀ top ∈ topLevels b, Text.isIdentifier top.name = true
  words : ∀ top ∈ topLevels b, top.name ∉ keywords
  header : ∀ top ∈ topLevels b, top.name ∉ headerNames
  constants : (constants b).Nodup
  apart : ∀ name ∈ Module.constants b, name ∉ recordNames b

/-- The lines of a class begin with its name. -/
theorem exists_intercalate_classLines (b : Bundle) (classes : LocalClasses)
    (c : CompiledDefinition) (t : RecordType) : ∃ rest,
      "\n".intercalate ("" :: classLines b classes c t) =
        (TopLevel.records t.name).opening ++ rest := by
  obtain ⟨line, more, lines⟩ : ∃ line more, classLines b classes c t =
      "@dataclass(kw_only=True)" :: ("class " ++ t.name ++ "(LexiconObject):") :: line :: more := by
    simp only [classLines, List.cons_append, List.cons.injEq, true_and]
    exact ⟨_, _, rfl, rfl⟩
  refine ⟨"\n".intercalate (line :: more), ?_⟩
  rw [lines, TopLevel.opening]
  simp only [String.intercalate_cons_cons, String.append_assoc, String.empty_append]

/-- Each part of a module that belongs to a definition begins with what it introduces. -/
theorem rel_definitionPart (b : Bundle) (classes : LocalClasses) (c : CompiledDefinition) :
    Option.Rel (fun text top => ∃ rest, text = TopLevel.opening top ++ rest)
      (definitionPart b classes c) (topLevel? b c) := by
  have records : Option.Rel (fun text top => ∃ rest, text = TopLevel.opening top ++ rest)
      ((b.binding? c.key).map fun binding =>
        "\n".intercalate ("" :: classLines b classes c binding.recordType))
      ((b.binding? c.key).map fun binding => .records binding.recordType.name) := by
    cases b.binding? c.key with
    | none => exact .none
    | some binding => exact .some (exists_intercalate_classLines b classes c binding.recordType)
  unfold definitionPart topLevel?
  cases c.type with
  | token name => exact .some ⟨Text.quoted name, rfl⟩
  | _ => exact records

/-- The parts of a module that belong to definitions introduce its names one by one. -/
theorem forall₂_topLevels (b : Bundle) :
    List.Forall₂ (fun text top => ∃ rest, text = TopLevel.opening top ++ rest)
      (b.definitions.filterMap fun e => definitionPart b (localClasses b) e.2) (topLevels b) :=
  List.rel_filterMap (R := Eq) (fun _ _ same => same ▸ rel_definitionPart b _ _)
    (List.forall₂_same.mpr fun _ _ => rfl)

end Module

namespace Definition

/-- Whether a definition is a token. -/
def isToken : Definition → Bool
  | .token _ => true
  | _ => false

/-- The key of a token. -/
def Component.tokenKey? (key : String) : Component → Option String
  | .token => some key
  | _ => none

/-- Nothing but a token is made into a token. -/
theorem filterMap_tokenKey? (nsid key : String) (d : Definition) :
    (d.components nsid key).filterMap (fun e => e.2.tokenKey? e.1) =
      if d.isToken then [key] else [] := by
  have parts (call : Call) : ((d.parts call).map fun p => (p.1, Component.ofPart p.2.1)).filterMap
      (fun e => e.2.tokenKey? e.1) = [] := by
    rw [List.filterMap_map, List.filterMap_eq_nil_iff]
    intro part _
    cases hpart : part.2.1 <;> simp [hpart, Component.ofPart, Component.tokenKey?]
  cases d with
  | record | object | token | field => rfl
  | query call | procedure call | subscription call => exact parts call

theorem Component.Compiles.constant?_eq {nsid key : String} {strict : Bool}
    {component : Component} {c : CompiledDefinition} (h : component.Compiles nsid key strict c)
    (b : Bundle) : (Module.topLevel? b c).bind Module.TopLevel.constant? =
      (component.tokenKey? key).map Naming.constantName := by
  have records : ((b.binding? c.key).map fun binding =>
      Module.TopLevel.records binding.recordType.name).bind Module.TopLevel.constant? = none := by
    cases b.binding? c.key <;> rfl
  unfold Module.topLevel?
  cases h with
  | token => rfl
  | object h =>
    rw [h.type_eq]
    exact records
  | call | field => exact records

end Definition

namespace Document

/-- The tokens of a document. -/
def tokens (d : Document) : List String :=
  Entries.keys (d.definitions.filter (·.2.isToken))

theorem filterMap_tokenKey?_components (d : Document) :
    d.components.filterMap (fun e => e.2.tokenKey? e.1) = d.tokens := by
  rw [components, List.filterMap_flatMap]
  simp only [Definition.filterMap_tokenKey?]
  rw [tokens, Entries.keys]
  induction d.definitions with
  | nil => rfl
  | cons e rest ih =>
    rw [List.flatMap_cons, ih, List.filter_cons]
    split_ifs <;> rfl

end Document

namespace Bundle

section Compiled

variable {d : Document} {id : BundleId} {registry : Nat} {strict : Bool} {b : Bundle}
  (compiled : (d.compile id registry strict).outcome = .ok b)

include compiled

/-- The constants of a module are those of the tokens of its document. -/
theorem constants_of_compile : Module.constants b = d.tokens.map Naming.constantName := by
  obtain ⟨faithful, rfl, -, -⟩ := Document.of_compile compiled
  obtain ⟨_, definitions⟩ := faithful.compiled
  obtain ⟨made, -⟩ := Document.compiles_of_outcome definitions
  rw [Module.constants, Module.topLevels, List.filterMap_filterMap,
    ← Document.filterMap_tokenKey?_components, List.map_filterMap]
  generalize b.document.components = components at made
  generalize b.definitions = results at made
  induction made with
  | nil => rfl
  | @cons e c _ _ compiles _ ih =>
    rw [List.filterMap_cons, List.filterMap_cons, ih, compiles.2.constant?_eq b]

/-- The name of a class is capitalized. -/
theorem isCapitalized_of_binding? {key : String} {binding : Binding}
    (bound : b.binding? key = some binding) :
    Naming.isCapitalized binding.recordType.name = true := by
  obtain ⟨c, _, _, found, recordType, -, -⟩ := origin_of_binding? compiled bound
  obtain ⟨faithful, rfl, -, -⟩ := Document.of_compile compiled
  obtain ⟨_, definitions⟩ := faithful.compiled
  obtain ⟨e, he, -, named⟩ :=
    (Document.named_of_outcome definitions).exists_left (Entries.mem_of_find?_eq_some found)
  rw [named.2 _ recordType]
  rcases Document.mem_classNames_iff.mp he with ⟨-, name⟩ | ⟨-, name⟩
  · exact name ▸ b.document.isCapitalized_classNameOf e.1
  · exact name ▸ Naming.isCapitalized_className e.1

/-- The names of the classes of a module are capitalized. -/
theorem isCapitalized_of_mem_recordNames {name : String} (h : name ∈ Module.recordNames b) :
    Naming.isCapitalized name = true := by
  obtain ⟨e, -, htop⟩ := List.mem_filterMap.mp (Module.mem_recordNames_iff.mp h)
  unfold Module.topLevel? at htop
  split at htop
  · cases htop
  · obtain ⟨binding, bound, same⟩ := Option.map_eq_some_iff.mp htop
    obtain rfl := Module.TopLevel.records.inj same
    exact isCapitalized_of_binding? compiled bound

/-- **When the names of a module are clear.** Each part of a module introduces one name: a constant
for each token, or a class with a capitalized name. The names are clear exactly if no class is
called like a keyword or an import that is capitalized, the constants are identifiers that differ
from each other and from the names of classes, and none is called like one of the two constants of
the header. -/
theorem clear_iff :
    List.Forall₂ (fun text top => ∃ rest, text = Module.TopLevel.opening top ++ rest)
      (b.definitions.filterMap fun e => Module.definitionPart b (Module.localClasses b) e.2)
      (Module.topLevels b) ∧
    Module.constants b = d.tokens.map Naming.constantName ∧
    (Module.Clear b ↔
      (∀ name ∈ Module.recordNames b, name ∉ Module.capitalNames) ∧
      (∀ key ∈ d.tokens, Text.isIdentifier (Naming.constantName key) = true ∧
        Naming.constantName key ∉ Module.upperNames ∧
        Naming.constantName key ∉ Module.recordNames b) ∧
      (d.tokens.map Naming.constantName).Nodup) := by
  have constants := constants_of_compile compiled
  have of_token {name : String} (h : .constant name ∈ Module.topLevels b) :
      ∃ key ∈ d.tokens, Naming.constantName key = name := by
    rw [← Module.mem_constants_iff, constants] at h
    exact List.mem_map.mp h
  refine ⟨Module.forall₂_topLevels b, constants, fun clear => ⟨fun name hname => ?_,
    fun key hkey => ?_, ?_⟩, ?_⟩
  · have top := Module.mem_recordNames_iff.mp hname
    exact fun capital => (Module.words_or_header capital).elim (clear.words _ top)
      (clear.header _ top)
  · have hname : Naming.constantName key ∈ Module.constants b := by
      rw [constants]
      exact List.mem_map_of_mem hkey
    have top := Module.mem_constants_iff.mp hname
    have identifier := clear.identifiers _ top
    have header := clear.header _ top
    rw [Module.TopLevel.name] at identifier header
    exact ⟨identifier, fun upper => header (Module.header_of_upper upper), clear.apart _ hname⟩
  · rw [← constants]
    exact clear.constants
  · rintro ⟨records, tokens, distinct⟩
    have free (top : Module.TopLevel) (h : top ∈ Module.topLevels b) :
        Text.isIdentifier top.name = true ∧ top.name ∉ Module.keywords ∧
          top.name ∉ Module.headerNames := by
      cases top with
      | constant name =>
        obtain ⟨key, hkey, rfl⟩ := of_token h
        obtain ⟨identifier, notUpper, -⟩ := tokens key hkey
        exact ⟨identifier, fun word => notUpper (Module.mem_upperNames (.inl word)),
          fun used => notUpper (Module.mem_upperNames (.inr used))⟩
      | records name =>
        have hname := Module.mem_recordNames_iff.mpr h
        have capital := isCapitalized_of_mem_recordNames compiled hname
        exact ⟨Naming.isIdentifier_of_isCapitalized capital,
          fun word => records name hname (Module.mem_capitalNames capital (.inl word)),
          fun used => records name hname (Module.mem_capitalNames capital (.inr used))⟩
    refine ⟨fun top h => (free top h).1, fun top h => (free top h).2.1,
      fun top h => (free top h).2.2, ?_, fun name hname => ?_⟩
    · rw [constants]
      exact distinct
    · obtain ⟨key, hkey, rfl⟩ := of_token (Module.mem_constants_iff.mp hname)
      exact (tokens key hkey).2.2

end Compiled

/-- A document with a token and an object. -/
def factorDocument (token : String) : Value :=
  .object [("lexicon", .int 1), ("id", .str "com.example.factor"), ("defs", .object [
    ("main", .object [("type", .str "object"), ("properties", .object [])]),
    (token, .object [("type", .str "token")])])]

/-- The names of a document whose token begins with a letter are clear. -/
theorem clear_iff_twoFactor :
    ∃ d b, Document.ofValue (factorDocument "two-fa") = .ok d ∧
      (d.compile (.loose 0) 0 true).outcome = .ok b ∧ Module.constants b = ["TWO_FA"] ∧
      Module.recordNames b = ["Factor"] ∧ Module.Clear b := by
  have evaluated : (Document.ofValue (factorDocument "two-fa")).toOption.any (fun d =>
      (d.compile (.loose 0) 0 true).outcome.toOption.any fun b =>
        Module.recordNames b == ["Factor"] && d.tokens == ["two-fa"]) = true := by
    decide +kernel
  simp only [Option.any_eq_true, Bool.and_eq_true, beq_iff_eq] at evaluated
  obtain ⟨d, read, b, compiled, records, tokens⟩ := evaluated
  replace compiled := Except.eq_ok_of_toOption_eq_some compiled
  obtain ⟨-, constants, iff⟩ := clear_iff compiled
  rw [records, tokens] at iff
  rw [tokens] at constants
  have constant : Naming.constantName "two-fa" = "TWO_FA" := by decide +kernel
  refine ⟨d, b, Except.eq_ok_of_toOption_eq_some read, compiled, ?_, records, iff.mpr ?_⟩
  · rw [constants, List.map_singleton, constant]
  · simp only [List.forall_mem_singleton, List.map_singleton, constant]
    decide

/-- The constant of a token that begins with a digit is no identifier. -/
theorem not_clear_2fa :
    ∃ d b, Document.ofValue (factorDocument "2fa") = .ok d ∧
      (d.compile (.loose 0) 0 true).outcome = .ok b ∧ Module.constants b = ["2FA"] ∧
      Text.isIdentifier "2FA" = false ∧ ¬ Module.Clear b := by
  have evaluated : (Document.ofValue (factorDocument "2fa")).toOption.any (fun d =>
      (d.compile (.loose 0) 0 true).outcome.toOption.any fun b =>
        Module.constants b == ["2FA"]) = true := by
    decide +kernel
  simp only [Option.any_eq_true, beq_iff_eq] at evaluated
  obtain ⟨d, read, b, compiled, constants⟩ := evaluated
  have unclear : Text.isIdentifier "2FA" = false := by decide
  refine ⟨d, b, Except.eq_ok_of_toOption_eq_some read,
    Except.eq_ok_of_toOption_eq_some compiled, constants, unclear, fun clear => ?_⟩
  have introduced : .constant "2FA" ∈ Module.topLevels b := by
    rw [← Module.mem_constants_iff, constants]
    exact List.mem_singleton.mpr rfl
  have identifier := clear.identifiers _ introduced
  rw [Module.TopLevel.name, unclear] at identifier
  cases identifier

end Bundle

end Lexicon
