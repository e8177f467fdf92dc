import Lexicon.Module.Render
import Lexicon.Proofs.Text.Lines
import Lexicon.Proofs.Value.Literal
import Mathlib.Data.List.TakeWhile

/-!
# Classes in generated source

The source of a class states what the record type is made of: the settings that all classes have,
each as a literal, and then one line for each attribute. Main statement: lines that were written for
a record type are read as that record type, if its defaults have literals and its names hold nothing
that ends a name or a text.
-/

namespace Lexicon.Module

/-- What the source of a class states: the document and the key, the slots with their defaults, the
keys that must be given and those that are left out when they are null; and the attributes, each
with its default if it has one. -/
structure ClassSource where
  id : String
  key : String
  fields : List (String × String × Value)
  enforced : List String
  omitted : List String
  attributes : List (String × Option Value) := []

namespace ClassSource

/-! ### Reading -/

/-- An annotated name in the body of a class, and the text of what is assigned to it, if anything
is. -/
def assignment? (line : String) : Option (String × Option (List Char)) :=
  (Text.after? "    ".toList line.toList).bind fun cs =>
    match cs.dropWhile (· ≠ ':') with
    | ':' :: ' ' :: rest =>
      let name := String.ofList (cs.takeWhile (· ≠ ':'))
      match rest.dropWhile (· ≠ '=') with
      | [] => some (name, none)
      | '=' :: ' ' :: text => some (name, some text)
      | _ => none
    | _ => none

/-- The text of what is assigned to a given name. -/
def assigned? (name line : String) : Option (List Char) :=
  (assignment? line).bind fun a => if a.1 = name then a.2 else none

/-- A literal text that is assigned to a given name. -/
def text? (name line : String) : Option String :=
  ((assigned? name line).bind Literal.read?).bind Value.str?

/-- The texts of a list. -/
def texts? : Value → Option (List String)
  | .list items => items.mapM Value.str?
  | _ => none

/-- A literal set of texts that is assigned to a given name. -/
def set? (name line : String) : Option (List String) :=
  (assigned? name line).bind fun text =>
    (Text.after? "frozenset(".toList text).bind fun rest =>
      if rest.getLast? = some ')' then (Literal.read? rest.dropLast).bind texts? else none

/-- A line of the table of slots: a key, an attribute and a default. What stands between the
brackets is read like a list. -/
def row? (line : String) : Option (String × String × Value) :=
  (Text.after? "        (".toList line.toList).bind fun cs =>
    match cs.reverse with
    | ',' :: ')' :: inner =>
      match Literal.read? ('[' :: (inner.reverse ++ [']'])) with
      | some (.list [.str key, .str attr, default]) => some (key, attr, default)
      | _ => none
    | _ => none

/-- The settings of a class. -/
def settings? : List String → Option ClassSource
  | id :: key :: fields :: rest => do
    let id ← text? "__lexicon_id__" id
    let key ← text? "__schema_key__" key
    guard (assigned? "__lexicon_fields__" fields = some ['('])
    let fields ← (rest.takeWhile (· ≠ "    )")).mapM row?
    match rest.dropWhile (· ≠ "    )") with
    | [_, enforced, omitted] =>
      let enforced ← set? "__enforced_keys__" enforced
      let omitted ← set? "__omit_if_none__" omitted
      return { id, key, fields, enforced, omitted }
    | _ => none
  | _ => none

/-- An attribute, and its default if it has one. A docstring may follow. -/
def attribute? : List String → Option (String × Option Value)
  | line :: _ => (assignment? line).bind fun a =>
    match a.2 with
    | some text => (Literal.read? text).map fun v => (a.1, some v)
    | none => some (a.1, none)
  | [] => none

/-- What the lines of a class state. Empty lines stand after the docstring of the class and before
each attribute. -/
def read? (lines : List String) : Option ClassSource :=
  match lines.splitOn "" with
  | _ :: settings :: attributes => do
    let source ← settings? settings
    return { source with attributes := ← attributes.mapM attribute? }
  | _ => none

/-- The source of a class states what its record type is. The keys in sets are in any order. -/
structure Describes (s : ClassSource) (t : RecordType) : Prop where
  id : s.id = t.nsid
  key : s.key = t.key
  fields : s.fields = t.slots.map fun slot => (slot.key, slot.attr, slot.default)
  enforced : s.enforced.Perm t.enforced
  omitted : s.omitted.Perm t.omitted
  attributes : s.attributes = t.slots.map fun slot =>
    (slot.attr, if t.enforced.contains slot.key then none else some slot.default)

/-! ### Lines -/

theorem mapM_map_eq_some {α β γ : Type} {read : β → Option γ} {write : α → β} {meaning : α → γ}
    {xs : List α} (h : ∀ x ∈ xs, read (write x) = some (meaning x)) :
    (xs.map write).mapM read = some (xs.map meaning) := by
  induction xs with
  | nil => rfl
  | cons x xs ih =>
    rw [List.forall_mem_cons] at h
    rw [List.map_cons, List.mapM_cons, h.1, ih h.2]
    rfl

theorem span_ne {α : Type} [DecidableEq α] {x : α} {xs : List α} (h : x ∉ xs) (rest : List α) :
    (xs ++ x :: rest).takeWhile (· ≠ x) = xs ∧ (xs ++ x :: rest).dropWhile (· ≠ x) = x :: rest := by
  have before : ∀ y ∈ xs, decide (y ≠ x) = true := by
    intro y hy
    exact decide_eq_true fun same => h (same ▸ hy)
  rw [List.takeWhile_append_of_pos before, List.dropWhile_append_of_pos before]
  simp

section Lines

variable {name hint : String} (hname : ':' ∉ name.toList) (plain : '=' ∉ hint.toList)

include hname plain

/-- An annotated name to which nothing is assigned. -/
theorem assignment?_annotated :
    assignment? ("    " ++ name ++ ": " ++ hint) = some (name, none) := by
  have line : ("    " ++ name ++ ": " ++ hint).toList =
      "    ".toList ++ (name.toList ++ ':' :: ' ' :: hint.toList) := by
    simp [String.toList_append]
  have unassigned : ∀ c ∈ hint.toList, decide (c ≠ '=') = true := by
    intro c hc
    exact decide_eq_true fun same => plain (same ▸ hc)
  have none : hint.toList.dropWhile (· ≠ '=') = [] := List.dropWhile_eq_nil_iff.mpr unassigned
  rw [assignment?, line, Text.after?_append, Option.bind_some, (span_ne hname _).1,
    (span_ne hname _).2]
  simp only [none, String.ofList_toList]

/-- An annotated name to which a text is assigned. -/
theorem assignment?_assigned (text : String) :
    assignment? ("    " ++ name ++ ": " ++ hint ++ " = " ++ text) =
      some (name, some text.toList) := by
  have line : ("    " ++ name ++ ": " ++ hint ++ " = " ++ text).toList = "    ".toList ++
      (name.toList ++ ':' :: ' ' :: (hint.toList ++ ' ' :: '=' :: ' ' :: text.toList)) := by
    simp [String.toList_append]
  have before : '=' ∉ hint.toList ++ [' '] := by simpa using plain
  have found := (span_ne before (' ' :: text.toList)).2
  rw [List.append_assoc, List.singleton_append] at found
  rw [assignment?, line, Text.after?_append, Option.bind_some, (span_ne hname _).1,
    (span_ne hname _).2]
  simp only [found, String.ofList_toList]

theorem assigned?_assigned (text : String) :
    assigned? name ("    " ++ name ++ ": " ++ hint ++ " = " ++ text) = some text.toList := by
  rw [assigned?, assignment?_assigned hname plain, Option.bind_some, if_pos rfl]

theorem text?_assigned {text : String} (bare : Text.IsBare text.toList) :
    text? name ("    " ++ name ++ ": " ++ hint ++ " = " ++ ("\"" ++ text ++ "\"")) =
      some text := by
  have literal : ("\"" ++ text ++ "\"").toList = '"' :: (text.toList ++ ['"']) := by
    simp [String.toList_append]
  rw [text?, assigned?_assigned hname plain, Option.bind_some, literal, Literal.read?_plain bare,
    Option.bind_some, Value.str?, String.ofList_toList]

theorem set?_assigned (keys : List String) :
    set? name ("    " ++ name ++ ": " ++ hint ++ " = " ++
      ("frozenset(" ++ sortedLiteral keys ++ ")")) = some (keys.mergeSort (· ≤ ·)) := by
  have literal : ("frozenset(" ++ sortedLiteral keys ++ ")").toList =
      "frozenset(".toList ++ ((sortedLiteral keys).toList ++ [')']) := by
    simp [String.toList_append]
  have proper : (Value.list ((keys.mergeSort (· ≤ ·)).map .str)).HasLiteral :=
    .list (List.forall_mem_map.mpr fun key _ => .str key)
  have texts : texts? (.list ((keys.mergeSort (· ≤ ·)).map .str)) =
      some (keys.mergeSort (· ≤ ·)) := by
    have each : ∀ key ∈ keys.mergeSort (· ≤ ·), Value.str? (.str key) = some key :=
      fun _ _ => rfl
    rw [texts?, mapM_map_eq_some each, List.map_id']
  rw [set?, assigned?_assigned hname plain, Option.bind_some, literal, Text.after?_append,
    Option.bind_some, if_pos (by simp), List.dropLast_concat, sortedLiteral,
    proper.read?_literal, Option.bind_some, texts]

end Lines

/-- A line of the table is read as the slot that it was written for. -/
theorem row?_tableLine {slot : Slot} (proper : slot.default.HasLiteral) :
    row? (tableLine slot) = some (slot.key, slot.attr, slot.default) := by
  let parts := [.str slot.key, .str slot.attr, slot.default]
  have line : (tableLine slot).toList = "        (".toList ++
      ((Value.literalItems parts).toList ++ [')', ',']) := by
    simp [tableLine, parts, Value.literalItems, Value.literal, String.toList_append]
  have list : (Value.list parts).literal.toList =
      '[' :: ((Value.literalItems parts).toList ++ [']']) := by
    simp [Value.literal, String.toList_append]
  have hasLiteral : (Value.list parts).HasLiteral :=
    .list (by simp [parts, proper, Value.HasLiteral.str])
  have read := hasLiteral.read?_literal
  rw [list] at read
  rw [row?, line, Text.after?_append, Option.bind_some]
  simp [parts] at read ⊢
  simp [read]

/-! ### The parts of a class -/

section Class

variable {b : Bundle} {c : CompiledDefinition} {t : RecordType}

/-- The lines before the first empty one. -/
def headerLines (c : CompiledDefinition) (t : RecordType) : List String :=
  ["@dataclass(kw_only=True)", "class " ++ t.name ++ "(LexiconObject):",
    docstring (describe c.description ("``" ++ c.canonicalName ++ "``.")) "    "]

/-- The lines of the settings. -/
def settingsLines (b : Bundle) (c : CompiledDefinition) (t : RecordType) : List String :=
  ["    " ++ "__lexicon_id__" ++ ": " ++ "ClassVar[str]" ++ " = " ++
      ("\"" ++ b.document.id ++ "\""),
    "    " ++ "__schema_key__" ++ ": " ++ "ClassVar[str]" ++ " = " ++ ("\"" ++ c.key ++ "\""),
    "    " ++ "__lexicon_fields__" ++ ": " ++ "ClassVar[tuple[tuple[str, str, Any], ...]]" ++
      " = " ++ "("] ++
  t.slots.map tableLine ++
  ["    )",
    "    " ++ "__enforced_keys__" ++ ": " ++ "ClassVar[frozenset[str]]" ++ " = " ++
      ("frozenset(" ++ sortedLiteral t.enforced ++ ")"),
    "    " ++ "__omit_if_none__" ++ ": " ++ "ClassVar[frozenset[str]]" ++ " = " ++
      ("frozenset(" ++ sortedLiteral t.omitted ++ ")")]

theorem intercalate_nil_eq (lines : List String) (blocks : List (List String)) :
    [""].intercalate (lines :: blocks) = lines ++ blocks.flatMap ("" :: ·) := by
  induction blocks generalizing lines with
  | nil => simp
  | cons block blocks ih =>
    rw [List.intercalate_cons_cons, ih, List.flatMap_cons]
    simp

/-- The lines of a class are those of its header, its settings and its attributes, with an empty
line between two of these. -/
theorem classLines_eq (b : Bundle) (classes : LocalClasses) (c : CompiledDefinition)
    (t : RecordType) : classLines b classes c t =
      [""].intercalate (headerLines c t :: settingsLines b c t ::
        t.slots.map fun slot => (slotLines classes t c.type slot).tail) := by
  have id : "    __lexicon_id__: ClassVar[str] = \"" =
      "    " ++ "__lexicon_id__" ++ ": " ++ "ClassVar[str]" ++ " = " ++ "\"" := by simp
  have key : "    __schema_key__: ClassVar[str] = \"" =
      "    " ++ "__schema_key__" ++ ": " ++ "ClassVar[str]" ++ " = " ++ "\"" := by simp
  have fields : "    __lexicon_fields__: ClassVar[tuple[tuple[str, str, Any], ...]] = (" =
      "    " ++ "__lexicon_fields__" ++ ": " ++ "ClassVar[tuple[tuple[str, str, Any], ...]]" ++
        " = " ++ "(" := by simp
  have enforced : "    __enforced_keys__: ClassVar[frozenset[str]] = frozenset(" =
      "    " ++ "__enforced_keys__" ++ ": " ++ "ClassVar[frozenset[str]]" ++ " = " ++
        "frozenset(" := by simp
  have omitted : "    __omit_if_none__: ClassVar[frozenset[str]] = frozenset(" =
      "    " ++ "__omit_if_none__" ++ ": " ++ "ClassVar[frozenset[str]]" ++ " = " ++
        "frozenset(" := by simp
  have slots : (fun slot => "" :: (slotLines classes t c.type slot).tail) =
      slotLines classes t c.type := rfl
  rw [intercalate_nil_eq, List.flatMap_cons, List.flatMap_map, slots]
  simp only [classLines, headerLines, settingsLines, id, key, fields, enforced, omitted,
    String.append_assoc, List.append_assoc, List.cons_append, List.nil_append]

/-- No row of the table closes it. -/
theorem notMem_rows (slots : List Slot) : "    )" ∉ slots.map tableLine := by
  intro h
  obtain ⟨slot, -, same⟩ := List.mem_map.mp h
  have fifth := congrArg (fun line => line.toList[4]?) same
  simp [tableLine, String.toList_append] at fifth

/-- The settings are read as those of the record type, if the names in them need no escapes. -/
theorem settings?_settingsLines (defaults : ∀ slot ∈ t.slots, slot.default.HasLiteral)
    (id : Text.IsBare b.document.id.toList) (key : Text.IsBare c.key.toList) :
    settings? (settingsLines b c t) = some
      { id := b.document.id
        key := c.key
        fields := t.slots.map fun slot => (slot.key, slot.attr, slot.default)
        enforced := t.enforced.mergeSort (· ≤ ·)
        omitted := t.omitted.mergeSort (· ≤ ·) } := by
  have rows := mapM_map_eq_some fun slot hslot => row?_tableLine (defaults slot hslot)
  obtain ⟨table, rest⟩ := span_ne (notMem_rows t.slots)
    ["    " ++ "__enforced_keys__" ++ ": " ++ "ClassVar[frozenset[str]]" ++ " = " ++
      ("frozenset(" ++ sortedLiteral t.enforced ++ ")"),
    "    " ++ "__omit_if_none__" ++ ": " ++ "ClassVar[frozenset[str]]" ++ " = " ++
      ("frozenset(" ++ sortedLiteral t.omitted ++ ")")]
  simp only [settingsLines, List.cons_append, List.nil_append, settings?, table, rest, rows]
  rw [text?_assigned (by simp) (by simp) id,
    text?_assigned (by simp) (by simp) key,
    assigned?_assigned (by simp) (by simp),
    set?_assigned (by simp) (by simp),
    set?_assigned (by simp) (by simp)]
  simp

end Class

/-! ### Annotations -/

theorem exists_of_mem_mapM {α β : Type} {f : α → Option β} {xs : List α} {ys : List β}
    (h : xs.mapM f = some ys) {y : β} (hy : y ∈ ys) : ∃ x ∈ xs, f x = some y := by
  induction xs generalizing ys with
  | nil =>
    obtain rfl := Option.some.inj h
    cases hy
  | cons x xs ih =>
    rw [List.mapM_cons] at h
    obtain ⟨z, hz, h⟩ := Option.bind_eq_some_iff.mp h
    obtain ⟨zs, hzs, h⟩ := Option.bind_eq_some_iff.mp h
    obtain rfl := Option.some.inj h
    rcases List.mem_cons.mp hy with rfl | hy
    · exact ⟨x, List.mem_cons_self, hz⟩
    · obtain ⟨x', hx', same⟩ := ih hzs hy
      exact ⟨x', List.mem_cons_of_mem x hx', same⟩

theorem notMem_intercalate {c : Char} {sep : String} (hsep : c ∉ sep.toList) {texts : List String}
    (h : ∀ text ∈ texts, c ∉ text.toList) : c ∉ (sep.intercalate texts).toList := by
  induction texts with
  | nil => simp
  | cons text texts ih =>
    rw [List.forall_mem_cons] at h
    cases texts with
    | nil => simpa using h.1
    | cons other texts =>
      rw [String.intercalate_cons_cons, String.toList_append, String.toList_append,
        List.mem_append, List.mem_append, not_or, not_or]
      exact ⟨⟨h.1, hsep⟩, ih h.2⟩

/-- No class has an equals sign in its name. -/
def PlainNames (classes : LocalClasses) : Prop :=
  ∀ c ∈ classes, '=' ∉ c.2.toList

section Annotations

variable {classes : LocalClasses} (names : PlainNames classes)

include names

theorem notMem_localClass? {target : Reference} {name : String}
    (h : FieldType.localClass? classes target = some name) : '=' ∉ name.toList := by
  obtain ⟨entry, found, rfl⟩ := Option.map_eq_some_iff.mp h
  exact names entry (List.mem_of_find?_eq_some found)

theorem notMem_annotation (type : FieldType) : '=' ∉ (type.annotation classes).toList := by
  induction type with
  | array items ih => simp [FieldType.annotation, String.toList_append, ih]
  | ref target =>
    rw [FieldType.annotation]
    cases h : FieldType.localClass? classes target with
    | none => simp
    | some name => exact notMem_localClass? names h
  | union targets =>
    rw [FieldType.annotation]
    split
    · next name more found =>
      refine notMem_intercalate (by simp) fun text htext => ?_
      obtain ⟨target, -, isLocal⟩ := exists_of_mem_mapM found htext
      exact notMem_localClass? names isLocal
    · simp
  | nullable inner ih =>
    rw [FieldType.annotation]
    split_ifs
    · exact ih
    · simp [String.toList_append, ih]
  | _ => simp [FieldType.annotation]

theorem notMem_slotAnnotation (slot : Slot) (p : Option Property) :
    '=' ∉ ( annotation classes slot p).toList := by
  cases p with
  | none =>
    rw [ annotation]
    split_ifs <;> simp
  | some p =>
    rw [ annotation]
    split_ifs
    · exact notMem_annotation names p.type
    · simp [String.toList_append, notMem_annotation names p.type]

/-- The line of an attribute is read as the attribute, with the default unless the slot must be
filled. -/
theorem attribute?_slotLines (t : RecordType) (type : DefinitionType) {slot : Slot}
    (attr : ':' ∉ slot.attr.toList) (proper : slot.default.HasLiteral) :
    attribute? (slotLines classes t type slot).tail =
      some (slot.attr, if t.enforced.contains slot.key then none else some slot.default) := by
  have plain := notMem_slotAnnotation names slot (type.property? slot.key)
  rw [slotLines, List.cons_append, List.tail_cons, List.cons_append, attribute?]
  split_ifs
  · rw [assignment?_annotated attr plain]
    rfl
  · rw [assignment?_assigned attr plain, Option.bind_some]
    simp only [proper.read?_literal, Option.map_some]

end Annotations

/-! ### Whole classes -/

theorem docstring_ne (text : String) : docstring text "    " ≠ "" := by
  intro empty
  have none := congrArg String.toList empty
  rw [docstring, String.toList_ofList, Docstring.render] at none
  split at none <;> simp at none

theorem notMem_headerLines (c : CompiledDefinition) (t : RecordType) : "" ∉ headerLines c t := by
  have doc := docstring_ne (describe c.description ("``" ++ c.canonicalName ++ "``."))
  simp [headerLines, doc.symm, eq_comm (a := "")]

theorem notMem_settingsLines (b : Bundle) (c : CompiledDefinition) (t : RecordType) :
    "" ∉ settingsLines b c t := by
  simp [settingsLines, tableLine, eq_comm (a := "")]

theorem notMem_slotLines (classes : LocalClasses) (t : RecordType) (type : DefinitionType)
    (slot : Slot) : "" ∉ (slotLines classes t type slot).tail := by
  rw [slotLines, List.cons_append, List.tail_cons, List.cons_append, List.mem_cons, not_or]
  refine ⟨?_, ?_⟩
  · split_ifs <;> simp [eq_comm (a := "")]
  · cases type.property? slot.key with
    | none => exact List.not_mem_nil
    | some p =>
      dsimp only
      split_ifs
      · exact fun h => docstring_ne _ (List.mem_singleton.mp h).symm
      · exact List.not_mem_nil

/-- The lines of a class are read as the record type that they were written for. -/
theorem exists_read?_classLines {b : Bundle} {c : CompiledDefinition} {t : RecordType}
    {classes : LocalClasses} (names : PlainNames classes)
    (attrs : ∀ slot ∈ t.slots, ':' ∉ slot.attr.toList)
    (defaults : ∀ slot ∈ t.slots, slot.default.HasLiteral)
    (id : Text.IsBare b.document.id.toList) (key : Text.IsBare c.key.toList)
    (nsid : t.nsid = b.document.id) (own : t.key = c.key) :
    ∃ source, read? (classLines b classes c t) = some source ∧ source.Describes t := by
  have blocks : ∀ lines ∈ headerLines c t :: settingsLines b c t ::
      t.slots.map (fun slot => (slotLines classes t c.type slot).tail), "" ∉ lines := by
    rw [List.forall_mem_cons, List.forall_mem_cons, List.forall_mem_map]
    exact ⟨notMem_headerLines c t, notMem_settingsLines b c t,
      fun slot _ => notMem_slotLines classes t c.type slot⟩
  have attributes := mapM_map_eq_some fun slot hslot =>
    attribute?_slotLines names t c.type (attrs slot hslot) (defaults slot hslot)
  rw [classLines_eq, read?, List.splitOn_intercalate "" blocks (by simp)]
  simp only [settings?_settingsLines defaults id key, attributes]
  exact ⟨_, rfl, nsid.symm, own.symm, rfl, List.mergeSort_perm _ _, List.mergeSort_perm _ _, rfl⟩

end ClassSource

end Lexicon.Module
