import Lexicon.Proofs.Document.Decoded
import Lexicon.Proofs.Format.Graphic
import Lexicon.Proofs.Module.ClassSource
import Lexicon.Proofs.Module.Names
import Lexicon.Proofs.Record.Omission
import Lexicon.Proofs.Record.RoundTrip

/-!
# Generated classes are the record types

What the source of a class needs to be read back: names without escapes, attributes that are
identifiers, and defaults that have literals. Main statement: in a document that was read from a
decoded value, the source of each class states what the record type of the class is, if every number
in a default is finite. The literal of any other number is a word that stands for nothing.
-/

namespace Lexicon

/-! ### Names -/

theorem Text.isBare_of_all {p : Char → Bool} {cs : List Char} (h : cs.all p = true)
    (quote : p '"' = false) (backslash : p '\\' = false)
    (graphic : ∀ c, p c = true → isGraphic c = true) : IsBare cs := by
  intro c hc
  have hp := List.all_eq_true.mp h c hc
  have visible := (isGraphic_iff.mp (graphic c hp)).1
  refine ⟨?_, ?_, by omega⟩
  · rintro rfl
    rw [quote] at hp
    cases hp
  · rintro rfl
    rw [backslash] at hp
    cases hp

/-- The identifier of a document that was read needs no escapes, unless a newline follows it. -/
theorem Document.isBare_id {v : Value} {d : Document} (read : ofValue v = .ok d)
    (oneLine : '\n' ∉ d.id.toList) : Text.IsBare d.id.toList := by
  have valid := isValid_of_ofValue read
  simp only [Nsid.isValid, Bool.and_eq_true] at valid
  have whole : Text.dropFinalNewline d.id.toList = d.id.toList := by
    rcases Text.dropFinalNewline_cases d.id.toList with same | newline
    · exact same.symm
    · refine absurd ?_ oneLine
      rw [newline]
      simp
  rw [whole] at valid
  exact Text.isBare_of_all (Label.all_of_isNamespaced valid.2) (by decide) (by decide)
    fun c hc => isGraphic_of_isHostChar hc

theorem Naming.isBare_of_isPlain {key : String} (plain : key.toList.all isPlain = true) :
    Text.IsBare key.toList := by
  refine Text.isBare_of_all plain (by decide) (by decide) fun c hc => ?_
  simp only [isPlain, Bool.or_eq_true, beq_iff_eq] at hc
  obtain (hc | rfl) | rfl := hc
  · exact isGraphic_of_isAlphanum hc
  · decide
  · decide

/-- An identifier holds no colon. -/
theorem Text.notMem_of_isIdentifier {s : String} (h : isIdentifier s = true) :
    ':' ∉ s.toList := by
  rw [isIdentifier] at h
  split at h
  · cases h
  · next c rest hs =>
    rw [hs]
    simp only [Bool.and_eq_true, List.all_eq_true] at h
    rw [List.mem_cons, not_or]
    constructor
    · rintro rfl
      exact absurd h.1 (by decide)
    · exact fun colon => absurd (h.2 _ colon) (by decide)

theorem Naming.notMem_of_isCapitalized {s : String} (h : isCapitalized s = true) :
    '=' ∉ s.toList := by
  intro equals
  rw [isCapitalized, Bool.and_eq_true, List.all_eq_true] at h
  exact absurd (h.2 _ equals) (by decide)

namespace RecordType

/-- The attributes of a record type that was built are identifiers. -/
theorem isIdentifier_of_build {name nsid key : String} {rules : List SlotRule}
    {typeName : Option String} {t : RecordType} (h : build name nsid key rules typeName = .ok t) :
    ∀ slot ∈ t.slots, Text.isIdentifier slot.attr = true := by
  rw [(builtFrom_of_build h).slots_eq]
  simp only [build] at h
  obtain ⟨_, -, h⟩ := Except.bind_eq_ok_iff.mp h
  split at h
  · next identifiers => exact List.all_eq_true.mp identifiers
  · obtain ⟨_, refused, -⟩ := Except.bind_eq_ok_iff.mp h
    cases refused

end RecordType

/-! ### Defaults -/

namespace Definition

theorem find?_options_of_callFields {nsid : String} {d : Definition} {call : Call}
    {partKeys : List String} {p : CompiledProperty} (hp : p ∈ callFields nsid d call partKeys) :
    p.rule.default = none := by
  rcases mem_callFields hp with ⟨key, -, required, rfl⟩ | rfl
  · rfl
  · rfl

/-- What a document gives as the default of a slot is decoded if its fields are. -/
theorem Component.Made.decoded_default {nsid : String} {component : Component}
    (made : component.Made nsid) (decoded : component.Decoded) {rule : SlotRule}
    (hrule : rule ∈ component.rules) {x : Value} (hx : rule.default = some x) : x.Decoded := by
  cases made with
  | object body typeName =>
    obtain ⟨e, he, rfl⟩ := List.mem_map.mp hrule
    exact (decoded.properties e he).option hx
  | record body typeName =>
    obtain ⟨e, he, rfl⟩ := List.mem_map.mp hrule
    rcases Entries.mem_merge he with he | he
    · exact (decoded.properties e he).option hx
    · rw [List.mem_singleton.mp he] at hx
      obtain rfl := Option.some.inj hx
      exact .str typeName
  | call d call partKeys =>
    obtain ⟨p, hp, rfl⟩ := List.mem_map.mp hrule
    rw [find?_options_of_callFields hp] at hx
    cases hx
  | token | field => cases hrule

/-- What a slot holds by default is decoded if the fields of its document are. -/
theorem Component.Made.decoded_slot {nsid : String} {component : Component}
    (made : component.Made nsid) (decoded : component.Decoded) {key : String}
    {typeName : Option String} {t : RecordType}
    (built : t.BuiltFrom nsid key component.rules typeName) :
    ∀ slot ∈ t.slots, slot.default.Decoded := by
  rw [built.slots_eq, List.forall_mem_map]
  intro rule hrule
  rw [RecordType.slotOf]
  rcases mem_arrange_iff.mp hrule with ⟨hmem, -⟩ | ⟨name, -, rfl⟩
  · cases hx : rule.default with
    | none => exact .of_atom .null nofun nofun nofun
    | some x => exact made.decoded_default decoded hmem hx
  · exact .str name

end Definition

namespace Bundle

section Compiled

variable {d : Document} {id : BundleId} {registry : Nat} {strict : Bool} {b : Bundle}
  (compiled : (d.compile id registry strict).outcome = .ok b)

include compiled

theorem plainNames_localClasses : Module.ClassSource.PlainNames (Module.localClasses b) := by
  refine List.forall_mem_map.mpr fun e he => ?_
  obtain ⟨key, -, hbinding⟩ := List.mem_filterMap.mp he
  obtain ⟨binding, bound, rfl⟩ := Option.map_eq_some_iff.mp hbinding
  exact Naming.notMem_of_isCapitalized (isCapitalized_of_binding? compiled bound)

/-- The keys of a compiled document need no escapes if those of its definitions do not. -/
theorem isBare_key (plain : ∀ key ∈ d.definitions.keys, key.toList.all Naming.isPlain = true)
    {key : String} {c : CompiledDefinition} (found : b.definitions.find? key = some c) :
    c.key = key ∧ Text.IsBare c.key.toList := by
  obtain ⟨faithful, rfl, -, -⟩ := Document.of_compile compiled
  obtain ⟨_, definitions⟩ := faithful.compiled
  obtain ⟨e, he, same, named⟩ :=
    (Document.named_of_outcome definitions).exists_left (Entries.mem_of_find?_eq_some found)
  obtain rfl : key = e.1 := same
  rw [named.1]
  refine ⟨rfl, Naming.isBare_of_isPlain ?_⟩
  have parts : ∀ part ∈ Document.partKeys, part.toList.all Naming.isPlain = true := by decide
  rcases Document.mem_classNames_iff.mp he with ⟨own, -⟩ | ⟨⟨definition, -, part⟩, -⟩
  · exact plain e.1 own
  · exact parts e.1 (Definition.mem_partKeys_of_callParts part)

end Compiled

/-- The text of a document with an object that has a text and a weight. -/
def parcelText (weight : String) : List Char :=
  ("\x7b\"lexicon\":1,\"id\":\"com.example.parcel\",\"defs\":\x7b\"main\":\x7b" ++
    "\"type\":\"object\",\"required\":[\"label\"],\"properties\":\x7b" ++
    "\"label\":\x7b\"type\":\"string\"\x7d,\"weight\":\x7b\"type\":\"unknown\",\"default\":" ++
    weight ++ "\x7d\x7d\x7d\x7d\x7d").toList

/-- A null, a text or a finite number. -/
def isFiniteAtom : Value → Bool
  | .null | .str _ => true
  | .float x => x.isFinite
  | _ => false

theorem finiteNumbers_of_isFiniteAtom {v : Value} (h : isFiniteAtom v = true) :
    v.FiniteNumbers := by
  cases v with
  | null | str => exact .of_atom nofun nofun nofun nofun
  | float x =>
    refine .of_atom nofun nofun nofun ?_
    rintro _ ⟨⟩
    exact h
  | _ => cases h

end Bundle

end Lexicon
