import Lexicon.Proofs.Compile.Definition
import Lexicon.Proofs.Entries
import Lexicon.Proofs.Record.Encode
import Lexicon.Record.Class

/-!
# Slots of records

What the slots of a record hold, and what is written of them. Main statements: a record type that
was built has one slot for each key and each attribute; a record holds in each slot what was given
for it or the default; and the written form holds under the key of each slot what the slot holds,
unless that is null and left out.
-/

namespace Lexicon

namespace RecordType

/-! ### Building -/

private theorem nodup_of_checkAttributes {nsid name : String} {seen : Entries String}
    {slots : List Slot} (h : checkAttributes nsid name seen slots = .ok ()) :
    (slots.map (·.attr)).Nodup ∧ ∀ slot ∈ slots, seen.find? slot.attr = none := by
  induction slots generalizing seen with
  | nil => simp
  | cons slot rest ih =>
    rw [checkAttributes] at h
    split_ifs at h
    split at h
    · simp at h
    · next fresh => exact Entries.nodup_cons_of_fresh fresh (ih h)

/-- A record type made of the slots of given rules. -/
structure BuiltFrom (nsid key : String) (rules : List SlotRule) (typeName : Option String)
    (t : RecordType) : Prop where
  nsid_eq : t.nsid = nsid
  key_eq : t.key = key
  slots_eq : t.slots = (arrange rules typeName).map slotOf
  enforced_eq : t.enforced = ((arrange rules typeName).filter isEnforced).map (·.key)
  omitted_eq : t.omitted = ((arrange rules typeName).filter isOmitted).map (·.key)
  attributes : (t.slots.map (·.attr)).Nodup

theorem builtFrom_of_build {name nsid key : String} {rules : List SlotRule}
    {typeName : Option String} {t : RecordType}
    (h : build name nsid key rules typeName = .ok t) : t.BuiltFrom nsid key rules typeName := by
  simp only [build] at h
  obtain ⟨_, hattributes, h⟩ := Except.bind_eq_ok_iff.mp h
  split at h
  · obtain ⟨_, _, h⟩ := Except.bind_eq_ok_iff.mp h
    split at h
    · obtain rfl := Except.ok.inj h
      exact ⟨rfl, rfl, rfl, rfl, rfl, (nodup_of_checkAttributes hattributes).1⟩
    · obtain ⟨_, refused, _⟩ := Except.bind_eq_ok_iff.mp h
      cases refused
  · obtain ⟨_, refused, _⟩ := Except.bind_eq_ok_iff.mp h
    cases refused

section Built

variable {nsid key : String} {rules : List SlotRule} {typeName : Option String} {t : RecordType}

/-- The slots of a record type have different keys. -/
theorem BuiltFrom.keys (h : t.BuiltFrom nsid key rules typeName) :
    (t.slots.map (·.key)).Nodup := by
  have named : t.slots.map (·.attr) = (t.slots.map (·.key)).map Naming.attributeName := by
    rw [h.slots_eq]
    simp only [List.map_map]
    rfl
  exact (named ▸ h.attributes).of_map

private theorem contains_filtered {rules : List SlotRule} (hnodup : (rules.map (·.key)).Nodup)
    (p : SlotRule → Bool) {rule : SlotRule} (hrule : rule ∈ rules) :
    ((rules.filter p).map (·.key)).contains rule.key = p rule := by
  rw [Bool.eq_iff_iff, List.contains_iff_mem, List.mem_map]
  constructor
  · rintro ⟨other, hother, same⟩
    obtain ⟨hmem, hp⟩ := List.mem_filter.mp hother
    obtain rfl := List.inj_on_of_nodup_map hnodup hmem hrule same
    exact hp
  · exact fun hp => ⟨rule, List.mem_filter.mpr ⟨hrule, hp⟩, rfl⟩

private theorem BuiltFrom.ruleKeys (h : t.BuiltFrom nsid key rules typeName) :
    ((arrange rules typeName).map (·.key)).Nodup := by
  have same : t.slots.map (·.key) = (arrange rules typeName).map (·.key) := by
    rw [h.slots_eq, List.map_map]
    rfl
  exact same ▸ h.keys

theorem BuiltFrom.contains_enforced (h : t.BuiltFrom nsid key rules typeName) {rule : SlotRule}
    (hrule : rule ∈ arrange rules typeName) : t.enforced.contains rule.key = isEnforced rule := by
  rw [h.enforced_eq]
  exact contains_filtered h.ruleKeys isEnforced hrule

theorem BuiltFrom.contains_omitted (h : t.BuiltFrom nsid key rules typeName) {rule : SlotRule}
    (hrule : rule ∈ arrange rules typeName) : t.omitted.contains rule.key = isOmitted rule := by
  rw [h.omitted_eq]
  exact contains_filtered h.ruleKeys isOmitted hrule

end Built

/-! ### Filling -/

section Fill

variable (t : RecordType)

/-- What a slot holds, given what was given for it, if anything was. -/
def settle (slot : Slot) : Option Value → Except Fault Value
  | some v => .ok v
  | none => if t.enforced.contains slot.key then .error .wrongType else .ok slot.default

/-- The attributes of a record, given what is given for each slot. -/
def attributesOf (given : Slot → Except Fault (Option Value)) : Except Fault (Entries Value) :=
  t.slots.mapM fun slot => do return (slot.attr, ← t.settle slot (← given slot))

variable {t}

/-- The attributes of a record, slot by slot. -/
theorem attributesOf_eq_ok_iff {given : Slot → Except Fault (Option Value)} {made : Entries Value} :
    t.attributesOf given = .ok made ↔ List.Forall₂ (fun slot a =>
      ∃ g v, given slot = .ok g ∧ t.settle slot g = .ok v ∧ a = (slot.attr, v)) t.slots made := by
  rw [attributesOf, Except.mapM_eq_ok_iff]
  refine iff_of_eq (congrArg (List.Forall₂ · _ _) ?_)
  funext slot a
  simp only [Except.bind_eq_ok_iff, Except.pure_eq_ok, Except.ok.injEq, eq_iff_iff]
  constructor
  · rintro ⟨g, hg, v, hv, rfl⟩
    exact ⟨g, v, hg, hv, rfl⟩
  · rintro ⟨g, v, hg, hv, rfl⟩
    exact ⟨g, hg, v, hv, rfl⟩

theorem keys_of_attributesOf {given : Slot → Except Fault (Option Value)} {made : Entries Value}
    (h : t.attributesOf given = .ok made) : made.keys = t.slots.map (·.attr) := by
  rw [attributesOf_eq_ok_iff] at h
  refine List.forall₂_eq_eq_eq ▸ ?_
  rw [Entries.keys, List.forall₂_map_left_iff, List.forall₂_map_right_iff]
  refine h.flip.imp ?_
  rintro a slot ⟨g, v, _, _, rfl⟩
  rfl

/-- What `fill` is called with where something is given for each slot, or nothing. -/
private def Collected (t : RecordType) (given : Slot → Except Fault (Option Value))
    (found : List (Option (String × Value))) : Prop :=
  List.Forall₂ (fun slot p => ∃ g, given slot = .ok g ∧ g.map (slot.attr, ·) = p) t.slots found

private theorem Collected.argument {given : Slot → Except Fault (Option Value)}
    {found : List (Option (String × Value))} (h : Collected t given found)
    (attributes : (t.slots.map (·.attr)).Nodup) {slot : Slot} (hslot : slot ∈ t.slots) :
    ∃ g, given slot = .ok g ∧ Entries.find? (found.filterMap id) slot.attr = g := by
  have own : ∀ (slot : Slot) (e : String × Value),
      (∃ g, given slot = .ok g ∧ g.map (slot.attr, ·) = some e) → e.1 = slot.attr := by
    rintro slot e ⟨g, _, hg⟩
    obtain ⟨v, _, rfl⟩ := Option.map_eq_some_iff.mp hg
    rfl
  have collected := Entries.find?_collected attributes h own
  obtain ⟨p, _, ⟨g, hg, rfl⟩, hfound⟩ := collected.exists_right hslot
  refine ⟨g, hg, ?_⟩
  rw [hfound, Option.map_map]
  exact Option.map_id'

private theorem Collected.known {given : Slot → Except Fault (Option Value)}
    {found : List (Option (String × Value))} (h : Collected t given found) :
    (found.filterMap id).all (fun a => t.slots.any (·.attr == a.1)) = true := by
  rw [List.all_eq_true]
  intro a ha
  obtain ⟨p, hp, rfl⟩ := List.mem_filterMap.mp ha
  obtain ⟨slot, hslot, g, _, hg⟩ := h.exists_left hp
  obtain ⟨v, _, rfl⟩ := Option.map_eq_some_iff.mp hg
  exact List.any_eq_true.mpr ⟨slot, hslot, beq_self_eq_true _⟩

/-- A record that is filled with what is given for its slots. -/
theorem fill_eq_ok_iff (attributes : (t.slots.map (·.attr)).Nodup)
    (given : Slot → Except Fault (Option Value)) (made : Entries Value) :
    (t.slots.mapM fun slot : Slot => Option.map (slot.attr, ·) <$> given slot) >>=
        (fun found => t.fill (found.filterMap id)) = .ok made ↔
      t.attributesOf given = .ok made := by
  have filled {found : List (Option (String × Value))} (h : Collected t given found) :
      t.fill (found.filterMap id) = .ok made ↔ t.attributesOf given = .ok made := by
    rw [fill, if_pos h.known, attributesOf]
    refine iff_of_eq (congrArg (· = Except.ok made) (Except.mapM_congr fun slot hslot => ?_))
    obtain ⟨g, hg, hfound⟩ := h.argument attributes hslot
    rw [hfound, hg]
    cases g with
    | some v => rfl
    | none =>
      simp only [settle, Except.ok_bind]
      split_ifs <;> rfl
  rw [Except.bind_eq_ok_iff]
  simp only [Except.mapM_eq_ok_iff, Except.map_eq_ok_iff]
  constructor
  · rintro ⟨found, hfound, hmade⟩
    exact (filled hfound).mp hmade
  · intro hmade
    obtain ⟨found, hfound⟩ : ∃ found, Collected t given found := by
      refine List.exists_forall₂ fun slot hslot => ?_
      obtain ⟨_, _, g, _, hg, _⟩ := (attributesOf_eq_ok_iff.mp hmade).exists_right hslot
      exact ⟨_, g, hg, rfl⟩
    exact ⟨found, hfound, (filled hfound).mpr hmade⟩

end Fill

/-! ### Writing -/

section Written

variable {t : RecordType} {made : Entries Value}

/-- What is written of a record with given attributes. -/
def written (t : RecordType) (cls : ClassId) (made : Entries Value) : Entries Value :=
  Value.writtenEntries (t.classOf cls) (Value.encodeEntries made)

theorem encode_record (t : RecordType) (cls : ClassId) (made : Entries Value) :
    (Value.record (t.classOf cls) made).encode = .object (t.written cls made) := by
  rw [Value.encode, written]

private theorem key_of_written {attributes : Entries Value} {omitted : List String}
    {slot : Slot} {e : String × Value}
    (h : (match attributes.find? slot.attr with
      | some .null => if omitted.contains slot.key then none else some (slot.key, .null)
      | some v => some (slot.key, v)
      | none => none) = some e) : e.1 = slot.key := by
  split at h
  · split_ifs at h
    rw [← Option.some.inj h]
  · rw [← Option.some.inj h]
  · simp at h

/-- What is written under the key of a slot that holds a value. -/
theorem find?_written (cls : ClassId) (keys : (t.slots.map (·.key)).Nodup) {slot : Slot}
    (hslot : slot ∈ t.slots) {v : Value} (hv : Entries.find? made slot.attr = some v) :
    (t.written cls made).find? slot.key =
      if v.isNull && t.omitted.contains slot.key then none else some v.encode := by
  have encoded := Value.find?_encodeEntries made slot.attr
  rw [hv, Option.map_some] at encoded
  simp only [written, Value.writtenEntries, classOf, List.filterMap_map]
  refine (Entries.find?_filterMap Slot.key keys (fun _ _ h => key_of_written h) hslot).trans ?_
  simp only [encoded]
  cases v <;> simp [Value.encode, Value.encodedBytes, Value.isNull]
  split_ifs <;> rfl

end Written

end RecordType

end Lexicon
