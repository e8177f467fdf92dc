import Lexicon.Document.Basic
import Lexicon.Proofs.Json.Size
import Lexicon.Proofs.Schema.Accepts
import Lexicon.Registry.Bundled

/-!
# What a document is read from

The identifier and the definitions of a document are those of the value that it was read from, and
the document keeps that value. A value is read exactly if it is admitted and its definitions can be
read from what the schema of documents makes of it. Main statements: a document has at most as many
definitions as its value, and one that was read from a file at most as many as the file has
characters.
-/

namespace Lexicon

theorem Value.entries_eq_ok_iff {v : Value} {es : Entries Value} :
    v.entries = .ok es ↔ v = .object es := by
  cases v <;> simp [entries]

namespace Document

section

variable {es checked made : Entries Value} {d : Document}

/-- What is looked at before the schema of documents is: the version, the identifier, and where the
definitions stand. -/
structure Admitted (es : Entries Value) : Prop where
  version : isVersion (es.getValue "lexicon") = true
  id : Nsid.isValid ((es.getValue "id").str?.getD "") = true
  places : ∀ definitions, es.getValue "defs" = .object definitions →
    ∀ e ∈ definitions, checkPlace ((es.getValue "id").str?.getD "") e.1 e.2 = .ok ()

/-- A document is read from what the schema of documents has made of its entries. -/
structure ReadFrom (es checked made : Entries Value) (d : Document) : Prop where
  verdict : Language.document.plainVerdict (.object es) = .ok (.ok (.object checked))
  defs : (Value.object checked).member "defs" = .ok (.object made)
  each : List.Forall₂ (fun e p : String × _ => p.1 = e.1 ∧ Definition.ofValue e.2 = .ok p.2)
    made d.definitions
  version : (Value.object checked).member "lexicon" = .ok d.version
  id : d.id = (es.getValue "id").str?.getD ""
  revision : d.revision = checked.getValue "revision"
  description : d.description = checked.getValue "description"
  source : d.source = .object es

theorem admitted_of_ofEntries (h : ofEntries es = .ok d) : Admitted es := by
  simp only [ofEntries] at h
  split_ifs at h with version valid
  · refine ⟨version, valid, fun definitions hdefs => ?_⟩
    rw [hdefs] at h
    obtain ⟨_, places, -⟩ := Except.bind_eq_ok_iff.mp h
    exact Except.forM_eq_ok_iff.mp places
  all_goals cases h

theorem exists_readFrom_of_ofEntries (h : ofEntries es = .ok d) :
    ∃ checked made, ReadFrom es checked made d := by
  simp only [ofEntries] at h
  split_ifs at h
  · split at h
    on_goal 1 => obtain ⟨_, _, h⟩ := Except.bind_eq_ok_iff.mp h
    all_goals
      obtain ⟨verdict, hverdict, h⟩ := Except.bind_eq_ok_iff.mp h
      cases verdict with
      | error failure => cases h
      | ok checked =>
        simp only [Except.bind_eq_ok_iff, Value.entries_eq_ok_iff] at h
        obtain ⟨checked, rfl, _, defs, made, rfl, definitions, hread, version, lexicon, h⟩ := h
        obtain rfl := Except.ok.inj h
        exact ⟨checked, made, hverdict, defs, Entries.mapM_eq_ok_iff.mp hread, lexicon, rfl, rfl,
          rfl, rfl⟩
  all_goals cases h

theorem ofEntries_of_readFrom (admitted : Admitted es) (h : ReadFrom es checked made d) :
    ofEntries es = .ok d := by
  obtain ⟨id, definitions, version, revision, description, source⟩ := d
  obtain ⟨verdict, defs, each, lexicon, rfl, rfl, rfl, rfl⟩ := h
  have read := Entries.mapM_eq_ok_iff.mpr each
  simp only [ofEntries, if_pos admitted.version, if_pos admitted.id, verdict, Except.ok_bind,
    Value.entries, defs, read, lexicon]
  split
  · next definitions hdefs =>
    rw [Except.forM_eq_ok_iff.mpr (admitted.places definitions hdefs)]
    rfl
  · rfl

end

theorem isValid_of_ofValue {v : Value} {d : Document} (h : ofValue v = .ok d) :
    Nsid.isValid d.id = true := by
  cases v with
  | object es =>
    obtain ⟨_, _, read⟩ := exists_readFrom_of_ofEntries h
    rw [read.id]
    exact (admitted_of_ofEntries h).id
  | _ => cases h

theorem source_of_ofValue {v : Value} {d : Document} (h : ofValue v = .ok d) : d.source = v := by
  cases v with
  | object es =>
    obtain ⟨_, _, read⟩ := exists_readFrom_of_ofEntries h
    exact read.source
  | _ => cases h

/-- The schema of the definitions of a document. -/
def definitionsSchema : Schema :=
  .required (.object [("main", .tagged "type" (Language.mainTypes ++ Language.valueTypes) none)]
    (some (.tagged "type" Language.valueTypes none)) false)

theorem length_of_definitionsSchema {follow : Reference → Value → Path → Check Unit Value}
    {v : Value} {path : Path} {n : Value}
    (h : (definitionsSchema.checkWith follow v path).outcome = .ok n) :
    ∃ es ns, v = .object es ∧ n = .object ns ∧ ns.length ≤ es.length := by
  change (Schema.checkWith follow (.object _ _ _) v path).outcome = _ at h
  obtain ⟨es, parts, others, rfl, hparts, hothers, rfl⟩ := Schema.outcome_object_eq_ok_iff.mp h
  simp only [List.forall₂_cons_left_iff, List.forall₂_nil_left_iff] at hparts
  obtain ⟨p, _, hp, rfl, rfl⟩ := hparts
  refine ⟨es, _, rfl, rfl, ?_⟩
  cases p with
  | none =>
    simp only [List.filterMap_cons_none, List.filterMap_nil, List.nil_append, id_eq,
      ← hothers.length_eq]
    exact List.length_filter_le _ _
  | some e =>
    obtain ⟨x, hx, -⟩ := Schema.exists_found_of_part rfl hp
    have fewer : (Schema.undeclared
        [("main", .tagged "type" (Language.mainTypes ++ Language.valueTypes) none)] es).length <
          es.length :=
      List.length_filter_lt_length_iff_exists.mpr
        ⟨_, Entries.mem_of_find?_eq_some hx, by simp [Entries.has, Entries.find?]⟩
    simp only [List.filterMap_cons, id_eq, List.filterMap_nil, List.cons_append, List.nil_append,
      List.length_cons, ← hothers.length_eq]
    exact fewer

/-- A document has at most as many definitions as the value that it was read from. -/
theorem length_definitions_le {v : Value} {d : Document} (h : ofValue v = .ok d) :
    d.definitions.length ≤ (Bundled.definitions v).length := by
  cases v with
  | object es =>
    obtain ⟨checked, definitions, read⟩ := exists_readFrom_of_ofEntries h
    have hdefs := read.defs
    have hlength := read.each.length_eq.symm
    have hchecked := Schema.outcome_of_plainVerdict read.verdict
    obtain ⟨_, parts, ⟨⟩, hparts, ⟨⟩⟩ := Schema.outcome_fields_eq_ok_iff.mp hchecked
    obtain ⟨p, hp, hfound⟩ := Schema.find?_parts (by decide) hparts
      (show ("defs", definitionsSchema) ∈ _ by simp [definitionsSchema])
    obtain ⟨x, y, hfind, hy, rfl⟩ := Schema.exists_found_of_required rfl rfl hp
    obtain ⟨raw, checked, rfl, rfl, hle⟩ := length_of_definitionsSchema hy
    simp only [Value.member, Entries.find?_append, hfound, Option.map_some, Option.some_or,
      Except.ok.injEq, Value.object.injEq] at hdefs
    subst hdefs
    simpa [Bundled.definitions, Entries.getValue, hfind, Value.ofOption, hlength] using hle
  | _ => simp [ofValue] at h

private theorem exists_text (contents : List Char) :
    ∃ text, text.length ≤ contents.length ∧ ∀ path d,
      ofFile path contents = .ok d ↔ ∃ v, Json.readAll text = .ok v ∧ ofValue v = .ok d := by
  have reading (text : List Char) (d : Document) :
      ofReading text (Json.readAll text) = .ok d ↔
        ∃ v, Json.readAll text = .ok v ∧ ofValue v = .ok d := by
    cases Json.readAll text with
    | error e => simp [ofReading]
    | ok v => simp [ofReading]
  by_cases mark : ∃ rest, contents = '\ufeff' :: rest
  · obtain ⟨rest, rfl⟩ := mark
    refine ⟨rest, by simp, fun path d => ?_⟩
    rw [← reading rest d]
    unfold ofFile
    dsimp only
    split
    · next refused =>
      change ofReading rest (Json.readAll rest) = _ at refused
      simp [refused]
    · rfl
  · refine ⟨contents, Nat.le_refl _, fun path d => ?_⟩
    rw [← reading contents d]
    unfold ofFile
    dsimp only
    split
    · next refused =>
      split at refused
      · next rest => exact absurd ⟨rest, rfl⟩ mark
      · simp [refused]
    · split
      · next rest _ => exact absurd ⟨rest, rfl⟩ mark
      · rfl

/-- What a file holds does not depend on its path. -/
theorem ofFile_congr {path : String} {contents : List Char} {d : Document}
    (h : ofFile path contents = .ok d) (path' : String) : ofFile path' contents = .ok d := by
  obtain ⟨_, _, hofFile⟩ := exists_text contents
  exact (hofFile _ _).mpr ((hofFile _ _).mp h)

/-- A document has at most as many definitions as its file has characters. -/
theorem length_definitions_le_of_ofFile {path : String} {contents : List Char} {d : Document}
    (h : ofFile path contents = .ok d) : d.definitions.length ≤ contents.length := by
  obtain ⟨text, hlength, hofFile⟩ := exists_text contents
  obtain ⟨v, hread, hv⟩ := (hofFile _ _).mp h
  refine Nat.le_trans (length_definitions_le hv)
    (Nat.le_trans ?_ (Nat.le_trans (Json.entryCount_le_of_readAll hread) hlength))
  cases v with
  | object es =>
    simp only [Bundled.definitions, Entries.getValue]
    split
    · next definitions hdefs =>
      rcases hfind : Entries.find? es "defs" with _ | x
      · simp [hfind, Value.ofOption] at hdefs
      · obtain rfl : x = .object definitions := by simpa [hfind, Value.ofOption] using hdefs
        exact Nat.le_trans (Value.length_le_entryCountOfEntries definitions)
          (Value.entryCount_le_of_mem (Entries.mem_of_find?_eq_some hfind))
    · exact Nat.zero_le _
  | _ => exact Nat.zero_le _

end Document

end Lexicon
