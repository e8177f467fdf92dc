import Lexicon.Proofs.Identifier.Characters

/-!
# References and their texts

No identifier of a document holds a hash sign, so the text of a reference falls apart at its first
one. Main statements: a text is read as a reference exactly if it says the reference in one of three
ways; and the text of a reference to a definition of a document is read as this reference if its
definition has a name that references can hold, and as none otherwise.
-/

namespace Lexicon

theorem Text.cutAt_of_notMem {sep : Char} {cs : List Char} (h : sep ∉ cs) :
    Text.cutAt sep cs = (cs, none) := by
  induction cs with
  | nil => rfl
  | cons c rest ih =>
    rw [List.mem_cons, not_or] at h
    rw [Text.cutAt, if_neg (Ne.symm h.1), ih h.2]

theorem Nsid.hash_notMem {s : String} (h : Nsid.isValid s = true) : '#' ∉ s.toList :=
  Nsid.notMem_of_isHostChar h (by decide) (by decide)

theorem Nsid.toList_ne_nil {s : String} (h : Nsid.isValid s = true) : s.toList ≠ [] := by
  intro empty
  rw [Nsid.isValid, empty, Bool.and_eq_true] at h
  exact absurd h.2 (by decide)

namespace Reference

variable {r : Reference} {text : String} {base : Option String}

/-- A reference that is read names a document and a definition that references can name. -/
theorem valid_of_read (h : read text base = .ok r) :
    Nsid.isValid r.nsid = true ∧ isFragment r.fragment = true := by
  unfold read at h
  split at h
  · split_ifs at h with valid
    obtain rfl := Except.ok.inj h
    rwa [Bool.and_eq_true] at valid
  · cases h

/-- Without a hash sign in front, the base of a reference is not asked for. -/
theorem cut?_of_hash_notMem {cs : List Char} (h : '#' ∉ cs) :
    cut? cs base = some (String.ofList cs, mainKey) := by
  unfold cut?
  split
  · exact absurd List.mem_cons_self h
  · rw [Text.cutAt_of_notMem h]

theorem cut?_append {cs fragment : List Char} (nonempty : cs ≠ []) (h : '#' ∉ cs) :
    cut? (cs ++ '#' :: fragment) base = some (String.ofList cs, String.ofList fragment) := by
  obtain ⟨c, rest, rfl⟩ := List.exists_cons_of_ne_nil nonempty
  unfold cut?
  split
  · next eq =>
    obtain ⟨rfl, -⟩ := List.cons.inj eq
    exact absurd List.mem_cons_self h
  · rw [Text.cutAt_append h]

/-! ### The ways to write a reference -/

/-- A text, together with a base, says a reference in one of three ways. -/
inductive Spells : String → Option String → Reference → Prop
  /-- A name in the document that is the base. -/
  | bare {nsid fragment : String} : Spells ("#" ++ fragment) (some nsid) ⟨nsid, fragment⟩
  /-- A document, for its main definition. -/
  | main {nsid : String} {base : Option String} : Spells nsid base ⟨nsid, mainKey⟩
  /-- A document and a name in it. -/
  | full {nsid fragment : String} {base : Option String} :
      Spells (nsid ++ "#" ++ fragment) base ⟨nsid, fragment⟩

theorem spells_of_cut? {nsid fragment : String}
    (h : cut? text.toList base = some (nsid, fragment)) : Spells text base ⟨nsid, fragment⟩ := by
  by_cases hash : '#' ∈ text.toList
  · obtain ⟨front, name, whole, first⟩ := List.eq_append_cons_of_mem hash
    cases front with
    | nil =>
      have written : text = "#" ++ String.ofList name := by
        rw [← String.toList_inj, whole]
        simp
      rw [whole, List.nil_append, cut?, Option.map_eq_some_iff] at h
      obtain ⟨nsid, rfl, same⟩ := h
      obtain ⟨rfl, rfl⟩ := Prod.mk.inj same
      rw [written]
      exact .bare
    | cons c rest =>
      have written : text = String.ofList (c :: rest) ++ "#" ++ String.ofList name := by
        rw [← String.toList_inj, whole]
        simp
      rw [whole, cut?_append (List.cons_ne_nil c rest) first] at h
      obtain ⟨rfl, rfl⟩ := Prod.mk.inj (Option.some.inj h)
      rw [written]
      exact .full
  · rw [cut?_of_hash_notMem hash, String.ofList_toList] at h
    obtain ⟨rfl, rfl⟩ := Prod.mk.inj (Option.some.inj h)
    exact .main

theorem cut?_of_spells (h : Spells text base r) (valid : Nsid.isValid r.nsid = true) :
    cut? text.toList base = some (r.nsid, r.fragment) := by
  have hash := Nsid.hash_notMem valid
  cases h with
  | @bare nsid fragment =>
    have whole : ("#" ++ fragment).toList = '#' :: fragment.toList := by simp
    rw [whole, cut?, Option.map_some, String.ofList_toList]
  | main => rw [cut?_of_hash_notMem hash, String.ofList_toList]
  | @full nsid fragment =>
    have whole : (nsid ++ "#" ++ fragment).toList = nsid.toList ++ '#' :: fragment.toList := by simp
    rw [whole, cut?_append (Nsid.toList_ne_nil valid) hash, String.ofList_toList,
      String.ofList_toList]

/-- A text is read as a reference exactly if it says the reference and this one leads to a document
and to a definition that references can name. -/
theorem read_eq_ok_iff : read text base = .ok r ↔
    Spells text base r ∧ Nsid.isValid r.nsid = true ∧ isFragment r.fragment = true := by
  constructor
  · intro h
    refine ⟨?_, valid_of_read h⟩
    unfold read at h
    split at h
    · next nsid fragment hcut =>
      split_ifs at h
      obtain rfl := Except.ok.inj h
      exact spells_of_cut? hcut
    · cases h
  · rintro ⟨spells, valid, named⟩
    rw [read, cut?_of_spells spells valid]
    simp only [valid, named, Bool.and_self, if_true]

theorem spells_text (r : Reference) (base : Option String) : Spells r.text base r := by
  obtain ⟨nsid, fragment⟩ := r
  rw [Reference.text]
  dsimp only
  split_ifs with main
  · rw [main]
    exact .main
  · exact .full

/-- The text of a reference is read as it exactly if references can name its definition; a base
makes no difference. -/
theorem read_text (h : Nsid.isValid r.nsid = true) :
    read r.text base =
      if isFragment r.fragment then .ok r
      else .error (.malformed "lexicon reference" (.str r.text)) := by
  rw [read, cut?_of_spells (spells_text r base) h]
  simp only [h, Bool.true_and]

end Reference

end Lexicon
