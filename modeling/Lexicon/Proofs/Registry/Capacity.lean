import Lexicon.Proofs.Compile.Definition
import Lexicon.Proofs.Document.Reading
import Lexicon.Proofs.Registry.Budget
import Mathlib.Algebra.BigOperators.Ring.List
import Mathlib.Algebra.Order.BigOperators.Group.List
import Mathlib.Algebra.Order.Ring.Nat

/-!
# The capacity of a registry

The references that lead anywhere in a registry are those to the definitions that it holds and to
those that its sources can supply. Main statements: the capacity of a registry bounds their number,
and with the number of steps that follows from it, or any greater one, a check in a registry has one
and the same outcome.
-/

namespace Lexicon

private theorem sum_filterMap_le {α β : Type} {f : α → Option β} {g : β → Nat} {h : α → Nat}
    (hle : ∀ x y, f x = some y → g y ≤ h x) (xs : List α) :
    ((xs.filterMap f).map g).sum ≤ (xs.map h).sum := by
  induction xs with
  | nil => simp
  | cons x xs ih =>
    cases hx : f x with
    | none => simpa [hx] using Nat.le_add_left_of_le ih
    | some y => simpa [hx] using Nat.add_le_add (hle x y hx) ih

namespace FileTree

mutual

theorem sum_length_files (t : FileTree) : (t.files.map fun f => f.2.length).sum = t.size := by
  match t with
  | .file contents => simp [files, size]
  | .directory entries => exact sum_length_filesOfEntries entries

theorem sum_length_filesOfEntries (entries : List (String × FileTree)) :
    ((filesOfEntries entries).map fun f => f.2.length).sum = sizeOfEntries entries := by
  match entries with
  | [] => rfl
  | (name, node) :: rest =>
    simp only [filesOfEntries, sizeOfEntries, List.map_append, List.map_map, List.sum_append,
      sum_length_filesOfEntries rest, ← sum_length_files node]
    rfl

end

theorem mem_filesOfEntries {entries : List (String × FileTree)} {name : String} {node : FileTree}
    (h : (name, node) ∈ entries) {f : List String × String} (hf : f ∈ node.files) :
    (name :: f.1, f.2) ∈ filesOfEntries entries := by
  induction entries with
  | nil => simp at h
  | cons e rest ih =>
    obtain ⟨name', node'⟩ := e
    simp only [filesOfEntries, List.mem_append]
    rcases List.mem_cons.mp h with heq | h
    · obtain ⟨rfl, rfl⟩ := Prod.mk.inj heq
      exact .inl (List.mem_map.mpr ⟨f, hf, rfl⟩)
    · exact .inr (ih h)

theorem mem_files_of_get? {t : FileTree} {names : List String} {contents : String}
    (h : t.get? names = some (.file contents)) : (names, contents) ∈ t.files := by
  induction names generalizing t with
  | nil =>
    obtain rfl : t = .file contents := Option.some.inj h
    simp [files]
  | cons name rest ih =>
    obtain ⟨child, hchild, hrest⟩ := Option.bind_eq_some_iff.mp h
    cases t with
    | file _ => simp [child?] at hchild
    | directory entries =>
      exact mem_filesOfEntries (Entries.mem_of_find?_eq_some hchild) (ih hrest)

end FileTree

theorem FileSystem.mem_files_of_read {fs : FileSystem} {p : FilePath} {contents : String}
    (h : fs.read p = .ok contents) : ∃ names, (names, contents) ∈ fs.tree.files := by
  unfold read errorAt find at h
  cases hp : fs.resolve p with
  | error kind => simp [hp, Except.mapError] at h
  | ok names =>
    simp only [hp, Except.ok_bind] at h
    split at h
    · next node hnode =>
      cases node with
      | file found =>
        obtain rfl : found = contents := Except.ok.inj h
        exact ⟨names, FileTree.mem_files_of_get? hnode⟩
      | directory _ =>
        simp [Except.mapError, Except.throw_eq_error, Except.pure_eq_ok] at h
    · simp [Except.mapError, Except.throw_eq_error] at h

/-! ### Sources -/

namespace Source

variable (env : Surroundings)

/-- The documents that a source can supply, each with the identifier that it is found by. -/
def supply : Source → List (String × Document)
  | .directory _ => env.files.tree.files.filterMap fun f =>
    (Document.ofFile "" f.2.toList).toOption.map fun d => (d.id, d)
  | .bundled => Bundled.all.filterMap fun e =>
    (Document.ofValue e.2).toOption.map fun d => (e.1, d)
  | .documents ds => ds.map fun d => (d.id, d)

private theorem mem_files_of_loadFirst {files : FileSystem} {nsid : String} {paths : List FilePath}
    {d : Document} (h : loadFirst files nsid paths = .ok (some d)) :
    d.id = nsid ∧ ∃ path contents, Document.ofFile path contents = .ok d ∧
      ∃ f ∈ files.tree.files, f.2.toList = contents := by
  induction paths with
  | nil => simp [loadFirst] at h
  | cons path rest ih =>
    simp only [loadFirst, Except.bind_eq_ok_iff] at h
    obtain ⟨isFile, _, h⟩ := h
    split at h
    · simp only [Except.bind_eq_ok_iff] at h
      obtain ⟨contents, hread, document, hdocument, h⟩ := h
      split at h
      · next hid =>
        obtain rfl : document = d := Option.some.inj (Except.ok.inj h)
        obtain ⟨names, hmem⟩ := FileSystem.mem_files_of_read hread
        exact ⟨hid, _, _, hdocument, _, hmem, rfl⟩
      · simp [Except.throw_eq_error] at h
    · exact ih h

theorem mem_supply_of_load {source : Source} {nsid : String} {d : Document}
    (h : source.load env nsid = .ok (some d)) : (nsid, d) ∈ source.supply env := by
  cases source with
  | directory root =>
    simp only [load] at h
    split at h
    · obtain ⟨rfl, path, contents, hdocument, f, hf, rfl⟩ := mem_files_of_loadFirst h
      refine List.mem_filterMap.mpr ⟨f, hf, ?_⟩
      simp [Document.ofFile_congr hdocument "", Except.toOption]
    · simp at h
  | bundled =>
    simp only [load] at h
    split at h
    · next v hv =>
      obtain ⟨document, hdocument, h⟩ := Except.bind_eq_ok_iff.mp h
      obtain rfl : document = d := Option.some.inj (Except.ok.inj h)
      refine List.mem_filterMap.mpr ⟨_, Entries.mem_of_find?_eq_some hv, ?_⟩
      simp [hdocument, Except.toOption]
    · simp at h
  | documents ds =>
    have hfind : ds.find? (·.id == nsid) = some d := Except.ok.inj h
    have hid := List.find?_some hfind
    exact List.mem_map.mpr ⟨d, List.mem_of_find?_eq_some hfind, by rw [eq_of_beq hid]⟩

private theorem toOption_eq_some {ε α β : Type} {x : Except ε α} {f : α → β} {b : β}
    (h : x.toOption.map f = some b) : ∃ a, x = .ok a ∧ f a = b := by
  cases x with
  | error e => simp [Except.toOption] at h
  | ok a => exact ⟨a, rfl, by simpa [Except.toOption] using h⟩

theorem supply_le_capacity (source : Source) :
    compiledPerDefinition * ((source.supply env).map fun e => e.2.definitions.length).sum ≤
      source.capacity env := by
  cases source with
  | directory root =>
    refine Nat.mul_le_mul_left _ ?_
    rw [← FileTree.sum_length_files]
    refine sum_filterMap_le (fun f e h => ?_) _
    obtain ⟨d, hd, rfl⟩ := toOption_eq_some h
    rw [← String.length_toList]
    exact Document.length_definitions_le_of_ofFile hd
  | bundled =>
    refine Nat.mul_le_mul_left _ ?_
    rw [List.length_flatMap]
    refine sum_filterMap_le (fun f e h => ?_) _
    obtain ⟨d, hd, rfl⟩ := toOption_eq_some h
    exact Document.length_definitions_le hd
  | documents ds =>
    refine Nat.mul_le_mul_left _ (Nat.le_of_eq ?_)
    rw [List.length_flatMap, supply, List.map_map]
    rfl

end Source

/-! ### References that lead anywhere -/

/-- The references that a document can supply definitions for, under an identifier. -/
def Document.targets (nsid : String) (d : Document) : List Reference :=
  d.definitions.flatMap fun e => (e.1 :: partKeys).map (⟨nsid, ·⟩)

theorem Document.length_targets (nsid : String) (d : Document) :
    (d.targets nsid).length = Source.compiledPerDefinition * d.definitions.length := by
  simp [targets, List.length_flatMap, partKeys, Source.compiledPerDefinition, Nat.mul_comm]

/-- The keys of a compiled document are those that its definitions can supply. -/
theorem Document.mem_targets_of_compile {d : Document} {id : BundleId} {registry : Nat}
    {strict : Bool} {b : Bundle} (h : (d.compile id registry strict).outcome = .ok b)
    (nsid : String) {key : String} (hkey : key ∈ b.keys) : ⟨nsid, key⟩ ∈ d.targets nsid := by
  simp only [compile, Traced.outcome_operation, Traced.outcome_bind_eq_ok_iff] at h
  obtain ⟨result, hresult, h⟩ := h
  obtain rfl := Except.ok.inj h
  obtain ⟨c, hc, rfl⟩ := List.mem_map.mp hkey
  obtain ⟨component, hcomponent, hkey, _⟩ := (compiles_of_outcome hresult).1.exists_left hc
  obtain ⟨e, he, hmem⟩ := List.mem_flatMap.mp hcomponent
  refine List.mem_flatMap.mpr ⟨e, he, List.mem_map.mpr ⟨c.1, ?_, rfl⟩⟩
  rw [hkey, List.mem_cons]
  exact Definition.key_of_mem_components hmem

namespace Registry

variable (env : Surroundings) (r : Registry)

/-- The references that a registry holds a definition for or may load one for. -/
def targets : List Reference :=
  r.bundles.flatMap (fun e => e.2.keys.map (⟨e.1, ·⟩)) ++
    r.sources.flatMap fun source => (source.supply env).flatMap fun e => e.2.targets e.1

theorem length_targets_le : (r.targets env).length ≤ r.capacity env := by
  have add (sources : List Source) (start : Nat) :
      sources.foldl (fun count source => count + source.capacity env) start =
        start + (sources.map fun source => source.capacity env).sum := by
    induction sources generalizing start with
    | nil => rfl
    | cons source rest ih => rw [List.foldl_cons, ih, List.map_cons, List.sum_cons, Nat.add_assoc]
  rw [capacity, add, targets, List.length_append]
  refine Nat.add_le_add (Nat.le_of_eq ?_) ?_
  · simp only [List.length_flatMap, Bundle.keys, Entries.keys, List.length_map]
  · rw [List.length_flatMap]
    refine List.sum_le_sum fun source _ => ?_
    refine Nat.le_trans (Nat.le_of_eq ?_) (source.supply_le_capacity env)
    simp only [List.length_flatMap, Document.length_targets, List.sum_map_mul_left]

private theorem mem_of_loaded {nsid : String} {sources : List Source} {b : Bundle}
    (h : r.loaded env nsid sources = .ok b) {key : String} (hkey : key ∈ b.keys) :
    ⟨nsid, key⟩ ∈ sources.flatMap fun source =>
      (source.supply env).flatMap fun e => e.2.targets e.1 := by
  induction sources with
  | nil => simp [loaded] at h
  | cons source rest ih =>
    rw [List.flatMap_cons, List.mem_append]
    obtain ⟨document, hload, h⟩ := Except.bind_eq_ok_iff.mp h
    cases document with
    | none => exact .inr (ih h)
    | some d =>
      obtain ⟨strict, _, hcompile⟩ := Except.bind_eq_ok_iff.mp h
      exact .inl (List.mem_flatMap.mpr ⟨_, source.mem_supply_of_load env hload,
        Document.mem_targets_of_compile hcompile nsid hkey⟩)

theorem mem_targets {target : Reference} {d : CompiledDefinition}
    (h : r.meaning env target = .ok d) : target ∈ r.targets env := by
  obtain ⟨b, hb, hd⟩ := Except.bind_eq_ok_iff.mp h
  have hkey : target.fragment ∈ b.keys := by
    unfold Bundle.definition at hd
    split at hd
    · next c hc => exact Entries.mem_keys_of_mem (Entries.mem_of_find?_eq_some hc)
    · simp at hd
  rw [targets, List.mem_append]
  unfold found at hb
  split at hb
  · next held hheld =>
    obtain rfl := Except.ok.inj hb
    exact .inl (List.mem_flatMap.mpr ⟨_, Entries.mem_of_find?_eq_some hheld,
      List.mem_map.mpr ⟨_, hkey, rfl⟩⟩)
  · exact .inr (mem_of_loaded env r hb hkey)

/-- The number of steps that a registry allows, or any greater one, gives a check one outcome. -/
theorem outcome_checkWith_eq {v : Value} {m n : Nat} (hm : r.stepBound env v ≤ m)
    (hn : r.stepBound env v ≤ n) (s : Schema) (path : Path) :
    (s.checkWith ((r.meaning env).follow m) v path).outcome =
      (s.checkWith ((r.meaning env).follow n) v path).outcome := by
  have enough : v.depth * ((r.targets env).length + 1) ≤ r.stepBound env v :=
    Nat.mul_le_mul (Nat.le_succ _) (Nat.succ_le_succ (r.length_targets_le env))
  exact Lookup.outcome_checkWith_eq (fun _ _ h => r.mem_targets env h) (enough.trans hm)
    (enough.trans hn) s path

end Registry

end Lexicon
