import Lexicon.Proofs.Check.Simulation
import Lexicon.Proofs.Files.Writing
import Lexicon.Proofs.Identifier.Reference
import Lexicon.Workspace

/-!
# The files of namespaced identifiers

A document is looked for in two files below a directory, and its module is written to a file below
another one. Each of these files is named by the parts of the identifier, which hold neither slashes
nor dots nor underscores and are never empty. Main statement: the files lie below the directory, so
nothing else is read or written, and different identifiers have different files.
-/

namespace Lexicon

namespace Text

/-- Joining one piece more puts a separator before it. -/
theorem joinWith_concat {pieces : List (List Char)} (nonempty : pieces ≠ [])
    (sep last : List Char) :
    joinWith sep (pieces ++ [last]) = joinWith sep pieces ++ sep ++ last := by
  obtain ⟨first, rest, rfl⟩ := List.exists_cons_of_ne_nil nonempty
  rw [List.cons_append, joinWith_cons, joinWith_cons, List.map_append, List.flatten_append]
  simp

/-- A character that is no separator belongs to the last piece. -/
theorem splitOn_concat {sep c : Char} {cs last : List Char} {front : List (List Char)}
    (other : sep ≠ c) (split : splitOn sep cs = front ++ [last]) :
    splitOn sep (cs ++ [c]) = front ++ [last ++ [c]] := by
  have free (piece : List Char) (h : piece ∈ front ++ [last]) : sep ∉ piece := by
    rw [← split] at h
    exact not_mem_of_mem_splitOn h
  have pieces : ∀ piece ∈ front ++ [last ++ [c]], sep ∉ piece := by
    rw [List.forall_mem_append, List.forall_mem_singleton] at free ⊢
    refine ⟨free.1, ?_⟩
    rw [List.mem_append, List.mem_singleton, not_or]
    exact ⟨free.2, other⟩
  have joined : cs ++ [c] = joinWith [sep] (front ++ [last ++ [c]]) := by
    rw [← Pattern.flatten_append_eq_joinWith, ← List.append_assoc,
      Pattern.flatten_append_eq_joinWith, ← split, joinWith_splitOn]
  rw [joined, splitOn_joinWith (by simp) pieces]

end Text

namespace FilePath

variable {name ending : String} {names names' : List String} {cs : List Char}

/-! ### Names of files -/

/-- A name that is not empty, does not begin with a point and holds no slash. -/
structure Visible (name : String) : Prop where
  ne_empty : name ≠ ""
  head : name.toList.head? ≠ some '.'
  slash_notMem : '/' ∉ name.toList

theorem Visible.plain (h : Visible name) : Plain name := by
  refine ⟨⟨h.ne_empty, ?_, ?_⟩, h.slash_notMem⟩
  · rintro rfl
    exact h.head rfl
  · rintro rfl
    exact h.head rfl

theorem Visible.append (h : Visible name) (slash : '/' ∉ ending.toList) :
    Visible (name ++ ending) := by
  have nonempty : name.toList ≠ [] := mt String.toList_eq_nil_iff.mp h.ne_empty
  refine ⟨?_, ?_, ?_⟩
  · intro empty
    exact h.ne_empty (String.append_eq_empty_iff.mp empty).1
  · rw [String.toList_append, List.head?_append_of_ne_nil _ nonempty]
    exact h.head
  · rw [String.toList_append, List.mem_append, not_or]
    exact ⟨h.slash_notMem, slash⟩

theorem visible_ofList (nonempty : cs ≠ []) (h : ∀ c ∈ cs, c ≠ '.' ∧ c ≠ '/') :
    Visible (String.ofList cs) := by
  refine ⟨?_, ?_, ?_⟩
  · intro empty
    exact nonempty (by simpa using congrArg String.toList empty)
  · rw [String.toList_ofList]
    exact fun point => (h _ (List.mem_of_head? point)).1 rfl
  · rw [String.toList_ofList]
    exact fun slash => (h _ slash).2 rfl

/-- Names of directories, and a last one with an ending. -/
def filed (ending : String) (names : List String) : List String :=
  names.dropLast ++ [names.getLastD "" ++ ending]

theorem filed_concat (ending : String) (names : List String) (name : String) :
    filed ending (names ++ [name]) = names ++ [name ++ ending] := by
  rw [filed, List.dropLast_concat, List.getLastD_concat]

theorem visible_of_mem_filed (nonempty : names ≠ []) (h : ∀ name ∈ names, Visible name)
    (slash : '/' ∉ ending.toList) : ∀ name ∈ filed ending names, Visible name := by
  rcases List.eq_nil_or_concat' names with rfl | ⟨front, last, rfl⟩
  · exact absurd rfl nonempty
  · rw [filed_concat, List.forall_mem_append, List.forall_mem_singleton]
    rw [List.forall_mem_append, List.forall_mem_singleton] at h
    exact ⟨h.1, h.2.append slash⟩

theorem filed_inj (nonempty : names ≠ []) (nonempty' : names' ≠ [])
    (same : filed ending names = filed ending names') : names = names' := by
  rcases List.eq_nil_or_concat' names with rfl | ⟨front, last, rfl⟩
  · exact absurd rfl nonempty
  rcases List.eq_nil_or_concat' names' with rfl | ⟨front', last', rfl⟩
  · exact absurd rfl nonempty'
  rw [filed_concat, filed_concat, List.append_singleton_inj] at same
  obtain ⟨rfl, last⟩ := same
  rw [String.append_left_inj] at last
  rw [last]

end FilePath

namespace Nsid

open FilePath (Plain Visible filed)

variable {n m : Nsid} {part : List Char}

/-! ### Parts of identifiers -/

/-- A part of an identifier: letters, digits and hyphens, and maybe a newline. -/
structure IsPart (part : List Char) : Prop where
  nonempty : part ≠ []
  chars : ∀ c ∈ part, Label.isLabelChar c = true ∨ c = '\n'

theorem IsPart.notMem {c : Char} (h : IsPart part) (foreign : Label.isLabelChar c = false)
    (other : c ≠ '\n') : c ∉ part := by
  intro hc
  rcases h.chars c hc with label | newline
  · rw [label] at foreign
    cases foreign
  · exact other newline

theorem isPart_of_isLabel (h : Label.isLabel part = true) : IsPart part := by
  have formed := h
  rw [Label.isLabel, Bool.and_eq_true, Bool.and_eq_true, Bool.and_eq_true] at h
  refine ⟨?_, fun c hc => .inl (List.all_eq_true.mp h.1.1.2 c hc)⟩
  rintro rfl
  exact absurd formed (by decide)

theorem isPart_of_isName (h : Label.isName part = true) : IsPart part := by
  have named := h
  rw [Label.isName, Bool.and_eq_true, Bool.and_eq_true] at h
  refine ⟨?_, fun c hc => .inl ?_⟩
  · rintro rfl
    exact absurd named (by decide)
  · exact Pattern.isLabelChar_of_isAlphanum (List.all_eq_true.mp h.1.2 c hc)

/-- An identifier has parts before the last one. -/
theorem exists_parts (n : Nsid) : ∃ front last, front ≠ [] ∧ n.parts = front ++ [last] ∧
    ∀ part ∈ n.parts, IsPart part := by
  have valid := n.valid
  rw [isValid, Bool.and_eq_true] at valid
  obtain ⟨first, labels, last, -, split, hfirst, hlabels, hlast⟩ :=
    Pattern.isNamespaced_iff.mp valid.2
  rw [Label.isLetterLabel, Bool.and_eq_true] at hfirst
  have front : ∀ part ∈ first :: labels, IsPart part :=
    List.forall_mem_cons.mpr
      ⟨isPart_of_isLabel hfirst.1, fun part h => isPart_of_isLabel (hlabels part h)⟩
  have named := isPart_of_isName hlast
  have nonempty : first :: labels ≠ [] := List.cons_ne_nil _ _
  rw [← List.cons_append] at split
  rcases Text.dropFinalNewline_cases n.text.toList with same | newline
  · have parts : n.parts = (first :: labels) ++ [last] := by rw [Nsid.parts, same, split]
    refine ⟨first :: labels, last, nonempty, parts, ?_⟩
    rw [parts, List.forall_mem_append, List.forall_mem_singleton]
    exact ⟨front, named⟩
  · have parts : n.parts = (first :: labels) ++ [last ++ ['\n']] := by
      rw [Nsid.parts, newline, Text.splitOn_concat (by decide) split]
    refine ⟨first :: labels, last ++ ['\n'], nonempty, parts, ?_⟩
    rw [parts, List.forall_mem_append, List.forall_mem_singleton]
    refine ⟨front, by simp, ?_⟩
    rw [List.forall_mem_append, List.forall_mem_singleton]
    exact ⟨named.chars, .inr rfl⟩

theorem parts_ne_nil (n : Nsid) : n.parts ≠ [] :=
  Text.splitOn_ne_nil _ _

theorem isPart_of_mem_parts (h : part ∈ n.parts) : IsPart part := by
  obtain ⟨_, _, -, -, parts⟩ := n.exists_parts
  exact parts part h

/-- An identifier is told by its parts. -/
theorem eq_of_parts (h : n.parts = m.parts) : n = m := by
  have text : n.text = m.text := by
    rw [← String.toList_inj, ← Text.joinWith_splitOn '.' n.text.toList, ← Nsid.parts, h, Nsid.parts,
      Text.joinWith_splitOn]
  cases n
  cases m
  rwa [mk.injEq]

/-- The host name and the last part make up the identifier. -/
theorem authority_append_name (n : Nsid) :
    String.ofList (Text.joinWith ['.'] (Text.splitOn '.' n.authority.toList).reverse) ++ "." ++
      n.name = n.text := by
  obtain ⟨front, last, nonempty, parts, -⟩ := n.exists_parts
  have free : ∀ part ∈ front.reverse, '.' ∉ part := by
    intro part h
    have mem : part ∈ n.parts := by
      rw [parts]
      exact List.mem_append_left _ (List.mem_reverse.mp h)
    exact Text.not_mem_of_mem_splitOn mem
  rw [authority, name, parts, List.dropLast_concat, List.getLastD_concat, String.toList_ofList,
    Text.splitOn_joinWith (by simpa using nonempty) free, List.reverse_reverse, ← String.toList_inj,
    ← Text.joinWith_splitOn '.' n.text.toList, ← Nsid.parts, parts, Text.joinWith_concat nonempty]
  simp

/-! ### Names of files -/

/-- The names on the way to the file in nested directories that may hold the document. -/
def nestedFile (n : Nsid) : List String :=
  filed ".json" (n.parts.map String.ofList)

/-- The name of the file that may hold the document and lies in no further directory. -/
def flatFile (n : Nsid) : String :=
  n.text ++ ".json"

theorem visible_of_mem_modulePath (n : Nsid) : ∀ name ∈ n.modulePath, Visible name := by
  rw [modulePath, List.forall_mem_map]
  intro part h
  have isPart := isPart_of_mem_parts h
  apply FilePath.visible_ofList (by simpa using isPart.nonempty)
  rw [List.forall_mem_map]
  intro c hc
  split_ifs with hyphen
  · exact ⟨by decide, by decide⟩
  · constructor
    · rintro rfl
      exact isPart.notMem (by decide) (by decide) hc
    · rintro rfl
      exact isPart.notMem (by decide) (by decide) hc

theorem visible_of_mem_parts (n : Nsid) : ∀ name ∈ n.parts.map String.ofList, Visible name := by
  rw [List.forall_mem_map]
  intro part h
  have isPart := isPart_of_mem_parts h
  apply FilePath.visible_ofList isPart.nonempty
  intro c hc
  constructor
  · rintro rfl
    exact isPart.notMem (by decide) (by decide) hc
  · rintro rfl
    exact isPart.notMem (by decide) (by decide) hc

theorem visible_text (n : Nsid) : Visible n.text := by
  have nonempty := toList_ne_nil n.valid
  refine ⟨mt String.toList_eq_nil_iff.mpr nonempty, ?_,
    notMem_of_isHostChar n.valid rfl (by decide)⟩
  intro point
  obtain ⟨rest, chars⟩ := List.head?_eq_some_iff.mp point
  have first : [] ∈ n.parts := by
    rw [Nsid.parts, chars]
    exact List.mem_cons_self
  exact (isPart_of_mem_parts first).nonempty rfl

/-- The names of all three files stand for themselves. -/
theorem plain_of_mem_files (n : Nsid) :
    ∀ name ∈ n.moduleFile ++ n.nestedFile ++ [n.flatFile], Plain name := by
  have nonempty := n.parts_ne_nil
  rw [List.forall_mem_append, List.forall_mem_append, List.forall_mem_singleton]
  refine ⟨⟨?_, ?_⟩, (n.visible_text.append (by decide)).plain⟩
  · intro name h
    apply Visible.plain
    apply FilePath.visible_of_mem_filed _ n.visible_of_mem_modulePath (by decide) name h
    rwa [modulePath, ne_eq, List.map_eq_nil_iff]
  · intro name h
    apply Visible.plain
    apply FilePath.visible_of_mem_filed _ n.visible_of_mem_parts (by decide) name h
    rwa [ne_eq, List.map_eq_nil_iff]

/-- No part holds an underscore, so each one in a module name was a hyphen. -/
theorem modulePath_inj (h : n.modulePath = m.modulePath) : n = m := by
  have undone (n : Nsid) : n.modulePath.map (fun name =>
      name.toList.map fun c => if c = '_' then '-' else c) = n.parts := by
    rw [modulePath, List.map_map]
    nth_rewrite 2 [← List.map_id n.parts]
    apply List.map_congr_left
    intro part hpart
    have underscore : '_' ∉ part := (isPart_of_mem_parts hpart).notMem (by decide) (by decide)
    rw [Function.comp_apply, String.toList_ofList, List.map_map]
    nth_rewrite 2 [← List.map_id part]
    apply List.map_congr_left
    intro c hc
    have other : c ≠ '_' := fun same => underscore (same ▸ hc)
    by_cases hyphen : c = '-' <;> simp [hyphen, other]
  apply eq_of_parts
  rw [← undone n, h, undone m]

theorem moduleFile_inj (h : n.moduleFile = m.moduleFile) : n = m := by
  have nonempty (n : Nsid) : n.modulePath ≠ [] := by
    rw [modulePath, ne_eq, List.map_eq_nil_iff]
    exact n.parts_ne_nil
  exact modulePath_inj (FilePath.filed_inj (nonempty n) (nonempty m) h)

theorem nestedFile_inj (h : n.nestedFile = m.nestedFile) : n = m := by
  have nonempty (n : Nsid) : n.parts.map String.ofList ≠ [] := by
    rw [ne_eq, List.map_eq_nil_iff]
    exact n.parts_ne_nil
  apply eq_of_parts
  have injective : Function.Injective String.ofList := fun _ _ => String.ofList_inj.mp
  exact injective.list_map (FilePath.filed_inj (nonempty n) (nonempty m) h)

/-! ### Paths -/

theorem pathOf_eq (n : Nsid) (root : FilePath) :
    Module.pathOf root n.text = .ok (root.below n.moduleFile) := by
  have plain : ∀ name ∈ n.moduleFile, Plain name := fun name h =>
    n.plain_of_mem_files name (List.mem_append_left _ (List.mem_append_left _ h))
  have read : ofValue (.str n.text) = .ok n := by
    rw [ofValue, ofString?, dif_pos n.valid]
  rw [Module.pathOf, read, Except.ok_bind, FilePath.joinAll_of_plain plain]
  rfl

theorem candidates_eq (n : Nsid) (root : FilePath) :
    Source.candidates root n.text = [root.below n.nestedFile, root.below [n.flatFile]] := by
  have plain : ∀ name ∈ n.nestedFile ++ [n.flatFile], Plain name := by
    intro name h
    apply n.plain_of_mem_files
    rw [List.append_assoc]
    exact List.mem_append_right _ h
  rw [List.forall_mem_append, List.forall_mem_singleton] at plain
  have nested : root.joinAll n.nestedFile = root.below n.nestedFile :=
    FilePath.joinAll_of_plain plain.1
  have flat : root.join (.ofString n.flatFile) = root.below [n.flatFile] := by
    rw [FilePath.ofString_of_plain plain.2]
    rfl
  rw [← nested, ← flat]
  rfl

end Nsid

/-! ### Reading and writing -/

namespace Source

open FileSystem (Absent)

variable {fs fs' : FileSystem} {paths : List FilePath}

/-- What is loaded is told by what the candidates lead to. -/
theorem loadFirst_congr (nsid : String)
    (h : ∀ p ∈ paths, fs.find p = fs'.find p ∨ Absent fs p ∧ Absent fs' p) :
    loadFirst fs nsid paths = loadFirst fs' nsid paths := by
  induction paths with
  | nil => rfl
  | cons p rest ih =>
    rw [List.forall_mem_cons] at h
    rw [loadFirst, loadFirst, ih h.2]
    rcases h.1 with same | ⟨⟨kind, none, found⟩, kind', none', found'⟩
    · have tested : fs.test p FileTree.isFile = fs'.test p FileTree.isFile := by
        rw [FileSystem.test, FileSystem.test, same]
      have read : fs.read p = fs'.read p := by
        rw [FileSystem.read, FileSystem.read, same]
      rw [tested, read]
    · have tested : fs.test p FileTree.isFile = .ok false := by
        rw [FileSystem.test, found]
        exact if_pos none
      have tested' : fs'.test p FileTree.isFile = .ok false := by
        rw [FileSystem.test, found']
        exact if_pos none'
      rw [tested, tested']
      rfl

/-- What is loaded from a directory is told by the directory. -/
theorem load_congr {env env' : Surroundings} {root : FilePath} (n : Nsid)
    (same : env.files.find root = env'.files.find root) :
    (Source.directory root).load env n.text = (Source.directory root).load env' n.text := by
  have plain := n.plain_of_mem_files
  rw [List.append_assoc, List.forall_mem_append, List.forall_mem_append] at plain
  rw [load, load, if_pos n.valid, if_pos n.valid, n.candidates_eq]
  apply loadFirst_congr
  rw [List.forall_mem_cons, List.forall_mem_singleton]
  constructor
  · apply FileSystem.find_below_congr same plain.2.1
    rw [Nsid.nestedFile, FilePath.filed]
    simp
  · exact FileSystem.find_below_congr same plain.2.2 (List.cons_ne_nil _ _)

end Source

namespace Workspace

variable {w w' : Workspace} {b : Bundle} {root path : FilePath}

/-- A module that was written is in the file of its document. -/
theorem of_writeModule (h : (writeModule b root).run w = (.ok path, w')) :
    Module.pathOf root b.document.id = .ok path ∧
      w.surroundings.files.write path (Module.render b) = .ok w'.surroundings.files := by
  have read : (get : Work Workspace).run w = (.ok w, w) := rfl
  rw [writeModule, Check.run_bind, Check.run_lift] at h
  cases place : Module.pathOf root b.document.id with
  | error e =>
    rw [place] at h
    cases congrArg Prod.fst h
  | ok path' =>
    simp only [place, Check.run_bind, read, Check.run_lift] at h
    cases written : w.surroundings.files.write path' (Module.render b) with
    | error e =>
      rw [written] at h
      cases congrArg Prod.fst h
    | ok files =>
      rw [written] at h
      obtain rfl : path' = path := Except.ok.inj (congrArg Prod.fst h)
      have changed : files = w'.surroundings.files := congrArg (·.2.surroundings.files) h
      rw [written, changed]
      exact ⟨rfl, rfl⟩

end Workspace

namespace Nsid

/-- **The files of namespaced identifiers lie below their directory and tell the identifiers
apart.** The paths of the module and of both files that may hold the document go on from the
directory with names that are not empty, hold no slash and are not made of one or two points.
Writing the module changes no file but this one, takes no directory away and makes directories only
on the way to it, and only in the directory if that was there; loading the document depends on
nothing but what the directory is. Different identifiers have different modules and different nested
files. The labels of the host name from the last to the first, followed by the name, are the
identifier. -/
theorem files_below (n : Nsid) (root : FilePath) :
    ((∀ name ∈ n.moduleFile ++ n.nestedFile ++ [n.flatFile], FilePath.Plain name) ∧
        Module.pathOf root n.text = .ok (root.below n.moduleFile) ∧
          Source.candidates root n.text = [root.below n.nestedFile, root.below [n.flatFile]]) ∧
      ((∀ b w w' path, b.document.id = n.text →
          (Workspace.writeModule b root).run w = (.ok path, w') →
            ∃ base, FileSystem.Writes w.surroundings.files w'.surroundings.files root base
              n.moduleFile (Module.render b)) ∧
        ∀ env env', env.files.find root = env'.files.find root →
          (Source.directory root).load env n.text = (Source.directory root).load env' n.text) ∧
      (∀ m : Nsid, (Module.pathOf root n.text = Module.pathOf root m.text → n = m) ∧
        ((Source.candidates root n.text).head? = (Source.candidates root m.text).head? → n = m)) ∧
      String.ofList (Text.joinWith ['.'] (Text.splitOn '.' n.authority.toList).reverse) ++ "." ++
        n.name = n.text := by
  refine ⟨⟨n.plain_of_mem_files, n.pathOf_eq root, n.candidates_eq root⟩, ⟨?_, ?_⟩, ?_,
    n.authority_append_name⟩
  · intro b w w' path document written
    obtain ⟨place, written⟩ := Workspace.of_writeModule written
    rw [document, n.pathOf_eq root] at place
    obtain rfl := Except.ok.inj place
    apply FileSystem.exists_writes_of_write _ written
    intro name h
    exact n.plain_of_mem_files name (List.mem_append_left _ (List.mem_append_left _ h))
  · intro env env' same
    exact Source.load_congr n same
  · intro m
    constructor
    · intro same
      rw [n.pathOf_eq, m.pathOf_eq, Except.ok.injEq, FilePath.below, FilePath.below,
        FilePath.mk.injEq, List.append_cancel_left_eq] at same
      exact moduleFile_inj same.2
    · intro same
      rw [n.candidates_eq, m.candidates_eq, List.head?_cons, List.head?_cons, Option.some.injEq,
        FilePath.below, FilePath.below, FilePath.mk.injEq, List.append_cancel_left_eq] at same
      exact nestedFile_inj same.2

/-- An identifier with a hyphen. -/
def blog : Nsid :=
  ⟨"com.my-site.blog", by decide⟩

/-- A bundle without definitions. -/
def blogBundle : Bundle where
  id := .loose 0
  document :=
    { id := blog.text, definitions := [], version := .int 1, revision := .null, description := .null,
      source := .null }
  definitions := []
  registry := 0

/-- Files with an empty directory, and maybe others beside it. -/
def around (others : List (String × FileTree)) : Surroundings where
  files := { tree := .directory (("out", .empty) :: others) }

/-- A module is written below a directory that is not there yet; what lies beside a directory does
not matter to loading a document from it; and an identifier that is put together from the parts of
another has the same files, so it is the same. -/
theorem files_below_blog :
    (∃ w path base, (Workspace.writeModule blogBundle ⟨"/", ["out"]⟩).run {} = (.ok path, w) ∧
        FileSystem.Writes {} w.surroundings.files ⟨"/", ["out"]⟩ base blog.moduleFile
          (Module.render blogBundle)) ∧
      (Source.directory ⟨"/", ["out"]⟩).load (around []) blog.text =
        (Source.directory ⟨"/", ["out"]⟩).load (around [("etc", .file "secret")]) blog.text ∧
      blog = ⟨"com.my-site" ++ "." ++ blog.name, by decide⟩ ∧
        ⟨"com" ++ "." ++ "my-site.blog", by decide⟩ = blog := by
  obtain ⟨-, ⟨writes, loads⟩, distinct, -⟩ := files_below blog ⟨"/", ["out"]⟩
  have written : (Workspace.writeModule blogBundle ⟨"/", ["out"]⟩).run {} =
      (.ok ⟨"/", ["out", "com", "my_site", "blog.py"]⟩,
        ((Workspace.writeModule blogBundle ⟨"/", ["out"]⟩).run {}).2) := Prod.ext rfl rfl
  obtain ⟨base, written'⟩ := writes blogBundle {} _ _ rfl written
  refine ⟨⟨_, _, base, written, written'⟩, ?_, ?_, ?_⟩
  · exact loads (around []) (around [("etc", .file "secret")]) rfl
  · exact (distinct _).1 rfl
  · exact ((distinct _).2 rfl).symm

end Nsid

end Lexicon
