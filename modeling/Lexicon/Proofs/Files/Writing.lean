import Lexicon.Proofs.Entries
import Lexicon.Proofs.Files.Below

/-!
# Writing files

A file is written after the directories on the way to it are made. What the writing does to the tree
of files follows from what one step does that puts an empty directory or a file at a place. Main
statement: writing a file below a directory changes no other file and takes no directory away; it
makes directories only on the way to the file and, if the directory was there, only in it.
-/

namespace Lexicon

namespace FileTree

variable {t t' node : FileTree} {names front back target here parts : List String}
  {contents : String}

/-! ### What is at a place -/

/-- A directory is at a place. -/
def IsDirectoryAt (t : FileTree) (names : List String) : Prop :=
  ∃ entries, t.get? names = some (.directory entries)

/-- The contents of the file at a place, if there is one. -/
def file? (t : FileTree) (names : List String) : Option String :=
  match t.get? names with
  | some (.file contents) => some contents
  | _ => none

theorem file?_of_isDirectoryAt (h : t.IsDirectoryAt names) : t.file? names = none := by
  obtain ⟨entries, held⟩ := h
  rw [file?, held]

theorem file?_congr (h : t'.get? names = t.get? names) : t'.file? names = t.file? names := by
  rw [file?, file?, h]

/-- Something is only in what is a directory. -/
theorem isDirectoryAt_above (present : (t.get? names).isSome = true) (h : front <+: names)
    (other : front ≠ names) : t.IsDirectoryAt front := by
  obtain ⟨back, rfl⟩ := h
  cases back with
  | nil => exact absurd (List.append_nil front).symm other
  | cons name back =>
    rw [get?_append] at present
    cases held : t.get? front with
    | none => simp [held] at present
    | some node =>
      cases node with
      | file contents => simp [held, get?, child?] at present
      | directory entries => exact ⟨entries, held⟩

theorem isDirectoryAt_dropLast (h : t.IsDirectoryAt names) : t.IsDirectoryAt names.dropLast := by
  obtain ⟨entries, held⟩ := h
  by_cases same : names.dropLast = names
  · rw [same]
    exact ⟨entries, held⟩
  · exact isDirectoryAt_above (by rw [held]; rfl) names.dropLast_prefix same

/-- Nothing is in a file. -/
theorem get?_file (nonempty : names ≠ []) : (file contents).get? names = none := by
  cases names with
  | nil => exact absurd rfl nonempty
  | cons name rest => rfl

theorem get?_empty (nonempty : names ≠ []) : empty.get? names = none := by
  cases names with
  | nil => exact absurd rfl nonempty
  | cons name rest => rfl

/-! ### Setting -/

theorem child?_set (t : FileTree) (name : String) (rest : List String) (node : FileTree)
    (other : String) :
    (t.set (name :: rest) node).child? other =
      if name = other then some (((t.child? name).getD empty).set rest node)
      else t.child? other := by
  cases t with
  | directory entries => rw [set, child?, Entries.find?_insert]; rfl
  | file contents =>
    rw [set, child?, Entries.find?, Entries.find?]
    rfl

theorem get?_set_self (t : FileTree) (target : List String) (node : FileTree) :
    (t.set target node).get? target = some node := by
  induction target generalizing t with
  | nil => simp [set, get?]
  | cons name rest ih => rw [get?, child?_set, if_pos rfl, Option.bind_some, ih]

/-- Setting changes nothing but what is set and what it is in. -/
theorem get?_set_of_apart (beyond : ¬target <+: names) (before : ¬names <+: target) :
    (t.set target node).get? names = t.get? names := by
  induction target generalizing t names with
  | nil => exact absurd List.nil_prefix beyond
  | cons name rest ih =>
    cases names with
    | nil => exact absurd List.nil_prefix before
    | cons other more =>
      rw [get?, get?, child?_set]
      split_ifs with same
      · subst same
        rw [List.cons_prefix_cons, not_and] at beyond before
        rw [Option.bind_some, ih (beyond rfl) (before rfl)]
        cases t.child? name with
        | some child => rfl
        | none =>
          apply get?_empty
          rintro rfl
          exact before rfl List.nil_prefix
      · rfl

/-! ### Something new -/

/-- A tree has something new at a place where no directory was, in a directory. -/
structure Gains (t t' : FileTree) (target : List String) (node : FileTree) : Prop where
  new : ¬t.IsDirectoryAt target
  held : t'.get? target = some node
  before : ∀ names, names <+: target → names ≠ target → t.IsDirectoryAt names ∧ t'.IsDirectoryAt names
  elsewhere : ∀ names, ¬names <+: target → t'.get? names = t.get? names

/-- Something with nothing in it is set where no directory was. -/
theorem gains_set {parent : List String} {name : String} (inside : t.IsDirectoryAt parent)
    (new : ¬t.IsDirectoryAt (parent ++ [name]))
    (leaf : ∀ names, names ≠ [] → node.get? names = none) :
    Gains t (t.set (parent ++ [name]) node) (parent ++ [name]) node := by
  have held := get?_set_self t (parent ++ [name]) node
  refine ⟨new, held, ?_, ?_⟩
  · intro names h other
    refine ⟨?_, isDirectoryAt_above (by rw [held]; rfl) h other⟩
    rw [List.prefix_concat_iff] at h
    rcases h with same | h
    · exact absurd same other
    · by_cases same : names = parent
      · rwa [same]
      · obtain ⟨entries, inside⟩ := inside
        exact isDirectoryAt_above (by rw [inside]; rfl) h same
  · intro names apart
    by_cases beyond : parent ++ [name] <+: names
    · -- nothing is in what is new, and nothing was where no directory was
      have other : parent ++ [name] ≠ names := by
        rintro rfl
        exact apart (List.prefix_refl _)
      obtain ⟨back, rfl⟩ := beyond
      have nonempty : back ≠ [] := by
        rintro rfl
        exact other (List.append_nil _).symm
      rw [get?_append, held, Option.bind_some, leaf back nonempty, eq_comm,
        ← Option.not_isSome_iff_eq_none]
      exact fun present => new (isDirectoryAt_above present (List.prefix_append _ _) other)
    · exact get?_set_of_apart beyond apart

/-- Everything that was there is there, and directories stay directories. -/
structure Grows (t t' : FileTree) : Prop where
  directories : ∀ names, t.IsDirectoryAt names → t'.IsDirectoryAt names
  present : ∀ names, (t.get? names).isSome = true → (t'.get? names).isSome = true

theorem Grows.refl (t : FileTree) : Grows t t :=
  ⟨fun _ => id, fun _ => id⟩

theorem Grows.trans {t'' : FileTree} (h : Grows t t') (h' : Grows t' t'') : Grows t t'' :=
  ⟨fun names held => h'.directories names (h.directories names held),
    fun names held => h'.present names (h.present names held)⟩

namespace Gains

theorem grows (h : Gains t t' target node) : Grows t t' := by
  constructor
  · intro names held
    by_cases before : names <+: target
    · by_cases same : names = target
      · exact absurd (same ▸ held) h.new
      · exact (h.before names before same).2
    · rwa [IsDirectoryAt, h.elsewhere names before]
  · intro names held
    by_cases before : names <+: target
    · by_cases same : names = target
      · rw [same, h.held]
        rfl
      · obtain ⟨-, entries, held'⟩ := h.before names before same
        rw [held']
        rfl
    · rwa [h.elsewhere names before]

theorem eq_of_new (h : Gains t t' target node) (held : t'.IsDirectoryAt names)
    (new : ¬t.IsDirectoryAt names) : names = target := by
  by_contra other
  by_cases before : names <+: target
  · exact new (h.before names before other).1
  · rw [IsDirectoryAt, h.elsewhere names before] at held
    exact new held

theorem file?_of_ne (h : Gains t t' target node) (other : names ≠ target) :
    t'.file? names = t.file? names := by
  by_cases before : names <+: target
  · obtain ⟨held, held'⟩ := h.before names before other
    rw [file?_of_isDirectoryAt held, file?_of_isDirectoryAt held']
  · exact file?_congr (h.elsewhere names before)

end Gains

/-- A path that leads somewhere leads to the same place when more is there. -/
theorem Grows.resolve (h : Grows t t') (led : t.resolve here parts = .ok names) :
    t'.resolve here parts = .ok names := by
  induction parts generalizing here with
  | nil => exact led
  | cons part parts ih =>
    rw [FileTree.resolve] at led ⊢
    cases held : t.get? here with
    | none => simp [held] at led
    | some node =>
      cases node with
      | file contents => simp [held] at led
      | directory entries =>
        obtain ⟨entries', held'⟩ := h.directories here ⟨entries, held⟩
        have kept (has : Entries.has entries part = true) : Entries.has entries' part = true := by
          rw [Entries.has, ← get?_concat held] at has
          rw [Entries.has, ← get?_concat held']
          exact h.present (here ++ [part]) has
        rw [held] at led
        rw [held']
        dsimp only at led ⊢
        split_ifs at led with long stays up has
        · rw [if_neg long, if_pos stays]
          exact ih led
        · rw [if_neg long, if_neg stays, if_pos up]
          exact ih led
        · rw [if_neg long, if_neg stays, if_neg up, if_pos (kept has)]
          exact ih led

end FileTree

namespace FileSystem

open FileTree (Gains)
open FilePath (Named Plain)

variable {fs fs' : FileSystem} {p root : FilePath} {node : FileTree}
  {names parts base : List String} {contents : String}

/-- A directory is where a path leads. -/
def HasDirectory (fs : FileSystem) (p : FilePath) : Prop :=
  ∃ entries, fs.find p = .ok (.directory entries)

theorem hasDirectory_iff :
    fs.HasDirectory p ↔ ∃ names, fs.resolve p = .ok names ∧ fs.tree.IsDirectoryAt names := by
  simp only [HasDirectory, find_eq_ok_iff, FileTree.IsDirectoryAt]
  constructor
  · rintro ⟨entries, names, led, held⟩
    exact ⟨names, led, entries, held⟩
  · rintro ⟨names, led, entries, held⟩
    exact ⟨entries, names, led, held⟩

/-- More is there, and relative paths start from the same directory. -/
structure Grows (fs fs' : FileSystem) : Prop where
  directory : fs'.directory = fs.directory
  tree : FileTree.Grows fs.tree fs'.tree

theorem Grows.refl (fs : FileSystem) : Grows fs fs :=
  ⟨rfl, .refl _⟩

theorem Grows.trans {fs'' : FileSystem} (h : Grows fs fs') (h' : Grows fs' fs'') : Grows fs fs'' :=
  ⟨h'.directory.trans h.directory, h.tree.trans h'.tree⟩

theorem Grows.resolve (h : Grows fs fs') (led : fs.resolve p = .ok names) :
    fs'.resolve p = .ok names := by
  rw [FileSystem.resolve, h.directory]
  exact h.tree.resolve led

/-- The place that plain names below a directory lead to. -/
theorem exists_base (plain : ∀ part ∈ parts, Plain part)
    (led : fs.resolve (root.below parts) = .ok names) :
    ∃ base, fs.resolve root = .ok base ∧ names = base ++ parts := by
  rw [resolve_below] at led
  obtain ⟨base, led, inside⟩ := Except.bind_eq_ok_iff.mp led
  exact ⟨base, led, FileTree.eq_append_of_resolve plain inside⟩

/-! ### Putting something at a place -/

/-- A last name leads to what has this name. -/
theorem resolve_concat {front parent : List String} {last top : String}
    (led : fs.resolve ⟨top, front⟩ = .ok parent)
    (short : ¬last.utf8ByteSize > FileTree.maxNameLength) (named : Named last)
    (held : (fs.tree.get? (parent ++ [last])).isSome = true) :
    fs.resolve ⟨top, front ++ [last]⟩ = .ok (parent ++ [last]) := by
  have other : parent ≠ parent ++ [last] := by simp
  obtain ⟨entries, inside⟩ :=
    FileTree.isDirectoryAt_above held (List.prefix_append _ _) other
  have has : Entries.has entries last = true := by
    rwa [FileTree.get?_concat inside, ← Entries.has] at held
  have whole : (⟨top, front ++ [last]⟩ : FilePath) = (⟨top, front⟩ : FilePath).below [last] := rfl
  rw [whole, resolve_below, led, Except.ok_bind, FileTree.resolve_cons inside named, if_neg short,
    if_pos has]
  rfl

/-- Without a last name, or with points for one, a path leads to a directory. -/
theorem exists_concat {parent : List String} (led : fs.resolve p.parent = .ok parent)
    (inside : fs.tree.IsDirectoryAt parent)
    (short : ¬(p.parts.getLastD "").utf8ByteSize > FileTree.maxNameLength)
    (new : ¬fs.HasDirectory p) :
    ∃ front last, p = ⟨p.root, front ++ [last]⟩ ∧ Named last := by
  rw [hasDirectory_iff] at new
  obtain ⟨top, parts⟩ := p
  rcases List.eq_nil_or_concat' parts with rfl | ⟨front, last, rfl⟩
  · exact absurd ⟨parent, led, inside⟩ new
  · rw [FilePath.parent, List.dropLast_concat] at led
    rw [List.getLastD_concat] at short
    have whole : (⟨top, front ++ [last]⟩ : FilePath) = (⟨top, front⟩ : FilePath).below [last] := rfl
    obtain ⟨entries, there⟩ := inside
    rw [whole, resolve_below, led, Except.ok_bind, FileTree.resolve, there] at new
    dsimp only at new
    rw [if_neg short] at new
    have goes : ¬(last = "" ∨ last = ".") := by
      intro stays
      rw [if_pos stays] at new
      exact new ⟨parent, rfl, entries, there⟩
    rw [if_neg goes] at new
    have down : last ≠ ".." := by
      intro up
      rw [if_pos up] at new
      exact new ⟨parent.dropLast, rfl, FileTree.isDirectoryAt_dropLast ⟨entries, there⟩⟩
    rw [not_or] at goes
    exact ⟨front, last, rfl, goes.1, goes.2, down⟩

/-- Something new is put at the place that a path leads to. -/
structure Puts (fs fs' : FileSystem) (p : FilePath) (target : List String) (node : FileTree) :
    Prop where
  grows : Grows fs fs'
  led : fs'.resolve p = .ok target
  found : ∀ old, fs.tree.get? target = some old → fs.find p = .ok old
  gains : Gains fs.tree fs'.tree target node

theorem exists_puts_of_put (h : fs.put p node = .ok fs') (new : ¬fs.HasDirectory p)
    (leaf : ∀ names, names ≠ [] → node.get? names = none) :
    ∃ target, Puts fs fs' p target node := by
  unfold put at h
  obtain ⟨parent, led, h⟩ := Except.bind_eq_ok_iff.mp h
  split at h
  · next entries inside =>
    dsimp only at h
    split_ifs at h with long
    · cases h
    · have there : fs.tree.IsDirectoryAt parent := ⟨entries, inside⟩
      obtain ⟨front, last, whole, named⟩ := exists_concat led there long new
      rw [whole, List.getLastD_concat] at h long
      rw [whole, FilePath.parent, List.dropLast_concat] at led
      have found (old : FileTree) (held : fs.tree.get? (parent ++ [last]) = some old) :
          fs.find p = .ok old := by
        rw [whole]
        exact find_eq_ok_iff.mpr ⟨_, resolve_concat led long named (by rw [held]; rfl), held⟩
      have set : { fs with tree := fs.tree.set (parent ++ [last]) node } = fs' := Except.ok.inj h
      have gains : Gains fs.tree fs'.tree (parent ++ [last]) node := by
        rw [← set]
        exact FileTree.gains_set there (fun held => new (held.imp fun _ => found _)) leaf
      have grows : Grows fs fs' := ⟨by rw [← set], gains.grows⟩
      refine ⟨parent ++ [last], grows, ?_, found, gains⟩
      rw [whole]
      apply resolve_concat (grows.resolve led) long named
      rw [gains.held]
      rfl
  · cases h

/-! ### Making directories -/

/-- A beginning of a path leads to a place. -/
def OnTheWay (fs : FileSystem) (p : FilePath) (names : List String) : Prop :=
  ∃ front, front <+: p.parts ∧ fs.resolve ⟨p.root, front⟩ = .ok names

theorem OnTheWay.parent (h : fs.OnTheWay p.parent names) : fs.OnTheWay p names := by
  obtain ⟨front, before, led⟩ := h
  exact ⟨front, before.trans p.parts.dropLast_prefix, led⟩

theorem OnTheWay.grow (h : fs.OnTheWay p names) (grows : Grows fs fs') : fs'.OnTheWay p names := by
  obtain ⟨front, before, led⟩ := h
  exact ⟨front, before, grows.resolve led⟩

/-- Directories on the way to a path were made: nothing is taken away, and the files are the
same. -/
structure Extends (fs fs' : FileSystem) (p : FilePath) : Prop where
  grows : Grows fs fs'
  files : ∀ names, fs'.tree.file? names = fs.tree.file? names
  made : ∀ names, fs'.tree.IsDirectoryAt names → ¬fs.tree.IsDirectoryAt names → fs'.OnTheWay p names

theorem Extends.refl (fs : FileSystem) (p : FilePath) : Extends fs fs p :=
  ⟨.refl _, fun _ => rfl, fun _ held new => absurd held new⟩

/-- What is made after the directory that contains it. -/
theorem Extends.trans {fs'' : FileSystem} (h : Extends fs fs' p.parent) (h' : Extends fs' fs'' p) :
    Extends fs fs'' p := by
  refine ⟨h.grows.trans h'.grows, fun names => (h'.files names).trans (h.files names),
    fun names held new => ?_⟩
  by_cases between : fs'.tree.IsDirectoryAt names
  · exact (h.made names between new).parent.grow h'.grows
  · exact h'.made names held between

theorem extends_of_makeDirectory (h : fs.makeDirectory p = .ok fs') : Extends fs fs' p := by
  unfold makeDirectory at h
  split at h
  · obtain rfl := Except.ok.inj h
    exact .refl _ _
  · cases h
  · next kind found =>
    have new : ¬fs.HasDirectory p := by
      rintro ⟨entries, found'⟩
      cases found.symm.trans found'
    obtain ⟨target, puts⟩ := exists_puts_of_put h new fun _ => FileTree.get?_empty
    -- a file at the place would have been found
    have absent : fs.tree.get? target = none := by
      rw [Option.eq_none_iff_forall_ne_some]
      exact fun old held => nomatch found.symm.trans (puts.found old held)
    refine ⟨puts.grows, fun names => ?_, fun names held other => ?_⟩
    · by_cases same : names = target
      · rw [same, FileTree.file?, FileTree.file?, absent, puts.gains.held]
        rfl
      · exact puts.gains.file?_of_ne same
    · obtain rfl := puts.gains.eq_of_new held other
      exact ⟨p.parts, List.prefix_refl _, puts.led⟩

theorem eq_ok_of_errorAt {α : Type} {result : Except FileErrorKind α} {a : α}
    (h : errorAt p result = .ok a) : result = .ok a := by
  cases result with
  | error kind => cases h
  | ok b => exact congrArg _ (Except.ok.inj h)

theorem extends_of_makeDirectories {missing : Nat} (h : makeDirectories missing fs p = .ok fs') :
    Extends fs fs' p := by
  induction missing generalizing p fs' with
  | zero => exact extends_of_makeDirectory (eq_ok_of_errorAt h)
  | succ missing ih =>
    rw [makeDirectories] at h
    split at h
    · obtain ⟨between, first, second⟩ := Except.bind_eq_ok_iff.mp h
      exact (ih first).trans (extends_of_makeDirectory (eq_ok_of_errorAt second))
    · exact extends_of_makeDirectory (eq_ok_of_errorAt h)

/-! ### Writing -/

/-- A path that leads to a directory leads through directories. -/
theorem exists_of_beginning {top : String} {front parts : List String}
    (there : fs.HasDirectory ⟨top, parts⟩) (h : front <+: parts) :
    ∃ names, fs.resolve ⟨top, front⟩ = .ok names ∧ fs.tree.IsDirectoryAt names := by
  obtain ⟨back, rfl⟩ := h
  have whole : (⟨top, front ++ back⟩ : FilePath) = (⟨top, front⟩ : FilePath).below back := rfl
  obtain ⟨names, led, held⟩ := hasDirectory_iff.mp there
  rw [whole, resolve_below] at led
  obtain ⟨between, led, rest⟩ := Except.bind_eq_ok_iff.mp led
  refine ⟨between, led, ?_⟩
  cases back with
  | nil => rwa [Except.ok.inj rest]
  | cons part back =>
    rw [FileTree.resolve] at rest
    split at rest
    · next entries inside => exact ⟨entries, inside⟩
    · cases rest

/-- A new directory on the way below a directory is in it. -/
theorem inside_of_onTheWay (plain : ∀ part ∈ parts, Plain part)
    (grows : Grows fs fs') (led : fs'.resolve root = .ok base) (there : fs.HasDirectory root)
    (way : fs'.OnTheWay (root.below parts) names) (new : ¬fs.tree.IsDirectoryAt names) :
    base <+: names ∧ names <+: base ++ parts := by
  obtain ⟨front, before, reached⟩ := way
  -- the way up to the directory was there, since the directory was
  rcases List.prefix_or_prefix_of_prefix before (List.prefix_append root.parts parts) with
    short | ⟨middle, rfl⟩
  · obtain ⟨names', led', held⟩ := exists_of_beginning there short
    have same := (grows.resolve led').symm.trans reached
    exact absurd (Except.ok.inj same ▸ held) new
  · have further : middle <+: parts := (List.prefix_append_right_inj root.parts).mp before
    have reached : fs'.resolve (root.below middle) = .ok names := reached
    obtain ⟨base', led', rfl⟩ := exists_base (fun part h => plain part (further.subset h)) reached
    obtain rfl := Except.ok.inj (led.symm.trans led')
    exact ⟨List.prefix_append _ _, (List.prefix_append_right_inj base).mpr further⟩

/-- A file is written below a directory that is at a place: it holds the contents and all other
files are as they were; directories stay, and new ones are on the way to the file, which is a way in
the directory if it was there. -/
structure Writes (fs fs' : FileSystem) (root : FilePath) (base parts : List String)
    (contents : String) : Prop where
  led : fs'.resolve root = .ok base
  files : ∀ names, fs'.tree.file? names =
    if names = base ++ parts then some contents else fs.tree.file? names
  kept : ∀ names, fs.tree.IsDirectoryAt names → fs'.tree.IsDirectoryAt names
  made : ∀ names, fs'.tree.IsDirectoryAt names → ¬fs.tree.IsDirectoryAt names →
    fs'.OnTheWay (root.below parts) names
  inside : fs.HasDirectory root → ∀ names, fs'.tree.IsDirectoryAt names →
    ¬fs.tree.IsDirectoryAt names → base <+: names ∧ names <+: base ++ parts

/-- **A file that is written below a directory touches nothing else.** -/
theorem exists_writes_of_write (plain : ∀ part ∈ parts, Plain part)
    (h : fs.write (root.below parts) contents = .ok fs') :
    ∃ base, Writes fs fs' root base parts contents := by
  unfold write at h
  obtain ⟨between, made, h⟩ := Except.bind_eq_ok_iff.mp h
  have before := extends_of_makeDirectories made
  have put : ¬between.HasDirectory (root.below parts) ∧
      between.put (root.below parts) (.file contents) = .ok fs' := by
    split at h
    · cases h
    · next other =>
      refine ⟨?_, eq_ok_of_errorAt h⟩
      rintro ⟨entries, found⟩
      exact other entries found
  obtain ⟨target, puts⟩ := exists_puts_of_put put.2 put.1 fun _ => FileTree.get?_file
  have grows := before.grows.trans puts.grows
  have made (names : List String) (held : fs'.tree.IsDirectoryAt names)
      (new : ¬fs.tree.IsDirectoryAt names) : fs'.OnTheWay (root.below parts) names := by
    -- the file is no directory, so what is new was made before it
    have sooner : between.tree.IsDirectoryAt names := by
      by_contra later
      obtain rfl := puts.gains.eq_of_new held later
      obtain ⟨entries, held⟩ := held
      cases puts.gains.held.symm.trans held
    exact (before.made names sooner new).parent.grow puts.grows
  obtain ⟨base, led, rfl⟩ := exists_base plain puts.led
  refine ⟨base, led, ?_, grows.tree.directories, made, ?_⟩
  · intro names
    split_ifs with same
    · rw [same, FileTree.file?, puts.gains.held]
    · rw [puts.gains.file?_of_ne same, before.files]
  · intro there names held new
    exact inside_of_onTheWay plain grows led there (made names held new) new

end FileSystem

end Lexicon
