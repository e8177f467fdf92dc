import Lexicon.Files.FileSystem
import Lexicon.Proofs.Outcome

/-!
# Paths below a directory

A name that is neither empty nor made of one or two points, and that holds no slash, leads from a
directory to what lies in it and nowhere else. Main statements: a path made of such names is
followed name by name, and what it leads to below a directory depends on nothing but the directory.
-/

namespace Lexicon

namespace FilePath

variable {p root : FilePath} {part : String} {parts : List String}

/-- A part of a path that leads to what has this name. -/
structure Named (part : String) : Prop where
  ne_empty : part ≠ ""
  ne_point : part ≠ "."
  ne_points : part ≠ ".."

/-- A text that is read as one part of a path, which leads to what has this name. -/
structure Plain (part : String) : Prop extends Named part where
  slash_notMem : '/' ∉ part.toList

/-- The path that further parts lead to. -/
def below (root : FilePath) (parts : List String) : FilePath :=
  { root with parts := root.parts ++ parts }

theorem below_append (root : FilePath) (front back : List String) :
    root.below (front ++ back) = (root.below front).below back := by
  rw [below, below, below, List.append_assoc]

theorem ofString_of_plain (h : Plain part) : ofString part = ⟨"", [part]⟩ := by
  have root : rootOf part.toList = "" := by
    have slash := h.slash_notMem
    cases chars : part.toList with
    | nil => rfl
    | cons c rest =>
      rw [chars, List.mem_cons, not_or] at slash
      unfold rootOf
      split
      · next same => exact absurd (List.cons.inj same).1.symm slash.1
      · next same => exact absurd (List.cons.inj same).1.symm slash.1
      · next same => exact absurd (List.cons.inj same).1.symm slash.1
      · rfl
  have kept : (part != "" && part != ".") = true := by
    simp [h.ne_empty, h.ne_point]
  rw [ofString, root, partsOf, Text.splitOn_of_notMem h.slash_notMem, List.map_singleton,
    String.ofList_toList, List.filter_singleton, kept]
  rfl

/-- Following plain names one by one appends them. -/
theorem joinAll_of_plain (h : ∀ part ∈ parts, Plain part) :
    root.joinAll parts = root.below parts := by
  induction parts generalizing root with
  | nil => simp [joinAll, below]
  | cons part parts ih =>
    rw [List.forall_mem_cons] at h
    have step : root.join (.ofString part) = root.below [part] := by
      rw [ofString_of_plain h.1]
      rfl
    rw [joinAll, List.foldl_cons, step, ← joinAll, ih h.2, ← below_append]
    rfl

end FilePath

namespace FileTree

open FilePath (Named Plain)

variable {t node : FileTree} {entries : List (String × FileTree)} {here names parts : List String}
  {part : String}

theorem get?_append (t : FileTree) (front back : List String) :
    t.get? (front ++ back) = (t.get? front).bind (·.get? back) := by
  induction front generalizing t with
  | nil => rfl
  | cons name front ih =>
    rw [List.cons_append, get?, get?, Option.bind_assoc]
    exact congrArg _ (funext fun child => ih child)

/-- What a directory has under a name. -/
theorem get?_concat (held : t.get? here = some (.directory entries)) (name : String) :
    t.get? (here ++ [name]) = Entries.find? entries name := by
  rw [get?_append, held, Option.bind_some, get?, child?]
  cases Entries.find? entries name with
  | none => rfl
  | some child => rfl

theorem resolve_append (t : FileTree) (here front back : List String) :
    t.resolve here (front ++ back) = t.resolve here front >>= (t.resolve · back) := by
  induction front generalizing here with
  | nil => rfl
  | cons part front ih =>
    rw [List.cons_append, resolve, resolve]
    split
    · split_ifs
      · rfl
      · exact ih here
      · exact ih here.dropLast
      · exact ih (here ++ [part])
      · rfl
    · rfl

/-- A name is followed in a directory if the directory has it. -/
theorem resolve_cons (held : t.get? here = some (.directory entries)) (named : Named part)
    (rest : List String) :
    t.resolve here (part :: rest) =
      if part.utf8ByteSize > maxNameLength then .error .nameTooLong
      else if Entries.has entries part then t.resolve (here ++ [part]) rest
      else .error .notFound := by
  have stays : ¬(part = "" ∨ part = ".") := not_or.mpr ⟨named.ne_empty, named.ne_point⟩
  rw [resolve, held]
  dsimp only
  rw [if_neg stays, if_neg named.ne_points]

theorem resolve_cons_of_not (held : ∀ entries, t.get? here ≠ some (.directory entries))
    (part : String) (rest : List String) :
    t.resolve here (part :: rest) = .error .notADirectory := by
  rw [resolve]
  split
  · next entries there => exact absurd there (held entries)
  · rfl

/-- Plain names lead to what is under them, from wherever they are followed. -/
theorem eq_append_of_resolve (plain : ∀ part ∈ parts, Plain part)
    (h : t.resolve here parts = .ok names) : names = here ++ parts := by
  induction parts generalizing here with
  | nil =>
    rw [List.append_nil]
    exact (Except.ok.inj h).symm
  | cons part parts ih =>
    rw [List.forall_mem_cons] at plain
    by_cases held : ∃ entries, t.get? here = some (.directory entries)
    · obtain ⟨entries, held⟩ := held
      rw [resolve_cons held plain.1.toNamed] at h
      split_ifs at h
      rw [ih plain.2 h, List.append_assoc]
      rfl
    · rw [resolve_cons_of_not (not_exists.mp held)] at h
      cases h

/-- Plain names are followed in the same way in a tree and in what the tree holds at a place. -/
theorem resolve_of_get? (held : t.get? here = some node) (plain : ∀ part ∈ parts, Plain part)
    (inside : List String) :
    t.resolve (here ++ inside) parts = (here ++ ·) <$> node.resolve inside parts := by
  induction parts generalizing inside with
  | nil => rfl
  | cons part parts ih =>
    rw [List.forall_mem_cons] at plain
    have same : t.get? (here ++ inside) = node.get? inside := by
      rw [get?_append, held, Option.bind_some]
    by_cases there : ∃ entries, node.get? inside = some (.directory entries)
    · obtain ⟨entries, there⟩ := there
      rw [resolve_cons there plain.1.toNamed, resolve_cons (same.trans there) plain.1.toNamed]
      split_ifs
      · rfl
      · rw [List.append_assoc]
        exact ih plain.2 (inside ++ [part])
      · rfl
    · rw [resolve_cons_of_not (not_exists.mp there),
        resolve_cons_of_not (same ▸ not_exists.mp there)]
      rfl

end FileTree

namespace FileSystem

open FilePath (Plain)

variable {fs fs' : FileSystem} {root : FilePath} {node : FileTree} {parts : List String}
  {kind : FileErrorKind}

theorem find_eq_ok_iff {p : FilePath} :
    fs.find p = .ok node ↔ ∃ names, fs.resolve p = .ok names ∧ fs.tree.get? names = some node := by
  unfold find
  rw [Except.bind_eq_ok_iff]
  refine exists_congr fun names => and_congr_right fun _ => ?_
  cases fs.tree.get? names with
  | none => simp [Except.throw_eq_error]
  | some node' => simp [Except.pure_eq_ok]

theorem resolve_below (fs : FileSystem) (root : FilePath) (parts : List String) :
    fs.resolve (root.below parts) = fs.resolve root >>= (fs.tree.resolve · parts) :=
  FileTree.resolve_append _ _ _ _

/-- Below a directory the same is found as in the tree that it holds. -/
theorem find_below (held : fs.find root = .ok node) (plain : ∀ part ∈ parts, Plain part) :
    fs.find (root.below parts) = ({ tree := node } : FileSystem).find ⟨"", parts⟩ := by
  obtain ⟨base, led, held⟩ := find_eq_ok_iff.mp held
  have inside : ({ tree := node } : FileSystem).resolve ⟨"", parts⟩ = node.resolve [] parts := rfl
  have whole := FileTree.resolve_of_get? held plain []
  rw [List.append_nil] at whole
  rw [find, find, resolve_below, led, Except.ok_bind, whole, inside]
  cases node.resolve [] parts with
  | error kind => rfl
  | ok names =>
    simp only [Except.ok_map, Except.ok_bind, FileTree.get?_append, held, Option.bind_some]

/-- Nothing is where a path leads. -/
def Absent (fs : FileSystem) (p : FilePath) : Prop :=
  ∃ kind, isAbsence kind = true ∧ fs.find p = .error kind

/-- Where nothing is found, nothing is found further down. -/
theorem find_below_of_error (h : fs.find root = .error kind) (nonempty : parts ≠ []) :
    fs.find (root.below parts) = .error kind ∨
      isAbsence kind = true ∧ Absent fs (root.below parts) := by
  unfold find at h
  cases led : fs.resolve root with
  | error kind' =>
    rw [led] at h
    left
    rw [find, resolve_below, led]
    exact h
  | ok base =>
    rw [led, Except.ok_bind] at h
    right
    obtain ⟨part, parts, rfl⟩ := List.exists_cons_of_ne_nil nonempty
    cases held : fs.tree.get? base with
    | some node =>
      rw [held] at h
      cases h
    | none =>
      rw [held] at h
      obtain rfl := Except.error.inj h
      refine ⟨rfl, .notADirectory, rfl, ?_⟩
      rw [find, resolve_below, led, Except.ok_bind, FileTree.resolve, held]
      rfl

/-- What is found below a directory is told by what the directory is, or by there being none. -/
theorem find_below_congr (same : fs.find root = fs'.find root) (plain : ∀ part ∈ parts, Plain part)
    (nonempty : parts ≠ []) :
    fs.find (root.below parts) = fs'.find (root.below parts) ∨
      Absent fs (root.below parts) ∧ Absent fs' (root.below parts) := by
  cases found : fs.find root with
  | ok node =>
    left
    rw [find_below found plain, find_below (same.symm.trans found) plain]
  | error kind =>
    rcases find_below_of_error found nonempty with first | ⟨none, first⟩
    · rcases find_below_of_error (same.symm.trans found) nonempty with second | ⟨none, second⟩
      · exact .inl (first.trans second.symm)
      · exact .inr ⟨⟨kind, none, first⟩, second⟩
    · rcases find_below_of_error (same.symm.trans found) nonempty with second | ⟨_, second⟩
      · exact .inr ⟨first, kind, none, second⟩
      · exact .inr ⟨first, second⟩

end FileSystem

end Lexicon
