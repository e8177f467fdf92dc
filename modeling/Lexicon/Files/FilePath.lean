import Lexicon.Text.Split

/-!
# File paths

A path is a root, which relative paths lack, and its parts. Empty parts and single points are
dropped when a path is read; two points stay, because what they lead to depends on the files.
-/

namespace Lexicon

/-- A path. -/
structure FilePath where
  root : String
  parts : List String
  deriving DecidableEq, Repr, Inhabited

namespace FilePath

/-- The root that a text begins with. Two slashes, and no more, are a root of their own. -/
def rootOf : List Char → String
  | '/' :: '/' :: '/' :: _ => "/"
  | '/' :: '/' :: _ => "//"
  | '/' :: _ => "/"
  | _ => ""

/-- The parts of a text between its slashes. -/
def partsOf (cs : List Char) : List String :=
  ((Text.splitOn '/' cs).map String.ofList).filter fun part => part != "" && part != "."

/-- The path that a text stands for. -/
def ofString (s : String) : FilePath :=
  ⟨rootOf s.toList, partsOf s.toList⟩

/-- The path that a second one leads to when it is followed from the first. -/
def join (p q : FilePath) : FilePath :=
  if q.root = "" then ⟨p.root, p.parts ++ q.parts⟩ else q

/-- A path that is followed by further ones. -/
def joinAll (p : FilePath) (segments : List String) : FilePath :=
  segments.foldl (fun p s => p.join (.ofString s)) p

/-- The text of a path. -/
def text (p : FilePath) : String :=
  if p.root = "" ∧ p.parts = [] then "." else p.root ++ "/".intercalate p.parts

/-- The path of what contains the file or directory. -/
def parent (p : FilePath) : FilePath :=
  ⟨p.root, p.parts.dropLast⟩

/-- The order of paths: part by part. -/
def le (p q : FilePath) : Bool :=
  go (p.root :: p.parts) (q.root :: q.parts)
where
  go : List String → List String → Bool
    | [], _ => true
    | _ :: _, [] => false
    | a :: as, b :: bs => a < b || (a == b && go as bs)

end FilePath

end Lexicon
