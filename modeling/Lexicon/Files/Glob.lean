import Lexicon.Files.FileSystem

/-!
# Globs

File names are matched by patterns with `*`, `?` and sets between brackets, and paths by patterns
for their parts, where `**` stands for any number of directories. Names that begin with a point are
matched only by patterns that do.
-/

namespace Lexicon.Glob

/-- A piece of a pattern for names. -/
inductive Piece
  /-- Any number of characters. -/
  | star
  /-- One character. -/
  | single
  | literal (c : Char)
  /-- One of the characters between the ends of the ranges, or one of no other. -/
  | set (negated : Bool) (ranges : List (Char × Char))
  deriving Repr, Inhabited

/-- The ranges between brackets. A hyphen between two characters makes a range; a range whose ends
are in the wrong order is empty. -/
def ranges : List Char → List (Char × Char)
  | a :: '-' :: b :: rest => if a ≤ b then (a, b) :: ranges rest else ranges rest
  | c :: rest => (c, c) :: ranges rest
  | [] => []

/-- The text between brackets, up to the bracket that closes it, and the text after it. A closing
bracket at the beginning stands for itself. -/
def bracketed? (cs : List Char) : Option (Bool × List Char × List Char) :=
  let (negated, cs) := match cs with
    | '!' :: rest => (true, rest)
    | _ => (false, cs)
  let (first, rest) := match cs with
    | ']' :: rest => ([']'], rest)
    | _ => ([], cs)
  match Text.cutAt ']' rest with
  | (content, some after) => some (negated, first ++ content, after)
  | (_, none) => none

/-- The pieces of a pattern; every piece uses up a character, which bounds their number. -/
def pieces : Nat → List Char → List Piece
  | 0, _ => []
  | _ + 1, [] => []
  | fuel + 1, c :: rest =>
    if c = '*' then .star :: pieces fuel rest
    else if c = '?' then .single :: pieces fuel rest
    else if c = '[' then
      match bracketed? rest with
      | some (negated, content, after) => .set negated (ranges content) :: pieces fuel after
      | none => .literal c :: pieces fuel rest
    else .literal c :: pieces fuel rest

/-- Whether a character is one that a piece stands for. -/
def Piece.accepts (c : Char) : Piece → Bool
  | .star | .single => true
  | .literal d => c == d
  | .set negated rs => (rs.any fun r => r.1 ≤ c && c ≤ r.2) != negated

/-- Whether pieces match a whole text. -/
def matchPieces : List Piece → List Char → Bool
  | [], cs => cs.isEmpty
  | .star :: ps, [] => matchPieces ps []
  | .star :: ps, c :: cs => matchPieces ps (c :: cs) || matchPieces (.star :: ps) cs
  | _ :: _, [] => false
  | p :: ps, c :: cs => p.accepts c && matchPieces ps cs
termination_by ps cs => ps.length + cs.length

/-- Whether a pattern matches a name. -/
def matchesName (pattern name : String) : Bool :=
  matchPieces (pieces pattern.length pattern.toList) name.toList

/-- Whether a text is a pattern rather than a plain name. -/
def isPattern (s : String) : Bool :=
  s.toList.any fun c => c == '*' || c == '?' || c == '['

/-- Whether a name begins with a point. -/
def isHidden (name : String) : Bool :=
  name.toList.head? == some '.'

/-- A path before a name; an empty path is not written, and an empty name leaves a slash at the
end. -/
def joinText (directory name : String) : String :=
  if directory = "" ∨ directory.toList.getLast? = some '/' then directory ++ name
  else directory ++ "/" ++ name

/-- The text before the last part of a path, and the last part. -/
def splitLast (path : List Char) : List Char × List Char :=
  let last := (path.reverse.takeWhile (· ≠ '/')).reverse
  let before := (path.reverse.dropWhile (· ≠ '/')).reverse
  if before.all (· == '/') then (before, last)
  else ((before.reverse.dropWhile (· == '/')).reverse, last)

/-- What the text of a path leads to. A slash at its end asks for a directory. -/
def lookup? (fs : FileSystem) (path : String) : Option FileTree :=
  let start := if path.toList.head? = some '/' then [] else fs.directory
  let parts := (Text.splitOn '/' path.toList).map String.ofList
  match fs.tree.resolve start parts with
  | .ok names => if path = "" then none else fs.tree.get? names
  | .error _ => none

/-- What lies in the directory that a path leads to; the empty path is the working directory. -/
def entriesAt (fs : FileSystem) (path : String) : List (String × FileTree) :=
  let node := if path = "" then fs.tree.get? fs.directory else lookup? fs path
  match node with
  | some (.directory entries) => entries
  | _ => []

/-- Whether a path leads to a directory. -/
def isDirectoryAt (fs : FileSystem) (path : String) : Bool :=
  match lookup? fs path with
  | some (.directory _) => true
  | _ => false

mutual

/-- The paths of all that is visible in a directory, at any depth. -/
def descendants (directoriesOnly : Bool) : FileTree → List String
  | .file _ => []
  | .directory entries => descendantsOf directoriesOnly entries

/-- The paths of all that is visible in the entries of a directory, at any depth. -/
def descendantsOf (directoriesOnly : Bool) : List (String × FileTree) → List String
  | [] => []
  | (name, node) :: rest =>
    let here := if isHidden name || (directoriesOnly && node.isFile) then []
      else name :: (descendants directoriesOnly node).map (joinText name)
    here ++ descendantsOf directoriesOnly rest

end

/-- The names in a directory that the last part of a pattern matches. -/
def namesIn (fs : FileSystem) (directoriesOnly : Bool) (directory last : String) : List String :=
  if last = "**" then
    let below := descendantsOf directoriesOnly (entriesAt fs directory)
    if directory = "" || isDirectoryAt fs directory then "" :: below else below
  else if isPattern last then
    ((entriesAt fs directory).filter fun e =>
      (isHidden last || !isHidden e.1) && (!directoriesOnly || e.2.isDirectory) &&
        matchesName last e.1).map (·.1)
  else if last = "" then if isDirectoryAt fs directory then [""] else []
  else if (lookup? fs (joinText directory last)).isSome then [last] else []

/-- The paths that a pattern matches. The first argument bounds the number of parts of the
pattern. -/
def expandParts (fs : FileSystem) : Nat → Bool → List Char → List String
  | 0, _, _ => []
  | fuel + 1, directoriesOnly, pattern =>
    let text := String.ofList pattern
    let (before, last) := splitLast pattern
    let directory := String.ofList before
    let name := String.ofList last
    if !isPattern text then
      if name = "" then if isDirectoryAt fs directory then [text] else []
      else if (lookup? fs text).isSome then [text] else []
    else if before.isEmpty then namesIn fs directoriesOnly "" name
    else
      let directories :=
        if before ≠ pattern ∧ isPattern directory then expandParts fs fuel true before
        else [directory]
      directories.flatMap fun d => (namesIn fs directoriesOnly d name).map (joinText d)

/-- The paths that a pattern matches, sorted. -/
def expand (fs : FileSystem) (pattern : String) : List String :=
  let found := expandParts fs (pattern.length + 1) false pattern.toList
  (found.filter (· ≠ "")).mergeSort (· ≤ ·)

mutual

/-- The paths of what has a matching name in a directory, at any depth. -/
def search (pattern : String) : FileTree → List (List String)
  | .file _ => []
  | .directory entries => searchEntries pattern entries

/-- The paths of what has a matching name in the entries of a directory, at any depth. -/
def searchEntries (pattern : String) : List (String × FileTree) → List (List String)
  | [] => []
  | (name, node) :: rest =>
    let here := if matchesName pattern name then [[name]] else []
    here ++ (search pattern node).map (name :: ·) ++ searchEntries pattern rest

end

/-- The paths of what has a matching name below a directory, sorted. -/
def searchBelow (fs : FileSystem) (directory : FilePath) (pattern : String) : List FilePath :=
  match fs.find directory with
  | .ok node =>
    ((search pattern node).map fun names =>
      { directory with parts := directory.parts ++ names }).mergeSort FilePath.le
  | .error _ => []

end Lexicon.Glob
