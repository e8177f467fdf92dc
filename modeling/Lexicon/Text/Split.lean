/-!
# Splitting and joining

Texts are cut at a separator character and put together again. Cutting loses nothing: joining the
pieces gives the text back.
-/

namespace Lexicon.Text

/-- The pieces of a text between the separators; there is always at least one. -/
def splitOn (sep : Char) : List Char → List (List Char)
  | [] => [[]]
  | c :: rest =>
    if c = sep then [] :: splitOn sep rest
    else match splitOn sep rest with
      | [] => [[c]]
      | piece :: pieces => (c :: piece) :: pieces

/-- The pieces with the separator between any two neighbours. -/
def joinWith (sep : List Char) : List (List Char) → List Char
  | [] => []
  | [piece] => piece
  | piece :: pieces => piece ++ sep ++ joinWith sep pieces

/-- The text up to the first separator and, if there is one, the text after it. -/
def cutAt (sep : Char) : List Char → List Char × Option (List Char)
  | [] => ([], none)
  | c :: rest =>
    if c = sep then ([], some rest)
    else ((c :: (cutAt sep rest).1), (cutAt sep rest).2)

/-- A text without the one newline at its end, if it has one. -/
def dropFinalNewline : List Char → List Char
  | [] => []
  | ['\n'] => []
  | c :: rest => c :: dropFinalNewline rest

/-- The text after a given beginning, if it begins so. -/
def after? : List Char → List Char → Option (List Char)
  | [], cs => some cs
  | _ :: _, [] => none
  | e :: expected, c :: cs => if e = c then after? expected cs else none

/-- The text after the first occurrence of a piece, if the piece occurs. -/
def afterFirst? (piece : List Char) : List Char → Option (List Char)
  | [] => after? piece []
  | c :: rest =>
    match after? piece (c :: rest) with
    | some cs => some cs
    | none => afterFirst? piece rest

/-- A text with every occurrence of a non-empty piece replaced, from left to right. -/
def replace (piece new : List Char) (cs : List Char) : List Char :=
  go cs.length cs
where
  go : Nat → List Char → List Char
    | 0, cs => cs
    | _ + 1, [] => []
    | n + 1, c :: rest =>
      match after? piece (c :: rest) with
      | some cs => new ++ go n cs
      | none => c :: go n rest

/-- Cutting a text at a separator gives at least one piece. -/
theorem splitOn_ne_nil (sep : Char) (cs : List Char) : splitOn sep cs ≠ [] := by
  cases cs with
  | nil => simp [splitOn]
  | cons c rest =>
    simp only [splitOn]
    split
    · simp
    · split <;> simp

/-- Joining the pieces gives the text back. -/
theorem joinWith_splitOn (sep : Char) (cs : List Char) : joinWith [sep] (splitOn sep cs) = cs := by
  induction cs with
  | nil => rfl
  | cons c rest ih =>
    simp only [splitOn]
    split
    · next h =>
      subst h
      cases hr : splitOn c rest with
      | nil => exact absurd hr (splitOn_ne_nil c rest)
      | cons p ps => rw [hr] at ih; simp [joinWith, ih]
    · cases hr : splitOn sep rest with
      | nil => exact absurd hr (splitOn_ne_nil sep rest)
      | cons p ps =>
        rw [hr] at ih
        cases ps with
        | nil => simpa [joinWith] using ih
        | cons q qs => simpa [joinWith] using ih

/-- No piece holds the separator. -/
theorem not_mem_of_mem_splitOn {sep : Char} {cs piece : List Char} (h : piece ∈ splitOn sep cs) :
    sep ∉ piece := by
  induction cs generalizing piece with
  | nil => simp [splitOn] at h; simp [h]
  | cons c rest ih =>
    simp only [splitOn] at h
    split at h
    · rcases List.mem_cons.1 h with rfl | h
      · simp
      · exact ih h
    · next hc =>
      cases hr : splitOn sep rest with
      | nil => exact absurd hr (splitOn_ne_nil sep rest)
      | cons p ps =>
        rw [hr] at h ih
        rcases List.mem_cons.1 h with rfl | h
        · simp [ih (List.mem_cons_self), Ne.symm hc]
        · exact ih (List.mem_cons_of_mem _ h)

/-- A text without the separator is one piece. -/
theorem splitOn_of_notMem {sep : Char} {a : List Char} (ha : sep ∉ a) : splitOn sep a = [a] := by
  induction a with
  | nil => rfl
  | cons c rest ih =>
    rw [List.mem_cons, not_or] at ha
    rw [splitOn, if_neg (Ne.symm ha.1), ih ha.2]

/-- What stands before the first separator is the first piece. -/
theorem splitOn_append {sep : Char} {a : List Char} (ha : sep ∉ a) (b : List Char) :
    splitOn sep (a ++ sep :: b) = a :: splitOn sep b := by
  induction a with
  | nil => simp [splitOn]
  | cons c rest ih =>
    rw [List.mem_cons, not_or] at ha
    rw [List.cons_append, splitOn, if_neg (Ne.symm ha.1), ih ha.2]

/-- Joining begins with the first piece, and each other one follows a separator. -/
theorem joinWith_cons (sep first : List Char) (rest : List (List Char)) :
    joinWith sep (first :: rest) = first ++ (rest.map (sep ++ ·)).flatten := by
  induction rest generalizing first with
  | nil => simp [joinWith]
  | cons second rest ih => simp [joinWith, ih]

/-- Joined pieces without the separator are the pieces of what they are joined to. -/
theorem splitOn_joinWith {sep : Char} {pieces : List (List Char)} (nonempty : pieces ≠ [])
    (h : ∀ piece ∈ pieces, sep ∉ piece) : splitOn sep (joinWith [sep] pieces) = pieces := by
  induction pieces with
  | nil => exact absurd rfl nonempty
  | cons first rest ih =>
    rw [List.forall_mem_cons] at h
    cases rest with
    | nil => exact splitOn_of_notMem h.1
    | cons second rest =>
      rw [joinWith, List.append_assoc, List.singleton_append, splitOn_append h.1,
        ih (List.cons_ne_nil _ _) h.2]
      exact List.cons_ne_nil _ _

/-- Cutting finds the first separator. -/
theorem cutAt_append {sep : Char} {a : List Char} (ha : sep ∉ a) (b : List Char) :
    cutAt sep (a ++ sep :: b) = (a, some b) := by
  induction a with
  | nil => simp [cutAt]
  | cons c rest ih =>
    rw [List.mem_cons, not_or] at ha
    rw [List.cons_append, cutAt, if_neg (Ne.symm ha.1), ih ha.2]

/-- A text that is cut consists of what stands before and after the separator. -/
theorem eq_append_of_cutAt {sep : Char} {cs a b : List Char} (h : cutAt sep cs = (a, some b)) :
    cs = a ++ sep :: b := by
  induction cs generalizing a with
  | nil => simp [cutAt] at h
  | cons c rest ih =>
    rw [cutAt] at h
    split at h
    · next hc =>
      obtain ⟨rfl, hb⟩ := Prod.mk.inj h
      rw [hc, Option.some.inj hb, List.nil_append]
    · obtain ⟨rfl, hb⟩ := Prod.mk.inj h
      have cut : cutAt sep rest = ((cutAt sep rest).1, some b) := by rw [← hb]
      rw [List.cons_append, ← ih cut]

/-- A text without a newline has none at its end. -/
theorem dropFinalNewline_of_notMem {cs : List Char} (h : '\n' ∉ cs) : dropFinalNewline cs = cs := by
  fun_induction dropFinalNewline cs with
  | case1 => rfl
  | case2 => exact absurd List.mem_cons_self h
  | case3 c rest _ ih => rw [ih fun hrest => h (List.mem_cons_of_mem _ hrest)]

/-- A beginning that is found stands in front of what follows. -/
theorem eq_append_of_after? {expected cs rest : List Char} (h : after? expected cs = some rest) :
    cs = expected ++ rest := by
  induction expected generalizing cs with
  | nil => simpa [after?] using h
  | cons e es ih =>
    cases cs with
    | nil => simp [after?] at h
    | cons c cs =>
      simp only [after?] at h
      split at h
      · next heq => simp [heq, ih h]
      · simp at h

/-- A beginning is found in front of any text. -/
theorem after?_append (expected rest : List Char) :
    after? expected (expected ++ rest) = some rest := by
  induction expected with
  | nil => rfl
  | cons e es ih => simp [after?, ih]

end Lexicon.Text
