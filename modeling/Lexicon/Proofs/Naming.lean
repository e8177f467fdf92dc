import Lexicon.Compile.Bundle
import Lexicon.Proofs.Format.Graphic
import Mathlib.Data.List.Basic

/-!
# Class names and constants

What names in generated code are made of. Main statements: a class name begins with a capital and
goes on with letters and digits of ASCII, whatever the definition is called, so that it is always an
identifier; no constant holds a small letter of ASCII, and the constant of a definition whose name
has only letters, digits, underscores and hyphens is an identifier unless the name is empty or
begins with a digit.
-/

namespace Lexicon

namespace Text

/-! ### Characters of ASCII -/

theorem of_ascii {p : Char → Bool} (all : ∀ n < 0x80, p (Char.ofNat n) = true) {c : Char}
    (h : c.toNat < 0x80) : p c = true :=
  Char.ofNat_toNat c ▸ all c.toNat h

theorem toNat_lt_of_isAlphanum {c : Char} (h : c.isAlphanum = true) : c.toNat < 0x80 := by
  have bounds := isGraphic_iff.mp (isGraphic_of_isAlphanum h)
  omega

theorem isAlphanum_toUpper {c : Char} (h : c.isAlphanum = true) :
    c.toUpper.isAlphanum = true := by
  have ascii := of_ascii (p := fun c => !c.isAlphanum || c.toUpper.isAlphanum) (by decide)
    (toNat_lt_of_isAlphanum h)
  simpa [h] using ascii

theorem isDigit_or_isUpper_toUpper {c : Char} (h : c.isAlphanum = true) :
    c.toUpper.isDigit = true ∨ c.toUpper.isUpper = true := by
  have ascii := of_ascii (p := fun c => !c.isAlphanum || (c.toUpper.isDigit || c.toUpper.isUpper))
    (by decide) (toNat_lt_of_isAlphanum h)
  simpa [h] using ascii

theorem isIdentifierStart_of_isUpper {c : Char} (h : c.isUpper = true) :
    isIdentifierStart c = true := by
  have alphanum : c.isAlphanum = true := by
    delta Char.isAlphanum Char.isAlpha
    rw [h, Bool.true_or, Bool.true_or]
  have ascii := of_ascii (p := fun c => !c.isUpper || isIdentifierStart c) (by decide)
    (toNat_lt_of_isAlphanum alphanum)
  simpa [h] using ascii

theorem isIdentifierRest_of_isAlphanum {c : Char} (h : c.isAlphanum = true) :
    isIdentifierRest c = true := by
  rw [isIdentifierRest, if_pos (toNat_lt_of_isAlphanum h), h, Bool.true_or]

/-! ### Upper case -/

/-- A run whose counterparts are no small letters of ASCII. -/
def CaseRun.avoidsLower (r : CaseRun) : Bool :=
  decide ((r.last : Int) + r.shift < 0x61) || decide (0x7a < (r.first : Int) + r.shift)

theorem avoidsLower_upperRuns : upperRuns.all CaseRun.avoidsLower = true := by
  decide +kernel

theorem not_isLower_upperExpansions :
    upperExpansions.all (fun e => e.2.all fun n => !(Char.ofNat n).isLower) = true := by
  decide +kernel

theorem isLower_iff {c : Char} : c.isLower = true ↔ 0x61 ≤ c.toNat ∧ c.toNat ≤ 0x7a := by
  delta Char.isLower
  simp only [Bool.and_eq_true, decide_eq_true_eq, UInt32.le_iff_toNat_le]
  rfl

theorem bounds_of_isLower_ofNat {n : Nat} (h : (Char.ofNat n).isLower = true) :
    0x61 ≤ n ∧ n ≤ 0x7a := by
  by_cases valid : n.isValidChar
  · rw [Char.ofNat, dif_pos valid] at h
    exact isLower_iff.mp h
  · rw [Char.ofNat, dif_neg valid] at h
    cases h

theorem isLower_mapCase_upperRuns {c : Char} (high : 0x80 ≤ c.toNat) :
    (mapCase upperRuns c).isLower = false := by
  rw [← Bool.not_eq_true, mapCase]
  intro lower
  split at lower
  · next r hr =>
    have avoids := List.all_eq_true.mp avoidsLower_upperRuns r (List.mem_of_find?_eq_some hr)
    have bounds := bounds_of_isLower_ofNat lower
    have inside := List.find?_some hr
    simp only [CaseRun.avoidsLower, CaseRun.contains, Bool.or_eq_true, Bool.and_eq_true,
      decide_eq_true_eq] at avoids inside
    omega
  · have bounds := isLower_iff.mp lower
    omega

/-- What is turned to upper case has no small letter of ASCII. -/
theorem isLower_upperChar {c d : Char} (h : d ∈ upperChar c) : d.isLower = false := by
  unfold upperChar at h
  split at h
  · next ascii =>
    rw [List.mem_singleton.mp h]
    have capital := of_ascii (p := fun c => !c.toUpper.isLower) (by decide) ascii
    simpa only [Bool.not_eq_true'] using capital
  · next high =>
    split at h
    · next cs found =>
      obtain ⟨n, hn, rfl⟩ := List.mem_map.mp h
      obtain ⟨before, after, split, -⟩ := List.lookup_eq_some_iff.mp found
      have mem : (c.toNat, cs) ∈ upperExpansions := by rw [split]; simp
      have all := List.all_eq_true.mp not_isLower_upperExpansions _ mem
      simpa using List.all_eq_true.mp all n hn
    · rw [List.mem_singleton.mp h]
      exact isLower_mapCase_upperRuns (Nat.le_of_not_lt high)

theorem isLower_upper {cs : List Char} {d : Char} (h : d ∈ upper cs) : d.isLower = false := by
  obtain ⟨c, -, hd⟩ := List.mem_flatMap.mp h
  exact isLower_upperChar hd

end Text

namespace Naming

/-! ### Class names -/

/-- Whether a text begins with a capital and goes on with letters and digits of ASCII. -/
def isCapitalized (s : String) : Bool :=
  s.toList.head?.any Char.isUpper && s.toList.all Char.isAlphanum

theorem all_asciiWords (cs : List Char) :
    ∀ word ∈ asciiWords cs, word.all Char.isAlphanum = true := by
  induction cs with
  | nil => exact List.forall_mem_singleton.mpr rfl
  | cons c rest ih =>
    rw [asciiWords]
    split_ifs with alphanum
    · split
      · exact List.forall_mem_singleton.mpr (by simp [alphanum])
      · next first words hwords =>
        rw [hwords, List.forall_mem_cons] at ih
        exact List.forall_mem_cons.mpr ⟨by simp [alphanum, ih.1], ih.2⟩
    · exact List.forall_mem_cons.mpr ⟨rfl, ih⟩

/-- Words of letters and digits that are joined begin with a digit or a capital. -/
theorem all_flatMap_capitalize {words : List (List Char)}
    (h : ∀ word ∈ words, word.all Char.isAlphanum = true) :
    (words.flatMap capitalize).all Char.isAlphanum = true ∧
      ∀ c, (words.flatMap capitalize).head? = some c → c.isDigit = true ∨ c.isUpper = true := by
  induction words with
  | nil => exact ⟨rfl, nofun⟩
  | cons word words ih =>
    rw [List.forall_mem_cons] at h
    rw [List.flatMap_cons]
    cases word with
    | nil => exact ih h.2
    | cons c rest =>
      have alphanum : c.isAlphanum = true ∧ rest.all Char.isAlphanum = true := by
        simpa using h.1
      refine ⟨?_, ?_⟩
      · rw [List.all_append, capitalize, List.all_cons, Text.isAlphanum_toUpper alphanum.1,
          alphanum.2, (ih h.2).1]
        rfl
      · rintro _ ⟨⟩
        exact Text.isDigit_or_isUpper_toUpper alphanum.1

theorem isCapitalized_className (name : String) : isCapitalized (className name) = true := by
  obtain ⟨all, head⟩ := all_flatMap_capitalize (all_asciiWords name.toList)
  unfold isCapitalized className
  rw [String.toList_ofList, Bool.and_eq_true]
  generalize (asciiWords name.toList).flatMap capitalize = joined at all head
  split_ifs with digit
  · simp [all]
  · cases joined with
    | nil => simp at digit
    | cons c rest =>
      refine ⟨?_, all⟩
      simpa [show c.isDigit = false by simpa using digit] using head c rfl

theorem isIdentifier_of_isCapitalized {s : String} (h : isCapitalized s = true) :
    Text.isIdentifier s = true := by
  unfold isCapitalized at h
  unfold Text.isIdentifier
  cases hs : s.toList with
  | nil => simp [hs] at h
  | cons c rest =>
    simp only [hs, List.head?_cons, Option.any_some, List.all_cons, Bool.and_eq_true,
      List.all_eq_true] at h ⊢
    exact ⟨Text.isIdentifierStart_of_isUpper h.1,
      fun d hd => Text.isIdentifierRest_of_isAlphanum (h.2.2 d hd)⟩

/-! ### Constants -/

theorem isLower_constantName {key : String} {c : Char} (h : c ∈ (constantName key).toList) :
    c.isLower = false := by
  rw [constantName, String.toList_ofList] at h
  obtain ⟨d, hd, rfl⟩ := List.mem_map.mp h
  split_ifs
  · rfl
  · exact Text.isLower_upper hd

/-- No constant is called like a text with a small letter of ASCII. -/
theorem constantName_ne {key s : String} (h : s.toList.any Char.isLower = true) :
    constantName key ≠ s := by
  rintro rfl
  obtain ⟨c, hc, lower⟩ := List.any_eq_true.mp h
  rw [isLower_constantName hc] at lower
  cases lower

/-- Whether a character is a letter, a digit, the underscore or the hyphen of ASCII. -/
def isPlain (c : Char) : Bool :=
  c.isAlphanum || c == '_' || c == '-'

theorem toNat_lt_of_isPlain {c : Char} (h : isPlain c = true) : c.toNat < 0x80 := by
  simp only [isPlain, Bool.or_eq_true, beq_iff_eq] at h
  obtain (h | rfl) | rfl := h
  · exact Text.toNat_lt_of_isAlphanum h
  · decide
  · decide

theorem isPlain_of_mem_markCapitalsAfter {before : Char} {cs : List Char}
    (h : ∀ c ∈ cs, isPlain c = true) : ∀ c ∈ markCapitalsAfter before cs, isPlain c = true := by
  induction cs generalizing before with
  | nil => exact nofun
  | cons c rest ih =>
    rw [List.forall_mem_cons] at h
    rw [markCapitalsAfter]
    split_ifs
    · exact List.forall_mem_cons.mpr ⟨rfl, List.forall_mem_cons.mpr ⟨h.1, ih h.2⟩⟩
    · exact List.forall_mem_cons.mpr ⟨h.1, ih h.2⟩

/-- A character of a constant. -/
def constantChar (c : Char) : Char :=
  if c.toUpper = '-' then '_' else c.toUpper

theorem map_upper_of_isPlain {cs : List Char} (h : ∀ c ∈ cs, isPlain c = true) :
    (Text.upper cs).map (fun c => if c = '-' then '_' else c) = cs.map constantChar := by
  induction cs with
  | nil => rfl
  | cons c rest ih =>
    rw [List.forall_mem_cons] at h
    have single : Text.upperChar c = [c.toUpper] := by
      rw [Text.upperChar, if_pos (toNat_lt_of_isPlain h.1)]
    rw [Text.upper, List.flatMap_cons, single, List.map_append, ← Text.upper, ih h.2]
    rfl

theorem isIdentifierRest_constantChar {c : Char} (h : isPlain c = true) :
    Text.isIdentifierRest (constantChar c) = true := by
  have ascii := Text.of_ascii
    (p := fun c => !isPlain c || Text.isIdentifierRest (constantChar c)) (by decide)
    (toNat_lt_of_isPlain h)
  simpa [h] using ascii

theorem isIdentifierStart_constantChar {c : Char} (h : isPlain c = true) :
    Text.isIdentifierStart (constantChar c) = !c.isDigit := by
  have ascii := Text.of_ascii
    (p := fun c => !isPlain c || Text.isIdentifierStart (constantChar c) == !c.isDigit) (by decide)
    (toNat_lt_of_isPlain h)
  simpa [h] using ascii

/-- The constant of a plain name is an identifier unless the name is empty or begins with a
digit. -/
theorem isIdentifier_constantName {key : String} (plain : key.toList.all isPlain = true) :
    Text.isIdentifier (constantName key) = key.toList.head?.any (!·.isDigit) := by
  rw [List.all_eq_true] at plain
  unfold Text.isIdentifier constantName
  rw [String.toList_ofList]
  cases hkey : key.toList with
  | nil => rfl
  | cons c rest =>
    rw [hkey, List.forall_mem_cons] at plain
    have marked : ∀ d ∈ markCapitalsAfter c rest, isPlain d = true :=
      isPlain_of_mem_markCapitalsAfter plain.2
    rw [markCapitals, map_upper_of_isPlain (List.forall_mem_cons.mpr ⟨plain.1, marked⟩),
      List.map_cons]
    have all : ((markCapitalsAfter c rest).map constantChar).all Text.isIdentifierRest = true := by
      rw [List.all_map, List.all_eq_true]
      exact fun d hd => isIdentifierRest_constantChar (marked d hd)
    simp [isIdentifierStart_constantChar plain.1, all]

end Naming

theorem Document.isCapitalized_classNameOf (d : Document) (key : String) :
    Naming.isCapitalized (d.classNameOf key) = true := by
  have main : Naming.isCapitalized d.mainClassName = true := by
    unfold mainClassName
    dsimp only
    split_ifs
    · rfl
    · exact Naming.isCapitalized_className _
  unfold classNameOf
  split_ifs
  · exact main
  · exact Naming.isCapitalized_className key

end Lexicon
