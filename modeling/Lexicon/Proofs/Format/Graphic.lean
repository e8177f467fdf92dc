import Lexicon.Format
import Lexicon.Proofs.Identifier.AtUri

/-!
# Characters of formats

Formats are written in ASCII, and in those of its characters that leave a mark. A text of a format
holds other characters in four places only: a newline at its end, the case variants of letters in a
language tag, the digits of a fraction of a second from the seventh on, and what is passed over in
front of a content identifier. Main statement: a text of a format other than that of URIs consists
of printable characters exactly if none of these places makes use of its freedom.
-/

namespace Lexicon

/-- Whether a character is a printable character of ASCII other than the space. -/
def isGraphic (c : Char) : Bool :=
  0x21 ≤ c.toNat && c.toNat ≤ 0x7e

theorem isGraphic_iff {c : Char} : isGraphic c = true ↔ 0x21 ≤ c.toNat ∧ c.toNat ≤ 0x7e := by
  simp [isGraphic]

theorem isGraphic_of_isAlphanum {c : Char} (h : c.isAlphanum = true) : isGraphic c = true := by
  delta Char.isAlphanum Char.isAlpha Char.isUpper Char.isLower Char.isDigit at h
  simp only [Bool.or_eq_true, Bool.and_eq_true, decide_eq_true_eq, UInt32.le_iff_toNat_le,
    ge_iff_le] at h
  have val : c.toNat = c.val.toNat := rfl
  have upper : 'A'.val.toNat = 0x41 ∧ 'Z'.val.toNat = 0x5a := ⟨rfl, rfl⟩
  have lower : 'a'.val.toNat = 0x61 ∧ 'z'.val.toNat = 0x7a := ⟨rfl, rfl⟩
  have digit : '0'.val.toNat = 0x30 ∧ '9'.val.toNat = 0x39 := ⟨rfl, rfl⟩
  rw [isGraphic_iff]
  omega

theorem isGraphic_of_isDigit {c : Char} (h : c.isDigit = true) : isGraphic c = true := by
  apply isGraphic_of_isAlphanum
  rw [Char.isAlphanum, h, Bool.or_true]

theorem not_isGraphic_newline : isGraphic '\n' = false :=
  rfl

/-- A piece that is found stands in front of what follows it. -/
theorem Text.exists_of_afterFirst {piece cs rest : List Char}
    (h : Text.afterFirst? piece cs = some rest) : ∃ before, cs = before ++ (piece ++ rest) := by
  fun_induction Text.afterFirst? piece cs with
  | case1 => exact ⟨[], by rw [List.nil_append, ← Text.eq_append_of_after? h]⟩
  | case2 c cs found hfound =>
    obtain rfl := Option.some.inj h
    exact ⟨[], by rw [List.nil_append, ← Text.eq_append_of_after? hfound]⟩
  | case3 c cs _ ih =>
    obtain ⟨before, rfl⟩ := ih h
    exact ⟨c :: before, rfl⟩

/-! ### Identifiers -/

section Identifiers

variable {w : List Char}

theorem isGraphic_of_isHostChar {c : Char} (h : Label.isHostChar c = true) :
    isGraphic c = true := by
  simp only [Label.isHostChar, Label.isLabelChar, Bool.or_eq_true, beq_iff_eq] at h
  rcases h with (h | rfl) | rfl
  · exact isGraphic_of_isAlphanum h
  · rfl
  · rfl

theorem graphic_of_isHost (h : Label.isHost w = true) : w.all isGraphic = true :=
  Text.all_mono (Label.all_of_isHost h) fun _ => isGraphic_of_isHostChar

theorem graphic_of_isNamespaced (h : Label.isNamespaced w = true) : w.all isGraphic = true :=
  Text.all_mono (Label.all_of_isNamespaced h) fun _ => isGraphic_of_isHostChar

theorem isGraphic_of_isBodyChar {c : Char} (h : Did.isBodyChar c = true) : isGraphic c = true := by
  simp only [Did.isBodyChar, Bool.or_eq_true, beq_iff_eq] at h
  rcases h with ((((h | rfl) | rfl) | rfl) | rfl) | rfl
  · exact isGraphic_of_isAlphanum h
  all_goals rfl

theorem isGraphic_of_isKeyChar {c : Char} (h : RecordKey.isKeyChar c = true) :
    isGraphic c = true := by
  simp only [RecordKey.isKeyChar, Bool.or_eq_true, beq_iff_eq] at h
  rcases h with ((((h | rfl) | rfl) | rfl) | rfl) | rfl
  · exact isGraphic_of_isAlphanum h
  all_goals rfl

theorem graphic_of_isKeyText (h : RecordKey.isKeyText w = true) : w.all isGraphic = true := by
  simp only [RecordKey.isKeyText, Bool.and_eq_true] at h
  exact Text.all_mono h.2 fun _ => isGraphic_of_isKeyChar

theorem graphic_of_isBody (h : Did.isBody w = true) : w.all isGraphic = true := by
  rw [Did.isBody, Bool.and_eq_true] at h
  exact Text.all_mono h.1 fun _ => isGraphic_of_isBodyChar

theorem graphic_of_isDid (h : Did.isDid w = true) : w.all isGraphic = true := by
  unfold Did.isDid at h
  cases found : Did.parts? w with
  | none => simp [found] at h
  | some parts =>
    simp only [found, Bool.and_eq_true] at h
    obtain ⟨⟨-, hmethod⟩, hbody⟩ := h
    have lower : parts.1.all isGraphic = true := Text.all_mono hmethod fun c hc =>
      isGraphic_of_isAlphanum <| by
        delta Char.isAlphanum Char.isAlpha
        rw [hc, Bool.or_true, Bool.true_or]
    rw [Did.eq_append_of_parts? found]
    simp only [List.all_append, List.all_cons, lower, graphic_of_isBody hbody]
    decide

theorem graphic_of_isTidText (h : Tid.isTidText w = true) : w.all isGraphic = true := by
  simp only [Tid.isTidText, Bool.and_eq_true] at h
  refine Text.all_mono h.1.2 fun c hc => ?_
  have digit : c ∈ Base32.alphabet := by
    by_contra foreign
    rw [Tid.isDigit, Base32.value?, List.idxOf?_eq_none_iff.mpr foreign] at hc
    cases hc
  have graphic : Base32.alphabet.all isGraphic = true := by
    unfold Base32.alphabet
    rw [String.toList_ofList]
    decide
  exact List.all_eq_true.mp graphic c digit

theorem graphic_of_spells {uri : AtUri} (h : AtUri.Spells w uri) : w.all isGraphic = true := by
  obtain ⟨authority, collection, rkey, nested⟩ := uri
  obtain ⟨rfl, ha, hc, hk⟩ := h
  have owner : authority.toList.all isGraphic = true := by
    rw [AtUri.mem_authority_iff, AtUri.isAuthority, Bool.or_eq_true] at ha
    rcases ha with did | host
    · obtain ⟨method, body, eq, hmethod, hbody⟩ := Pattern.isBlessedDid_iff.mp did
      rw [eq, List.all_append, List.all_append, List.all_cons, graphic_of_isBody hbody]
      rcases hmethod with rfl | rfl <;> decide
    · exact graphic_of_isHost host
  have inner : (AtUri.tail collection).all isGraphic = true := by
    cases collection with
    | none => rfl
    | some c =>
      rw [AtUri.tail, List.all_cons,
        graphic_of_isNamespaced (Pattern.mem_namespaced_iff.mp (hc c rfl))]
      decide
  have key : (AtUri.tail rkey).all isGraphic = true := by
    cases rkey with
    | none => rfl
    | some k =>
      rw [AtUri.tail, List.all_cons, graphic_of_isKeyText (Pattern.mem_recordKey_iff.mp (hk k rfl))]
      decide
  simp only [List.all_append, owner, inner, key]
  decide

end Identifiers

/-! ### Language tags -/

namespace Language

variable {p : Char → Bool} {tags : List (List Char)} {tag : List Char}

theorem isLetterOrDigit_of_isLetter {c : Char} (h : isLetter c = true) :
    isLetterOrDigit c = true := by
  rw [isLetterOrDigit, h, Bool.true_or]

theorem isLetterOrDigit_of_isDigit {c : Char} (h : c.isDigit = true) :
    isLetterOrDigit c = true := by
  rw [isLetterOrDigit, h, Bool.or_true]

theorem all_of_isSubtag {low high : Nat} (h : isSubtag p low high tag = true) :
    tag.all p = true := by
  rw [isSubtag, Bool.and_eq_true] at h
  exact h.2

theorem all_of_isLetters {low high : Nat} (h : isSubtag isLetter low high tag = true) :
    tag.all isLetterOrDigit = true :=
  Text.all_mono (all_of_isSubtag h) fun _ => isLetterOrDigit_of_isLetter

theorem all_of_isRegion (h : isRegion tag = true) : tag.all isLetterOrDigit = true := by
  rw [isRegion, Bool.or_eq_true] at h
  rcases h with letters | digits
  · exact all_of_isLetters letters
  · exact Text.all_mono (all_of_isSubtag digits) fun _ => isLetterOrDigit_of_isDigit

theorem all_of_isVariant (h : isVariant tag = true) : tag.all isLetterOrDigit = true := by
  simp only [isVariant, Bool.or_eq_true, Bool.and_eq_true] at h
  exact h.elim all_of_isSubtag fun four => all_of_isSubtag four.1

theorem all_of_isPrivateMark (h : isPrivateMark tag = true) : tag.all isLetterOrDigit = true := by
  simp only [isPrivateMark, Bool.or_eq_true, beq_iff_eq] at h
  rcases h with rfl | rfl <;> decide

theorem all_of_isRegisteredMark (h : isRegisteredMark tag = true) :
    tag.all isLetterOrDigit = true := by
  unfold isRegisteredMark at h
  split at h
  · next c =>
    simp only [Bool.or_eq_true, beq_iff_eq] at h
    rw [List.all_cons, List.all_nil, Bool.and_true]
    rcases h with ((rfl | rfl) | h) | h
    · decide
    · decide
    · simp [isLetterOrDigit, isLetter, h]
    · simp [isLetterOrDigit, isLetter, h]
  · cases h

/-- What is skipped is of the class that the rest is. -/
theorem forall_of_skip {test : List Char → Bool} {n : Nat}
    (htest : ∀ tag, test tag = true → tag.all p = true)
    (h : ∀ tag ∈ skip test n tags, tag.all p = true) : ∀ tag ∈ tags, tag.all p = true := by
  fun_induction skip test n tags with
  | case1 | case2 => exact h
  | case3 n tag tags passes ih => exact List.forall_mem_cons.mpr ⟨htest tag passes, ih h⟩
  | case4 => exact h

theorem forall_of_isPrivatePart (h : isPrivatePart tags = true) :
    ∀ tag ∈ tags, tag.all isLetterOrDigit = true := by
  cases tags with
  | nil => exact List.forall_mem_nil _
  | cons mark tags =>
    simp only [isPrivatePart, Bool.and_eq_true, List.all_eq_true] at h
    exact List.forall_mem_cons.mpr
      ⟨all_of_isPrivateMark h.1.1, fun tag hm => all_of_isSubtag (h.2 tag hm)⟩

theorem all_of_isSingleton (h : isSingleton tag = true) : tag.all isLetterOrDigit = true := by
  rw [isSingleton, Bool.and_eq_true] at h
  exact all_of_isSubtag h.1

theorem forall_of_isExtensionRest {complete : Bool} (h : isExtensionRest complete tags = true) :
    ∀ tag ∈ tags, tag.all isLetterOrDigit = true := by
  induction tags generalizing complete with
  | nil => exact List.forall_mem_nil _
  | cons tag tags ih =>
    rw [isExtensionRest] at h
    split_ifs at h with more single
    · exact List.forall_mem_cons.mpr ⟨all_of_isSubtag more, ih h⟩
    · rw [Bool.and_eq_true] at h
      exact List.forall_mem_cons.mpr ⟨all_of_isSingleton single, ih h.2⟩
    · rw [Bool.and_eq_true] at h
      exact forall_of_isPrivatePart h.2

theorem forall_of_isExtensions (h : isExtensions tags = true) :
    ∀ tag ∈ tags, tag.all isLetterOrDigit = true := by
  cases tags with
  | nil => exact List.forall_mem_nil _
  | cons tag tags =>
    rw [isExtensions] at h
    split_ifs at h with single
    · exact List.forall_mem_cons.mpr ⟨all_of_isSingleton single, forall_of_isExtensionRest h⟩
    · exact forall_of_isPrivatePart h

theorem forall_of_isAfterLanguage (h : isAfterLanguage tags = true) :
    ∀ tag ∈ tags, tag.all isLetterOrDigit = true :=
  forall_of_skip (fun _ => all_of_isLetters) <|
    forall_of_skip (fun _ => all_of_isRegion) <|
      forall_of_skip (fun _ => all_of_isVariant) <| forall_of_isExtensions h

/-- The subtags of a language tag consist of letters and digits. -/
theorem forall_of_isTag (h : isTag tags = true) : ∀ tag ∈ tags, tag.all isLetterOrDigit = true := by
  cases tags with
  | nil => cases h
  | cons first rest =>
    unfold isTag at h
    dsimp only at h
    split_ifs at h with short long mark
    · exact List.forall_mem_cons.mpr ⟨all_of_isLetters short,
        forall_of_skip (fun _ => all_of_isLetters) (forall_of_isAfterLanguage h)⟩
    · exact List.forall_mem_cons.mpr ⟨all_of_isLetters long, forall_of_isAfterLanguage h⟩
    · exact forall_of_isPrivatePart h
    · split at h
      · rw [Bool.and_eq_true] at h
        exact List.forall_mem_cons.mpr ⟨all_of_isRegisteredMark h.1,
          List.forall_mem_singleton.mpr (all_of_isLetters h.2)⟩
      · cases h

/-- A letter beyond ASCII that counts as the letter of ASCII whose case variant it is. -/
def isCaseVariant (c : Char) : Bool :=
  isLetter c && !c.isAlpha

theorem not_isGraphic_of_isCaseVariant {c : Char} (h : isCaseVariant c = true) :
    isGraphic c = false := by
  simp only [isCaseVariant, isLetter, Bool.and_eq_true, Bool.or_eq_true, Bool.not_eq_true',
    beq_iff_eq] at h
  rw [Bool.eq_false_iff, Ne, isGraphic_iff]
  obtain ⟨(((alpha | h) | h) | h) | h, ascii⟩ := h
  · rw [alpha] at ascii
    cases ascii
  all_goals omega

theorem isGraphic_of_plain {c : Char} (h : isLetterOrDigit c = true ∨ c = '-')
    (plain : isCaseVariant c = false) : isGraphic c = true := by
  rcases h with h | rfl
  · rw [isLetterOrDigit, Bool.or_eq_true] at h
    rcases h with letter | digit
    · rw [isCaseVariant, letter, Bool.true_and, Bool.not_eq_false'] at plain
      exact isGraphic_of_isAlphanum (Pattern.isAlphanum_of_isAlpha plain)
    · exact isGraphic_of_isDigit digit
  · rfl

end Language

/-! ### Datetimes -/

namespace Datetime

variable {cs rest : List Char}

/-- A text that begins with the given number of printable characters, and what follows them. -/
def Passes (k : Nat) (cs rest : List Char) : Prop :=
  ∃ front, cs = front ++ rest ∧ front.length = k ∧ front.all isGraphic = true

theorem Passes.trans {k l : Nat} {middle : List Char} (h : Passes k cs middle)
    (h' : Passes l middle rest) : Passes (k + l) cs rest := by
  obtain ⟨front, rfl, length, graphic⟩ := h
  obtain ⟨front', rfl, length', graphic'⟩ := h'
  refine ⟨front ++ front', by simp, by simp [length, length'], ?_⟩
  rw [List.all_append, graphic, graphic', Bool.true_and]

theorem passes_digits {count n m : Nat} (h : digits? count n cs = some (m, rest)) :
    Passes count cs rest := by
  fun_induction digits? count n cs with
  | case1 =>
    obtain ⟨-, rfl⟩ := Prod.mk.inj (Option.some.inj h)
    exact ⟨[], rfl, rfl, rfl⟩
  | case2 => cases h
  | case3 count n c cs digit ih =>
    obtain ⟨front, rfl, length, graphic⟩ := ih h
    refine ⟨c :: front, rfl, by rw [List.length_cons, length], ?_⟩
    rw [List.all_cons, isGraphic_of_isDigit digit, graphic, Bool.true_and]
  | case4 => cases h

theorem passes_sign {sign : Char} (hsign : isGraphic sign = true) (h : sign? sign cs = some rest) :
    Passes 1 cs rest := by
  cases cs with
  | nil => cases h
  | cons c cs =>
    rw [sign?] at h
    split_ifs at h with hc
    obtain rfl := Option.some.inj h
    exact ⟨[c], rfl, rfl, by simp [hc, hsign]⟩

/-- A fraction has six digits of ASCII before any others. -/
theorem exists_of_skipFraction (h : skipFraction? cs = some rest) :
    ∃ front others, cs = front ++ (others ++ rest) ∧ front.all isGraphic = true ∧
      others.all Text.isDecimal = true ∧ (others = [] ∨ front.length = 7) := by
  unfold skipFraction? at h
  split at h
  · next tail =>
    dsimp only at h
    split_ifs at h with fraction
    rw [← Option.some.inj h]
    have whole := List.prefix_iff_eq_append.mp (List.takeWhile_prefix (l := tail) Text.isDecimal)
    generalize tail.takeWhile Text.isDecimal = digits at fraction whole
    simp only [isFraction, Bool.and_eq_true] at fraction
    refine ⟨'.' :: digits.take 6, digits.drop 6, ?_, ?_, fraction.2, ?_⟩
    · rw [← List.append_assoc, List.cons_append, List.take_append_drop, List.cons_append, whole]
    · rw [List.all_cons, Text.all_mono fraction.1.2 fun _ => isGraphic_of_isDigit]
      rfl
    · rcases Nat.le_total digits.length 6 with short | long
      · exact .inl (List.drop_eq_nil_of_le short)
      · right
        rw [List.length_cons, List.length_take, Nat.min_eq_left long]
  · obtain rfl := Option.some.inj h
    exact ⟨[], [], rfl, rfl, rfl, .inl rfl⟩

theorem graphic_of_offsetSize {n : Nat} (h : offset?.offsetSize? cs = some n) :
    cs.all isGraphic = true := by
  obtain ⟨⟨hours, a⟩, hhours, h⟩ := Option.bind_eq_some_iff.mp h
  obtain ⟨b, hsign, h⟩ := Option.bind_eq_some_iff.mp h
  obtain ⟨⟨minutes, c⟩, hminutes, h⟩ := Option.bind_eq_some_iff.mp h
  dsimp only at h
  split_ifs at h with complete
  rw [Bool.and_eq_true, List.isEmpty_iff] at complete
  have passes :=
    ((passes_digits hhours).trans (passes_sign rfl hsign)).trans (passes_digits hminutes)
  obtain ⟨front, rfl, -, graphic⟩ := passes
  rw [complete.1, List.append_nil]
  exact graphic

theorem graphic_of_offset {m : Int} (h : offset? cs = some m) :
    cs ≠ [] ∧ cs.all isGraphic = true := by
  unfold offset? at h
  split at h
  · exact ⟨List.cons_ne_nil _ _, rfl⟩
  · obtain ⟨_, h, -⟩ := Option.map_eq_some_iff.mp h
    obtain ⟨n, hsize, -⟩ := Option.bind_eq_some_iff.mp h
    refine ⟨List.cons_ne_nil _ _, ?_⟩
    rw [List.all_cons, graphic_of_offsetSize hsize]
    rfl
  · split_ifs at h
    obtain ⟨_, h, -⟩ := Option.map_eq_some_iff.mp h
    obtain ⟨n, hsize, -⟩ := Option.bind_eq_some_iff.mp h
    refine ⟨List.cons_ne_nil _ _, ?_⟩
    rw [List.all_cons, graphic_of_offsetSize hsize]
    rfl
  · cases h

/-- The digits of a fraction from the seventh on are the 27th character of a datetime and those
after it; printable characters stand around them, and one at the end. -/
theorem exists_of_parts {p : Parts} (h : parts? cs = some p) :
    ∃ front others back, cs = front ++ (others ++ back) ∧ front.all isGraphic = true ∧
      others.all Text.isDecimal = true ∧ (others = [] ∨ front.length = 26) ∧
        back ≠ [] ∧ back.all isGraphic = true := by
  obtain ⟨⟨year, cs₁⟩, h₁, h⟩ := Option.bind_eq_some_iff.mp h
  obtain ⟨cs₂, h₂, h⟩ := Option.bind_eq_some_iff.mp h
  obtain ⟨⟨month, cs₃⟩, h₃, h⟩ := Option.bind_eq_some_iff.mp h
  obtain ⟨cs₄, h₄, h⟩ := Option.bind_eq_some_iff.mp h
  obtain ⟨⟨day, cs₅⟩, h₅, h⟩ := Option.bind_eq_some_iff.mp h
  obtain ⟨cs₆, h₆, h⟩ := Option.bind_eq_some_iff.mp h
  obtain ⟨⟨hour, cs₇⟩, h₇, h⟩ := Option.bind_eq_some_iff.mp h
  obtain ⟨cs₈, h₈, h⟩ := Option.bind_eq_some_iff.mp h
  obtain ⟨⟨minute, cs₉⟩, h₉, h⟩ := Option.bind_eq_some_iff.mp h
  obtain ⟨cs₁₀, h₁₀, h⟩ := Option.bind_eq_some_iff.mp h
  obtain ⟨⟨second, cs₁₁⟩, h₁₁, h⟩ := Option.bind_eq_some_iff.mp h
  obtain ⟨cs₁₂, hfraction, h⟩ := Option.bind_eq_some_iff.mp h
  obtain ⟨offset, hoffset, -⟩ := Option.bind_eq_some_iff.mp h
  have date : Passes 11 cs cs₆ :=
    (passes_digits h₁).trans <| (passes_sign rfl h₂).trans <| (passes_digits h₃).trans <|
      (passes_sign rfl h₄).trans <| (passes_digits h₅).trans <| passes_sign rfl h₆
  have time : Passes 8 cs₆ cs₁₁ :=
    (passes_digits h₇).trans <| (passes_sign rfl h₈).trans <| (passes_digits h₉).trans <|
      (passes_sign rfl h₁₀).trans <| passes_digits h₁₁
  obtain ⟨front, rfl, length, graphic⟩ := date.trans time
  obtain ⟨point, others, rfl, graphic', decimal, sixth⟩ := exists_of_skipFraction hfraction
  obtain ⟨nonempty, graphic''⟩ := graphic_of_offset hoffset
  refine ⟨front ++ point, others, cs₁₂, by simp, ?_, decimal, ?_, nonempty, graphic''⟩
  · rw [List.all_append, graphic, graphic', Bool.true_and]
  · refine sixth.imp_right fun seven => ?_
    rw [List.length_append, length, seven]

/-- A decimal digit beyond ASCII. -/
def isForeignDigit (c : Char) : Bool :=
  Text.isDecimal c && !c.isDigit

theorem not_isGraphic_of_isForeignDigit {c : Char} (h : isForeignDigit c = true) :
    isGraphic c = false := by
  rw [isForeignDigit, Bool.and_eq_true, Text.isDecimal, Bool.not_eq_true'] at h
  obtain ⟨decimal, foreign⟩ := h
  rw [Bool.eq_false_iff, Ne, isGraphic_iff]
  intro graphic
  rw [if_pos (by omega), foreign] at decimal
  cases decimal

end Datetime

/-! ### Content identifiers -/

namespace Cid

variable {cs : List Char}

theorem mem_of_digitIn {alphabet : List Char} {c : Char} {n : Nat}
    (h : digitIn alphabet c = some n) : c ∈ alphabet := by
  by_contra foreign
  rw [digitIn, List.idxOf?_eq_none_iff.mpr foreign] at h
  cases h

theorem all_of_mapM {α : Type} {f : Char → Option α} {p : Char → Bool} {as : List α}
    (hf : ∀ c a, f c = some a → p c = true) (h : cs.mapM f = some as) : cs.all p = true := by
  induction cs generalizing as with
  | nil => rfl
  | cons c cs ih =>
    rw [List.mapM_cons] at h
    obtain ⟨a, ha, h⟩ := Option.bind_eq_some_iff.mp h
    obtain ⟨as', has, -⟩ := Option.bind_eq_some_iff.mp h
    rw [List.all_cons, hf c a ha, ih has, Bool.true_and]

theorem graphic_of_fromDigits {alphabet : List Char} {width : Nat} {bytes : List UInt8}
    (graphic : alphabet.all isGraphic = true) (h : fromDigits? alphabet width cs = some bytes) :
    cs.all isGraphic = true := by
  obtain ⟨digits, hdigits, -⟩ := Option.bind_eq_some_iff.mp h
  exact all_of_mapM (fun c _ hc => List.all_eq_true.mp graphic c (mem_of_digitIn hc)) hdigits

theorem graphic_of_fromBase58 {bytes : List UInt8} (h : fromBase58? cs = some bytes) :
    cs.all isGraphic = true := by
  obtain ⟨digits, hdigits, -⟩ := Option.bind_eq_some_iff.mp h
  have graphic : base58Alphabet.all isGraphic = true := by
    unfold base58Alphabet
    rw [String.toList_ofList]
    decide
  exact all_of_mapM (fun c _ hc => List.all_eq_true.mp graphic c (mem_of_digitIn hc)) hdigits

/-- Lower case makes no character printable. -/
theorem isGraphic_of_toLower {c : Char} (h : isGraphic c.toLower = true) : isGraphic c = true := by
  delta Char.toLower at h
  split_ifs at h with upper
  · obtain ⟨first, last⟩ := upper
    rw [ge_iff_le, UInt32.le_iff_toNat_le] at first
    rw [UInt32.le_iff_toNat_le] at last
    have val : c.toNat = c.val.toNat := rfl
    have bounds : 'A'.val.toNat = 0x41 ∧ 'Z'.val.toNat = 0x5a := ⟨rfl, rfl⟩
    rw [isGraphic_iff]
    omega
  · exact h

theorem graphic_of_fromNamedBase {bytes : List UInt8} (h : fromNamedBase? cs = some bytes) :
    cs.all isGraphic = true := by
  have lower {w : List Char} (hw : (w.map Char.toLower).all isGraphic = true) :
      w.all isGraphic = true := by
    rw [List.all_map] at hw
    exact Text.all_mono hw fun _ => isGraphic_of_toLower
  have base32 : base32Alphabet.all isGraphic = true := by
    unfold base32Alphabet
    rw [String.toList_ofList]
    decide
  have base64 : Text.Base64.alphabet.all isGraphic = true := by
    unfold Text.Base64.alphabet
    rw [String.toList_ofList]
    decide
  have base64Url : base64UrlAlphabet.all isGraphic = true := by
    unfold base64UrlAlphabet
    rw [String.toList_ofList]
    decide
  unfold fromNamedBase? at h
  split at h
  · rw [List.all_cons, lower (graphic_of_fromDigits base32 h)]; rfl
  · rw [List.all_cons, lower (graphic_of_fromDigits base32 h)]; rfl
  · rw [List.all_cons, lower (graphic_of_fromDigits (by decide) h)]; rfl
  · rw [List.all_cons, lower (graphic_of_fromDigits (by decide) h)]; rfl
  · rw [List.all_cons, graphic_of_fromBase58 h]; rfl
  · rw [List.all_cons, graphic_of_fromDigits base64 h]; rfl
  · rw [List.all_cons, graphic_of_fromDigits base64Url h]; rfl
  · cases h

/-- Nothing but what is passed over in front of `/ipfs/` can hold other characters. -/
theorem exists_of_bytes {bytes : List UInt8} (h : bytes? cs = some bytes) :
    ∃ before back, cs = before ++ back ∧ back.all isGraphic = true ∧
      (before = [] ∨ ∃ after, back = "/ipfs/".toList ++ after) := by
  have graphic {w : List Char} (hw : (if (String.ofList w).utf8ByteSize < 2 then none
      else if (String.ofList w).utf8ByteSize = 46 && w.take 2 == ['Q', 'm'] then fromBase58? w
      else fromNamedBase? w) = some bytes) : w.all isGraphic = true := by
    split_ifs at hw
    · exact graphic_of_fromBase58 hw
    · exact graphic_of_fromNamedBase hw
  unfold bytes? at h
  cases found : Text.afterFirst? "/ipfs/".toList cs with
  | none =>
    rw [found] at h
    exact ⟨[], cs, rfl, graphic h, .inl rfl⟩
  | some after =>
    rw [found] at h
    obtain ⟨before, rfl⟩ := Text.exists_of_afterFirst found
    refine ⟨before, _, rfl, ?_, .inr ⟨after, rfl⟩⟩
    rw [List.all_append, graphic (w := after) h]
    decide

end Cid

/-! ### All formats -/

/-- A text makes use of the freedom that a format gives: it holds characters beyond ASCII in front
of `/ipfs/`, among the digits of a fraction from the seventh on, or in place of letters, or a
newline ends it. -/
def Format.Strays : Format → List Char → Prop
  | .cid, cs => ∃ before after, cs = before ++ ("/ipfs/".toList ++ after) ∧
      ∃ c ∈ before, isGraphic c = false
  | .datetime, cs => ∃ c ∈ cs.drop 26, Datetime.isForeignDigit c = true
  | .language, cs => (∃ c ∈ cs, Language.isCaseVariant c = true) ∨ cs.getLast? = some '\n'
  | _, cs => cs.getLast? = some '\n'

namespace Format

variable {f : Format} {s : String} {cs : List Char}

/-- Dropping a newline leaves a text of printable characters exactly if the newline was the only
other one. -/
theorem graphic_iff_of_dropped (h : (Text.dropFinalNewline cs).all isGraphic = true) :
    (∀ c ∈ cs, isGraphic c = true) ↔ ¬ cs.getLast? = some '\n' := by
  constructor
  · intro graphic last
    have newline := graphic _ (List.mem_of_getLast? last)
    rw [not_isGraphic_newline] at newline
    cases newline
  · intro last
    rcases Text.dropFinalNewline_cases cs with same | dropped
    · rw [same]
      exact List.all_eq_true.mp h
    · rw [dropped, List.getLast?_concat] at last
      exact absurd rfl last

theorem graphic_iff_of_language (h : Language.isValid s = true) :
    (∀ c ∈ s.toList, isGraphic c = true) ↔ ¬ Format.language.Strays s.toList := by
  have spelled : ∀ c ∈ Text.dropFinalNewline s.toList,
      Language.isLetterOrDigit c = true ∨ c = '-' := by
    have all : (Text.dropFinalNewline s.toList).all
        (fun c => Language.isLetterOrDigit c || c == '-') = true := by
      apply Text.all_of_splitOn '-' (by decide)
      intro piece hpiece
      exact Text.all_mono (Language.forall_of_isTag h piece hpiece) fun c hc => by
        rw [hc, Bool.true_or]
    simpa using all
  constructor
  · rintro graphic (⟨c, hc, variant⟩ | last)
    · have := graphic c hc
      rw [Language.not_isGraphic_of_isCaseVariant variant] at this
      cases this
    · have := graphic _ (List.mem_of_getLast? last)
      cases this
  · intro plain
    rw [Strays, not_or, not_exists] at plain
    refine (graphic_iff_of_dropped (List.all_eq_true.mpr fun c hc => ?_)).mpr plain.2
    refine Language.isGraphic_of_plain (spelled c hc) (Bool.eq_false_iff.mpr fun variant => ?_)
    refine plain.1 c ⟨?_, variant⟩
    rcases Text.dropFinalNewline_cases s.toList with same | dropped
    · rw [same]
      exact hc
    · rw [dropped]
      exact List.mem_append_left _ hc

theorem graphic_iff_of_datetime (h : Datetime.isValid s = true) :
    ((∀ c ∈ s.toList, isGraphic c = true) ↔ ¬ Format.datetime.Strays s.toList) ∧
      s.toList.getLast? ≠ some '\n' := by
  obtain ⟨p, hp, -⟩ := (Option.any_eq_true _ _).mp h
  obtain ⟨front, others, back, eq, graphic, decimal, sixth, nonempty, graphic'⟩ :=
    Datetime.exists_of_parts hp
  rw [List.all_eq_true] at graphic graphic' decimal
  rw [eq]
  refine ⟨⟨?_, fun plain c hc => ?_⟩, ?_⟩
  · rintro all ⟨c, hc, foreign⟩
    have := all c (List.mem_of_mem_drop hc)
    rw [Datetime.not_isGraphic_of_isForeignDigit foreign] at this
    cases this
  · rcases List.mem_append.mp hc with hc | hc
    · exact graphic c hc
    rcases List.mem_append.mp hc with hc | hc
    · have position := sixth.resolve_left (List.ne_nil_of_mem hc)
      have digit : c.isDigit = true := by
        by_contra foreign
        refine plain ⟨c, ?_, ?_⟩
        · rw [← position, List.drop_left]
          exact List.mem_append_left _ hc
        · rw [Datetime.isForeignDigit, decimal c hc, Bool.eq_false_iff.mpr foreign]
          rfl
      exact isGraphic_of_isDigit digit
    · exact graphic' c hc
  · intro last
    rw [← List.append_assoc, List.getLast?_append_of_ne_nil _ nonempty] at last
    have := graphic' _ (List.mem_of_getLast? last)
    cases this

theorem graphic_iff_of_cid (h : Cid.isValid s = true) :
    ((∀ c ∈ s.toList, isGraphic c = true) ↔ ¬ Format.cid.Strays s.toList) ∧
      s.toList.getLast? ≠ some '\n' := by
  obtain ⟨bytes, hbytes, -⟩ := (Option.any_eq_true _ _).mp h
  obtain ⟨before, back, eq, graphic, found⟩ := Cid.exists_of_bytes hbytes
  rw [List.all_eq_true] at graphic
  rw [eq]
  refine ⟨⟨?_, fun plain c hc => ?_⟩, ?_⟩
  · rintro all ⟨before', after, eq', c, hc, other⟩
    have := all c (eq' ▸ List.mem_append_left _ hc)
    rw [other] at this
    cases this
  · rcases List.mem_append.mp hc with passed | hc
    · obtain ⟨after, rfl⟩ := found.resolve_left (List.ne_nil_of_mem passed)
      by_contra other
      exact plain ⟨before, after, rfl, c, passed, Bool.eq_false_iff.mpr other⟩
    · exact graphic c hc
  · intro last
    have newline : '\n' ∈ back := by
      rcases found with rfl | ⟨after, rfl⟩
      · exact List.mem_of_getLast? last
      · rw [List.getLast?_append_of_ne_nil _ (by simp)] at last
        exact List.mem_of_getLast? last
    have := graphic _ newline
    cases this

end Format

end Lexicon
