import Lexicon.Proofs.Compile.Conforms
import Lexicon.Proofs.Document.Decoded
import Lexicon.Proofs.Schema.Upholds

/-!
# Compiling equal fields

Fields are equal if what they say of themselves is equal as data, so that a number may be another
one of the same size. All that a field says means the same then, but for the values that it allows:
these are compared with their kinds. Main statement: where equal fields allow the same values with
their kinds, what one of them compiles to refuses nothing that the other accepts.
-/

namespace Lexicon

open Schema (Upholds)

theorem Value.Decoded.elements {v : Value} (h : v.Decoded) {xs : List Value}
    (hxs : v.elements = .ok xs) : ∀ x ∈ xs, x.Decoded := by
  intro x hx
  cases v with
  | list items =>
    obtain rfl := Except.ok.inj hxs
    exact h.item x hx
  | str s | object es =>
    rw [← Except.ok.inj hxs] at hx
    obtain ⟨_, _, rfl⟩ := List.mem_map.mp hx
    exact .str _
  | bytes | tuple => cases h.json
  | _ => cases hxs

namespace Field

/-! ### Equal fields -/

/-- The values that the options of a field list: a fixed value, or else the allowed ones. -/
def listed (f : Field) : List Value :=
  match f.options.find? "const", f.options.find? "enum" with
  | some x, _ => [x]
  | none, some values => values.elements.toOption.getD []
  | none, none => []

/-- The values that a field lists, if its type is one whose lists count. -/
def allowed (f : Field) : List Value :=
  match f.type with
  | .str type => if type ∈ defaultTypes then f.listed else []
  | _ => []

theorem allowed_eq {f : Field} {type : String} (htype : f.type = .str type)
    (counts : type ∈ defaultTypes) : f.allowed = f.listed := by
  rw [allowed, htype]
  exact if_pos counts

/-- Whether each value that one of two fields lists is listed by the other with its kind. -/
def listsSame (f f' : Field) : Bool :=
  f.allowed.all (fun x => f'.allowed.any x.identical) &&
    f'.allowed.all fun y => f.allowed.any y.identical

/-- Whether two fields, with their items, list the same values with their kinds. -/
def keepsKinds : Field → Field → Bool
  | ⟨type, options, some items, description⟩, ⟨type', options', some items', description'⟩ =>
    listsSame ⟨type, options, some items, description⟩
      ⟨type', options', some items', description'⟩ && items.keepsKinds items'
  | f, f' => f.listsSame f'

theorem listsSame_iff {f f' : Field} : f.listsSame f' = true ↔
    (∀ x ∈ f.allowed, ∃ y ∈ f'.allowed, x.identical y = true) ∧
      ∀ y ∈ f'.allowed, ∃ x ∈ f.allowed, y.identical x = true := by
  simp only [listsSame, Bool.and_eq_true, List.all_eq_true, List.any_eq_true]

theorem listsSame_of_keepsKinds {f f' : Field} (h : f.keepsKinds f' = true) :
    f.listsSame f' = true := by
  unfold keepsKinds at h
  split at h
  · exact (Bool.and_eq_true_iff.mp h).1
  · exact h

theorem keepsKinds_items {f f' item item' : Field} (h : f.keepsKinds f' = true)
    (hitem : f.items = some item) (hitem' : f'.items = some item') :
    item.keepsKinds item' = true := by
  obtain ⟨_, _, _, _⟩ := f
  obtain ⟨_, _, _, _⟩ := f'
  obtain rfl := hitem
  obtain rfl := hitem'
  rw [keepsKinds, Bool.and_eq_true] at h
  exact h.2

/-- Two decoded fields, items apart, of which each option of one is equal to that of the other, and
which list the same values with their kinds. -/
structure SaysSame (f f' : Field) : Prop where
  decoded : f.Decoded
  decoded' : f'.Decoded
  type : ∀ name, f.type = .str name ↔ f'.type = .str name
  options : ∀ key, Option.Rel (fun x y => x.same y = true) (f.options.find? key)
    (f'.options.find? key)
  right : ∀ x ∈ f.allowed, ∃ y ∈ f'.allowed, x.identical y = true
  left : ∀ y ∈ f'.allowed, ∃ x ∈ f.allowed, y.identical x = true

theorem SaysSame.symm {f f' : Field} (h : f.SaysSame f') : f'.SaysSame f where
  decoded := h.decoded'
  decoded' := h.decoded
  type name := (h.type name).symm
  options key := by
    rcases (h.options key).none_or_some with ⟨hx, hy⟩ | ⟨x, y, hx, hy, same⟩
    · rw [hx, hy]
      exact .none
    · rw [hx, hy]
      exact .some (Value.same_symm (h.decoded.option hx) (h.decoded'.option hy) same)
  right := h.left
  left := h.right

/-- Two fields that say the same of themselves and of their items. -/
inductive Alike : Field → Field → Prop
  | plain {f f' : Field} (same : f.SaysSame f') (hnone : f.items = none)
      (hnone' : f'.items = none) : Alike f f'
  | array {f f' item item' : Field} (same : f.SaysSame f') (hitem : f.items = some item)
      (hitem' : f'.items = some item') (items : Alike item item') : Alike f f'

theorem Alike.symm {f f' : Field} (h : f.Alike f') : f'.Alike f := by
  induction h with
  | plain same hnone hnone' => exact .plain same.symm hnone' hnone
  | array same hitem hitem' _ ih => exact .array same.symm hitem' hitem ih

theorem Alike.saysSame {f f' : Field} (h : f.Alike f') : f.SaysSame f' := by
  cases h <;> assumption

theorem equalOptions_iff {α : Type} {equal : α → α → Bool} {a b : Option α} :
    equalOptions equal a b = true ↔ Option.Rel (fun x y => equal x y = true) a b := by
  constructor
  · intro h
    cases a <;> cases b
    · exact .none
    · cases h
    · cases h
    · exact .some h
  · intro h
    cases h with
    | none => rfl
    | some h => exact h

theorem same_iff {f f' : Field} : f.same f' = true ↔ f.type.same f'.type = true ∧
    (Value.object f.options).same (.object f'.options) = true ∧
    Option.Rel (fun x y => x.same y = true) f.items f'.items ∧
    f.description.same f'.description = true := by
  rw [← equalOptions_iff]
  obtain ⟨type, options, items, description⟩ := f
  obtain ⟨type', options', items', description'⟩ := f'
  cases items <;> cases items' <;> simp [Field.same, equalOptions, and_assoc]

/-- Equal fields that list the same values with their kinds say the same. The induction is on the
first field. -/
theorem alike_of_same {f f' : Field} (hf : f.Decoded) (hf' : f'.Decoded) (same : f.same f' = true)
    (kinds : f.keepsKinds f' = true) : f.Alike f' := by
  induction hf generalizing f' with
  | @intro f options items ih =>
    obtain ⟨type, sameOptions, sameItems, -⟩ := same_iff.mp same
    obtain ⟨right, left⟩ := listsSame_iff.mp (listsSame_of_keepsKinds kinds)
    have alike : f.SaysSame f' := by
      refine ⟨.intro options items, hf', ?_, Value.rel_find?_of_same options sameOptions, right,
        left⟩
      intro name
      constructor
      · intro named
        rw [named] at type
        exact Value.same_str_iff.mp type
      · intro named
        rw [named] at type
        exact Value.same_of_str_right type
    rcases sameItems.none_or_some with ⟨hnone, hnone'⟩ | ⟨item, item', hitem, hitem', same⟩
    · exact .plain alike hnone hnone'
    · exact .array alike hitem hitem'
        (ih item hitem (hf'.items hitem') same (keepsKinds_items kinds hitem hitem'))

/-! ### Options of equal fields -/

/-- The globs of a list are the texts in it. -/
theorem mem_globs_iff {xs : List Value} {gs : List String}
    (h : (xs.mapM fun g : Value => (match g with
      | .str s => pure s
      | _ => throw .wrongType : Except Fault String)) = .ok gs) {g : String} :
    g ∈ gs ↔ .str g ∈ xs := by
  rw [Except.mem_of_mapM h]
  constructor
  · rintro ⟨x, hx, made⟩
    split at made
    · rw [← Except.ok.inj made]
      exact hx
    · cases made
  · intro hg
    exact ⟨_, hg, rfl⟩

/-- The targets of a union are what the texts in a list stand for. -/
theorem mem_references_iff {nsid : String} {xs : List Value} {targets : List Reference}
    (h : xs.mapM (readReference nsid) = .ok targets) {t : Reference} :
    t ∈ targets ↔ ∃ name, .str name ∈ xs ∧ readReference nsid (.str name) = .ok t := by
  rw [Except.mem_of_mapM h]
  constructor
  · rintro ⟨x, hx, made⟩
    cases x with
    | str name => exact ⟨name, hx, made⟩
    | _ => cases made
  · rintro ⟨name, hx, made⟩
    exact ⟨_, hx, made⟩

theorem exists_blobSchema {f : Field} {c : CompiledField} (hc : f.compileBlob = .ok c) :
    ∃ p, mediaPattern (f.option "accept") = .ok p ∧
      c.schema = blobSchema p (f.option? "maxSize") := by
  obtain ⟨p, hp, hc⟩ := Except.bind_eq_ok_iff.mp hc
  dsimp only at hc
  split at hc
  all_goals
    obtain ⟨accepted, _, hc⟩ := Except.bind_eq_ok_iff.mp hc
    rw [← Except.ok.inj hc]
    exact ⟨p, hp, rfl⟩

variable {f f' : Field} {nsid : String}
  {follow follow' : Reference → Value → Path → Check Unit Value}

namespace SaysSame

section Options

variable (h : f.SaysSame f')

include h

theorem option (key : String) : (f.option key).same (f'.option key) = true := by
  unfold Field.option Entries.getValue
  rcases (h.options key).none_or_some with ⟨hx, hy⟩ | ⟨x, y, hx, hy, same⟩
  · rw [hx, hy]
    exact Value.same_iff.mpr .null
  · rw [hx, hy]
    exact same

theorem option? (key : String) :
    Option.Rel (fun x y => x.same y = true) (f.option? key) (f'.option? key) := by
  have same := h.option key
  unfold Field.option?
  by_cases null : f.option key = .null
  · rw [null, (Value.null_iff_of_same same).mp null]
    exact .none
  · have null' : f'.option key ≠ .null := mt (Value.null_iff_of_same same).mpr null
    have present {v : Value} (hv : v ≠ .null) : v.present? = some v := by
      cases v <;> first | rfl | exact absurd rfl hv
    rw [present null, present null']
    exact .some same

theorem limits (key : String) : Bounds.AlikeLimits (f.option? key) (f'.option? key) := by
  rcases (h.option? key).none_or_some with ⟨hx, hy⟩ | ⟨x, y, hx, hy, same⟩
  · rw [hx, hy]
    exact .none
  · rw [hx, hy]
    exact .some (Value.below?_of_same same)

theorem bounds (lower upper : String) : (f.bounds lower upper).Alike (f'.bounds lower upper) :=
  ⟨h.limits lower, h.limits upper⟩

theorem default_eq_none_iff : f.option? "default" = none ↔ f'.option? "default" = none := by
  rcases (h.option? "default").none_or_some with ⟨hx, hy⟩ | ⟨x, y, hx, hy, -⟩
  · simp only [hx, hy]
  · simp only [hx, hy, reduceCtorEq]

theorem addDefault {s s' : Schema} (upholds : Upholds follow follow' s s') :
    Upholds follow follow' (f.addDefault s) (f'.addDefault s') := by
  unfold Field.addDefault
  rcases (h.option? "default").none_or_some with ⟨hx, hy⟩ | ⟨x, y, hx, hy, -⟩
  · rw [hx, hy]
    exact upholds
  · rw [hx, hy]
    exact upholds.withDefault x y

/-- Equal fields ask for the same format. -/
theorem format {format? format?' : Option Format} (hformat : f.format? = .ok format?)
    (hformat' : f'.format? = .ok format?') : format? = format?' := by
  unfold Field.format? at hformat hformat'
  rcases (h.option? "format").none_or_some with ⟨hx, hy⟩ | ⟨x, y, hx, hy, same⟩
  · rw [hx] at hformat
    rw [hy] at hformat'
    exact Except.ok.inj (hformat.symm.trans hformat')
  · rw [hx] at hformat
    rw [hy] at hformat'
    cases x with
    | str name =>
      rw [Value.same_str_iff.mp same] at hformat'
      exact Except.ok.inj (hformat.symm.trans hformat')
    | _ =>
      dsimp only at hformat
      split_ifs at hformat
      cases hformat

theorem textRules {rules rules' : TextRules} (hrules : f.textRules = .ok rules)
    (hrules' : f'.textRules = .ok rules') : rules.Alike rules' := by
  obtain ⟨format?, hformat, hrules⟩ := Except.bind_eq_ok_iff.mp hrules
  obtain ⟨format?', hformat', hrules'⟩ := Except.bind_eq_ok_iff.mp hrules'
  rw [← Except.ok.inj hrules, ← Except.ok.inj hrules']
  exact ⟨h.format hformat hformat', .none, h.bounds _ _, h.bounds _ _⟩

theorem reference {target target' : Reference}
    (htarget : readReference nsid (f.option "ref") = .ok target)
    (htarget' : readReference nsid (f'.option "ref") = .ok target') : target = target' := by
  have same := h.option "ref"
  cases hx : f.option "ref" with
  | str name =>
    rw [hx] at same htarget
    rw [Value.same_str_iff.mp same] at htarget'
    exact Except.ok.inj (htarget.symm.trans htarget')
  | _ =>
    rw [hx] at htarget
    cases htarget

/-! Fixed values and lists of allowed values -/

/-- A fixed value upholds another one and a list of allowed values another one, as the same values
are listed. -/
theorem fixed {type : String} (htype : f.type = .str type) (counts : type ∈ defaultTypes)
    {fixed fixed' : Option Schema} (hfixed : f.constSchema? = .ok fixed)
    (hfixed' : f'.constSchema? = .ok fixed') :
    Option.Rel (Upholds follow follow') fixed fixed' := by
  have right := h.right
  rw [allowed_eq htype counts, allowed_eq ((h.type type).mp htype) counts] at right
  unfold constSchema? at hfixed hfixed'
  unfold listed at right
  rcases (h.options "const").none_or_some with ⟨hx, hy⟩ | ⟨x, y, hx, hy, -⟩
  · rw [hx] at hfixed
    rw [hy] at hfixed'
    rcases (h.options "enum").none_or_some with ⟨hxs, hys⟩ | ⟨values, values', hxs, hys, -⟩
    · rw [hxs] at hfixed
      rw [hys] at hfixed'
      rw [← Except.ok.inj hfixed, ← Except.ok.inj hfixed']
      exact .none
    · rw [hxs] at hfixed
      rw [hys] at hfixed'
      obtain ⟨xs, elements, hfixed⟩ := Except.bind_eq_ok_iff.mp hfixed
      obtain ⟨ys, elements', hfixed'⟩ := Except.bind_eq_ok_iff.mp hfixed'
      rw [hx, hy, hxs, hys] at right
      dsimp only at right
      rw [elements, elements'] at right
      rw [← Except.ok.inj hfixed, ← Except.ok.inj hfixed']
      refine .some (Schema.upholds_enum ?_)
      intro v hv
      rw [List.any_eq_true] at hv ⊢
      obtain ⟨x, hmem, hvx⟩ := hv
      obtain ⟨y, hmem', hxy⟩ := right x hmem
      have json := ((h.decoded.option hxs).elements elements x hmem).json
      have json' := ((h.decoded'.option hys).elements elements' y hmem').json
      exact ⟨y, hmem', Value.identical_trans json json' hvx hxy⟩
  · rw [hx] at hfixed
    rw [hy] at hfixed'
    rw [hx, hy] at right
    rw [← Except.ok.inj hfixed, ← Except.ok.inj hfixed']
    obtain ⟨_, hmem, hxy⟩ := right x List.mem_cons_self
    rw [List.mem_singleton.mp hmem] at hxy
    refine .some (Schema.upholds_literal ?_)
    intro v hvx
    exact Value.identical_trans (h.decoded.option hx).json (h.decoded'.option hy).json hvx hxy

/-! Media types and references -/

theorem option_decoded (key : String) : (f.option key).Decoded := by
  unfold Field.option Entries.getValue
  cases hx : f.options.find? key with
  | none => exact .of_atom .null nofun nofun nofun
  | some x => exact h.decoded.option hx

/-- The patterns of equal lists of media types take the same texts. -/
theorem mediaPattern {p q : MediaPattern} (hp : Field.mediaPattern (f.option "accept") = .ok p)
    (hq : Field.mediaPattern (f'.option "accept") = .ok q) (t : String) :
    p.accepts t = q.accepts t := by
  have same := h.option "accept"
  have decoded := h.option_decoded "accept"
  unfold Field.mediaPattern at hp hq
  rw [← Value.isTrue_of_same same] at hq
  split_ifs at hp hq
  · obtain ⟨every, hevery, hp⟩ := Except.bind_eq_ok_iff.mp hp
    obtain ⟨every', hevery', hq⟩ := Except.bind_eq_ok_iff.mp hq
    obtain rfl := Value.isElement_of_same decoded same hevery hevery'
    split_ifs at hp hq
    · rw [← Except.ok.inj hp, ← Except.ok.inj hq]
    · obtain ⟨xs, hxs, hp⟩ := Except.bind_eq_ok_iff.mp hp
      obtain ⟨ys, hys, hq⟩ := Except.bind_eq_ok_iff.mp hq
      obtain ⟨gs, hgs, hp⟩ := Except.bind_eq_ok_iff.mp hp
      obtain ⟨gs', hgs', hq⟩ := Except.bind_eq_ok_iff.mp hq
      rw [← Except.ok.inj hp, ← Except.ok.inj hq]
      apply MediaPattern.accepts_globs_congr
      intro g
      rw [mem_globs_iff hgs, mem_globs_iff hgs']
      exact Value.mem_elements_of_same decoded same hxs hys g
  · rw [← Except.ok.inj hp, ← Except.ok.inj hq]

theorem blob {c c' : CompiledField} (hc : f.compileBlob = .ok c) (hc' : f'.compileBlob = .ok c') :
    Upholds follow follow' c.schema c'.schema := by
  obtain ⟨p, hp, made⟩ := exists_blobSchema hc
  obtain ⟨q, hq, made'⟩ := exists_blobSchema hc'
  rw [made, made']
  exact Schema.upholds_blobSchema (h.mediaPattern hp hq) (h.limits "maxSize")

theorem union (refs : ∀ t, Upholds follow follow' (.ref t) (.ref t)) {c c' : CompiledField}
    (hc : f.compileUnion nsid = .ok c) (hc' : f'.compileUnion nsid = .ok c') :
    Upholds follow follow' c.schema c'.schema := by
  obtain ⟨xs, hxs, hc⟩ := Except.bind_eq_ok_iff.mp hc
  obtain ⟨ys, hys, hc'⟩ := Except.bind_eq_ok_iff.mp hc'
  obtain ⟨targets, htargets, hc⟩ := Except.bind_eq_ok_iff.mp hc
  obtain ⟨targets', htargets', hc'⟩ := Except.bind_eq_ok_iff.mp hc'
  rw [← Except.ok.inj hc, ← Except.ok.inj hc']
  apply Schema.upholds_union
  · intro t
    rw [mem_references_iff htargets, mem_references_iff htargets']
    refine exists_congr fun name => and_congr_left' ?_
    rcases (h.options "refs").none_or_some with ⟨hx, hy⟩ | ⟨x, y, hx, hy, same⟩
    · rw [elements, hx] at hxs
      rw [elements, hy] at hys
      rw [Except.ok.inj (hxs.symm.trans hys)]
    · rw [elements, hx] at hxs
      rw [elements, hy] at hys
      exact Value.mem_elements_of_same (h.decoded.option hx) same hxs hys name
  · intro t _
    exact refs t

theorem stringSchema (htype : f.type = .str "string") {s s' : Schema}
    (hs : f.stringSchema = .ok s) (hs' : f'.stringSchema = .ok s') :
    Upholds follow follow' s s' := by
  obtain ⟨fixed, hfixed, hs⟩ := Except.bind_eq_ok_iff.mp hs
  obtain ⟨fixed', hfixed', hs'⟩ := Except.bind_eq_ok_iff.mp hs'
  rcases (h.fixed htype (by decide) hfixed hfixed').none_or_some with
    ⟨rfl, rfl⟩ | ⟨t, t', rfl, rfl, upholds⟩
  · obtain ⟨rules, hrules, hs⟩ := Except.bind_eq_ok_iff.mp hs
    obtain ⟨rules', hrules', hs'⟩ := Except.bind_eq_ok_iff.mp hs'
    rw [← Except.ok.inj hs, ← Except.ok.inj hs']
    exact Schema.upholds_string (h.textRules hrules hrules')
  · rw [← Except.ok.inj hs, ← Except.ok.inj hs']
    exact upholds

/-- Equal fields of a known type other than an array uphold each other. -/
theorem scalar (refs : ∀ t, Upholds follow follow' (.ref t) (.ref t)) {type : String}
    (htype : f.type = .str type) {c c' : CompiledField}
    (hc : f.compileScalar? nsid type = some (.ok c))
    (hc' : f'.compileScalar? nsid type = some (.ok c')) :
    Upholds follow follow' c.schema c'.schema := by
  have fixed {fixed fixed' : Option Schema} {s s' : Schema} (counts : type ∈ defaultTypes)
      (hfixed : f.constSchema? = .ok fixed) (hfixed' : f'.constSchema? = .ok fixed')
      (upholds : Upholds follow follow' s s') :
      Upholds follow follow' (f.addDefault (fixed.getD s)) (f'.addDefault (fixed'.getD s')) := by
    apply h.addDefault
    rcases (h.fixed htype counts hfixed hfixed').none_or_some with
      ⟨rfl, rfl⟩ | ⟨t, t', rfl, rfl, listed⟩
    · exact upholds
    · exact listed
  unfold compileScalar? at hc
  split at hc
  on_goal 10 => cases hc
  all_goals
    replace hc' := Option.some.inj hc'
    replace hc := Option.some.inj hc
  · obtain ⟨s, hs, hc⟩ := Except.bind_eq_ok_iff.mp hc
    obtain ⟨s', hs', hc'⟩ := Except.bind_eq_ok_iff.mp hc'
    obtain ⟨_, _, hc⟩ := Except.bind_eq_ok_iff.mp hc
    obtain ⟨_, _, hc'⟩ := Except.bind_eq_ok_iff.mp hc'
    rw [← Except.ok.inj hc, ← Except.ok.inj hc']
    exact h.addDefault (h.stringSchema htype hs hs')
  · obtain ⟨_, hfixed, hc⟩ := Except.bind_eq_ok_iff.mp hc
    obtain ⟨_, hfixed', hc'⟩ := Except.bind_eq_ok_iff.mp hc'
    rw [← Except.ok.inj hc, ← Except.ok.inj hc']
    exact fixed (by decide) hfixed hfixed' Schema.upholds_boolean
  · obtain ⟨_, hfixed, hc⟩ := Except.bind_eq_ok_iff.mp hc
    obtain ⟨_, hfixed', hc'⟩ := Except.bind_eq_ok_iff.mp hc'
    rw [← Except.ok.inj hc, ← Except.ok.inj hc']
    exact fixed (by decide) hfixed hfixed' (Schema.upholds_integer (h.bounds _ _))
  · exact h.blob hc hc'
  · rw [← Except.ok.inj hc, ← Except.ok.inj hc']
    exact Schema.upholds_bytes (h.bounds _ _)
  · rw [← Except.ok.inj hc, ← Except.ok.inj hc']
    exact Schema.upholds_linkSchema
  · obtain ⟨target, htarget, hc⟩ := Except.bind_eq_ok_iff.mp hc
    obtain ⟨target', htarget', hc'⟩ := Except.bind_eq_ok_iff.mp hc'
    rw [← Except.ok.inj hc, ← Except.ok.inj hc', h.reference htarget htarget']
    exact refs target'
  · exact h.union refs hc hc'
  · rw [← Except.ok.inj hc, ← Except.ok.inj hc']
    exact Schema.upholds_any

end Options

end SaysSame

/-! ### What equal fields compile to -/

theorem compile_cases {strict : Bool} {c : CompiledField}
    (hc : (f.compile nsid strict).outcome = .ok c) :
    (f.type = .str "array" ∧ ∃ item i, f.items = some item ∧
      (item.compile nsid strict).outcome = .ok i ∧
      c.schema = .array i.schema (f.bounds "minLength" "maxLength")) ∨
    (∃ type, f.type = .str type ∧ f.compileScalar? nsid type = some (.ok c)) ∨
    f.type ≠ .str "array" ∧ (∀ type, f.type = .str type → f.compileScalar? nsid type = none) ∧
      c.schema = .noop := by
  have unrecognized {type : Value} (h : (compileUnrecognized type nsid strict).outcome = .ok c) :
      c.schema = .noop := by
    unfold compileUnrecognized at h
    split_ifs at h
    · cases h
    · obtain ⟨_, _, h⟩ := Traced.outcome_bind_eq_ok_iff.mp h
      rw [← Except.ok.inj h]
  revert hc
  fun_cases compile nsid strict f with
  | case1 =>
    intro hc
    cases hc
  | case2 options item description =>
    intro hc
    obtain ⟨i, hi, hc⟩ := Traced.outcome_bind_eq_ok_iff.mp hc
    rw [← Except.ok.inj hc]
    exact .inl ⟨rfl, item, i, rfl, hi, rfl⟩
  | case3 type _ _ _ _ _ result hscalar =>
    intro hc
    have made : result = .ok c := hc
    exact .inr (.inl ⟨type, rfl, made ▸ hscalar⟩)
  | case4 type _ items _ bare full hscalar =>
    intro hc
    refine .inr (.inr ⟨?_, ?_, unrecognized hc⟩)
    · intro array
      cases items with
      | none => exact bare rfl (Value.str.inj array)
      | some item => exact full item rfl (Value.str.inj array)
    · intro name hname
      rw [← Value.str.inj hname, hscalar]
  | case5 type _ _ _ _ _ other =>
    intro hc
    exact .inr (.inr ⟨other "array", fun name hname => absurd hname (other name), unrecognized hc⟩)
  | case6 =>
    intro hc
    cases hc

/-- Whether the type of a field is known depends on its name alone. -/
theorem compileScalar?_eq_none_iff (f f' : Field) (nsid type : String) :
    f.compileScalar? nsid type = none ↔ f'.compileScalar? nsid type = none := by
  unfold compileScalar?
  split <;> simp only [reduceCtorEq]

/-- What equal fields compile to, given this of their items. -/
theorem SaysSame.upholds (h : f.SaysSame f') (refs : ∀ t, Upholds follow follow' (.ref t) (.ref t))
    {strict strict' : Bool} {c c' : CompiledField} (hc : (f.compile nsid strict).outcome = .ok c)
    (hc' : (f'.compile nsid strict').outcome = .ok c')
    (items : ∀ item item' i i', f.items = some item → f'.items = some item' →
      (item.compile nsid strict).outcome = .ok i → (item'.compile nsid strict').outcome = .ok i' →
      Upholds follow follow' i.schema i'.schema) : Upholds follow follow' c.schema c'.schema := by
  rcases compile_cases hc' with ⟨array', item', i', hitem', hi', made'⟩ |
    ⟨type, htype', hscalar'⟩ | ⟨other', unknown', made'⟩
  · rcases compile_cases hc with ⟨_, item, i, hitem, hi, made⟩ | ⟨type, htype, hscalar⟩ | ⟨other, -⟩
    · rw [made, made']
      exact (items item item' i i' hitem hitem' hi hi').array (h.bounds _ _)
    · obtain rfl : type = "array" := Value.str.inj (htype.symm.trans ((h.type _).mpr array'))
      cases hscalar
    · exact absurd ((h.type _).mpr array') other
  · rcases compile_cases hc with ⟨array, -⟩ | ⟨type₀, htype, hscalar⟩ | ⟨-, unknown, -⟩
    · obtain rfl : type = "array" := Value.str.inj (htype'.symm.trans ((h.type _).mp array))
      cases hscalar'
    · obtain rfl := Value.str.inj (htype.symm.trans ((h.type _).mpr htype'))
      exact h.scalar refs htype hscalar hscalar'
    · have absent := unknown type ((h.type _).mpr htype')
      rw [compileScalar?_eq_none_iff f f', hscalar'] at absent
      cases absent
  · rw [made']
    exact Schema.upholds_noop

/-- **Equal fields mean the same.** What a field compiles to refuses nothing that the other accepts.
The induction is on the items. -/
theorem Alike.upholds (h : f.Alike f') (refs : ∀ t, Upholds follow follow' (.ref t) (.ref t))
    {strict strict' : Bool} {c c' : CompiledField} (hc : (f.compile nsid strict).outcome = .ok c)
    (hc' : (f'.compile nsid strict').outcome = .ok c') :
    Upholds follow follow' c.schema c'.schema := by
  induction h generalizing c c' with
  | plain same hnone =>
    apply same.upholds refs hc hc'
    intro item item' i i' hitem
    rw [hnone] at hitem
    cases hitem
  | array same hitem hitem' _ ih =>
    apply same.upholds refs hc hc'
    intro item item' i i' given given' hi hi'
    obtain rfl := Option.some.inj (hitem.symm.trans given)
    obtain rfl := Option.some.inj (hitem'.symm.trans given')
    exact ih hi hi'

/-- Equal fields both have a default, or neither has. -/
theorem SaysSame.default?_eq_none_iff (h : f.SaysSame f') :
    f.default? = none ↔ f'.default? = none := by
  by_cases named : ∃ type, f.type = .str type
  · obtain ⟨type, htype⟩ := named
    unfold Field.default?
    rw [htype, (h.type type).mp htype]
    dsimp only
    split_ifs
    · exact h.default_eq_none_iff
    · rfl
  · have absent {g : Field} (hg : ∀ type, g.type ≠ .str type) : g.default? = none := by
      unfold Field.default?
      split
      · next type htype => exact absurd htype (hg type)
      · rfl
    push Not at named
    have named' : ∀ type, f'.type ≠ .str type := by
      intro type htype'
      exact named type ((h.type type).mpr htype')
    exact iff_of_true (absent named) (absent named')

end Field

end Lexicon
