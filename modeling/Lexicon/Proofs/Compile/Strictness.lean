import Lexicon.Compile.Bundle
import Lexicon.Proofs.Compile.Field

/-!
# Strictness

Types that are not known are refused or taken for types of any value. Main statement: this decides
only whether a document compiles, and not to what.
-/

namespace Lexicon

/-- What one computation gives another one gives as well. -/
def Traced.Within {α : Type} (t t' : Traced α) : Prop :=
  ∀ a, t.outcome = .ok a → t'.outcome = .ok a

namespace Traced.Within

variable {α β : Type}

theorem refl (t : Traced α) : t.Within t := fun _ h => h

theorem fault (e : Fault) (t : Traced α) : (Traced.fault e).Within t := nofun

theorem bind {t t' : Traced α} {f f' : α → Traced β} (h : t.Within t')
    (hf : ∀ a, (f a).Within (f' a)) : (t >>= f).Within (t' >>= f') := by
  intro b hb
  obtain ⟨a, ha, hb⟩ := outcome_bind_eq_ok_iff.mp hb
  exact outcome_bind_eq_ok_iff.mpr ⟨a, h a ha, hf a b hb⟩

theorem mapM {f f' : α → Traced β} (h : ∀ a, (f a).Within (f' a)) (xs : List α) :
    (xs.mapM f).Within (xs.mapM f') := by
  induction xs with
  | nil => exact refl _
  | cons x xs ih =>
    rw [List.mapM_cons, List.mapM_cons]
    exact (h x).bind fun _ => ih.bind fun _ => refl _

/-- What can be done strictly or not ends well in one way at most, if what it does strictly it does
in any case. -/
theorem unique {t : Bool → Traced α} (h : ∀ strict, (t true).Within (t strict))
    {strict strict' : Bool} {a b : α} (ha : (t strict).outcome = .ok a)
    (hb : (t strict').outcome = .ok b) : b = a := by
  have lenient {strict : Bool} {a : α} (ha : (t strict).outcome = .ok a) :
      (t false).outcome = .ok a := by
    cases strict with
    | true => exact h false a ha
    | false => exact ha
  exact Except.ok.inj ((lenient hb).symm.trans (lenient ha))

end Traced.Within

open Traced (Within)

variable (nsid : String) (strict : Bool)

theorem Field.within_compile (f : Field) :
    Within (f.compile nsid true) (f.compile nsid strict) := by
  fun_induction compile nsid strict f with
  | case1 => exact .fault _ _
  | case2 options items description ih =>
    rw [compile]
    exact ih.bind fun _ => .refl _
  | case3 _ _ _ _ bare filled result known =>
    rw [compile, known]
    · exact .refl _
    · exact bare
    · exact filled
  | case4 _ _ _ _ bare filled unknown =>
    rw [compile, unknown]
    · exact .fault _ _
    · exact bare
    · exact filled
  | case5 _ _ _ _ bare filled other key =>
    rw [compile, if_pos key]
    · exact .fault _ _
    · exact bare
    · exact filled
    · exact other
  | case6 _ _ _ _ bare filled other key =>
    rw [compile, if_neg key]
    · exact .fault _ _
    · exact bare
    · exact filled
    · exact other

variable {nsid} in
theorem Field.compile_unique {f : Field} {strict strict' : Bool} {i i' : CompiledField}
    (h : (f.compile nsid strict).outcome = .ok i) (h' : (f.compile nsid strict').outcome = .ok i') :
    i' = i :=
  Within.unique (t := fun strict => f.compile nsid strict) (f.within_compile nsid) h h'

namespace Definition

theorem within_compileProperty (body : ObjectBody) (name : String) (field : Field) :
    Within (compileProperty nsid true body name field)
      (compileProperty nsid strict body name field) :=
  (field.within_compile nsid strict).bind fun _ => .refl _

theorem within_compileObject (key className : String) (body : ObjectBody)
    (typeName : Option String) (brand : Entries Field) (description : Value) :
    Within (compileObject nsid key className true body typeName brand description)
      (compileObject nsid key className strict body typeName brand description) := by
  refine (Within.refl _).bind fun _ => (Within.refl _).bind fun _ => ?_
  exact (Within.mapM (fun e : String × Field =>
    within_compileProperty nsid strict body e.1 e.2) _).bind fun _ => .refl _

theorem within_compilePart (key : String) (schema : BodySchema) (description : Value) :
    Within (compilePart nsid key true schema description)
      (compilePart nsid key strict schema description) := by
  cases schema with
  | object body => exact within_compileObject nsid strict key _ body none [] .null
  | field f => exact (f.within_compile nsid strict).bind fun _ => .refl _

theorem within_compileCall (key className : String) (d : Definition) (call : Call) :
    Within (compileCall nsid key className true d call)
      (compileCall nsid key className strict d call) :=
  (Within.mapM (fun p : String × BodySchema × Value =>
    within_compilePart nsid strict p.1 p.2.1 p.2.2) _).bind fun _ => .refl _

theorem within_compile (key className : String) (d : Definition) :
    Within (d.compile nsid key className true) (d.compile nsid key className strict) := by
  cases d with
  | record body _ description =>
    exact (within_compileObject nsid strict key className body _ _ description).bind
      fun _ => .refl _
  | object body =>
    exact (within_compileObject nsid strict key className body _ _ _).bind fun _ => .refl _
  | query call output => exact within_compileCall nsid strict key className _ call
  | procedure call input output => exact within_compileCall nsid strict key className _ call
  | subscription call message => exact within_compileCall nsid strict key className _ call
  | token description => exact .refl _
  | field f => exact (f.within_compile nsid strict).bind fun _ => .refl _

end Definition

namespace Document

theorem within_compileDefinitions (d : Document) (definitions : Entries Definition)
    (done : Entries CompiledDefinition) :
    Within (d.compileDefinitions true done definitions)
      (d.compileDefinitions strict done definitions) := by
  induction definitions generalizing done with
  | nil => exact .refl _
  | cons e rest ih =>
    refine (Definition.within_compile d.id strict e.1 (d.classNameOf e.1) e.2).bind fun _ => ?_
    exact (Within.refl _).bind ih

theorem within_compileAll (d : Document) : Within (d.compileAll true) (d.compileAll strict) :=
  (Within.refl _).bind fun _ => d.within_compileDefinitions strict d.definitions []

/-- A document compiles to one thing at most, however strictly unknown types are treated. -/
theorem compileAll_unique {d : Document} {strict strict' : Bool}
    {definitions definitions' : Entries CompiledDefinition}
    (h : (d.compileAll strict).outcome = .ok definitions)
    (h' : (d.compileAll strict').outcome = .ok definitions') : definitions' = definitions :=
  Within.unique (t := d.compileAll) (within_compileAll · d) h h'

end Document

end Lexicon
