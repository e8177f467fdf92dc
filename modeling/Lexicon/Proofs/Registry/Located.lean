import Lexicon.Proofs.Check.Located
import Lexicon.Proofs.Registry.Stability

/-!
# Where a registry reports failures

References are followed at the place of the value that has them, so what lies behind a reference
reports its failures as if it stood there itself. Main statement: a failure that a registry reports
of a value is located in the value, with all the failures that it carries, and a check that begins
at another path reports the same failures under that path.
-/

namespace Lexicon

/-- What a reference does with a value is located in the value, whatever follows behind it. -/
theorem Lookup.located_follow {look : Lookup} (proper : ∀ t, NoFailure (look t)) (steps : Nat)
    (target : Reference) (v : Value) (hd : v.DistinctKeys) :
    Check.Located v (look.follow steps target v) := by
  induction steps generalizing target v with
  | zero => exact .throw nofun
  | succ steps ih =>
    refine .bind (.of_noFailure (proper target)) fun d => ?_
    exact Schema.located_checkWith d.schema v hd (fun t => ih t v hd) fun x _ hx t => ih t x hx

namespace Registry

/-- What a registry makes of a value at a path it makes of it alone, but for the places of the
failures. -/
theorem normalized_reported (env : Surroundings) (r : Registry) (schema : Schema) {v : Value}
    (distinct : v.DistinctKeys) (path : Path) :
    r.normalized env schema v path = Check.reported path (r.normalized env schema v []) := by
  obtain ⟨outcome, reports, -⟩ := Schema.located_checkWith schema v distinct
    (fun t => Lookup.located_follow (noFailure_meaning env r) (r.stepBound env v) t v distinct)
    fun x _ hx t => Lookup.located_follow (noFailure_meaning env r) _ t x hx
  rw [normalized, normalized, reports, reports, Check.reported_nil]

/-- **Failures address the value.** Of a value with distinct keys, a failure that a registry reports
stands in the value and so do the failures that it carries, each below the one that carries it. The
same check at a path `p` ends with the same failure, with `p` before all of its paths. -/
theorem verdict_failure_located (env : Surroundings) (schema : Schema) {v : Value}
    (distinct : v.DistinctKeys) {store : Store} {f : Failure}
    (failed : ((verdict env schema v).run store).1 = .ok (.error f)) :
    f.LocatedIn v ∧ ∀ p : Path,
      ((schema.checkWith (follow env (store.registry.stepBound env v)) v p).run store).1 =
        .error (.invalid (f.under p)) := by
  have proper (t : Reference) : NoFailure (store.registry.meaning env t) :=
    noFailure_meaning env store.registry t
  obtain ⟨outcome, reports, located⟩ := Schema.located_checkWith schema v distinct
    (fun t => Lookup.located_follow proper (store.registry.stepBound env v) t v distinct)
    fun x _ hx t => Lookup.located_follow proper _ t x hx
  have whole : outcome = .error (.invalid f) := by
    rw [fst_run_verdict, normalized, reports, Check.reported_nil] at failed
    rcases outcome with e | n
    · cases e with
      | invalid g => simpa [verdictOf] using failed
      | _ => simp [verdictOf] at failed
    · simp [verdictOf] at failed
  refine ⟨located f whole, fun p => ?_⟩
  rw [(rel_checkWith_follow env store.registry _ schema v p store rfl).1, reports, whole,
    Check.reported_invalid]

/-- The second item has no entry that the only alternative asks for. -/
theorem verdict_failure_located_item :
    let items : List Value := [.object [("a", .bool true)], .object []]
    let schema : Schema :=
      .array (.anyOf [.object [("a", .required .boolean)] none false] "thing") {}
    let store : Store := ⟨{ id := 0, sources := [], strict := none }, []⟩
    let found : Failure :=
      ⟨[.index 1], .noAlternative "thing" 1 (some ([.index 1, .key "a"], .missing))⟩
    ((verdict {} schema (.list items)).run store).1 = .ok (.error found) ∧
      found.LocatedIn (.list items) ∧ ∀ p : Path,
        ((schema.checkWith (follow {} (store.registry.stepBound {} (.list items))) (.list items)
          p).run store).1 = .error (.invalid (found.under p)) := by
  intro items schema store found
  have failed : ((verdict {} schema (.list items)).run store).1 = .ok (.error found) := rfl
  have distinct : (Value.list items).DistinctKeys := by
    refine .of_items fun x hx => ?_
    simp only [items, List.mem_cons, List.not_mem_nil, or_false] at hx
    rcases hx with rfl | rfl
    · refine .of_entries (by decide) fun e he => ?_
      simp only [List.mem_cons, List.not_mem_nil, or_false] at he
      subst he
      exact .of_atom nofun nofun nofun
    · exact .of_entries (by decide) nofun
  exact ⟨failed, verdict_failure_located {} schema distinct failed⟩

end Registry

end Lexicon
