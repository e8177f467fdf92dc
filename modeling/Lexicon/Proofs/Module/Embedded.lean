import Lexicon.Module.Render
import Lexicon.Proofs.Document.Reading
import Lexicon.Proofs.Module.Layout

/-!
# Modules hold their documents

The module of a bundle registers the document from a literal. Main statement: the literal is read as
what the document was read from, if every number in it is finite.
-/

namespace Lexicon

namespace Module

/-- The module of a bundle holds a value: what stands after `LEXICON = `, as far as the blank line
before `_BUNDLE`, is a literal that is read as the value. -/
def Holds (b : Bundle) (v : Value) : Prop :=
  ∃ literal rest, render b =
      summary b.document ++ "\n\n" ++ headerStart ++ literal ++ headerEnd ++ rest ∧
    Literal.read? literal.toList = some v

theorem exists_dropFinalBlanks (s u : String) : ∃ rest,
    String.ofList (Text.dropFinalBlanks (s ++ headerEnd ++ u).toList) = s ++ headerEnd ++ rest := by
  have last : headerEnd.toList = headerEnd.toList.dropLast ++ [')'] := by decide +kernel
  refine ⟨String.ofList (Text.dropEndWhile Text.isBlank u.toList), String.toList_inj.mp ?_⟩
  have kept := Text.dropEndWhile_append (s.toList ++ headerEnd.toList.dropLast)
    (show Text.isBlank ')' = false from rfl) u.toList
  rw [String.toList_ofList, Text.dropFinalBlanks]
  simp only [String.toList_append, String.toList_ofList]
  rw [last]
  simpa using kept

theorem exists_intercalate (sep t : String) (ts : List String) :
    ∃ u, sep.intercalate (t :: ts) = t ++ u := by
  cases ts with
  | nil => exact ⟨"", by simp⟩
  | cons t' ts => exact ⟨_, by rw [String.intercalate_cons_cons, String.append_assoc]⟩

/-- The literal of the document stands between the two parts of the header. -/
theorem exists_render (b : Bundle) : ∃ rest, render b = summary b.document ++ "\n\n" ++
    headerStart ++ Layout.layOut 0 0 b.document.source ++ headerEnd ++ rest := by
  unfold render
  dsimp only
  rw [List.append_assoc, List.cons_append, List.singleton_append, String.intercalate_cons_cons]
  generalize (List.filterMap _ b.definitions ++ _ : List String) = parts
  obtain ⟨u, hu⟩ := exists_intercalate "\n\n"
    (headerStart ++ Layout.layOut 0 0 b.document.source ++ headerEnd) parts
  obtain ⟨rest, hrest⟩ := exists_dropFinalBlanks (summary b.document ++ "\n\n" ++ headerStart ++
    Layout.layOut 0 0 b.document.source) u
  refine ⟨rest ++ "\n", ?_⟩
  rw [hu]
  simp only [← String.append_assoc] at hrest ⊢
  rw [hrest]

end Module

/-- The module of a compiled document holds the very value that the document was read from, with its
keys in their order. -/
theorem Bundle.render_holds (b : Bundle) {v : Value}
    (accepted : Document.ofValue v = .ok b.document) (decoded : v.Decoded)
    (finite : v.FiniteNumbers) : Module.Holds b v := by
  obtain ⟨rest, text⟩ := Module.exists_render b
  rw [Document.source_of_ofValue accepted] at text
  have stands := Layout.reads_layOut (decoded.hasLiteral finite) 0 0
  refine ⟨_, rest, text, Literal.read?_of_reads stands ?_⟩
  cases v with
  | object es =>
    rw [Layout.head?_layOut_object]
    rintro _ ⟨⟩
    decide
  | _ => simp [Document.ofValue] at accepted

/-- The text of a document with an entry that no document needs. -/
def noteText (weight : String) : List Char :=
  ("\x7b\"lexicon\":1,\"id\":\"com.example.note\",\"defs\":\x7b\x7d,\"weight\":" ++ weight ++
    "\x7d").toList

/-- What such a text is read as. -/
def noteDocument (weight : Binary64) : Value :=
  .object [("lexicon", .int 1), ("id", .str "com.example.note"), ("defs", .object []),
    ("weight", .float weight)]

/-- A note that weighs one and a half. -/
theorem Bundle.render_holds_note :
    let v := noteDocument (.ofDecimal false 15 (-1))
    Json.read (noteText "1.5") = .ok v ∧ v.Decoded ∧ v.FiniteNumbers ∧
      ∃ b : Bundle, Document.ofValue v = .ok b.document ∧ Module.Holds b v := by
  intro v
  have read : Json.read (noteText "1.5") = .ok v := rfl
  have decoded := Json.decoded_of_read read
  have finite : v.FiniteNumbers := by
    refine .of_entries ?_
    simp only [List.forall_mem_cons]
    refine ⟨.of_atom nofun nofun nofun nofun, .of_atom nofun nofun nofun nofun, .of_entries nofun,
      .of_atom nofun nofun nofun ?_, nofun⟩
    rintro _ ⟨⟩
    decide +kernel
  have evaluated : (Document.ofValue v).toOption.isSome = true := by decide +kernel
  obtain ⟨d, hd⟩ := Option.isSome_iff_exists.mp evaluated
  have accepted := Except.eq_ok_of_toOption_eq_some hd
  let b : Bundle := { id := .loose 0, document := d, definitions := [], registry := 0 }
  exact ⟨read, decoded, finite, b, accepted, Bundle.render_holds b accepted decoded finite⟩

/-- The literal of a note whose weight is infinite. -/
def infiniteNote : List Char :=
  "\x7b'lexicon': 1, 'id': 'com.example.note', 'defs': \x7b\x7d, 'weight': inf\x7d".toList

/-- Nothing that begins like the literal of an infinite note is read. -/
theorem read?_infiniteNote_append (rest : List Char) :
    Literal.read? (infiniteNote ++ rest) = none :=
  rfl

theorem read?_infiniteNote_take :
    ∀ n ≤ infiniteNote.length, (Literal.read? (infiniteNote.take n)).isNone = true := by
  decide +kernel

/-- The module of a note with too great a weight holds no literal of it: the weight is read as
infinite, and what is infinite is written as a word that stands for nothing. -/
theorem Bundle.not_holds_infinite :
    let v := noteDocument (.infinity false)
    Json.read (noteText "1e999") = .ok v ∧ v.Decoded ∧ (∃ d, Document.ofValue v = .ok d) ∧
      ∀ b : Bundle, Document.ofValue v = .ok b.document → ¬ Module.Holds b v := by
  intro v
  have read : Json.read (noteText "1e999") = .ok v := rfl
  have evaluated : (Document.ofValue v).toOption.isSome = true := by decide +kernel
  obtain ⟨d, hd⟩ := Option.isSome_iff_exists.mp evaluated
  refine ⟨read, Json.decoded_of_read read, ⟨d, Except.eq_ok_of_toOption_eq_some hd⟩, ?_⟩
  rintro b accepted ⟨literal, rest, text, read⟩
  obtain ⟨rest', text'⟩ := Module.exists_render b
  have laidOut : (Layout.layOut 0 0 v).toList = infiniteNote := by decide +kernel
  rw [text', Document.source_of_ofValue accepted] at text
  simp only [String.append_assoc, ← String.toList_inj, String.toList_append,
    List.append_cancel_left_eq, laidOut] at text
  rcases List.append_eq_append_iff.mp text with ⟨more, longer, -⟩ | ⟨more, shorter, -⟩
  · rw [longer, read?_infiniteNote_append] at read
    cases read
  · have short := read?_infiniteNote_take literal.toList.length (by simp [shorter])
    rw [shorter, List.take_left, read] at short
    cases short

end Lexicon
