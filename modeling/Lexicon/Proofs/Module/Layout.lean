import Lexicon.Module.Layout
import Lexicon.Proofs.Value.Literal

/-!
# Layout keeps the value

Wherever lines are broken and texts are cut, the layout of a value stands for that value.
-/

namespace Lexicon.Layout

open Lexicon.Literal

/-! ### Cutting texts -/

theorem flatten_words (inGap : Bool) (cs : List Char) : (words inGap cs).flatten = cs := by
  induction cs generalizing inGap with
  | nil => rfl
  | cons c cs ih =>
    unfold words
    split_ifs
    · have rest := ih false
      cases hws : words false cs <;> rw [hws] at rest <;> simp [← rest]
    · have rest := ih (Text.isBlank c)
      cases hws : words (Text.isBlank c) cs <;> rw [hws] at rest <;> simp [← rest]

theorem flatten_fill (width lastWidth : ℤ) (current : List Char) (ws : List (List Char)) :
    (fill width lastWidth current ws).flatten = current ++ ws.flatten := by
  induction ws generalizing current with
  | nil => cases current <;> simp [fill]
  | cons w ws ih =>
    unfold fill
    dsimp only
    generalize (if ws.isEmpty then lastWidth else width) = limit
    split_ifs with exceeds empty
    · rw [ih, List.isEmpty_iff.mp empty, List.nil_append, List.flatten_cons]
    · rw [List.flatten_cons, ih, List.flatten_cons]
    · rw [ih, List.append_assoc, List.flatten_cons]

/-- The pieces of lines make up the lines. -/
theorem flatten_pieces (width room : ℤ) (lines : List (List Char)) :
    (pieces width room lines).flatten = lines.flatten := by
  induction lines with
  | nil => rfl
  | cons line lines ih =>
    simp only [pieces]
    split_ifs <;> simp [ih, flatten_fill, flatten_words]

theorem isGap_newLine (indent : ℕ) : IsGap (newLine indent).toList := by
  simp [IsGap, newLine, isGap]

theorem newLine_ne_nil (indent : ℕ) : (newLine indent).toList ≠ [] := by
  simp [newLine]

/-- A text is laid out as texts that make it up. -/
theorem reads_layOutText (indent room : ℕ) (s : String) :
    Reads (layOutText indent room s).toList (.str s) := by
  have whole := flatten_pieces (width - indent) room (Text.linesWithBreaks s.toList)
  rw [Text.flatten_linesWithBreaks] at whole
  simp only [layOutText]
  generalize pieces (width - indent) room (Text.linesWithBreaks s.toList) = ps at whole
  match ps with
  | [] | [_] => exact reads_quoted s
  | p :: q :: ps =>
    have several : p :: q :: ps ≠ [] := by simp
    have read := reads_text (isGap_newLine indent) (newLine_ne_nil indent) several
    rw [whole, String.ofList_toList] at read
    simpa [Function.comp_def, Text.quoted] using read

/-! ### Lists and objects -/

theorem reads_layOutItems {items : List Value}
    (h : ∀ x ∈ items, ∀ indent room, Reads (layOut indent room x).toList x) (indent room : ℕ) :
    List.Forall₂ Reads ((layOutItems indent room items).map String.toList) items := by
  match items with
  | [] => exact .nil
  | [x] => exact .cons (h x (by simp) indent room) .nil
  | x :: y :: rest =>
    refine .cons (h x (by simp) indent 1) ?_
    exact reads_layOutItems (fun x hx => h x (List.mem_cons_of_mem _ hx)) indent room

theorem reads_layOutEntries {es : List (String × Value)}
    (h : ∀ e ∈ es, ∀ indent room, Reads (layOut indent room e.2).toList e.2) (indent room : ℕ) :
    List.Forall₂ ReadsEntry ((layOutEntries indent room es).map String.toList) es := by
  match es with
  | [] => exact .nil
  | [(k, x)] => exact .cons (Value.readsEntry (h (k, x) (by simp) _ room)) .nil
  | (k, x) :: y :: rest =>
    refine .cons (Value.readsEntry (h (k, x) (by simp) _ 1)) ?_
    exact reads_layOutEntries (fun e he => h e (List.mem_cons_of_mem _ he)) indent room

/-- The layout of a value stands for the value. -/
theorem reads_layOut {v : Value} (h : v.HasLiteral) (indent room : ℕ) :
    Reads (layOut indent room v).toList v := by
  induction h generalizing indent room with
  | null | bool _ | int _ | float _ =>
    rw [layOut, ite_self]
    · exact Value.HasLiteral.reads (by constructor <;> assumption)
    all_goals simp
  | str s =>
    rw [layOut]
    split_ifs
    · exact reads_quoted s
    · exact reads_layOutText indent room s
  | @list items h ih =>
    have whole := (Value.HasLiteral.list h).reads
    match items with
    | [] =>
      rw [layOut, ite_self]
      · exact whole
      all_goals simp
    | x :: xs =>
      have parts := reads_layOutItems ih (indent + 1) (room + 1)
      have read := reads_list (isGap_newLine (indent + 1)) parts
      rw [layOut]
      split_ifs
      · exact whole
      · simpa [bracket] using read
  | @object es keys h ih =>
    have whole := (Value.HasLiteral.object keys h).reads
    match es with
    | [] =>
      rw [layOut, ite_self]
      · exact whole
      all_goals simp
    | e :: es =>
      have parts := reads_layOutEntries ih (indent + 1) (room + 1)
      have read := reads_object (isGap_newLine (indent + 1)) keys parts
      rw [layOut]
      split_ifs
      · exact whole
      · simpa [bracket] using read

/-- The layout of an object begins with a brace. -/
theorem head?_layOut_object (indent room : ℕ) (es : Entries Value) :
    (layOut indent room (.object es)).toList.head? = some '\x7b' := by
  have whole : (Value.object es).literal.toList.head? = some '\x7b' := by
    simp [Value.literal]
  cases es with
  | nil =>
    rw [layOut, ite_self]
    · exact whole
    all_goals simp
  | cons e es =>
    rw [layOut]
    split_ifs
    · exact whole
    · simp [bracket]

end Lexicon.Layout
