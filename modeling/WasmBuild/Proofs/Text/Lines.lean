import Mathlib.Data.List.Infix
import WasmBuild.Text.Basic

/-!
# Words and the lines that they stand on

The line that a word stands on is counted by the newlines before the word, whichever way the lines
of the text end.
-/
namespace WasmBuild.Text

theorem splitNewlines_ne_nil (text : List Char) : splitNewlines text ≠ [] := by
  cases text with
  | nil => simp [splitNewlines]
  | cons c rest =>
      simp only [splitNewlines]
      split
      · simp
      · split <;> simp

/-- Characters that are no newlines lengthen the first piece. -/
theorem splitNewlines_append {word : List Char} (single : '\n' ∉ word) (after : List Char) :
    ∃ piece more, splitNewlines (word ++ after) = (word ++ piece) :: more := by
  induction word with
  | nil => exact List.exists_cons_of_ne_nil (splitNewlines_ne_nil after)
  | cons c word ih =>
      rw [List.mem_cons, not_or] at single
      obtain ⟨piece, more, split⟩ := ih single.2
      exact ⟨piece, more, by simp [splitNewlines, Ne.symm single.1, split]⟩

/-- A word lies within the piece that as many newlines come before as before the word. -/
theorem exists_piece_of_word (before : List Char) {word : List Char} (single : '\n' ∉ word)
    (after : List Char) :
    ∃ piece, (splitNewlines (before ++ (word ++ after)))[before.count '\n']? = some piece ∧
      word <:+: piece := by
  induction before with
  | nil =>
      obtain ⟨piece, more, split⟩ := splitNewlines_append single after
      exact ⟨word ++ piece, by simp [split], (List.prefix_append word piece).isInfix⟩
  | cons c before ih =>
      obtain ⟨piece, found, inside⟩ := ih
      by_cases newline : c = '\n'
      · exact ⟨piece, by simpa [splitNewlines, newline] using found, inside⟩
      · obtain ⟨line, more, split⟩ :=
          List.exists_cons_of_ne_nil (splitNewlines_ne_nil (before ++ (word ++ after)))
        rw [split] at found
        rw [List.cons_append, List.count_cons_of_ne newline]
        cases count : before.count '\n' with
        | zero =>
            obtain rfl : line = piece := by simpa [count] using found
            exact ⟨c :: line, by simp [splitNewlines, newline, split],
              List.infix_cons inside⟩
        | succ n =>
            rw [count] at found
            exact ⟨piece, by simpa [splitNewlines, newline, split] using found, inside⟩

/-- A piece that is not empty is a line, perhaps less a carriage return at its end. -/
theorem exists_line_of_piece {pieces : List (List Char)} {n : Nat} {piece : List Char}
    (found : pieces[n]? = some piece) (notEmpty : piece ≠ []) :
    (linesOfPieces pieces)[n]? = some piece ∨
      (linesOfPieces pieces)[n]? = some (dropReturn piece) := by
  induction pieces generalizing n with
  | nil => simp at found
  | cons first more ih =>
      cases more with
      | nil =>
          obtain ⟨rfl, rfl⟩ : n = 0 ∧ first = piece := by
            cases n with
            | zero => exact ⟨rfl, by simpa using found⟩
            | succ n => simp at found
          simp [linesOfPieces, notEmpty]
      | cons second more =>
          cases n with
          | zero =>
              obtain rfl : first = piece := by simpa using found
              exact .inr rfl
          | succ n => exact ih (n := n) (by simpa using found)

/-- A word without carriage returns stays within a line that loses the one at its end. -/
theorem infix_dropReturn {word line : List Char} (inside : word <:+: line)
    (noReturn : '\r' ∉ word) : word <:+: dropReturn line := by
  unfold dropReturn
  split
  · next ends =>
      obtain ⟨init, rfl⟩ := List.getLast?_eq_some_iff.1 ends
      rw [List.dropLast_concat]
      obtain ⟨before, after, split⟩ := inside
      rcases List.eq_nil_or_concat after with rfl | ⟨others, last, rfl⟩
      · rcases List.eq_nil_or_concat word with rfl | ⟨front, last, rfl⟩
        · exact List.nil_infix
        · have same : last = '\r' := by simpa using congrArg List.getLast? split
          simp [same] at noReturn
      · rw [List.concat_eq_append, ← List.append_assoc] at split
        exact ⟨before, others, (List.append_inj_left' split rfl)⟩
  · exact inside

/-- A word without line ends lies within the line that as many newlines come before as before the
word. -/
theorem exists_line_of_word (before : List Char) {word : List Char} (notEmpty : word ≠ [])
    (single : '\n' ∉ word) (noReturn : '\r' ∉ word) (after : List Char) :
    ∃ line, (lines (before ++ (word ++ after)))[before.count '\n']? = some line ∧
      word <:+: line := by
  obtain ⟨piece, found, inside⟩ := exists_piece_of_word before single after
  have full : piece ≠ [] := by
    rintro rfl
    exact notEmpty (List.infix_nil.1 inside)
  rcases exists_line_of_piece found full with same | shorter
  · exact ⟨piece, same, inside⟩
  · exact ⟨dropReturn piece, shorter, infix_dropReturn inside noReturn⟩

end WasmBuild.Text
