import Mathlib.Algebra.GroupWithZero.Nat
import Mathlib.Data.List.DropRight
import ScriptLiteral.Listing.Row

/-!
# Where the cells of a row stand

A row is written cell by cell. The width of all columns so far is carried along and tells how far to
indent after a line break; it is never measured on what has been written. That the two agree is the
invariant of this file: the last line always reaches just up to where the next column starts
(`length_lastLine_row`). A cell that fits is filled up to the end of its column, and one that does
not is followed by a line break and an indent up to there.

The main result, `row_aligned`, says where each cell stands and that a row holds nothing else.
-/

namespace ScriptLiteral

/-! ## Last lines -/

/-- The last line of a text. -/
def lastLine (text : List Char) : List Char := text.rtakeWhile (· ≠ '\n')

section LastLine

variable {text more : List Char}

/-- Without a line break the last line goes on. -/
theorem lastLine_append (h : '\n' ∉ more) : lastLine (text ++ more) = lastLine text ++ more := by
  have hall : ∀ c ∈ more.reverse, decide (c ≠ '\n') = true := by
    intro c hc
    refine decide_eq_true ?_
    rintro rfl
    exact h (List.mem_reverse.mp hc)
  rw [lastLine, lastLine, List.rtakeWhile, List.rtakeWhile, List.reverse_append,
    List.takeWhile_append_of_pos hall, List.reverse_append, List.reverse_reverse]

/-- After a line break there is a new one. -/
theorem lastLine_break (h : '\n' ∉ more) : lastLine (text ++ '\n' :: more) = more := by
  have hbreak : lastLine (text ++ ['\n']) = [] := List.rtakeWhile_concat_neg _ _ _ (by decide)
  rw [← List.singleton_append, ← List.append_assoc, lastLine_append h, hbreak, List.nil_append]

theorem not_mem_spaces {n : Nat} : '\n' ∉ spaces n := by
  intro h
  exact absurd (List.eq_of_mem_replicate h) (by decide)

end LastLine

/-! ## Cells -/

namespace Cell

variable {c : Cell} {last : Nat}

/-- A cell overflows if its text is longer than its column is wide, unless that is unbounded. -/
theorem overflows_iff :
    c.overflows = true ↔ c.width ≠ 0 ∧ c.width.natAbs < c.text.length := by
  rw [overflows, justified, length_justify, Bool.and_eq_true, decide_eq_true_eq, decide_eq_true_eq]
  exact and_congr_right fun _ => by omega

/-- What is written for a cell whose column ends at the given place. -/
def written (c : Cell) (last : Nat) : List Char :=
  c.justified ++ if c.overflows then '\n' :: spaces last else []

/-- How a cell stands in a row, if its column ends at the given place. -/
inductive StandsAs (c : Cell) (last : Nat) : List Char → Prop
  /-- on the left of a column that is wide enough, spaces after it -/
  | left {n : Nat} (hw : 0 < c.width) (hn : c.text.length + n = c.width.natAbs) :
      StandsAs c last (c.text ++ spaces n)
  /-- on the right of a column that is wide enough, spaces before it -/
  | right {n : Nat} (hw : c.width < 0) (hn : n + c.text.length = c.width.natAbs) :
      StandsAs c last (spaces n ++ c.text)
  /-- as it is, in a column without bounds -/
  | unbounded (hw : c.width = 0) : StandsAs c last c.text
  /-- as it is, in a column that is not wide enough, and the row goes on in the next line -/
  | wrapped (hw : c.width ≠ 0) (h : c.width.natAbs < c.text.length) :
      StandsAs c last (c.text ++ '\n' :: spaces last)

/-- A text that is as wide as its column is not filled up. -/
theorem justified_of_le (h : c.width.natAbs ≤ c.text.length) : c.justified = c.text := by
  rw [justified, justify, Nat.sub_eq_zero_of_le h]
  split
  · rfl
  · exact List.append_nil _

/-- In a column without bounds a cell is written as it is. -/
theorem written_of_unbounded (hw : c.width = 0) (last : Nat) : c.written last = c.text := by
  have hover : ¬ c.overflows = true := fun h => (overflows_iff.mp h).1 hw
  rw [written, if_neg hover, List.append_nil, justified_of_le (by omega)]

/-- What is written for a cell is one of the four ways to stand in a row. -/
theorem standsAs_written (c : Cell) (last : Nat) : c.StandsAs last (c.written last) := by
  by_cases hw : c.width = 0
  · rw [written_of_unbounded hw]
    exact .unbounded hw
  by_cases hover : c.overflows = true
  · have hlt := (overflows_iff.mp hover).2
    rw [written, if_pos hover, justified_of_le (Nat.le_of_lt hlt)]
    exact .wrapped hw hlt
  · have hfits : c.text.length ≤ c.width.natAbs := by
      rw [overflows_iff] at hover
      omega
    rw [written, if_neg hover, List.append_nil, justified, justify]
    split
    · next hneg => exact .right hneg (by omega)
    · next hle => exact .left (by omega) (by omega)

/-- A cell without a line break in it has none after it is justified. -/
theorem not_mem_justified (h : '\n' ∉ c.text) : '\n' ∉ c.justified := by
  rw [justified, justify]
  split
  · exact fun hmem => (List.mem_append.mp hmem).elim not_mem_spaces h
  · exact fun hmem => (List.mem_append.mp hmem).elim h not_mem_spaces

/-- What is written for a cell holds a line break just if the cell overflows. -/
theorem count_written (h : '\n' ∉ c.text) :
    (c.written last).count '\n' = if c.overflows then 1 else 0 := by
  rw [written, List.count_append, List.count_eq_zero.mpr (not_mem_justified h), Nat.zero_add]
  split
  · rw [List.count_cons_self, List.count_eq_zero.mpr not_mem_spaces]
  · rfl

end Cell

/-! ## Rows -/

/-- The width of all columns of the given cells. -/
def columnsWidth (cells : List Cell) : Nat := (cells.map (·.width.natAbs)).sum

section Rows

variable {c : Cell} {cells : List Cell} {start : Nat}

theorem columnsWidth_cons : columnsWidth (c :: cells) = c.width.natAbs + columnsWidth cells := rfl

theorem columnsWidth_append (as bs : List Cell) :
    columnsWidth (as ++ bs) = columnsWidth as + columnsWidth bs := by
  rw [columnsWidth, List.map_append, List.sum_append]
  rfl

theorem columnsWidth_concat (cells : List Cell) (c : Cell) :
    columnsWidth (cells ++ [c]) = columnsWidth cells + c.width.natAbs :=
  columnsWidth_append cells [c]

theorem rowFrom_cons (start : Nat) (c : Cell) (cells : List Cell) :
    rowFrom start (c :: cells) =
      c.written (start + c.width.natAbs) ++ rowFrom (start + c.width.natAbs) cells := rfl

/-- The cells after some others are written from where the columns of those end. -/
theorem rowFrom_append (start : Nat) (as bs : List Cell) :
    rowFrom start (as ++ bs) = rowFrom start as ++ rowFrom (start + columnsWidth as) bs := by
  induction as generalizing start with
  | nil => rfl
  | cons c as ih =>
    rw [List.cons_append, rowFrom_cons, rowFrom_cons, ih, columnsWidth_cons, List.append_assoc,
      Nat.add_assoc]

/-- One more cell is written after the row of the others. -/
theorem row_concat (cells : List Cell) (c : Cell) :
    row (cells ++ [c]) = row cells ++ c.written (columnsWidth (cells ++ [c])) := by
  rw [row, rowFrom_append, rowFrom_cons, Nat.zero_add, columnsWidth_concat, row]
  exact congrArg _ (List.append_nil _)

/-- **The last line reaches up to the next column**: its length is the width of the columns so far,
whichever cells have overflowed. -/
theorem length_lastLine_row (htext : ∀ c ∈ cells, '\n' ∉ c.text)
    (hwidth : ∀ c ∈ cells, c.width ≠ 0) : (lastLine (row cells)).length = columnsWidth cells := by
  induction cells using List.reverseRecOn with
  | nil => rfl
  | append_singleton cells c ih =>
    rw [List.forall_mem_append, List.forall_mem_singleton] at htext hwidth
    rw [row_concat, Cell.written]
    by_cases hover : c.overflows = true
    · -- a new line, indented up to the end of the column
      rw [if_pos hover, ← List.append_assoc, lastLine_break not_mem_spaces]
      exact List.length_replicate
    · have hfits : c.text.length ≤ c.width.natAbs := by
        rw [Cell.overflows_iff] at hover
        have hne := hwidth.2
        omega
      rw [if_neg hover, List.append_nil, lastLine_append (Cell.not_mem_justified htext.2),
        List.length_append, ih htext.1 hwidth.1, Cell.justified, length_justify,
        Nat.max_eq_right hfits, columnsWidth_concat]

/-- A row has a line break for each cell that overflows. -/
theorem count_rowFrom (htext : ∀ c ∈ cells, '\n' ∉ c.text) :
    (rowFrom start cells).count '\n' = cells.countP Cell.overflows := by
  induction cells generalizing start with
  | nil => rfl
  | cons c cells ih =>
    rw [List.forall_mem_cons] at htext
    rw [rowFrom_cons, List.count_append, Cell.count_written htext.1, ih htext.2, List.countP_cons,
      Nat.add_comm]

end Rows

/-- **Rows are aligned.** Let no cell hold a line break and none but the last be without bounds. In
front of each cell stands the row of the cells before it, and the last line of that row is as long as
their columns are wide together. The cell adds its own text, unaltered and filled up with spaces to
the width of its column, on the side that the sign of the width tells, or followed by a line break
and an indent if the column is too narrow. There are no other line breaks. -/
theorem row_aligned (cells : List Cell) (htext : ∀ c ∈ cells, '\n' ∉ c.text)
    (hwidth : ∀ c ∈ cells.dropLast, c.width ≠ 0) :
    (∀ i c, cells[i]? = some c →
      row cells = row (cells.take i) ++ rowFrom (columnsWidth (cells.take i)) (cells.drop i) ∧
      (lastLine (row (cells.take i))).length = columnsWidth (cells.take i) ∧
      ∃ added, row (cells.take (i + 1)) = row (cells.take i) ++ added ∧
        c.StandsAs (columnsWidth (cells.take (i + 1))) added) ∧
    (row cells).count '\n' =
      cells.countP fun c => c.width ≠ 0 ∧ c.width.natAbs < c.text.length := by
  refine ⟨fun i c hc => ⟨?_, ?_, ?_⟩, ?_⟩
  · have hsplit := rowFrom_append 0 (cells.take i) (cells.drop i)
    rwa [List.take_append_drop, Nat.zero_add] at hsplit
  · -- none of the cells before another one is the last
    obtain ⟨hi, -⟩ := List.getElem?_eq_some_iff.mp hc
    have hbefore : cells.take i = cells.dropLast.take i := by
      rw [List.dropLast_eq_take, List.take_take, Nat.min_eq_left (by omega)]
    refine length_lastLine_row (fun c hc => htext c (List.mem_of_mem_take hc)) fun c hc => ?_
    rw [hbefore] at hc
    exact hwidth c (List.mem_of_mem_take hc)
  · refine ⟨c.written (columnsWidth (cells.take (i + 1))), ?_, c.standsAs_written _⟩
    rw [List.take_add_one, hc]
    exact row_concat (cells.take i) c
  · rw [row, count_rowFrom htext]
    refine List.countP_congr fun c _ => ?_
    rw [Cell.overflows_iff, decide_eq_true_eq]

/-- A cell too wide for its column, one on the right of its own, and one without bounds. -/
theorem row_aligned_overflowing :
    let cells : List Cell := [⟨"abcdef".toList, 4⟩, ⟨"é".toList, -2⟩, ⟨"x".toList, 0⟩]
    (∀ c ∈ cells, '\n' ∉ c.text) ∧ (∀ c ∈ cells.dropLast, c.width ≠ 0) ∧
      (lastLine (row (cells.take 2))).length = 6 ∧ (row cells).count '\n' = 1 := by
  intro cells
  have htext : ∀ c ∈ cells, '\n' ∉ c.text := by decide
  have hwidth : ∀ c ∈ cells.dropLast, c.width ≠ 0 := by decide
  obtain ⟨hcells, hcount⟩ := row_aligned cells htext hwidth
  exact ⟨htext, hwidth, (hcells 2 ⟨"x".toList, 0⟩ rfl).2.1, hcount⟩

end ScriptLiteral
