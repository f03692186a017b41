import Mathlib.Algebra.GroupWithZero.Nat
import Mathlib.Order.MinMax
import Mathlib.Order.Nat
import ScriptLiteral.Span

/-!
# Spans on one line

The end of a span on one line is found by moving the counters of its start on, each held at its
greatest value. `Position.advance` says so in natural numbers, and `Position.advanceWord` in machine
words. There the number of bytes is as wide as an offset. It is narrowed to the width of a column
before it is added to one, and may be held at the greatest value by either step. What comes of it is
the same position (`Position.advanceWord_eq`).

Positions are in order if their counters are, one by one. To move on never leads back, and to move
on twice is to move on by the sum (`Position.le_advance`, `Position.advance_advance`). The main
result, `Span.onLine_composes`, says so of spans, and how long they are.
-/

namespace ScriptLiteral

/-! ## Counters -/

namespace Counter

variable {v w : ℕ}

/-- A number of `w` bits in `v` bits, held at the greatest value of these. -/
def narrowed (v : ℕ) (n : BitVec w) : BitVec v :=
  if n.toNat ≤ (BitVec.allOnes v).toNat then n.setWidth v else BitVec.allOnes v

/-- A counter after so many more, held at its greatest value. -/
def moved (c n : BitVec v) : BitVec v := if c.uaddOverflow n then BitVec.allOnes v else c + n

theorem toNat_narrowed (n : BitVec w) : (narrowed v n).toNat = min n.toNat (2 ^ v - 1) := by
  rw [narrowed, BitVec.toNat_allOnes]
  have hpos : 0 < 2 ^ v := Nat.two_pow_pos v
  split
  · next h => rw [BitVec.toNat_setWidth, Nat.mod_eq_of_lt (by omega), min_eq_left h]
  · next h => rw [BitVec.toNat_allOnes, min_eq_right (by omega)]

theorem toNat_moved (c n : BitVec v) :
    (moved c n).toNat = min (c.toNat + n.toNat) (2 ^ v - 1) := by
  have hexact : c.uaddOverflow n ↔ 2 ^ v ≤ c.toNat + n.toNat := decide_eq_true_iff
  rw [moved]
  split
  · next h =>
    have hsum := hexact.mp h
    rw [BitVec.toNat_allOnes, min_eq_right (by omega)]
  · next h =>
    have hsum := mt hexact.mpr h
    rw [BitVec.toNat_add_of_not_uaddOverflow h, min_eq_left (by omega)]

end Counter

/-! ## Positions -/

namespace Position

variable {p q : Position} {m n : ℕ}

/-- One position is at or before another if its line, its column and its offset all are. -/
instance : PartialOrder Position where
  le p q := p.line ≤ q.line ∧ p.column ≤ q.column ∧ p.offset ≤ q.offset
  le_refl p := ⟨UInt32.le_refl _, UInt32.le_refl _, UInt64.le_refl _⟩
  le_trans _ _ _ h₁ h₂ :=
    ⟨UInt32.le_trans h₁.1 h₂.1, UInt32.le_trans h₁.2.1 h₂.2.1, UInt64.le_trans h₁.2.2 h₂.2.2⟩
  le_antisymm _ _ h₁ h₂ := Position.ext (UInt32.le_antisymm h₁.1 h₂.1)
    (UInt32.le_antisymm h₁.2.1 h₂.2.1) (UInt64.le_antisymm h₁.2.2 h₂.2.2)

theorem le_iff : p ≤ q ↔
    p.line ≤ q.line ∧ p.column.toNat ≤ q.column.toNat ∧ p.offset.toNat ≤ q.offset.toNat :=
  Iff.rfl

/-- The numbers that the counters show make the position. -/
theorem eq_of_toNat (hline : p.line = q.line) (hcolumn : p.column.toNat = q.column.toNat)
    (hoffset : p.offset.toNat = q.offset.toNat) : p = q :=
  Position.ext hline (UInt32.toNat_inj.mp hcolumn) (UInt64.toNat_inj.mp hoffset)

@[simp] theorem line_advance (p : Position) (n : ℕ) : (p.advance n).line = p.line := rfl

@[simp] theorem toNat_column_advance (p : Position) (n : ℕ) :
    (p.advance n).column.toNat = min (p.column.toNat + n) (2 ^ 32 - 1) :=
  UInt32.toNat_ofNat_of_lt' (Nat.lt_succ_of_le (min_le_right _ _))

@[simp] theorem toNat_offset_advance (p : Position) (n : ℕ) :
    (p.advance n).offset.toNat = min (p.offset.toNat + n) (2 ^ 64 - 1) :=
  UInt64.toNat_ofNat_of_lt' (Nat.lt_succ_of_le (min_le_right _ _))

/-- **Moving on twice** is moving on by the sum, whichever of the counters are held, and when. -/
theorem advance_advance (p : Position) (m n : ℕ) :
    (p.advance m).advance n = p.advance (m + n) := by
  have hheld : ∀ c greatest : ℕ,
      min (min (c + m) greatest + n) greatest = min (c + (m + n)) greatest := by omega
  refine eq_of_toNat rfl ?_ ?_
  · rw [toNat_column_advance, toNat_column_advance, toNat_column_advance, hheld]
  · rw [toNat_offset_advance, toNat_offset_advance, toNat_offset_advance, hheld]

/-- Moving on by more leads no less far. -/
theorem advance_mono (h : m ≤ n) : p.advance m ≤ p.advance n := by
  rw [le_iff, toNat_column_advance, toNat_column_advance, toNat_offset_advance,
    toNat_offset_advance]
  have hsum : ∀ c : ℕ, c + m ≤ c + n := fun c => Nat.add_le_add_left h c
  exact ⟨UInt32.le_refl _, min_le_min_right _ (hsum _), min_le_min_right _ (hsum _)⟩

/-- Moving on never leads back. -/
theorem le_advance (p : Position) (n : ℕ) : p ≤ p.advance n := by
  have hcolumn := p.column.toNat_lt
  have hoffset := p.offset.toNat_lt
  rw [le_iff, toNat_column_advance, toNat_offset_advance]
  exact ⟨UInt32.le_refl _, by omega, by omega⟩

/-- The position `bytes` further on the same line, found in machine words. -/
def advanceWord (p : Position) (bytes : UInt64) : Position where
  line := p.line
  column := ⟨Counter.moved p.column.toBitVec (Counter.narrowed 32 bytes.toBitVec)⟩
  offset := ⟨Counter.moved p.offset.toBitVec bytes.toBitVec⟩

/-- **Machine words** lead to the same position. -/
theorem advanceWord_eq (p : Position) (bytes : UInt64) :
    p.advanceWord bytes = p.advance bytes.toNat := by
  refine eq_of_toNat rfl ?_ ?_
  · -- a number of bytes that narrowing changes takes every column to the greatest value
    have hheld : ∀ c n greatest : ℕ,
        min (c + min n greatest) greatest = min (c + n) greatest := by omega
    rw [toNat_column_advance, ← hheld]
    exact (Counter.toNat_moved _ _).trans (by rw [Counter.toNat_narrowed]; rfl)
  · rw [toNat_offset_advance]
    exact Counter.toNat_moved _ _

/-- Moving on twice in machine words, as long as their sum is one. -/
theorem advanceWord_advanceWord (p : Position) {a b : UInt64}
    (h : a.toNat + b.toNat ≤ 2 ^ 64 - 1) :
    (p.advanceWord a).advanceWord b = p.advanceWord (a + b) := by
  have hsum : (a + b).toNat = a.toNat + b.toNat := by
    rw [UInt64.toNat_add, Nat.mod_eq_of_lt (by omega)]
  rw [advanceWord_eq, advanceWord_eq, advanceWord_eq, advance_advance, hsum]

-- a sum that wraps around is no sum to move on by
example :
    let p : Position := ⟨1, 1, 0⟩
    let most : UInt64 := 0xFFFFFFFFFFFFFFFF
    (p.advanceWord most).advanceWord 1 ≠ p.advanceWord (most + 1) := by decide

end Position

/-! ## Spans -/

namespace Span

@[simp] theorem start_onLine (start : Position) (n : ℕ) : (onLine start n).start = start := rfl

@[simp] theorem stop_onLine (start : Position) (n : ℕ) :
    (onLine start n).stop = start.advance n := rfl

/-- A span on one line covers as many bytes as it was given, up to the greatest offset. -/
theorem length_onLine (start : Position) (n : ℕ) :
    (onLine start n).length = min n (2 ^ 64 - 1 - start.offset.toNat) := by
  have hoffset := start.offset.toNat_lt
  rw [length, stop_onLine, start_onLine, Position.toNat_offset_advance]
  omega

/-- **Spans on one line compose, and no counter wraps around.** A span that starts where another one
stops reaches as far as a single span of both lengths. The end of a span is on the line of its
start, at the exact column and offset or at the greatest ones, whichever are less. So the span
covers the bytes it was given up to the greatest offset, it does not end before it starts, and with
more bytes it ends no earlier. Machine words find the same end, and they compose as long as the two
lengths have a sum among them. -/
theorem onLine_composes (start : Position) :
    (∀ a b : ℕ, (onLine (onLine start a).stop b).stop = (onLine start (a + b)).stop) ∧
    (∀ n : ℕ, (onLine start n).stop.line = start.line ∧
      (onLine start n).stop.column.toNat = min (start.column.toNat + n) (2 ^ 32 - 1) ∧
      (onLine start n).stop.offset.toNat = min (start.offset.toNat + n) (2 ^ 64 - 1) ∧
      (onLine start n).length = min n (2 ^ 64 - 1 - start.offset.toNat) ∧
      start ≤ (onLine start n).stop) ∧
    (∀ m n : ℕ, m ≤ n → (onLine start m).stop ≤ (onLine start n).stop) ∧
    (∀ n : UInt64, (onLine start n.toNat).stop = start.advanceWord n) ∧
    ∀ a b : UInt64, a.toNat + b.toNat ≤ 2 ^ 64 - 1 →
      (start.advanceWord a).advanceWord b = start.advanceWord (a + b) := by
  refine ⟨?_, ?_, ?_, ?_, ?_⟩
  · intro a b
    exact start.advance_advance a b
  · intro n
    exact ⟨start.line_advance n, start.toNat_column_advance n, start.toNat_offset_advance n,
      length_onLine start n, start.le_advance n⟩
  · intro m n h
    exact Position.advance_mono h
  · intro n
    exact (start.advanceWord_eq n).symm
  · intro a b h
    exact start.advanceWord_advanceWord h

/-- The first step holds the column; the second one narrows its length and holds the offset. -/
theorem onLine_composes_held :
    let start : Position := ⟨1, 0xFFFFFFFC, 0xFFFFFFFE00000000⟩
    let a : UInt64 := 7
    let b : UInt64 := 0x200000005
    a.toNat + b.toNat ≤ 2 ^ 64 - 1 ∧
      start.advanceWord a = ⟨1, 0xFFFFFFFF, 0xFFFFFFFE00000007⟩ ∧
      (start.advanceWord a).advanceWord b = start.advanceWord (a + b) ∧
      start.advanceWord (a + b) = ⟨1, 0xFFFFFFFF, 0xFFFFFFFFFFFFFFFF⟩ := by
  intro start a b
  have hsum : a.toNat + b.toNat ≤ 2 ^ 64 - 1 := by decide
  obtain ⟨-, -, -, -, hcomposes⟩ := onLine_composes start
  exact ⟨hsum, by decide, hcomposes a b hsum, by decide⟩

end Span

end ScriptLiteral
