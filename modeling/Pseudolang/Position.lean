/-!
# Positions in a source text

Lines and columns both count from one, and a column counts characters.  The counts themselves have
no limit.  But of each no more than 32 bits are kept, so that a larger one wraps around, and what is
printed of a position is what is kept of it (`Position.kept`).  Keeping 32 bits of a count comes to
the same as counting in 32 bits from the start (`Counts.position_behind`).
-/

namespace Pseudolang

/-- The line and column of a token's first character, counted without a limit. -/
structure Position where
  line : Nat
  column : Nat
  deriving DecidableEq

namespace Position

/-- What is kept of the position, in two numbers of 32 bits. -/
def kept (p : Position) : Position where
  line := (UInt32.ofNat p.line).toNat
  column := (UInt32.ofNat p.column).toNat

/-- The position as diagnostics name it. -/
def text (p : Position) : String :=
  "line " ++ Nat.repr p.line ++ ", col " ++ Nat.repr p.column

/-- Reading order: by line, and by column within a line. -/
def order (p q : Position) : Ordering :=
  (compare p.line q.line).then (compare p.column q.column)

@[simp]
theorem kept_kept (p : Position) : p.kept.kept = p.kept := by
  simp [kept]

/-- Numbers that fit are kept as they are. -/
theorem kept_eq_self {p : Position} (hline : p.line < UInt32.size)
    (hcolumn : p.column < UInt32.size) :
    p.kept = p := by
  rw [kept, UInt32.toNat_ofNat_of_lt' hline, UInt32.toNat_ofNat_of_lt' hcolumn]

end Position

end Pseudolang
