import Pseudolang.Diagnostic
import Pseudolang.Expr
import Pseudolang.Token.Stream

/-!
# The window of a reader

While a program is read, two tokens are in view: the current one and the one after it.  The window
holds them with the stream that the next ones come from, and counts how many expressions are open.

A window moves by one token at a time (`Window.advance`).  What is left to read never grows, and
gets less whenever the current token is not the end of file (`Window.remaining_advance_lt`); loops
over windows end for that reason.
-/

namespace Pseudolang

/-- Two tokens in view, and where the next ones come from. -/
structure Window (σ : Type) where
  source : σ
  current : Token
  /-- The token after the current one. -/
  peek : Token
  /-- How many expressions are open. -/
  depth : Nat := 0

namespace Window

variable {σ : Type}

/-! ## Diagnostics at the current token -/

/-- The diagnostic for finding the current token where something else was needed.  An illegal token
is reported for what is wrong with it. -/
def unexpected (w : Window σ) (expected : String) : Diagnostic where
  cause :=
    match w.current.fault with
    | some fault => .illegalToken fault w.current.text
    | none => .unexpectedToken expected w.current.describe
  position := w.current.position

/-- The diagnostic for an expression that would be open inside too many others. -/
def tooDeep (w : Window σ) : Diagnostic where
  cause := .nestingTooDeep w.current.describe
  position := w.current.position

/-- The diagnostic for a token that starts no statement. -/
def notStatement (w : Window σ) : Diagnostic :=
  if w.current.fault.isSome then w.unexpected "a statement"
  else ⟨.invalidStatement w.current.describe, w.current.position⟩

/-- Whether there is anything left to read. -/
def hasTokens (w : Window σ) : Bool :=
  w.current.kind ≠ .endOfFile

/-! ## Open expressions -/

/-- Opens one more expression, unless as many as allowed are open. -/
def enter (w : Window σ) : Except Diagnostic (Window σ) :=
  if Expr.maxNesting ≤ w.depth then .error w.tooDeep else .ok { w with depth := w.depth + 1 }

theorem of_enter {w w' : Window σ} (h : w.enter = .ok w') :
    w.depth < Expr.maxNesting ∧ w' = { w with depth := w.depth + 1 } := by
  unfold enter at h
  split at h
  · cases h
  · next hlimit => exact ⟨Nat.not_le.1 hlimit, (Except.ok.inj h).symm⟩

theorem eq_of_enter {w w' : Window σ} (h : w.enter = .ok w') :
    w' = { w with depth := w.depth + 1 } :=
  (of_enter h).2

theorem depth_of_enter {w w' : Window σ} (h : w.enter = .ok w') : w'.depth = w.depth + 1 := by
  rw [eq_of_enter h]

/-- Closes the innermost open expression. -/
def leave (w : Window σ) : Window σ :=
  { w with depth := w.depth - 1 }

/-! ## Moving on -/

variable [TokenStream σ]

/-- The window at the start of a stream. -/
def ofStream (s : σ) : Window σ :=
  let first := TokenStream.next s
  let second := TokenStream.next first.2
  { source := second.2, current := first.1, peek := second.1 }

/-- The window one token further on. -/
def advance (w : Window σ) : Window σ where
  source := (TokenStream.next w.source).2
  current := w.peek
  peek := (TokenStream.next w.source).1
  depth := w.depth

/-- The window a number of tokens further on. -/
def advanceBy : Nat → Window σ → Window σ
  | 0, w => w
  | n + 1, w => advanceBy n w.advance

/-- Every token counts but the end of file, which is never used up. -/
def weight (t : Token) : Nat :=
  if t.kind = .endOfFile then 0 else 1

/-- A bound on how many tokens other than the end of file are to be read, those in view included. -/
def remaining (w : Window σ) : Nat :=
  weight w.current + weight w.peek + TokenStream.remaining w.source

theorem advanceBy_add (m n : Nat) (w : Window σ) :
    w.advanceBy (m + n) = (w.advanceBy m).advanceBy n := by
  induction m generalizing w with
  | zero => rw [Nat.zero_add, advanceBy]
  | succ m ih => rw [Nat.succ_add, advanceBy, ih, advanceBy]

/-- What is some tokens further on from there is so from here. -/
theorem exists_advanceBy_trans {w w' w'' : Window σ} (h : ∃ n, w' = w.advanceBy n)
    (h' : ∃ n, w'' = w'.advanceBy n) : ∃ n, w'' = w.advanceBy n := by
  obtain ⟨m, rfl⟩ := h
  obtain ⟨n, rfl⟩ := h'
  exact ⟨m + n, (advanceBy_add m n w).symm⟩

/-- Moving on does not look at the number of open expressions. -/
theorem advanceBy_depth (n d : Nat) (w : Window σ) :
    ({ w with depth := d } : Window σ).advanceBy n = { w.advanceBy n with depth := d } := by
  induction n generalizing w with
  | zero => rfl
  | succ n ih => exact ih w.advance

@[simp]
theorem depth_advanceBy (n : Nat) (w : Window σ) : (w.advanceBy n).depth = w.depth := by
  induction n generalizing w with
  | zero => rfl
  | succ n ih => exact ih w.advance

/-- Closing an expression after moving on undoes opening it. -/
theorem leave_advanceBy_opened (n : Nat) (w : Window σ) :
    (({ w with depth := w.depth + 1 } : Window σ).advanceBy n).leave = w.advanceBy n := by
  rw [advanceBy_depth, leave, Nat.add_sub_cancel, ← depth_advanceBy n w]

theorem leave_advanceBy_of_enter {w w' : Window σ} (h : w.enter = .ok w') (n : Nat) :
    (w'.advanceBy n).leave = w.advanceBy n := by
  rw [eq_of_enter h, leave_advanceBy_opened]

theorem weight_next_le (s : σ) :
    weight (TokenStream.next s).1 + TokenStream.remaining (TokenStream.next s).2 ≤
      TokenStream.remaining s := by
  unfold weight
  split
  · have := TokenStream.remaining_next_le s
    omega
  · next h =>
    have := TokenStream.remaining_next_lt s h
    omega

theorem weight_add_remaining_advance_le (w : Window σ) :
    weight w.current + w.advance.remaining ≤ w.remaining := by
  have := weight_next_le w.source
  simp only [remaining, advance]
  omega

theorem remaining_advance_lt {w : Window σ} (h : w.current.kind ≠ .endOfFile) :
    w.advance.remaining < w.remaining := by
  have := w.weight_add_remaining_advance_le
  rw [weight, if_neg h] at this
  omega

theorem remaining_advanceBy_le (n : Nat) (w : Window σ) :
    (w.advanceBy n).remaining ≤ w.remaining := by
  induction n generalizing w with
  | zero => exact Nat.le_refl _
  | succ n ih =>
    have := w.weight_add_remaining_advance_le
    have := ih w.advance
    rw [advanceBy]
    omega

/-! ## The rest of a line -/

theorem kind_ne_endOfFile {t : Token} (h : ¬t.endsStatement) : t.kind ≠ .endOfFile := by
  intro he
  simp [Token.endsStatement, Kind.endsStatement, he] at h

/-- The window at the end of the line, which itself is not passed. -/
def skipLine (w : Window σ) : Window σ :=
  if h : w.current.endsStatement then w
  else
    have := remaining_advance_lt (kind_ne_endOfFile h)
    skipLine w.advance
termination_by w.remaining

theorem skipLine_eq_advanceBy (w : Window σ) : ∃ n, w.skipLine = w.advanceBy n := by
  fun_induction skipLine w with
  | case1 w _ => exact ⟨0, rfl⟩
  | case2 w _ _ ih =>
    obtain ⟨n, hn⟩ := ih
    exact ⟨n + 1, hn⟩

theorem remaining_skipLine_le (w : Window σ) : w.skipLine.remaining ≤ w.remaining := by
  obtain ⟨n, hn⟩ := w.skipLine_eq_advanceBy
  rw [hn]
  exact remaining_advanceBy_le n w

theorem remaining_skipLine_lt {w : Window σ} (h : ¬w.current.endsStatement) :
    w.skipLine.remaining < w.remaining := by
  rw [skipLine, dif_neg h]
  exact Nat.lt_of_le_of_lt (remaining_skipLine_le _) (remaining_advance_lt (kind_ne_endOfFile h))

end Window

end Pseudolang
