import Pseudolang.Token

/-!
# Streams of tokens

A stream yields tokens one by one.  It is finite in the sense that only tokens other than the end of
file count: each of those uses up some of a measure, so that the tokens of a stream up to its first
end of file form a list (`TokenStream.tokens`).  Past that point a stream may be asked on.
-/

namespace Pseudolang

/-- A source of tokens from which only finitely many tokens other than the end of file come. -/
class TokenStream (σ : Type) where
  /-- The next token, and the stream after it. -/
  next : σ → Token × σ
  /-- A bound on how many tokens other than the end of file are to come. -/
  remaining : σ → Nat
  remaining_next_le (s : σ) : remaining (next s).2 ≤ remaining s
  remaining_next_lt (s : σ) :
    (next s).1.kind ≠ .endOfFile → remaining (next s).2 < remaining s

namespace TokenStream

variable {σ : Type} [TokenStream σ]

/-- The tokens of the stream up to and including the first end of file. -/
def tokens (s : σ) : List Token :=
  if h : (next s).1.kind = .endOfFile then
    [(next s).1]
  else
    have := remaining_next_lt s h
    (next s).1 :: tokens (next s).2
termination_by remaining s

theorem tokens_ne_nil (s : σ) : tokens s ≠ [] := by
  rw [tokens]
  split <;> simp

end TokenStream

end Pseudolang
