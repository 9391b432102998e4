import Pseudolang.Proofs.Grouped
import Pseudolang.Proofs.Lexing
import Pseudolang.Proofs.Lookahead

/-!
# Operators at a window

How the current token of a window extends the operand before it (`Grammar.extension?`) depends on
the power that is asked for only through a comparison.  The three lemmas of the first section say
so for a token that is an operator between operands, for one that is an operator after its operand,
and for one that is neither; the proofs about expressions do not look into `extension?` beyond them.

The other section is about the tokens of a well-formed tree: the first of them can start an
expression, and none of them ends a statement.
-/

namespace Pseudolang

/-! ## Extensions -/

namespace Kind

lemma eq_of_endsStatement {k : Kind} (h : k.endsStatement) : k = .endOfLine ∨ k = .endOfFile := by
  simpa [endsStatement] using h

/-- A token of the kind extends no operand. -/
def Inert (k : Kind) : Prop :=
  k.suffixPower? = none ∧ k.binaryPower? = none

lemma inert_of_endsStatement {k : Kind} (h : k.endsStatement) : k.Inert := by
  rcases eq_of_endsStatement h with rfl | rfl
  · exact ⟨rfl, rfl⟩
  · exact ⟨rfl, rfl⟩

lemma ne_of_binaryPower? {k k' : Kind} (h : k.binaryPower?.isSome) (h' : k'.binaryPower? = none) :
    k ≠ k' := by
  rintro rfl
  simp [h'] at h

/-- Operators are keywords or symbols. -/
lemma keyword_or_symbol_of_binaryPower? {k : Kind} (h : k.binaryPower?.isSome) :
    (∃ w, k = .keyword w) ∨ ∃ s, k = .symbol s := by
  cases k with
  | keyword w => exact .inl ⟨w, rfl⟩
  | symbol s => exact .inr ⟨s, rfl⟩
  | _ => cases h

lemma eq_of_unaryPower? {k : Kind} (h : k.unaryPower?.isSome) :
    k = .keyword .not ∨ k = .symbol .minus := by
  unfold unaryPower? at h
  split at h
  · exact .inl rfl
  · exact .inr rfl
  · cases h

/-- Of the operators between operands only the caret is also one after its operand. -/
lemma suffixPower?_of_binaryPower? {k : Kind} {p : BindingPower} (h : k.binaryPower? = some p)
    (hk : k ≠ .symbol .caret) : k.suffixPower? = none := by
  cases k with
  | symbol s => cases s <;> simp_all [suffixPower?, binaryPower?]
  | _ => rfl

/-- Every power is above that of a whole expression. -/
lemma minPower_lt_of_suffix {k : Kind} {p : ℕ} (h : k.suffixPower? = some p) : minPower < p := by
  unfold suffixPower? at h
  split at h <;> simp [minPower] at h ⊢ <;> omega

lemma minPower_lt_of_binary {k : Kind} {p : BindingPower} (h : k.binaryPower? = some p) :
    minPower < p.left := by
  unfold binaryPower? at h
  split at h <;> simp only [Option.some.injEq, reduceCtorEq] at h <;> subst h <;> decide

/-- A caret binds tighter than every operator before its operand. -/
lemma lt_caret_of_unaryPower? {k : Kind} {p : ℕ} (h : k.unaryPower? = some p) : p < 19 := by
  unfold unaryPower? at h
  split at h <;> simp at h <;> omega

/-- The bracket of a call or an indexing binds tighter than every operator before it. -/
lemma lt_of_unaryPower? {k : Kind} {p : ℕ} (h : k.unaryPower? = some p) : p < 23 :=
  (lt_caret_of_unaryPower? h).trans (by decide)

lemma right_lt_of_binaryPower? {k : Kind} {p : BindingPower} (h : k.binaryPower? = some p) :
    p.right < 23 := by
  unfold binaryPower? at h
  split at h <;> simp only [Option.some.injEq, reduceCtorEq] at h <;> subst h <;> decide

end Kind

namespace Grammar

variable {σ : Type} {w : Window σ}

lemma extension?_of_binary {p : BindingPower} (h : w.current.kind.binaryPower? = some p)
    (hs : suffixPower? w = none) (power : ℕ) :
    extension? power w = if power < p.left then some (.binary p.right) else none := by
  simp [extension?, hs, h]

lemma extension?_of_suffix {p : ℕ} (h : suffixPower? w = some p) (power : ℕ) :
    extension? power w = if power < p then some .suffix else none := by
  simp [extension?, h]

lemma extension?_of_inert (h : w.current.kind.Inert) (power : ℕ) : extension? power w = none := by
  simp [extension?, suffixPower?, h.1, h.2]

/-- An operator between operands is not read as one after its operand where an operand follows. -/
lemma suffixPower?_of_binary {p : BindingPower} (h : w.current.kind.binaryPower? = some p)
    (hn : w.peek.startsExpression) : suffixPower? w = none := by
  unfold suffixPower?
  by_cases hc : w.current.kind = .symbol .caret
  · rw [if_pos ⟨hc, hn⟩]
  · rw [if_neg fun hcn => hc hcn.1]
    exact Kind.suffixPower?_of_binaryPower? h hc

lemma kind_suffixPower?_of_eq_some {p : ℕ} (h : suffixPower? w = some p) :
    w.current.kind.suffixPower? = some p := by
  unfold suffixPower? at h
  split at h
  · cases h
  · exact h

/-- A caret is read as a dereference only where no operand can follow. -/
lemma not_startsExpression_of_caret {p : ℕ} (hc : w.current.kind = .symbol .caret)
    (h : suffixPower? w = some p) : ¬w.peek.startsExpression := by
  intro hn
  rw [suffixPower?, if_pos ⟨hc, hn⟩] at h
  cases h

lemma extension?_eq_suffix {power : ℕ} (h : extension? power w = some .suffix) :
    ∃ p, suffixPower? w = some p ∧ power < p := by
  cases hs : suffixPower? w with
  | none =>
    simp only [extension?, hs] at h
    split at h
    · split at h <;> simp at h
    · simp at h
  | some p =>
    rw [extension?_of_suffix hs] at h
    split at h
    · next hp => exact ⟨p, rfl, hp⟩
    · cases h

lemma extension?_eq_binary {power r : ℕ} (h : extension? power w = some (.binary r)) :
    ∃ p, w.current.kind.binaryPower? = some p ∧ suffixPower? w = none ∧ p.right = r ∧
      power < p.left := by
  cases hs : suffixPower? w with
  | some q =>
    rw [extension?_of_suffix hs] at h
    split at h <;> cases h
  | none =>
    simp only [extension?, hs] at h
    split at h
    · next p hb =>
      split at h
      · next hp =>
        obtain rfl : p.right = r := by simpa using h
        exact ⟨p, hb, rfl, rfl, hp⟩
      · cases h
    · cases h

end Grammar

/-! ## The tokens of a well-formed tree -/

namespace Token

lemma startsExpression_of_isAtom {t : Token} (h : t.isAtom) : t.startsExpression := by
  simp [startsExpression, h]

lemma isAtom_of_kind {t : Token} (h : t.kind = .identifier) : t.isAtom := by
  simp [isAtom, h]

lemma Plain.not_endsStatement {t : Token} (h : t.Plain) (ha : t.isAtom) : ¬t.endsStatement := by
  intro he
  rcases Kind.eq_of_endsStatement he with hk | hk
  · simpa [hk, Kind.isNative] using h.kind_of_isAtom ha
  · simpa [hk, Kind.isNative] using h.kind_of_isAtom ha

/-- Of the symbols only the opening parenthesis and the sign start an expression. -/
lemma Plain.kind_ne_of_startsExpression {t : Token} (h : t.Plain) (hs : t.startsExpression)
    {s : Symbol} (hparen : s ≠ .openParen) (hminus : s ≠ .minus) : t.kind ≠ .symbol s := by
  intro hk
  have hatom : ¬t.isAtom := fun ha => by simpa [hk, Kind.isNative] using h.kind_of_isAtom ha
  have hunary : (Kind.symbol s).unaryPower? = none := by
    cases s <;> simp_all [Kind.unaryPower?]
  simp [startsExpression, hatom, hk, hparen, hunary] at hs

lemma not_endsStatement_of_symbol {t : Token} {s : Symbol} (h : t.kind = .symbol s) :
    ¬t.endsStatement := by
  simp [endsStatement, h, Kind.endsStatement]

lemma not_endsStatement_of_unary {t : Token} (h : t.kind.unaryPower?.isSome) :
    ¬t.endsStatement := by
  intro he
  rcases Kind.eq_of_endsStatement he with hk | hk
  · simp [hk, Kind.unaryPower?] at h
  · simp [hk, Kind.unaryPower?] at h

lemma not_endsStatement_of_binary {t : Token} (h : t.kind.binaryPower?.isSome) :
    ¬t.endsStatement := by
  intro he
  rw [(Kind.inert_of_endsStatement he).2] at h
  cases h

end Token

/-- A tree starts with a token that can start an expression. -/
lemma Grouped.exists_tokens_eq_cons : ∀ {g : Grouped}, g.WellFormed →
    ∃ t ts, g.tokens = t :: ts ∧ t.startsExpression
  | .atom token, h => ⟨token, [], rfl, Token.startsExpression_of_isAtom h⟩
  | .group opening _ _, h => ⟨opening, _, rfl, by simp [Token.startsExpression, h.1]⟩
  | .unary operator _, h => ⟨operator, _, rfl, by simp [Token.startsExpression, h.1]⟩
  | .binary _ left _, h => by
      obtain ⟨t, ts, hts, ht⟩ := exists_tokens_eq_cons (g := left) h.2.1
      exact ⟨t, _, by rw [tokens, hts]; rfl, ht⟩
  | .suffix _ operand, h => by
      obtain ⟨t, ts, hts, ht⟩ := exists_tokens_eq_cons (g := operand) h.2
      exact ⟨t, _, by rw [tokens, hts]; rfl, ht⟩
  | .callNone callee _ _, h =>
      ⟨callee, _, rfl, Token.startsExpression_of_isAtom (Token.isAtom_of_kind h.1)⟩
  | .call callee _ _, h =>
      ⟨callee, _, rfl, Token.startsExpression_of_isAtom (Token.isAtom_of_kind h.1)⟩
  | .index callee _ _, h =>
      ⟨callee, _, rfl, Token.startsExpression_of_isAtom (Token.isAtom_of_kind h.1)⟩

mutual

/-- No token of a tree ends a statement. -/
lemma Grouped.not_endsStatement : ∀ {g : Grouped}, g.WellFormed → (∀ t ∈ g.tokens, t.Plain) →
    ∀ t ∈ g.tokens, ¬t.endsStatement
  | .atom token, h, hp => by
      simp only [Grouped.tokens, List.forall_mem_singleton] at hp ⊢
      exact hp.not_endsStatement h
  | .group opening inner closing, h, hp => by
      simp only [Grouped.tokens, List.forall_mem_cons, List.forall_mem_append] at hp ⊢
      exact ⟨Token.not_endsStatement_of_symbol h.1, Grouped.not_endsStatement h.2.1 hp.2.1,
        Token.not_endsStatement_of_symbol h.2.2, by simp⟩
  | .unary operator operand, h, hp => by
      simp only [Grouped.tokens, List.forall_mem_cons] at hp ⊢
      exact ⟨Token.not_endsStatement_of_unary h.1, Grouped.not_endsStatement h.2 hp.2⟩
  | .binary operator left right, h, hp => by
      simp only [Grouped.tokens, List.forall_mem_cons, List.forall_mem_append] at hp ⊢
      exact ⟨Grouped.not_endsStatement h.2.1 hp.1, Token.not_endsStatement_of_binary h.1,
        Grouped.not_endsStatement h.2.2 hp.2.2⟩
  | .suffix operator operand, h, hp => by
      simp only [Grouped.tokens, List.forall_mem_cons, List.forall_mem_append] at hp ⊢
      exact ⟨Grouped.not_endsStatement h.2 hp.1, Token.not_endsStatement_of_symbol h.1, by simp⟩
  | .callNone callee opening closing, h, hp => by
      simp only [Grouped.tokens, List.forall_mem_cons] at hp ⊢
      exact ⟨hp.1.not_endsStatement (Token.isAtom_of_kind h.1),
        Token.not_endsStatement_of_symbol h.2.1, Token.not_endsStatement_of_symbol h.2.2, by simp⟩
  | .call callee opening arguments, h, hp => by
      simp only [Grouped.tokens, List.forall_mem_cons, List.forall_mem_append] at hp ⊢
      have harguments := Items.not_endsStatement h.2.2 hp.2.2.1
      exact ⟨hp.1.not_endsStatement (Token.isAtom_of_kind h.1),
        Token.not_endsStatement_of_symbol h.2.1, harguments.1, harguments.2, by simp⟩
  | .index callee opening indexes, h, hp => by
      simp only [Grouped.tokens, List.forall_mem_cons, List.forall_mem_append] at hp ⊢
      have hindexes := Items.not_endsStatement h.2.2 hp.2.2.1
      exact ⟨hp.1.not_endsStatement (Token.isAtom_of_kind h.1),
        Token.not_endsStatement_of_symbol h.2.1, hindexes.1, hindexes.2, by simp⟩

lemma Items.not_endsStatement {s : Symbol} : ∀ {is : Items}, is.WellFormed (.symbol s) →
    (∀ t ∈ is.body, t.Plain) → (∀ t ∈ is.body, ¬t.endsStatement) ∧ ¬is.closing.endsStatement
  | .last item token, h, hp =>
      ⟨Grouped.not_endsStatement h.1 hp, Token.not_endsStatement_of_symbol h.2⟩
  | .more item comma rest, h, hp => by
      simp only [Items.body, List.forall_mem_cons, List.forall_mem_append] at hp ⊢
      have hrest := Items.not_endsStatement h.2.2 hp.2.2
      exact ⟨⟨Grouped.not_endsStatement h.1 hp.1, Token.not_endsStatement_of_symbol h.2.1,
        hrest.1⟩, hrest.2⟩

end

end Pseudolang
