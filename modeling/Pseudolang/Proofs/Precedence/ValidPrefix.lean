import Pseudolang.Proofs.Precedence.Soundness
import Pseudolang.Proofs.Simulation

/-!
# What was read before an error is the front of a tree

When reading an expression fails, and not for its nesting, everything before the token that the
diagnostic points at can be completed: there is a tree that the binding powers allow, which begins
with these tokens and goes on with some that can be written (`Grouped.Completes`).

The completion follows the parser, as soundness does.  What is open at the error is closed again:
an operand that is missing is the literal `1`, a parenthesis or a bracket gets its closing token,
and everything around it takes the completed part where it would have taken the part that was read
(`Grammar.viable_exprAt`).  At a bracket after what cannot be called nothing is open, and what was
read so far is complete as it stands.
-/

namespace Pseudolang

open Pseudolang.Grammar Pseudolang.Parser

variable {σ : Type} [TokenStream σ]

/-! ## The tokens up to an error -/

namespace Window

/-- The tokens from the window on, as many as asked for. -/
def taken : ℕ → Window σ → List Token
  | 0, _ => []
  | n + 1, w => w.current :: w.advance.taken n

lemma shows_taken (n : ℕ) (w : Window σ) : w.Shows (w.taken n) := by
  induction n generalizing w with
  | zero => trivial
  | succ n ih => exact ⟨rfl, ih w.advance⟩

@[simp] lemma length_taken (n : ℕ) (w : Window σ) : (w.taken n).length = n := by
  induction n generalizing w with
  | zero => rfl
  | succ n ih => rw [taken, List.length_cons, ih]

lemma taken_add (m n : ℕ) (w : Window σ) :
    w.taken (m + n) = w.taken m ++ (w.advanceBy m).taken n := by
  induction m generalizing w with
  | zero => rw [Nat.zero_add, taken, advanceBy, List.nil_append]
  | succ m ih => rw [Nat.succ_add, taken, ih, taken, advanceBy, List.cons_append]

lemma Shows.taken_eq {w : Window σ} {ts : List Token} (h : w.Shows ts) :
    w.taken ts.length = ts := by
  induction ts generalizing w with
  | nil => rfl
  | cons t ts ih => rw [List.length_cons, taken, ih h.2, h.1]

lemma taken_depth (w : Window σ) (d n : ℕ) :
    ({ w with depth := d } : Window σ).taken n = w.taken n := by
  induction n generalizing w with
  | zero => rfl
  | succ n ih => exact congrArg (w.current :: ·) (ih w.advance)

end Window

namespace Parser

variable {α β : Type}

/-- A sequence fails when its first part does, or when the second does from where the first one
stopped. -/
lemma run_bind_eq_error {p : Parser σ α} {f : α → Parser σ β} {w w'' : Window σ} {d : Diagnostic} :
    (p >>= f).run w = (.error d, w'') ↔
      p.run w = (.error d, w'') ∨
        ∃ a w', p.run w = (.ok a, w') ∧ (f a).run w' = (.error d, w'') := by
  rw [run_bind]
  constructor
  · intro h
    split at h
    · next a w' hp => exact .inr ⟨a, w', hp, h⟩
    · next d' w' hp =>
      obtain ⟨rfl, rfl⟩ : d' = d ∧ w' = w'' := by simpa using h
      exact .inl hp
  · rintro (hp | ⟨a, w', hp, hf⟩)
    · rw [hp]
    · rw [hp]
      exact hf

@[simp] lemma run_pure_ne_error {a : α} {w w' : Window σ} {d : Diagnostic} :
    (pure a : Parser σ α).run w ≠ (.error d, w') := by
  simp [run_pure]

/-- A token of another kind is refused where it stands. -/
lemma position_of_expectOr {kind : Kind} {d d' : Diagnostic} {w w' : Window σ}
    (hd : d'.position = w.current.position)
    (h : (expectOr kind d' : Parser σ Token).run w = (.error d, w')) :
    d.position = w.current.position := by
  rw [run_expectOr] at h
  split at h
  · simp at h
  · obtain ⟨rfl, -⟩ : d' = d ∧ w = w' := by simpa using h
    exact hd

/-- A loop that fails does so in a round that starts from what the rounds before it have kept. -/
lemma iterate_fails {offer : Window σ → Option β} {round : β → Token → α → Parser σ α}
    {I : α → Window σ → Prop}
    (step : ∀ a w b a' w', I a w → offer w = some b →
      (round b w.current a).run w.advance = (.ok a', w') → I a' w')
    {a : α} {w w' : Window σ} {d : Diagnostic}
    (h : (iterate offer round a).run w = (.error d, w')) (hI : I a w) :
    ∃ a₁ w₁ b, I a₁ w₁ ∧ offer w₁ = some b ∧
      (round b w₁.current a₁).run w₁.advance = (.error d, w') := by
  induction a, w using iterate_induction offer round with
  | stop a w hstop =>
    rw [run_iterate_of_stop hstop] at h
    cases h
  | more a w b a₁ w₁ hf ho hr ih =>
    rw [run_iterate_of_ok hf ho hr] at h
    exact ih h (step a w b a₁ w₁ hI ho hr)
  | failed a w b d' w₁ hf ho hr =>
    rw [run_iterate_of_error hf ho hr] at h
    obtain ⟨rfl, rfl⟩ : d' = d ∧ w₁ = w' := by simpa using h
    exact ⟨a, w, b, hI, ho, hr⟩

/-- A run of `commaTail` fails in the item after a comma. -/
lemma commaTail_fails {item : Parser σ α} {motive : Window σ → Diagnostic → Prop}
    (last : ∀ w d w', w.current.kind = .symbol .comma →
      item.run w.advance = (.error d, w') → motive w d)
    (more : ∀ w a w' d, w.current.kind = .symbol .comma →
      item.run w.advance = (.ok a, w') → motive w' d → motive w d)
    {w w' : Window σ} {d : Diagnostic} (h : (commaTail item).run w = (.error d, w')) :
    motive w d := by
  induction w using commaTail_induction item generalizing w' with
  | stop w hc =>
    rw [run_commaTail, if_neg hc] at h
    cases h
  | more w a w₁ hc hr ih =>
    rw [run_commaTail, if_pos hc, run_bind_of_ok hr] at h
    rcases run_bind_eq_error.1 h with hs | ⟨as, w₂, -, hpure⟩
    · exact more w a w₁ d hc hr (ih hs)
    · simp at hpure
  | failed w d' w₁ hc hr =>
    rw [run_commaTail, if_pos hc, run_bind_of_error hr] at h
    obtain ⟨rfl, rfl⟩ : d' = d ∧ w₁ = w' := by simpa using h
    exact last w d' w₁ hc hr

end Parser

/-! ## Tokens that can be written -/

/-- The token can stand in a line of a source text. -/
structure Token.Writable (t : Token) : Prop where
  lexed : t.Lexed
  legal : t.kind ≠ .illegal
  inLine : ¬t.endsStatement

/-- The token of a kind that has one text. -/
def Kind.token (k : Kind) : Token :=
  ⟨k, k.text, ⟨0, 0⟩, false, none⟩

lemma Kind.writable_token {k : Kind} (hi : k ≠ .illegal) (hid : k ≠ .identifier)
    (hd : k ≠ .symbol .doubleQuote) (hs : k ≠ .symbol .singleQuote) (he : ¬k.endsStatement) :
    k.token.Writable :=
  ⟨Token.Canonical.lexed ⟨rfl, rfl, rfl⟩ hi hid hd hs, hi, he⟩

/-- The literal `1`. -/
def Token.one : Token :=
  ⟨.native .integer, "1", ⟨0, 0⟩, true, none⟩

lemma Token.writable_one : one.Writable :=
  ⟨by unfold Lexed; decide +kernel, by simp [one], by simp [one, endsStatement, Kind.endsStatement]⟩

lemma Kind.writable_keyword (k : Keyword) : (keyword k).token.Writable :=
  writable_token (by simp) (by simp) (by simp) (by simp) (by simp [endsStatement])

lemma Kind.writable_symbol {s : Symbol} (hd : s ≠ .doubleQuote) (hs : s ≠ .singleQuote) :
    (symbol s).token.Writable :=
  writable_token (by simp) (by simp) (by simpa using hd) (by simpa using hs)
    (by simp [endsStatement])

/-! ## Completions -/

/-- The diagnostic is the refusal of too many open expressions. -/
def Diagnostic.TooDeep (d : Diagnostic) : Prop :=
  ∃ found, d.cause = .nestingTooDeep found

/-- The tree begins with the first `k` tokens from the window on and goes on with tokens that can be
written, and it is one that the binding powers allow. -/
structure Grouped.Completes (g : Grouped) (k : ℕ) (w : Window σ) : Prop where
  tokens : ∃ rest, g.tokens = w.taken k ++ rest ∧ ∀ t ∈ rest, t.Writable
  wellFormed : g.WellFormed
  binds : g.Binds
  derefsClear : g.DerefsClear none

/-- The same for the trees of a list, the token that closes it being none of the first `k`. -/
structure Items.Completes (is : Items) (closing : Kind) (k : ℕ) (w : Window σ) : Prop where
  tokens : ∃ rest, is.body = w.taken k ++ rest ∧ ∀ t ∈ rest, t.Writable
  closing_eq : is.closing = closing.token
  wellFormed : is.WellFormed closing
  binds : is.Binds
  derefsClear : is.DerefsClear

/-- A closing bracket can be written, and stands at the end of a dereference. -/
lemma not_startsExpression_token {s : Symbol} (hparen : s ≠ .openParen) (hminus : s ≠ .minus) :
    ¬(Kind.symbol s).token.startsExpression := fun hs =>
  Token.Plain.kind_ne_of_startsExpression (fun h => by cases h) hs hparen hminus rfl

namespace Grouped

variable {g left right : Grouped} {k : ℕ} {w w₁ : Window σ}

/-- What was read completes itself. -/
lemma Spans.completes (h : g.Spans w w₁) : g.Completes g.tokens.length w where
  tokens := ⟨[], by rw [List.append_nil, h.shows.taken_eq], by simp⟩
  wellFormed := h.wellFormed
  binds := h.binds
  derefsClear := h.derefsClear.change (by simp)

lemma completes_one (w : Window σ) : (atom .one).Completes 0 w where
  tokens := ⟨[.one], rfl, by simpa using Token.writable_one⟩
  wellFormed := rfl
  binds := trivial
  derefsClear := trivial

/-- A pair of parentheses around it, of which the second is still to be written. -/
lemma Completes.group (h : g.Completes k w.advance) (ho : w.current.kind = .symbol .openParen) :
    (group w.current g (Kind.symbol .closeParen).token).Completes (k + 1) w where
  tokens := by
    obtain ⟨rest, htokens, hrest⟩ := h.tokens
    refine ⟨rest ++ [(Kind.symbol .closeParen).token], ?_, ?_⟩
    · simp [Grouped.tokens, htokens, Window.taken]
    · simpa [or_imp, forall_and] using ⟨hrest, (Kind.writable_symbol (by decide) (by decide))⟩
  wellFormed := ⟨ho, h.wellFormed, rfl⟩
  binds := h.binds
  derefsClear := by
    refine h.derefsClear.change ?_
    rintro t ⟨⟩
    exact not_startsExpression_token (by decide) (by decide)

lemma Completes.unary (h : g.Completes k w.advance) {p : ℕ}
    (hp : w.current.kind.unaryPower? = some p) (habove : ∀ q ∈ g.leftPowers, p < q) :
    (unary w.current g).Completes (k + 1) w where
  tokens := by
    obtain ⟨rest, htokens, hrest⟩ := h.tokens
    exact ⟨rest, by simp [Grouped.tokens, htokens, Window.taken], hrest⟩
  wellFormed := ⟨by simp [hp], h.wellFormed⟩
  binds := by
    refine ⟨h.binds, fun p' hp' => ?_⟩
    obtain rfl : p = p' := by simpa [hp] using hp'
    exact habove
  derefsClear := h.derefsClear

/-- An operator after what was read, of whose right operand only a part was. -/
lemma Completes.binary (hl : left.Spans w w₁) (hr : right.Completes k w₁.advance)
    {p : BindingPower} (hb : w₁.current.kind.binaryPower? = some p) (hs : suffixPower? w₁ = none)
    (habove : ∀ q ∈ right.leftPowers, p.right < q) :
    (binary w₁.current left right).Completes (left.tokens.length + 1 + k) w where
  tokens := by
    obtain ⟨rest, htokens, hrest⟩ := hr.tokens
    refine ⟨rest, ?_, hrest⟩
    rw [Window.taken_add, Window.taken_add, Window.advanceBy_succ, hl.shows.taken_eq, hl.stops,
      Grouped.tokens, htokens]
    simp [Window.taken]
  wellFormed := ⟨by simp [hb], hl.wellFormed, hr.wellFormed⟩
  binds := by
    refine ⟨hl.binds, hr.binds, fun p' hp' => ?_⟩
    obtain rfl : p = p' := by simpa [hb] using hp'
    refine ⟨fun q hq => ?_, habove⟩
    have hend := hl.ends q hq
    rw [extension?_of_binary hb hs] at hend
    split at hend
    · cases hend
    · omega
  derefsClear := ⟨hl.derefsClear, hr.derefsClear⟩

end Grouped

namespace Items

variable {g : Grouped} {is : Items} {k : ℕ} {w w₁ : Window σ} {s : Symbol}

lemma completes_last (h : g.Completes k w) (hparen : s ≠ .openParen) (hminus : s ≠ .minus) :
    (last g (Kind.symbol s).token).Completes (.symbol s) k w where
  tokens := h.tokens
  closing_eq := rfl
  wellFormed := ⟨h.wellFormed, rfl⟩
  binds := h.binds
  derefsClear := by
    refine h.derefsClear.change ?_
    rintro t ⟨⟩
    exact not_startsExpression_token hparen hminus

lemma Completes.more (hg : g.Spans w w₁) (hcomma : w₁.current.kind = .symbol .comma)
    (h : is.Completes (.symbol s) k w₁.advance) :
    (more g w₁.current is).Completes (.symbol s) (g.tokens.length + 1 + k) w where
  tokens := by
    obtain ⟨rest, htokens, hrest⟩ := h.tokens
    refine ⟨rest, ?_, hrest⟩
    rw [Window.taken_add, Window.taken_add, Window.advanceBy_succ, hg.shows.taken_eq, hg.stops,
      Items.body, htokens]
    simp [Window.taken]
  closing_eq := h.closing_eq
  wellFormed := ⟨hg.wellFormed, hcomma, h.wellFormed⟩
  binds := ⟨hg.binds, h.binds⟩
  derefsClear := ⟨hg.derefsClear, h.derefsClear⟩

/-- An identifier, a bracket and a list of which a part was read. -/
lemma Completes.bracketed (h : is.Completes (.symbol s) k w.advance.advance)
    (hs : (Kind.symbol s).token.Writable) :
    ∃ rest, w.current :: w.advance.current :: (is.body ++ [is.closing]) =
      w.taken (k + 2) ++ rest ∧ ∀ t ∈ rest, t.Writable := by
  obtain ⟨rest, htokens, hrest⟩ := h.tokens
  refine ⟨rest ++ [(Kind.symbol s).token], ?_, ?_⟩
  · simp [htokens, h.closing_eq, Window.taken]
  · simpa [or_imp, forall_and] using ⟨hrest, hs⟩

lemma Completes.call (h : is.Completes (.symbol .closeParen) k w.advance.advance)
    (hk : w.current.kind = .identifier) (ho : w.advance.current.kind = .symbol .openParen) :
    (Grouped.call w.current w.advance.current is).Completes (k + 2) w where
  tokens := h.bracketed (Kind.writable_symbol (by decide) (by decide))
  wellFormed := ⟨hk, ho, h.wellFormed⟩
  binds := h.binds
  derefsClear := h.derefsClear

lemma Completes.index (h : is.Completes (.symbol .closeBracket) k w.advance.advance)
    (hk : w.current.kind = .identifier) (ho : w.advance.current.kind = .symbol .openBracket) :
    (Grouped.index w.current w.advance.current is).Completes (k + 2) w where
  tokens := h.bracketed (Kind.writable_symbol (by decide) (by decide))
  wellFormed := ⟨hk, ho, h.wellFormed⟩
  binds := h.binds
  derefsClear := h.derefsClear

end Items

/-! ## Runs that fail -/

/-- What was read from the window on before the diagnostic can be completed to a tree that opens
less than `levels` levels inside it and whose left spine binds tighter than `power`, unless the
nesting was refused. -/
def Grammar.Viable (levels power : ℕ) (w : Window σ) (d : Diagnostic) : Prop :=
  d.TooDeep ∨ ∃ (g : Grouped) (k : ℕ), g.Completes k w ∧ d.position = (w.ahead k).position ∧
    g.nesting < levels ∧ ∀ q ∈ g.leftPowers, power < q

namespace Grammar

variable {levels : ℕ} {sub : ℕ → Parser σ Expr} {w w' : Window σ} {d : Diagnostic}

omit [TokenStream σ] in
lemma tooDeep_of_enter (h : w.enter = .error d) : d.TooDeep := by
  unfold Window.enter at h
  split at h
  · obtain rfl := Except.error.inj h
    exact ⟨_, rfl⟩
  · cases h

/-- The token after what was read. -/
lemma ahead_of_spans {g : Grouped} (h : g.Spans w w') : w.ahead g.tokens.length = w'.current := by
  rw [Window.ahead, h.stops]

lemma ahead_advance_of_spans {g : Grouped} (h : g.Spans w w') (k : ℕ) :
    w'.advance.ahead k = w.ahead (g.tokens.length + 1 + k) := by
  rw [← h.stops, ← Window.advanceBy_succ, Window.ahead_advanceBy]

/-- A list of which a part was read can be completed, unless the nesting was refused. -/
def ViableItems (levels : ℕ) (closing : Kind) (w : Window σ) (d : Diagnostic) : Prop :=
  d.TooDeep ∨ ∃ (is : Items) (k : ℕ), is.Completes closing k w ∧
    d.position = (w.ahead k).position ∧ is.nesting ≤ levels

/-- Behind an item and a comma a list goes on. -/
lemma viable_more {closing : Symbol} {g : Grouped} {w₁ : Window σ} (hg : g.Spans w w₁)
    (hlevels : g.levels ≤ levels) (hcomma : w₁.current.kind = .symbol .comma)
    (h : ViableItems levels (.symbol closing) w₁.advance d) :
    ViableItems levels (.symbol closing) w d := by
  rcases h with hdeep | ⟨is, k, his, hposition, hnesting⟩
  · exact .inl hdeep
  · rw [ahead_advance_of_spans hg] at hposition
    rw [Grouped.levels, Nat.add_comm] at hlevels
    exact .inr ⟨_, _, his.more hg hcomma, hposition, max_le hlevels hnesting⟩

/-- What the loop over operators has read so far is complete as it stands. -/
lemma viable_of_extended {power : ℕ} {left : Expr} {w₁ : Window σ}
    (hleft : Extended levels power w left w₁) (hd : d.position = w₁.current.position) :
    Viable (levels + 1) power w d := by
  obtain ⟨g, -, hg, hnesting, habove⟩ := hleft
  exact .inr ⟨g, _, hg.completes, by rw [hd, ahead_of_spans hg], by omega, habove⟩

section Pieces

variable (hsound : ∀ q, SoundAt levels q (sub q))
  (hviable : ∀ q (w : Window σ) d w', (sub q).run w = (.error d, w') → Viable levels q w d)

include hsound hviable

/-! ### Operands -/

/-- The closing parenthesis is missing, or something is missing inside. -/
lemma viable_groupWith (ho : w.current.kind = .symbol .openParen)
    (h : (groupWith sub).run w = (.error d, w')) (power : ℕ) : Viable (levels + 1) power w d := by
  rw [groupWith, run_take_bind, run_bind_eq_error] at h
  rcases h with h | ⟨e, w₁, hinner, h⟩
  · rcases hviable _ _ _ _ h with hdeep | ⟨g, k, hg, hposition, hnesting, -⟩
    · exact .inl hdeep
    · exact .inr ⟨_, k + 1, hg.group ho, by simpa using hposition,
        by simpa [Grouped.nesting] using hnesting, by simp [Grouped.leftPowers]⟩
  · obtain ⟨g, -, hg, hlevels, -, -⟩ := hsound _ hinner
    rw [run_bind_eq_error] at h
    rcases h with h | ⟨_, _, -, h⟩
    · rw [expect, run_window_bind] at h
      have hposition := position_of_expectOr (by rfl) h
      rw [← ahead_of_spans hg, Window.ahead_advance] at hposition
      rw [Grouped.levels] at hlevels
      exact .inr ⟨_, g.tokens.length + 1, hg.completes.group ho, hposition,
        by rw [Grouped.nesting]; omega, by simp [Grouped.leftPowers]⟩
    · exact absurd h run_pure_ne_error

omit hsound in
lemma viable_unaryWith {p : ℕ} (hp : w.current.kind.unaryPower? = some p)
    (h : (unaryWith sub p).run w = (.error d, w')) (power : ℕ) : Viable (levels + 1) power w d := by
  rw [unaryWith, run_take_bind, run_bind_eq_error] at h
  rcases h with h | ⟨_, _, -, h⟩
  · rcases hviable _ _ _ _ h with hdeep | ⟨g, k, hg, hposition, hnesting, habove⟩
    · exact .inl hdeep
    · exact .inr ⟨_, k + 1, hg.unary hp habove, by simpa using hposition,
        by simpa [Grouped.nesting] using hnesting, by simp [Grouped.leftPowers]⟩
  · exact absurd h run_pure_ne_error

/-- Where no operand starts, any would do. -/
lemma viable_operandWith (h : (operandWith sub).run w = (.error d, w')) (power : ℕ) :
    Viable (levels + 1) power w d := by
  rw [operandWith, run_window_bind] at h
  split at h
  · rw [run_take_bind] at h
    exact absurd h run_pure_ne_error
  · split at h
    · next ho => exact viable_groupWith hsound hviable ho h power
    · split at h
      · next hp => exact viable_unaryWith hviable hp h power
      · have hd : w.unexpected "an expression" = d := by
          simpa [Parser.unexpected] using congrArg Prod.fst h
        exact .inr ⟨_, 0, Grouped.completes_one w, by rw [← hd]; rfl,
          by simp [Grouped.nesting], by simp [Grouped.leftPowers]⟩

/-! ### Lists -/

omit hsound in
/-- The first item, or the one after a comma, can be completed, and the list closed after it. -/
lemma viable_item {closing : Symbol} (hparen : closing ≠ .openParen) (hminus : closing ≠ .minus)
    (h : (sub minPower).run w = (.error d, w')) : ViableItems levels (.symbol closing) w d := by
  rcases hviable _ _ _ _ h with hdeep | ⟨g, k, hg, hposition, hnesting, -⟩
  · exact .inl hdeep
  · exact .inr ⟨_, k, Items.completes_last hg hparen hminus, hposition, hnesting⟩

lemma viable_commaTail {closing : Symbol} (hparen : closing ≠ .openParen)
    (hminus : closing ≠ .minus) {w₁ : Window σ}
    (h : (commaTail (sub minPower)).run w₁ = (.error d, w')) :
    ∀ {g : Grouped} {w : Window σ}, g.Spans w w₁ → g.levels ≤ levels →
      ViableItems levels (.symbol closing) w d := by
  -- The induction is on the commas; the tree `g` is the item that stands before the next of them.
  refine commaTail_fails (motive := fun w₁ d => ∀ {g : Grouped} {w : Window σ}, g.Spans w w₁ →
    g.levels ≤ levels → ViableItems levels (.symbol closing) w d) ?last ?more h
  case last =>
    intro w₁ d w₂ hcomma hitem g w hg hlevels
    exact viable_more hg hlevels hcomma (viable_item hviable hparen hminus hitem)
  case more =>
    intro w₁ e w₂ d hcomma hitem ih g w hg hlevels
    obtain ⟨g₂, -, hg₂, hlevels₂, -, -⟩ := hsound _ hitem
    exact viable_more hg hlevels hcomma (ih hg₂ hlevels₂)

omit hviable in
/-- After its items a list can be closed, whatever stands there. -/
lemma viable_closing {closing : Symbol} (hparen : closing ≠ .openParen) (hminus : closing ≠ .minus)
    {w₁ : Window σ} {es : List Expr} (h : (commaTail (sub minPower)).run w₁ = (.ok es, w'))
    (hd : d.position = w'.current.position) :
    ∀ {g : Grouped} {w : Window σ}, g.Spans w w₁ → g.levels ≤ levels →
      ViableItems levels (.symbol closing) w d := by
  revert hd
  refine commaTail_induct (motive := fun w₁ _ w' => d.position = w'.current.position →
    ∀ {g : Grouped} {w : Window σ}, g.Spans w w₁ → g.levels ≤ levels →
      ViableItems levels (.symbol closing) w d) ?done ?more h
  case done =>
    intro w₁ _ hd g w hg hlevels
    rw [← ahead_of_spans hg] at hd
    rw [Grouped.levels, Nat.add_comm] at hlevels
    exact .inr ⟨_, _, Items.completes_last hg.completes hparen hminus, hd, hlevels⟩
  case more =>
    intro w₁ e w₂ es w' hcomma hitem ih hd g w hg hlevels
    obtain ⟨g₂, -, hg₂, hlevels₂, -, -⟩ := hsound _ hitem
    exact viable_more hg hlevels hcomma (ih hd hg₂ hlevels₂)

/-- In a list an item can be completed, or the list is to be closed. -/
lemma viable_listWith {closing : Symbol} (hparen : closing ≠ .openParen)
    (hminus : closing ≠ .minus) {allowEmpty : Bool}
    (h : (listWith sub (.symbol closing) allowEmpty).run w = (.error d, w')) :
    ViableItems levels (.symbol closing) w d := by
  rw [listWith, run_window_bind] at h
  split at h
  · rw [run_take_bind] at h
    exact absurd h run_pure_ne_error
  · rw [run_bind_eq_error] at h
    rcases h with h | ⟨es, w₁, hitems, h⟩
    · rw [commaSeparated, run_bind_eq_error] at h
      rcases h with h | ⟨e, w₁, hfirst, h⟩
      · exact viable_item hviable hparen hminus h
      · obtain ⟨g, -, hg, hlevels, -, -⟩ := hsound _ hfirst
        rw [run_bind_eq_error] at h
        rcases h with h | ⟨_, _, -, h⟩
        · exact viable_commaTail hsound hviable hparen hminus h hg hlevels
        · exact absurd h run_pure_ne_error
    · rw [run_window_bind, run_bind_eq_error] at h
      rcases h with h | ⟨_, _, -, h⟩
      · have hposition := position_of_expectOr (by rfl) h
        rw [commaSeparated, run_bind_eq_ok] at hitems
        obtain ⟨e, w₂, hfirst, hitems⟩ := hitems
        rw [run_bind_eq_ok] at hitems
        obtain ⟨es₂, w₃, hrest, hitems⟩ := hitems
        obtain ⟨-, rfl⟩ := run_pure_eq_ok.1 hitems
        obtain ⟨g, -, hg, hlevels, -, -⟩ := hsound _ hfirst
        exact viable_closing hsound hparen hminus hrest hposition hg hlevels
      · exact absurd h run_pure_ne_error

/-! ### Operators -/

omit hsound in
lemma viable_binaryAfter {power : ℕ} {p : BindingPower} {w₁ : Window σ} {left : Expr}
    (hleft : Extended levels power w left w₁) (hb : w₁.current.kind.binaryPower? = some p)
    (hs : suffixPower? w₁ = none) (hpower : power < p.left)
    (h : (binaryAfter sub left p.right w₁.current).run w₁.advance = (.error d, w')) :
    Viable (levels + 1) power w d := by
  rw [binaryAfter, run_bind_eq_error] at h
  rcases h with h | ⟨_, _, -, h⟩
  · rcases hviable _ _ _ _ h with hdeep | ⟨r, k, hr, hposition, hnesting, hrabove⟩
    · exact .inl hdeep
    · obtain ⟨l, -, hl, hlnesting, habove⟩ := hleft
      rw [ahead_advance_of_spans hl] at hposition
      refine .inr ⟨_, _, hr.binary hl hb hs hrabove, hposition, ?_, ?_⟩
      · rw [Grouped.nesting]
        omega
      · intro q hq
        rcases (by simpa [Grouped.leftPowers, hb] using hq : q = p.left ∨ q ∈ l.leftPowers) with
          rfl | hq
        · exact hpower
        · exact habove q hq
  · exact absurd h run_pure_ne_error

/-- The bracket of a call or an indexing is refused, or something is missing in its list. -/
lemma viable_suffixAfter {power p : ℕ} {w₁ : Window σ} {left : Expr}
    (hleft : Extended levels power w left w₁) (hs : suffixPower? w₁ = some p) (hpower : power < p)
    (h : (suffixAfter sub left (w.current.kind = .symbol .openParen) w₁.current).run w₁.advance =
      (.error d, w')) :
    Viable (levels + 1) power w d := by
  have hp := kind_suffixPower?_of_eq_some hs
  unfold suffixAfter at h
  split at h
  · next hbracket =>
    split at h
    · obtain ⟨rfl, -⟩ : _ = d ∧ _ := by simpa using h
      exact viable_of_extended hleft rfl
    · next callee hcallee =>
      obtain ⟨rfl, rfl, hk⟩ := current_of_callee? hleft hcallee
      split at h
      · next ho =>
        rw [run_bind_eq_error] at h
        rcases h with h | ⟨_, _, -, h⟩
        · rcases viable_listWith hsound hviable (by decide) (by decide) h with
            hdeep | ⟨is, k, his, hposition, hnesting⟩
          · exact .inl hdeep
          · exact .inr ⟨_, k + 2, his.call hk ho, by simpa using hposition,
              Nat.lt_succ_of_le hnesting, by simpa [Grouped.leftPowers, hp] using hpower⟩
        · exact absurd h run_pure_ne_error
      · next ho =>
        rw [run_bind_eq_error] at h
        rcases h with h | ⟨_, _, -, h⟩
        · rcases viable_listWith hsound hviable (by decide) (by decide) h with
            hdeep | ⟨is, k, his, hposition, hnesting⟩
          · exact .inl hdeep
          · exact .inr ⟨_, k + 2, his.index hk (hbracket.resolve_left ho),
              by simpa using hposition, Nat.lt_succ_of_le hnesting,
              by simpa [Grouped.leftPowers, hp] using hpower⟩
        · exact absurd h run_pure_ne_error
  · exact absurd h run_pure_ne_error

/-! ### Expressions -/

lemma viable_operatorsWith {power : ℕ} (h : (operatorsWith sub power).run w = (.error d, w')) :
    Viable (levels + 1) power w d := by
  rw [operatorsWith, run_window_bind, run_bind_eq_error] at h
  rcases h with h | ⟨first, w₁, hfirst, h⟩
  · exact viable_operandWith hsound hviable h power
  · obtain ⟨left, w₂, extension, hleft, hoffer, hround⟩ :=
      iterate_fails (I := Extended levels power w) (extended_round hsound) h
        (extended_operand hsound hfirst)
    cases extension with
    | suffix =>
      obtain ⟨p, hs, hpower⟩ := extension?_eq_suffix hoffer
      exact viable_suffixAfter hsound hviable hleft hs hpower hround
    | binary r =>
      obtain ⟨p, hb, hs, rfl, hpower⟩ := extension?_eq_binary hoffer
      exact viable_binaryAfter hviable hleft hb hs hpower hround

end Pieces

lemma viable_exprAt (levels power : ℕ) (w : Window σ) (d : Diagnostic) (w' : Window σ)
    (h : (exprAt levels power).run w = (.error d, w')) : Viable levels power w d := by
  induction levels generalizing power w d w' with
  | zero =>
    obtain ⟨rfl, -⟩ : w.tooDeep = d ∧ w = w' := by simpa [exprAt] using h
    exact .inl ⟨_, rfl⟩
  | succ levels ih =>
    cases he : w.enter with
    | error d' =>
      rw [exprAt, run_nested_of_error he] at h
      obtain ⟨rfl, -⟩ : d' = d ∧ w = w' := by simpa using h
      exact .inl (tooDeep_of_enter he)
    | ok w₁ =>
      rw [exprAt, run_nested_of_ok he] at h
      obtain ⟨hresult, -⟩ := Prod.mk.inj h
      have hw₁ : w₁ = { w with depth := w.depth + 1 } := Window.eq_of_enter he
      rcases viable_operatorsWith (soundAt_exprAt levels) ih (Prod.ext hresult rfl) with
        hdeep | ⟨g, k, hg, hposition, hnesting, habove⟩
      · exact .inl hdeep
      · -- One more expression is open inside, which no token depends on.
        rw [hw₁, Window.ahead_depth] at hposition
        refine .inr ⟨g, k, ⟨?_, hg.wellFormed, hg.binds, hg.derefsClear⟩, hposition, hnesting,
          habove⟩
        have htokens := hg.tokens
        rwa [hw₁, Window.taken_depth] at htokens

end Grammar

end Pseudolang
