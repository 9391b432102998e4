import Pseudolang.Proofs.Consumption
import Pseudolang.Proofs.Operands

/-!
# What a refused bracket is said to follow

A bracket after an operand calls or indexes it, and only an identifier may be called or indexed.  At
any other bracket the parser stops, and the diagnostic names the operand before it.  That operand is
the smallest one that is complete there (`NamesOperand`), whatever stands around it.

`Parser.NamesCallee before p w` says so of one run, for the tokens `before` that were read on the
way to the window.  It goes through sequences (`Parser.NamesCallee.bind`), with the tokens of the
first part added to them.  Where an expression starts, an operand may start behind these tokens
(`Admits`): behind a separator any, behind an operator one that binds tighter than it asks for.  So
what the loop over operators has read so far is a complete operand, and since all its operators ask
for less than a bracket binds, none of them stands on its right spine
(`Grammar.namesOperand_of_extended`).
-/

namespace Pseudolang

open Pseudolang.Grammar Pseudolang.Parser

variable {σ : Type} [TokenStream σ] {before : List Token} {power : ℕ}

/-! ## Where an expression starts -/

/-- The kinds of the tokens behind which an expression starts, but for the operators. -/
def Kind.separators : List Kind :=
  [.symbol .openParen, .symbol .openBracket, .symbol .comma, .symbol .colon, .symbol .assign,
    .keyword .output]

/-- Behind the tokens an operand may start that binds tighter than the power. -/
def Admits (before : List Token) (power : ℕ) : Prop :=
  ∀ t ∈ before.getLast?, ∀ g : Grouped, (∀ q ∈ g.leftPowers, power < q) → t.Leads g

namespace Admits

variable {t : Token}

lemma concat (h : ∀ g : Grouped, (∀ q ∈ g.leftPowers, power < q) → t.Leads g) :
    Admits (before ++ [t]) power := by
  intro u hu
  obtain rfl : t = u := by simpa using hu
  exact h

/-- No operand is complete with a separator, and it asks for nothing. -/
lemma of_separator (ht : t.Plain) (hk : t.kind ∈ Kind.separators) :
    Admits (before ++ [t]) power := by
  have hkinds : ∀ k ∈ Kind.separators, k ≠ .identifier ∧ ¬k.isNative ∧
      k ≠ .symbol .closeParen ∧ k ≠ .symbol .closeBracket ∧ k.rightPowers = [] := by decide
  obtain ⟨hid, hnative, hparen, hbracket, hnil⟩ := hkinds t.kind hk
  exact concat fun _ _ => ⟨ht.not_closesOperand hid hnative hparen hbracket, .inl hnil⟩

lemma of_unary (ht : t.Plain) (hp : t.kind.unaryPower? = some power) :
    Admits (before ++ [t]) power :=
  concat fun _ habove => ht.leads (by simp [Kind.rightPowers, hp]) habove

lemma of_binary (ht : t.Plain) {p : BindingPower} (hp : t.kind.binaryPower? = some p) :
    Admits (before ++ [t]) p.right :=
  concat fun _ habove => ht.leads (by simp [Kind.rightPowers, hp]) habove

end Admits

/-! ## Runs -/

/-- If the diagnostic refuses a bracket, it names the operand before it.  The tokens in front of the
window are `before`. -/
def Diagnostic.NamesCallee (before : List Token) (w : Window σ) (d : Diagnostic) : Prop :=
  ∀ operator found, d.cause = .invalidCallee operator found →
    ∃ k, d.position = (w.ahead k).position ∧
      NamesOperand (before ++ w.taken k) (w.ahead k) found

namespace Diagnostic.NamesCallee

variable {w : Window σ} {d : Diagnostic}

lemma of_advanceBy {n : ℕ} (h : d.NamesCallee (before ++ w.taken n) (w.advanceBy n)) :
    d.NamesCallee before w := by
  intro operator found hcause
  obtain ⟨k, hposition, hnames⟩ := h operator found hcause
  rw [Window.ahead_advanceBy] at hposition hnames
  rw [List.append_assoc, ← Window.taken_add] at hnames
  exact ⟨n + k, hposition, hnames⟩

lemma of_advance (h : d.NamesCallee (before ++ [w.current]) w.advance) : d.NamesCallee before w :=
  of_advanceBy (n := 1) h

lemma unexpected (expected : String) : (w.unexpected expected).NamesCallee before w := by
  intro operator found hcause
  rw [Window.unexpected] at hcause
  split at hcause
  · cases hcause
  · cases hcause

lemma notStatement : w.notStatement.NamesCallee before w := by
  rw [Window.notStatement]
  split
  · exact unexpected _
  · rintro _ _ ⟨⟩

end Diagnostic.NamesCallee

namespace Parser

variable {α β : Type}

/-- What the run is refused with names the operand before a bracket, if it refuses one. -/
def NamesCallee (before : List Token) (p : Parser σ α) (w : Window σ) : Prop :=
  ∀ d w', p.run w = (.error d, w') → d.NamesCallee before w

namespace NamesCallee

variable {p : Parser σ α} {f : α → Parser σ β} {w : Window σ}

lemma pure {a : α} : NamesCallee before (Pure.pure a : Parser σ α) w := by
  intro d w' h
  exact absurd h run_pure_ne_error

lemma window {f : Window σ → Parser σ α} (h : NamesCallee before (f w) w) :
    NamesCallee before (Parser.window >>= f) w := h

lemma fail {d : Diagnostic} (h : d.NamesCallee before w) :
    NamesCallee before (fail d : Parser σ α) w := by
  intro d' w' hd
  obtain ⟨rfl, -⟩ : d = d' ∧ w = w' := by simpa using hd
  exact h

lemma unexpected {expected : String} :
    NamesCallee before (unexpected expected : Parser σ α) w :=
  window (fail (.unexpected expected))

/-- What the first part has read stands before the second one. -/
lemma bind (h : NamesCallee before p w)
    (hf : ∀ a n, p.run w = (.ok a, w.advanceBy n) →
      NamesCallee (before ++ w.taken n) (f a) (w.advanceBy n)) :
    NamesCallee before (p >>= f) w := by
  intro d w' hd
  rcases run_bind_eq_error.1 hd with hd | ⟨a, w₁, hrun, hd⟩
  · exact h d w' hd
  · obtain ⟨n, rfl⟩ := forward_of_run hrun
    exact .of_advanceBy (hf a n hrun d w' hd)

lemma take : NamesCallee before (take : Parser σ Token) w := by
  rintro _ _ ⟨⟩

lemma take_bind {f : Token → Parser σ β}
    (h : NamesCallee (before ++ [w.current]) (f w.current) w.advance) :
    NamesCallee before (Parser.take >>= f) w :=
  fun d w' hd => .of_advance (h d w' hd)

lemma expectOr_bind {kind : Kind} {d : Diagnostic} {f : Token → Parser σ β}
    (hd : d.NamesCallee before w) (h : w.current.kind = kind →
      NamesCallee (before ++ [w.current]) (f w.current) w.advance) :
    NamesCallee before (expectOr kind d >>= f) w := by
  intro d' w' hrun
  rcases run_bind_eq_error.1 hrun with hrun | ⟨a, w₁, htaken, hrun⟩
  · rw [run_expectOr] at hrun
    split at hrun
    · cases hrun
    · obtain ⟨rfl, -⟩ : d = d' ∧ w = w' := by simpa using hrun
      exact hd
  · obtain ⟨hk, rfl, rfl⟩ := run_expectOr_eq_ok.1 htaken
    exact .of_advance (h hk d' w' hrun)

lemma expect_bind {kind : Kind} {f : Token → Parser σ β} (h : w.current.kind = kind →
      NamesCallee (before ++ [w.current]) (f w.current) w.advance) :
    NamesCallee before (expect kind >>= f) w :=
  expectOr_bind (d := w.unexpected kind.describe) (.unexpected _) h

lemma endOfStatement : NamesCallee before (endOfStatement : Parser σ Unit) w := by
  refine window ?_
  split
  · exact pure
  · exact fail (.unexpected _)

lemma nested (h : NamesCallee before p { w with depth := w.depth + 1 }) :
    NamesCallee before (nested p) w := by
  intro d w' hd
  cases he : w.enter with
  | error d' =>
    rw [run_nested_of_error he] at hd
    obtain ⟨rfl, -⟩ : d' = d ∧ w = w' := by simpa using hd
    obtain ⟨found, hdeep⟩ := tooDeep_of_enter he
    rintro _ _ hcause
    rw [hdeep] at hcause
    cases hcause
  | ok w₁ =>
    obtain rfl := Window.eq_of_enter he
    rw [run_nested_of_ok he] at hd
    obtain ⟨hresult, -⟩ := Prod.mk.inj hd
    intro operator found hcause
    -- no token depends on how many expressions are open
    obtain ⟨k, hposition, hnames⟩ := h d _ (Prod.ext hresult rfl) operator found hcause
    rw [Window.ahead_depth] at hposition hnames
    rw [Window.taken_depth] at hnames
    exact ⟨k, hposition, hnames⟩

/-- Every item of a list but the first stands behind a comma. -/
lemma commaTail (hitem : ∀ before (w : Window σ) (t : Token), t.kind = .symbol .comma → t.Plain →
      w.All Token.Plain → NamesCallee (before ++ [t]) p w) (hw : w.All Token.Plain) :
    NamesCallee before (commaTail p) w := by
  intro d w' hd
  refine commaTail_fails (motive := fun w d => ∀ before, w.All Token.Plain →
    d.NamesCallee before w) ?last ?more hd before hw
  case last =>
    intro w d w' hcomma hrun before hw
    exact .of_advance (hitem before w.advance w.current hcomma hw.current hw.advance d w' hrun)
  case more =>
    intro w a w' d hcomma hrun ih before hw
    obtain ⟨n, rfl⟩ := forward_of_run hrun
    exact .of_advanceBy (n := n + 1) (ih _ (hw.advanceBy (n + 1)))

lemma commaSeparated (hfirst : NamesCallee before p w)
    (hitem : ∀ before (w : Window σ) (t : Token), t.kind = .symbol .comma → t.Plain →
      w.All Token.Plain → NamesCallee (before ++ [t]) p w) (hw : w.All Token.Plain) :
    NamesCallee before (commaSeparated p) w :=
  bind hfirst fun _ n _ => bind (commaTail hitem (hw.advanceBy n)) fun _ _ _ => pure

end NamesCallee

end Parser

/-! ## Expressions -/

/-- No operator asks for as much as a bracket binds. -/
lemma Grouped.lt_of_mem_rightPowers : ∀ {g : Grouped}, ∀ q ∈ g.rightPowers, q < 23
  | .unary operator operand, q, hq => by
      rcases List.mem_append.1 hq with hq | hq
      · exact Kind.lt_of_unaryPower? (Option.mem_toList.1 hq)
      · exact lt_of_mem_rightPowers (g := operand) q hq
  | .binary operator _ right, q, hq => by
      rcases List.mem_append.1 hq with hq | hq
      · obtain ⟨p, hp, rfl⟩ := Option.map_eq_some_iff.1 (Option.mem_toList.1 hq)
        exact Kind.right_lt_of_binaryPower? hp
      · exact lt_of_mem_rightPowers (g := right) q hq
  | .atom _, _, hq => absurd hq List.not_mem_nil
  | .group .., _, hq => absurd hq List.not_mem_nil
  | .suffix .., _, hq => absurd hq List.not_mem_nil
  | .callNone .., _, hq => absurd hq List.not_mem_nil
  | .call .., _, hq => absurd hq List.not_mem_nil
  | .index .., _, hq => absurd hq List.not_mem_nil

lemma Kind.suffixPower?_of_bracket {k : Kind}
    (h : k = .symbol .openParen ∨ k = .symbol .openBracket) : k.suffixPower? = some 23 := by
  rcases h with rfl | rfl
  · rfl
  · rfl

namespace Grammar

variable {levels : ℕ} {sub : ℕ → Parser σ Expr} {w w' : Window σ} {d : Diagnostic}

/-- What the loop over operators has read so far is the smallest operand before a bracket. -/
lemma namesOperand_of_extended (hlevels : levels < Expr.maxNesting) (hw : w.All Token.Plain)
    (hbefore : Admits before power) {left : Expr} {w₁ : Window σ}
    (hleft : Extended levels power w left w₁)
    (hbracket : w₁.current.kind = .symbol .openParen ∨ w₁.current.kind = .symbol .openBracket) :
    ∃ n, w.advanceBy n = w₁ ∧ NamesOperand (before ++ w.taken n) w₁.current
      (calleeText left (w.current.kind = .symbol .openParen)) := by
  obtain ⟨g, rfl, hg, hnesting, habove⟩ := hleft
  refine ⟨g.tokens.length, hg.stops, ?_⟩
  have hplain : ∀ t ∈ g.tokens, t.Plain := hg.shows.forall_mem_of_all hw
  have hends : g.EndsAt (before ++ g.tokens) w₁.current := by
    refine ⟨⟨hg.wellFormed, hg.binds, hg.derefsClear, hplain⟩, List.suffix_append .., ?_⟩
    intro front t heq
    rw [← List.singleton_append, ← List.append_assoc] at heq
    obtain rfl := List.append_cancel_right heq
    exact hbefore t (by simp) g habove
  -- an operator on the right spine would have taken the bracket for its operand
  have hnil : g.rightPowers = [] := by
    refine List.eq_nil_iff_forall_not_mem.2 fun q hq => ?_
    have hs : suffixPower? w₁ = some 23 := by
      rw [suffixPower?, Kind.suffixPower?_of_bracket hbracket, if_neg]
      rintro ⟨hcaret, -⟩
      simp [hcaret] at hbracket
    have hend := hg.ends q hq
    rw [extension?_of_suffix hs, if_pos (Grouped.lt_of_mem_rightPowers q hq)] at hend
    cases hend
  obtain ⟨t, ts, hts, -⟩ := Grouped.exists_tokens_eq_cons hg.wellFormed
  have hcurrent : w.current = t := (hts ▸ hg.shows).1
  have hlevels' : g.levels ≤ Expr.maxNesting := by
    rw [Grouped.levels]
    omega
  rw [hg.shows.taken_eq, hcurrent,
    Grouped.calleeText_toExpr hg.wellFormed hts (hcurrent ▸ hw.current)]
  exact (hends.isSmallest hnil).namesOperand hlevels'

section Pieces

variable (hsound : ∀ q, SoundAt levels q (sub q)) (hlevels : levels < Expr.maxNesting)
  (hsub : ∀ q before (w : Window σ), w.All Token.Plain → Admits before q →
    NamesCallee before (sub q) w)

include hsub

lemma namesCallee_groupWith (hw : w.All Token.Plain) (ho : w.current.kind = .symbol .openParen) :
    NamesCallee before (groupWith sub) w := by
  have hinner := hsub minPower (before ++ [w.current]) w.advance hw.advance
    (.of_separator hw.current (ho ▸ by decide))
  exact .take_bind (.bind hinner fun _ _ _ => .expect_bind fun _ => .pure)

lemma namesCallee_unaryWith (hw : w.All Token.Plain)
    (hp : w.current.kind.unaryPower? = some power) :
    NamesCallee before (unaryWith sub power) w := by
  have hoperand := hsub power (before ++ [w.current]) w.advance hw.advance
    (.of_unary hw.current hp)
  exact .take_bind (.bind hoperand fun _ _ _ => .pure)

lemma namesCallee_operandWith (hw : w.All Token.Plain) :
    NamesCallee before (operandWith sub) w := by
  refine .window ?_
  split
  · exact .take_bind .pure
  · split
    · next ho => exact namesCallee_groupWith hsub hw ho
    · split
      · next hp => exact namesCallee_unaryWith hsub hw hp
      · exact .unexpected

lemma namesCallee_commaSeparated (hw : w.All Token.Plain) (hbefore : Admits before minPower) :
    NamesCallee before (commaSeparated (sub minPower)) w :=
  .commaSeparated (hsub minPower before w hw hbefore)
    (fun before w _ hcomma ht hw => hsub minPower _ w hw (.of_separator ht (hcomma ▸ by decide))) hw

lemma namesCallee_listWith (hw : w.All Token.Plain) (hbefore : Admits before minPower)
    (closing : Kind) (allowEmpty : Bool) :
    NamesCallee before (listWith sub closing allowEmpty) w := by
  refine .window ?_
  split
  · exact .take_bind .pure
  · refine .bind (namesCallee_commaSeparated hsub hw hbefore) fun _ n _ => .window ?_
    exact .expectOr_bind (.unexpected _) fun _ => .pure

/-- The list behind an identifier and its bracket. -/
lemma namesCallee_bracketed (hw : w.All Token.Plain)
    (hbracket : w.advance.current.kind ∈ Kind.separators) {closing : Kind} {allowEmpty : Bool}
    {make : List Expr → Expr}
    (h : (listWith sub closing allowEmpty >>= fun es => pure (make es)).run w.advance.advance =
      (.error d, w')) : d.NamesCallee before w := by
  have hlist : NamesCallee (before ++ [w.current] ++ [w.advance.current])
      (listWith sub closing allowEmpty) w.advance.advance :=
    namesCallee_listWith hsub hw.advance.advance (.of_separator hw.advance.current hbracket) _ _
  exact .of_advance (.of_advance ((hlist.bind fun _ _ _ => .pure) d w' h))

include hlevels

lemma namesCallee_suffixAfter (hw : w.All Token.Plain) (hbefore : Admits before power)
    {left : Expr} {w₁ : Window σ} (hleft : Extended levels power w left w₁)
    (h : (suffixAfter sub left (w.current.kind = .symbol .openParen) w₁.current).run w₁.advance =
      (.error d, w')) : d.NamesCallee before w := by
  unfold suffixAfter at h
  split at h
  · next hbracket =>
    split at h
    · intro operator found hcause
      obtain ⟨rfl, -⟩ : _ = d ∧ _ := by simpa using h
      obtain ⟨rfl, rfl⟩ := Cause.invalidCallee.inj hcause
      obtain ⟨n, rfl, hnames⟩ := namesOperand_of_extended hlevels hw hbefore hleft hbracket
      exact ⟨n, rfl, hnames⟩
    · next callee hcallee =>
      obtain ⟨-, rfl, -⟩ := current_of_callee? hleft hcallee
      split at h
      · next ho => exact namesCallee_bracketed hsub hw (ho ▸ by decide) h
      · next ho =>
        exact namesCallee_bracketed hsub hw (hbracket.resolve_left ho ▸ by decide) h
  · exact absurd h run_pure_ne_error

omit hlevels in
lemma namesCallee_binaryAfter (hw : w.All Token.Plain) {left : Expr} {w₁ : Window σ} {n : ℕ}
    (hn : w.advanceBy n = w₁) {p : BindingPower} (hp : w₁.current.kind.binaryPower? = some p)
    (h : (binaryAfter sub left p.right w₁.current).run w₁.advance = (.error d, w')) :
    d.NamesCallee before w := by
  subst hn
  have hright := hsub p.right (before ++ w.taken n ++ [(w.advanceBy n).current])
    (w.advanceBy n).advance (hw.advanceBy n).advance (.of_binary (hw.advanceBy n).current hp)
  exact .of_advanceBy (.of_advance ((hright.bind fun _ _ _ => .pure) d w' h))

include hsound

lemma namesCallee_operatorsWith (hw : w.All Token.Plain) (hbefore : Admits before power) :
    NamesCallee before (operatorsWith sub power) w := by
  intro d w' h
  rw [operatorsWith, run_window_bind, run_bind_eq_error] at h
  rcases h with h | ⟨first, w₁, hfirst, h⟩
  · exact namesCallee_operandWith hsub hw d w' h
  · obtain ⟨left, w₂, extension, hleft, hoffer, hround⟩ :=
      iterate_fails (I := Extended levels power w) (extended_round hsound) h
        (extended_operand hsound hfirst)
    cases extension with
    | suffix => exact namesCallee_suffixAfter hlevels hsub hw hbefore hleft hround
    | binary r =>
      obtain ⟨p, hp, -, rfl, -⟩ := extension?_eq_binary hoffer
      obtain ⟨g, -, hg, -, -⟩ := hleft
      exact namesCallee_binaryAfter hsub hw hg.stops hp hround

end Pieces

lemma namesCallee_exprAt (hlevels : levels ≤ Expr.maxNesting) (before : List Token)
    (w : Window σ) (hw : w.All Token.Plain) (hbefore : Admits before power) :
    NamesCallee before (exprAt levels power) w := by
  induction levels generalizing power before w with
  | zero =>
    intro d w' h
    obtain ⟨rfl, -⟩ : w.tooDeep = d ∧ w = w' := by simpa [exprAt] using h
    rintro _ _ ⟨⟩
  | succ levels ih =>
    refine .nested ?_
    exact namesCallee_operatorsWith (soundAt_exprAt levels) hlevels
      (fun q before w hw hbefore => ih (by omega) before w hw hbefore) (hw.depth _) hbefore

lemma namesCallee_expr (power : ℕ) (before : List Token) (w : Window σ) (hw : w.All Token.Plain)
    (hbefore : Admits before power) : NamesCallee before (expr power) w :=
  namesCallee_exprAt (Nat.sub_le ..) before w hw hbefore

/-! ## Statements -/

lemma namesCallee_datatype : NamesCallee before datatype w := by
  refine .window ?_
  split
  · exact .take
  · exact .unexpected

lemma namesCallee_lowerBound : NamesCallee before lowerBound w := by
  refine .window ?_
  split
  · split
    · exact .take
    · exact .fail (by rintro _ _ ⟨⟩)
  · exact .unexpected

lemma namesCallee_dimension (hw : w.All Token.Plain) : NamesCallee before dimension w := by
  refine .bind namesCallee_lowerBound fun _ n _ => .expect_bind fun hcolon => ?_
  have hw₁ := hw.advanceBy n
  exact namesCallee_expr _ _ _ hw₁.advance (.of_separator hw₁.current (hcolon ▸ by decide))

lemma namesCallee_arrayType (hw : w.All Token.Plain) : NamesCallee before arrayType w := by
  refine .expect_bind fun _ => .expect_bind fun _ => ?_
  have hw₂ := hw.advance.advance
  refine .bind (.commaSeparated (namesCallee_dimension hw₂)
    (fun _ _ _ _ _ hw => namesCallee_dimension hw) hw₂) fun _ _ _ => .window ?_
  refine .expectOr_bind (.unexpected _) fun _ => .expect_bind fun _ => ?_
  exact .bind namesCallee_datatype fun _ _ _ => .pure

/-- The end of a statement, and the statement that was read. -/
lemma namesCallee_finish (s : Statement) :
    NamesCallee before (endOfStatement >>= fun _ => pure s) w :=
  .bind .endOfStatement fun _ _ _ => .pure

lemma namesCallee_declareStatement (hw : w.All Token.Plain) :
    NamesCallee before declareStatement w := by
  refine .take_bind (.expect_bind fun _ => .expect_bind fun _ => .window ?_)
  split
  · exact .bind (namesCallee_arrayType hw.advance.advance.advance) fun _ _ _ => namesCallee_finish _
  · exact .bind namesCallee_datatype fun _ _ _ => namesCallee_finish _

lemma namesCallee_constantStatement : NamesCallee before constantStatement w := by
  refine .take_bind (.expect_bind fun _ => .expect_bind fun _ => .window ?_)
  split
  · exact .take_bind (namesCallee_finish _)
  · exact .unexpected

/-- The arrow, and the value behind it. -/
lemma namesCallee_value (hw : w.All Token.Plain) (make : Expr → Statement) :
    NamesCallee before (expect (.symbol .assign) >>= fun _ => expr minPower >>= fun value =>
      endOfStatement >>= fun _ => pure (make value)) w := by
  refine .expect_bind fun harrow => ?_
  have hvalue := namesCallee_expr minPower (before ++ [w.current]) w.advance hw.advance
    (.of_separator hw.current (harrow ▸ by decide))
  exact .bind hvalue fun _ _ _ => namesCallee_finish _

lemma namesCallee_elementAfter (hw : w.All Token.Plain) (identifier : Token) :
    NamesCallee before (elementAfter identifier) w := by
  refine .expect_bind fun hopen => ?_
  have hindexes : NamesCallee (before ++ [w.current]) (exprList (.symbol .closeBracket) false)
      w.advance :=
    namesCallee_listWith namesCallee_expr hw.advance
      (.of_separator hw.current (hopen ▸ by decide)) _ _
  exact .bind hindexes fun _ n _ => namesCallee_value (hw.advance.advanceBy n) _

lemma namesCallee_assignStatement (hw : w.All Token.Plain) :
    NamesCallee before assignStatement w := by
  have hafter : NamesCallee (before ++ [w.current])
      (if w.peek.kind = .symbol .openBracket then elementAfter w.current else plainAfter w.current)
      w.advance := by
    split
    · exact namesCallee_elementAfter hw.advance w.current
    · exact namesCallee_value hw.advance _
  intro d w' h
  rw [run_assignStatement] at h
  exact .of_advance (hafter d w' h)

lemma namesCallee_inputStatement : NamesCallee before inputStatement w :=
  .take_bind (.expect_bind fun _ => namesCallee_finish _)

lemma namesCallee_outputStatement (hw : w.All Token.Plain)
    (hk : w.current.kind = .keyword .output) : NamesCallee before outputStatement w := by
  have hvalues : NamesCallee (before ++ [w.current]) (commaSeparated (expr minPower)) w.advance :=
    namesCallee_commaSeparated namesCallee_expr hw.advance
      (.of_separator hw.current (hk ▸ by decide))
  exact .take_bind (.bind hvalues fun _ _ _ => namesCallee_finish _)

/-- Where a statement is refused for a bracket, the operand before the bracket is named. -/
lemma namesCallee_statement (hw : w.All Token.Plain) : NamesCallee before statement w := by
  refine .window ?_
  cases hk : w.current.kind with
  | identifier => exact namesCallee_assignStatement hw
  | keyword k =>
    cases k with
    | declare => exact namesCallee_declareStatement hw
    | constant => exact namesCallee_constantStatement
    | input => exact namesCallee_inputStatement
    | output => exact namesCallee_outputStatement hw hk
    | _ => exact .fail .notStatement
  | _ => exact .fail .notStatement

end Grammar

end Pseudolang
