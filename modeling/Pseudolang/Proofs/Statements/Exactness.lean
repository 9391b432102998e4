import Pseudolang.Proofs.Precedence.ValidPrefix
import Pseudolang.Proofs.Statements

/-!
# Nothing else is read

The converse for statements: whatever is read is a line of the grammar, and whatever was read before
an error is the front of one.  Both are said together, of a parser and a language of its results
(`Parser.Reads`): on success the tokens taken are in the language, and on failure the tokens before
the one that the diagnostic points at can be completed to a word of it.

A sequence of parsers reads a language if its first part reads one, and the rest reads what is left
of the language behind every word of that (`Parser.Reads.bind`).  What completes a word after an
error is found along the same way, since a language that is read has at least one word.

With the other direction, a line of a source text is a statement exactly if it is in the grammar
(`Line.Proper.outcome_eq_ok_iff`).
-/

namespace Pseudolang

open Pseudolang.Grammar Pseudolang.Parser

variable {σ : Type} [TokenStream σ] {α β : Type}

/-! ## Languages of parsers -/

/-- The run from the window takes a word of the language or fails behind the front of one. -/
structure Parser.Reads (L : List Token → α → Prop) (p : Parser σ α) (w : Window σ) : Prop where
  /-- The language has a word that can be written. -/
  completable : ∃ ts a, L ts a ∧ ∀ t ∈ ts, t.Writable
  ok {a : α} {w' : Window σ} : p.run w = (.ok a, w') → ∃ k, w' = w.advanceBy k ∧ L (w.taken k) a
  error {d : Diagnostic} {w' : Window σ} : p.run w = (.error d, w') → d.TooDeep ∨
    ∃ k rest a, d.position = (w.ahead k).position ∧ L (w.taken k ++ rest) a ∧
      ∀ t ∈ rest, t.Writable

/-- The language of the tokens with a property. -/
def Single (P : Token → Prop) (ts : List Token) (t : Token) : Prop :=
  ts = [t] ∧ P t

/-- What follows the first item of a list: nothing, or a comma and a list. -/
def AfterFirst (L : List Token → α → Prop) (ts : List Token) (as : List α) : Prop :=
  ts = [] ∧ as = [] ∨
    ∃ comma us, ts = comma :: us ∧ comma.kind = .symbol .comma ∧ Separated L us as

lemma Separated.of_afterFirst {L : List Token → α → Prop} {ts us : List Token} {a : α}
    {as : List α} (h : L ts a) (hafter : AfterFirst L us as) :
    Separated L (ts ++ us) (a :: as) := by
  rcases hafter with ⟨rfl, rfl⟩ | ⟨comma, us, rfl, hc, hus⟩
  · rw [List.append_nil]
    exact .one h
  · exact .more h hc hus

namespace Parser.Reads

variable {L : List Token → α → Prop} {M : List Token → β → Prop} {p : Parser σ α}
  {f : α → Parser σ β} {w : Window σ} {d : Diagnostic}

lemma bind (hw : w.Proper) (hp : Reads L p w)
    (hf : ∀ ts a (w' : Window σ), L ts a → w'.Proper →
      Reads (fun us b => M (ts ++ us) b) (f a) w') : Reads M (p >>= f) w where
  completable := by
    obtain ⟨ts, a, hL, hts⟩ := hp.completable
    obtain ⟨us, b, hM, hus⟩ := (hf ts a w hL hw).completable
    exact ⟨ts ++ us, b, hM, List.forall_mem_append.2 ⟨hts, hus⟩⟩
  ok h := by
    obtain ⟨a, w₁, hrun, h⟩ := run_bind_eq_ok.1 h
    obtain ⟨k, rfl, hL⟩ := hp.ok hrun
    obtain ⟨n, rfl, hM⟩ := (hf _ a _ hL (hw.advanceBy k)).ok h
    exact ⟨k + n, (Window.advanceBy_add k n w).symm, by rwa [Window.taken_add]⟩
  error h := by
    rcases run_bind_eq_error.1 h with h | ⟨a, w₁, hrun, h⟩
    · refine (hp.error h).imp_right ?_
      rintro ⟨k, rest, a, hposition, hL, hrest⟩
      obtain ⟨us, b, hM, hus⟩ := (hf _ a w hL hw).completable
      rw [List.append_assoc] at hM
      exact ⟨k, rest ++ us, b, hposition, hM, List.forall_mem_append.2 ⟨hrest, hus⟩⟩
    · obtain ⟨k, rfl, hL⟩ := hp.ok hrun
      refine ((hf _ a _ hL (hw.advanceBy k)).error h).imp_right ?_
      rintro ⟨n, rest, b, hposition, hM, hrest⟩
      rw [Window.ahead_advanceBy] at hposition
      rw [← List.append_assoc, ← Window.taken_add] at hM
      exact ⟨k + n, rest, b, hposition, hM, hrest⟩

lemma mono {L' : List Token → α → Prop} (h : Reads L p w) (hL : ∀ ts a, L ts a → L' ts a) :
    Reads L' p w where
  completable := by
    obtain ⟨ts, a, ha, hts⟩ := h.completable
    exact ⟨ts, a, hL ts a ha, hts⟩
  ok hrun := by
    obtain ⟨k, hw', ha⟩ := h.ok hrun
    exact ⟨k, hw', hL _ _ ha⟩
  error hrun := by
    refine (h.error hrun).imp_right ?_
    rintro ⟨k, rest, a, hposition, ha, hrest⟩
    exact ⟨k, rest, a, hposition, hL _ _ ha, hrest⟩

lemma pure {b : β} (h : M [] b) : Reads M (Pure.pure b : Parser σ β) w where
  completable := ⟨[], b, h, by simp⟩
  ok hrun := by
    obtain ⟨rfl, rfl⟩ := run_pure_eq_ok.1 hrun
    exact ⟨0, rfl, h⟩
  error hrun := absurd hrun run_pure_ne_error

lemma window {f : Window σ → Parser σ β} (h : Reads M (f w) w) :
    Reads M (Parser.window >>= f) w :=
  ⟨h.completable, h.ok, h.error⟩

lemma congr {q : Parser σ α} (h : Reads L p w) (hrun : q.run w = p.run w) : Reads L q w where
  completable := h.completable
  ok hq := h.ok (hrun.symm.trans hq)
  error hq := h.error (hrun.symm.trans hq)

/-- A parser that refuses the current token, where a word was to begin. -/
lemma fail (hM : ∃ ts b, M ts b ∧ ∀ t ∈ ts, t.Writable) (hd : d.position = w.current.position) :
    Reads M (fail d : Parser σ β) w where
  completable := hM
  ok h := by cases h
  error h := by
    obtain ⟨ts, b, hts, hwritable⟩ := hM
    obtain ⟨rfl, -⟩ : d = _ ∧ w = _ := by simpa using h
    exact .inr ⟨0, ts, b, hd, hts, hwritable⟩

lemma unexpected (hM : ∃ ts b, M ts b ∧ ∀ t ∈ ts, t.Writable) (expected : String) :
    Reads M (unexpected expected : Parser σ β) w :=
  window (fail hM rfl)

/-! ### Single tokens -/

variable {P : Token → Prop} {sample : Token}

lemma completable_single (hs : P sample) (hsw : sample.Writable) :
    ∃ ts t, Single P ts t ∧ ∀ t ∈ ts, t.Writable :=
  ⟨[sample], sample, ⟨rfl, hs⟩, by simpa using hsw⟩

lemma take (h : P w.current) (hs : P sample) (hsw : sample.Writable) :
    Reads (Single P) (take : Parser σ Token) w where
  completable := completable_single hs hsw
  ok hrun := by
    obtain ⟨rfl, rfl⟩ : w.current = _ ∧ w.advance = _ := by simpa using hrun
    exact ⟨1, rfl, rfl, h⟩
  error hrun := by simp at hrun

lemma expectOr {kind : Kind} (hd : d.position = w.current.position) (hs : sample.kind = kind)
    (hsw : sample.Writable) :
    Reads (Single (·.kind = kind)) (expectOr kind d : Parser σ Token) w := by
  refine window ?_
  split
  · next hk => exact take hk hs hsw
  · exact fail (completable_single hs hsw) hd

lemma expect {kind : Kind} (hs : sample.kind = kind) (hsw : sample.Writable) :
    Reads (Single (·.kind = kind)) (expect kind : Parser σ Token) w :=
  window (expectOr rfl hs hsw)

lemma endOfStatement :
    Reads (fun ts _ => ts = []) (endOfStatement : Parser σ Unit) w := by
  refine window ?_
  split
  · exact pure rfl
  · exact fail ⟨[], (), rfl, by simp⟩ rfl

/-- The end of the line, behind a word of the language. -/
lemma finish {M : List Token → Statement → Prop} {s : Statement} (hw : w.Proper) (h : M [] s) :
    Reads M (Parser.endOfStatement >>= fun _ => Pure.pure s) w := by
  refine endOfStatement.bind hw ?_
  rintro _ _ w' rfl _
  exact pure h

/-! ### Lists -/

variable {item : Parser σ α}

lemma commaTail (hitem : ∀ w : Window σ, w.Proper → Reads L item w) (hw : w.Proper) :
    Reads (AfterFirst L) (commaTail item) w where
  completable := ⟨[], [], .inl ⟨rfl, rfl⟩, by simp⟩
  ok h := by
    revert hw
    refine commaTail_induct (motive := fun w as w' => w.Proper →
      ∃ k, w' = w.advanceBy k ∧ AfterFirst L (w.taken k) as) ?done ?more h
    case done => exact fun w _ _ => ⟨0, rfl, .inl ⟨rfl, rfl⟩⟩
    case more =>
      intro w a w₁ as w₂ hc hrun ih hw
      obtain ⟨k, rfl, hL⟩ := (hitem w.advance hw.advance).ok hrun
      obtain ⟨n, rfl, hrest⟩ := ih (hw.advance.advanceBy k)
      refine ⟨k + n + 1, (Window.advanceBy_add k n w.advance).symm, ?_⟩
      rw [Window.taken, Window.taken_add]
      exact .inr ⟨w.current, _, rfl, hc, Separated.of_afterFirst hL hrest⟩
  error h := by
    revert hw
    refine commaTail_fails (motive := fun w d => w.Proper → d.TooDeep ∨
      ∃ k rest as, d.position = (w.ahead k).position ∧ AfterFirst L (w.taken k ++ rest) as ∧
        ∀ t ∈ rest, t.Writable) ?last ?more h
    case last =>
      intro w d w' hc hrun hw
      refine ((hitem w.advance hw.advance).error hrun).imp_right ?_
      rintro ⟨k, rest, a, hposition, hL, hrest⟩
      exact ⟨k + 1, rest, [a], by simpa using hposition,
        .inr ⟨w.current, _, rfl, hc, .one hL⟩, hrest⟩
    case more =>
      intro w a w₁ d hc hrun ih hw
      obtain ⟨k, rfl, hL⟩ := (hitem w.advance hw.advance).ok hrun
      refine (ih (hw.advance.advanceBy k)).imp_right ?_
      rintro ⟨n, rest, as, hposition, hafter, hrest⟩
      refine ⟨k + n + 1, rest, a :: as, by simpa using hposition, ?_, hrest⟩
      rw [Window.taken, Window.taken_add, List.cons_append, List.append_assoc]
      exact .inr ⟨w.current, _, rfl, hc, Separated.of_afterFirst hL hafter⟩

lemma commaSeparated (hitem : ∀ w : Window σ, w.Proper → Reads L item w) (hw : w.Proper) :
    Reads (Separated L) (commaSeparated item) w := by
  refine (hitem w hw).bind hw fun ts a w₁ hL hw₁ => ?_
  refine (commaTail hitem hw₁).bind hw₁ fun us as w₂ hafter _ => pure ?_
  rw [List.append_nil]
  exact .of_afterFirst hL hafter

end Parser.Reads

/-! ## Expressions and datatypes -/

/-- An identifier that can be written. -/
def Token.sampleIdentifier : Token :=
  ⟨.identifier, "x", ⟨0, 0⟩, false, none⟩

lemma Token.writable_sampleIdentifier : sampleIdentifier.Writable :=
  ⟨by unfold Lexed; decide +kernel, by simp [sampleIdentifier],
    by simp [sampleIdentifier, endsStatement, Kind.endsStatement]⟩

namespace Grammar

variable {w : Window σ}

lemma readsAs_one : ReadsAs [.one] (.atom .one) :=
  readsAs_tokens (g := .atom .one) rfl trivial trivial
    (by simpa [Grouped.tokens] using Cursor.plain_of_lexed Token.writable_one.lexed)
    (by simp [Grouped.levels, Grouped.nesting, Expr.maxNesting])

lemma reads_expr (hw : w.Proper) : Reads ReadsAs (expr minPower) w where
  completable := ⟨[.one], .atom .one, readsAs_one, by simpa using Token.writable_one⟩
  ok h := by
    obtain ⟨g, rfl, hg, hlevels, -, -⟩ := exists_spans_of_expr h
    refine ⟨g.tokens.length, hg.stops.symm, ?_⟩
    rw [hg.shows.taken_eq]
    exact readsAs_tokens hg.wellFormed hg.binds (hg.derefsClear.change (by simp))
      (fun t => hw.plain_of_mem hg.shows) (by omega)
  error h := by
    refine (viable_exprAt _ _ _ _ _ h).imp_right ?_
    rintro ⟨g, k, hg, hposition, hnesting, -⟩
    obtain ⟨rest, htokens, hrest⟩ := hg.tokens
    refine ⟨k, rest, g.toExpr, hposition, ?_, hrest⟩
    rw [← htokens]
    refine readsAs_tokens hg.wellFormed hg.binds hg.derefsClear ?_ (by rw [Grouped.levels]; omega)
    rw [htokens, List.forall_mem_append]
    exact ⟨fun t => hw.plain_of_mem (w.shows_taken k),
      fun t ht => Cursor.plain_of_lexed (hrest t ht).lexed⟩

lemma reads_datatype : Reads (Single Token.IsDatatype) datatype w := by
  have hsample : (Kind.native .integer).token.IsDatatype := .inl ⟨rfl, by simp [Kind.token]⟩
  have hwritable : (Kind.native .integer).token.Writable :=
    Kind.writable_token (by simp) (by simp) (by simp) (by simp) (by decide)
  refine .window ?_
  split
  · next h => exact .take (Token.isDatatype_iff.2 h) hsample hwritable
  · exact .unexpected (Reads.completable_single hsample hwritable) _

lemma reads_lowerBound : Reads (Single Token.IsOne) lowerBound w := by
  have hone : Token.one.IsOne := ⟨rfl, rfl, rfl⟩
  have hcompletable := Reads.completable_single hone Token.writable_one
  refine .window ?_
  split
  · next h =>
    split
    · next htext => exact .take ⟨h.1, h.2, htext⟩ hone Token.writable_one
    · exact .fail hcompletable rfl
  · exact .unexpected hcompletable _

lemma reads_dimension (hw : w.Proper) : Reads (DimensionWritten ReadsAs) dimension w := by
  refine reads_lowerBound.bind hw ?_
  rintro _ one w₁ ⟨rfl, hone⟩ hw₁
  refine (Reads.expect rfl (Kind.writable_symbol (by decide) (by decide))).bind hw₁ ?_
  rintro _ colon w₂ ⟨rfl, hcolon⟩ hw₂
  exact (reads_expr hw₂).mono fun run e he => ⟨one, colon, run, rfl, hone, hcolon, he⟩

/-- An array type: the dimensions in brackets and the datatype of the elements. -/
def ArrayTypeWritten (E : List Token → Expr → Prop) (ts : List Token) (x : List Expr × Token) :
    Prop :=
  ∃ array opening us closing ofType, ts = array :: opening :: (us ++ [closing, ofType, x.2]) ∧
    array.kind = .keyword .array ∧ opening.kind = .symbol .openBracket ∧
    Separated (DimensionWritten E) us x.1 ∧ closing.kind = .symbol .closeBracket ∧
    ofType.kind = .keyword .ofType ∧ x.2.IsDatatype

lemma reads_arrayType (hw : w.Proper) : Reads (ArrayTypeWritten ReadsAs) arrayType w := by
  refine (Reads.expect rfl (Kind.writable_keyword .array)).bind hw ?_
  rintro _ array w₁ ⟨rfl, harray⟩ hw₁
  refine (Reads.expect rfl (Kind.writable_symbol (by decide) (by decide))).bind hw₁ ?_
  rintro _ opening w₂ ⟨rfl, hopening⟩ hw₂
  refine (Reads.commaSeparated (fun _ => reads_dimension) hw₂).bind hw₂ fun us bounds w₃ hbounds
    hw₃ => .window ?_
  refine (Reads.expectOr rfl rfl (Kind.writable_symbol (by decide) (by decide))).bind hw₃ ?_
  rintro _ closing w₄ ⟨rfl, hclosing⟩ hw₄
  refine (Reads.expect rfl (Kind.writable_keyword .ofType)).bind hw₄ ?_
  rintro _ ofType w₅ ⟨rfl, hof⟩ hw₅
  refine reads_datatype.bind hw₅ ?_
  rintro _ type w₆ ⟨rfl, htype⟩ -
  exact .pure ⟨array, opening, us, closing, ofType, by simp, harray, hopening, hbounds, hclosing,
    hof, htype⟩

/-- Indexes and the bracket that closes them. -/
lemma reads_indexes (hw : w.Proper) :
    Reads (fun ts es => ∃ us closing, ts = us ++ [closing] ∧ Separated ReadsAs us es ∧
      closing.kind = .symbol .closeBracket) (exprList (.symbol .closeBracket) false) w := by
  refine .window ?_
  rw [if_neg (by simp)]
  refine (Reads.commaSeparated (fun _ => reads_expr) hw).bind hw fun us es w₁ hes hw₁ =>
    .window ?_
  refine (Reads.expectOr rfl rfl (Kind.writable_symbol (by decide) (by decide))).bind hw₁ ?_
  rintro _ closing w₂ ⟨rfl, hclosing⟩ -
  exact .pure ⟨us, closing, by simp, hes, hclosing⟩

/-! ## Statements -/

lemma reads_identifier : Reads (Single (·.kind = .identifier)) (expect .identifier) w :=
  .expect rfl Token.writable_sampleIdentifier

lemma reads_keyword {k : Keyword} (hk : w.current.kind = .keyword k) :
    Reads (Single (·.kind = .keyword k)) (take : Parser σ Token) w :=
  .take hk rfl (Kind.writable_keyword k)

lemma reads_symbol {s : Symbol} (hd : s ≠ .doubleQuote) (hs : s ≠ .singleQuote) :
    Reads (Single (·.kind = .symbol s)) (expect (.symbol s)) w :=
  .expect rfl (Kind.writable_symbol hd hs)

lemma reads_declareStatement (hw : w.Proper) (hk : w.current.kind = .keyword .declare) :
    Reads (Statement.Written ReadsAs) declareStatement w := by
  refine (reads_keyword hk).bind hw ?_
  rintro _ keyword w₁ ⟨rfl, hkeyword⟩ hw₁
  refine reads_identifier.bind hw₁ ?_
  rintro _ id w₂ ⟨rfl, hid⟩ hw₂
  refine (reads_symbol (by decide) (by decide)).bind hw₂ ?_
  rintro _ colon w₃ ⟨rfl, hcolon⟩ hw₃
  refine .window ?_
  split
  · refine (reads_arrayType hw₃).bind hw₃ ?_
    rintro _ ⟨bounds, type⟩ w₄ ⟨array, opening, us, closing, ofType, rfl, harray, hopening,
      hbounds, hclosing, hof, htype⟩ hw₄
    refine .finish hw₄ ?_
    rw [List.append_nil]
    exact .declareArray hkeyword hid hcolon harray hopening hbounds hclosing hof htype
  · refine reads_datatype.bind hw₃ ?_
    rintro _ type w₄ ⟨rfl, htype⟩ hw₄
    exact .finish hw₄ (.declare hkeyword hid hcolon htype)

lemma reads_constantStatement (hw : w.Proper) (hk : w.current.kind = .keyword .constant) :
    Reads (Statement.Written ReadsAs) constantStatement w := by
  refine (reads_keyword hk).bind hw ?_
  rintro _ keyword w₁ ⟨rfl, hkeyword⟩ hw₁
  refine reads_identifier.bind hw₁ ?_
  rintro _ id w₂ ⟨rfl, hid⟩ hw₂
  refine (reads_symbol (by decide) (by decide)).bind hw₂ ?_
  rintro _ equals w₃ ⟨rfl, hequals⟩ hw₃
  refine .window ?_
  split
  · next hl =>
    refine (Reads.take (P := (·.isLiteral)) hl rfl Token.writable_one).bind hw₃ ?_
    rintro _ value w₄ ⟨rfl, hvalue⟩ hw₄
    exact .finish hw₄ (.constant hkeyword hid hequals hvalue)
  · exact .unexpected ⟨[.one], _, .constant hkeyword hid hequals rfl,
      by simpa using Token.writable_one⟩ _

lemma reads_elementAfter {id : Token} (hid : id.kind = .identifier) (hw : w.Proper) :
    Reads (fun ts s => Statement.Written ReadsAs ([id] ++ ts) s) (elementAfter id) w := by
  refine (reads_symbol (by decide) (by decide)).bind hw ?_
  rintro _ opening w₁ ⟨rfl, hopening⟩ hw₁
  refine (reads_indexes hw₁).bind hw₁ ?_
  rintro _ indexes w₂ ⟨us, closing, rfl, hindexes, hclosing⟩ hw₂
  refine (reads_symbol (by decide) (by decide)).bind hw₂ ?_
  rintro _ arrow w₃ ⟨rfl, harrow⟩ hw₃
  refine (reads_expr hw₃).bind hw₃ fun run value w₄ hvalue hw₄ => .finish hw₄ ?_
  have hwritten := Statement.Written.assignElement hid hopening hindexes hclosing harrow hvalue
  simpa using hwritten

lemma reads_plainAfter {id : Token} (hid : id.kind = .identifier) (hw : w.Proper) :
    Reads (fun ts s => Statement.Written ReadsAs ([id] ++ ts) s) (plainAfter id) w := by
  refine (reads_symbol (by decide) (by decide)).bind hw ?_
  rintro _ arrow w₁ ⟨rfl, harrow⟩ hw₁
  refine (reads_expr hw₁).bind hw₁ fun run value w₂ hvalue hw₂ => .finish hw₂ ?_
  rw [List.append_nil]
  exact .assign hid harrow hvalue

/-- Once the identifier is taken, the token that decides between the two assignments is the current
one. -/
lemma reads_assignStatement (hw : w.Proper) (hk : w.current.kind = .identifier) :
    Reads (Statement.Written ReadsAs) assignStatement w := by
  have hafter : Reads (Statement.Written ReadsAs) (take >>= fun id => window >>= fun v =>
      if v.current.kind = .symbol .openBracket then elementAfter id else plainAfter id) w := by
    refine (Reads.take (P := (·.kind = .identifier)) hk rfl
      Token.writable_sampleIdentifier).bind hw ?_
    rintro _ id w₁ ⟨rfl, hid⟩ hw₁
    refine .window ?_
    split
    · exact reads_elementAfter hid hw₁
    · exact reads_plainAfter hid hw₁
  exact hafter.congr (run_assignStatement w)

lemma reads_inputStatement (hw : w.Proper) (hk : w.current.kind = .keyword .input) :
    Reads (Statement.Written ReadsAs) inputStatement w := by
  refine (reads_keyword hk).bind hw ?_
  rintro _ keyword w₁ ⟨rfl, hkeyword⟩ hw₁
  refine reads_identifier.bind hw₁ ?_
  rintro _ id w₂ ⟨rfl, hid⟩ hw₂
  exact .finish hw₂ (.input hkeyword hid)

lemma reads_outputStatement (hw : w.Proper) (hk : w.current.kind = .keyword .output) :
    Reads (Statement.Written ReadsAs) outputStatement w := by
  refine (reads_keyword hk).bind hw ?_
  rintro _ keyword w₁ ⟨rfl, hkeyword⟩ hw₁
  refine (Reads.commaSeparated (fun _ => reads_expr) hw₁).bind hw₁ fun us values w₂ hvalues hw₂ =>
    .finish hw₂ ?_
  rw [List.append_nil]
  exact .output hkeyword hvalues

/-- A statement is a line of the grammar, and a failed one the front of such a line. -/
lemma reads_statement (hw : w.Proper) : Reads (Statement.Written ReadsAs) statement w := by
  have hsample : ∃ ts s, Statement.Written ReadsAs ts s ∧ ∀ t ∈ ts, t.Writable :=
    ⟨_, _, .input rfl rfl, by
      simpa using ⟨Kind.writable_keyword .input, Token.writable_sampleIdentifier⟩⟩
  refine .window ?_
  cases hk : w.current.kind with
  | identifier => exact reads_assignStatement hw hk
  | keyword k =>
    cases k with
    | declare => exact reads_declareStatement hw hk
    | constant => exact reads_constantStatement hw hk
    | input => exact reads_inputStatement hw hk
    | output => exact reads_outputStatement hw hk
    | _ => exact .fail hsample w.notStatement_position
  | _ => exact .fail hsample w.notStatement_position

end Grammar

/-! ## Where a statement ends -/

/-- The parser stops only where a statement ends. -/
def Parser.StopsAtEnd (p : Parser σ α) : Prop :=
  ∀ ⦃w : Window σ⦄ ⦃a : α⦄ ⦃w' : Window σ⦄, p.run w = (.ok a, w') → w'.current.endsStatement

namespace Parser.StopsAtEnd

lemma bind {p : Parser σ α} {f : α → Parser σ β} (h : ∀ a, StopsAtEnd (f a)) :
    StopsAtEnd (p >>= f) := by
  intro w b w'' hrun
  obtain ⟨a, w', -, hf⟩ := run_bind_eq_ok.1 hrun
  exact h a hf

lemma finish (s : Statement) :
    StopsAtEnd (endOfStatement >>= fun _ => Pure.pure s : Parser σ Statement) := by
  intro w s' w' hrun
  obtain ⟨_, w₁, hend, hpure⟩ := run_bind_eq_ok.1 hrun
  obtain ⟨hends, rfl⟩ := run_endOfStatement_eq_ok.1 hend
  obtain ⟨-, rfl⟩ := run_pure_eq_ok.1 hpure
  exact hends

end Parser.StopsAtEnd

namespace Grammar

lemma stopsAtEnd_declareStatement : (declareStatement : Parser σ Statement).StopsAtEnd := by
  refine .bind fun _ => .bind fun id => .bind fun _ => .bind fun w => ?_
  split
  · exact .bind fun x => .finish _
  · exact .bind fun type => .finish _

lemma stopsAtEnd_constantStatement : (constantStatement : Parser σ Statement).StopsAtEnd := by
  refine .bind fun _ => .bind fun id => .bind fun _ => .bind fun w => ?_
  split
  · exact .bind fun value => .finish _
  · exact .bind fun w _ _ _ h => by cases h

lemma stopsAtEnd_assignStatement : (assignStatement : Parser σ Statement).StopsAtEnd := by
  refine .bind fun w => ?_
  split
  · exact .bind fun _ => .bind fun _ => .bind fun _ => .bind fun _ => .bind fun _ => .finish _
  · exact .bind fun _ => .bind fun _ => .bind fun _ => .finish _

lemma stopsAtEnd_statement : (statement : Parser σ Statement).StopsAtEnd := by
  have hfail (d : Diagnostic) : (fail d : Parser σ Statement).StopsAtEnd := fun _ _ _ h => by
    cases h
  refine .bind fun w => ?_
  cases w.current.kind with
  | identifier => exact stopsAtEnd_assignStatement
  | keyword k =>
    cases k with
    | declare => exact stopsAtEnd_declareStatement
    | constant => exact stopsAtEnd_constantStatement
    | input => exact .bind fun _ => .bind fun _ => .finish _
    | output => exact .bind fun _ => .bind fun _ => .finish _
    | _ => exact hfail _
  | _ => exact hfail _

end Grammar

/-! ## The tokens of a statement -/

lemma Separated.forall_mem {item : List Token → α → Prop} {P : Token → Prop}
    (hitem : ∀ ts a, item ts a → ∀ t ∈ ts, P t) (hcomma : ∀ t, t.kind = .symbol .comma → P t)
    {ts : List Token} {as : List α} (h : Separated item ts as) : ∀ t ∈ ts, P t := by
  induction h with
  | one ha => exact hitem _ _ ha
  | more ha hc _ ih =>
    rw [List.forall_mem_append, List.forall_mem_cons]
    exact ⟨hitem _ _ ha, hcomma _ hc, ih⟩

lemma Token.not_endsStatement_of_kind {t : Token} {k : Kind} (h : t.kind = k)
    (hk : ¬k.endsStatement) : ¬t.endsStatement := by
  rwa [endsStatement, h]

lemma Token.IsDatatype.not_endsStatement {t : Token} (h : t.IsDatatype) : ¬t.endsStatement := by
  intro he
  rcases h with ⟨hn, -⟩ | hi
  · rcases Kind.eq_of_endsStatement he with hk | hk
    · simp [hk, Kind.isNative] at hn
    · simp [hk, Kind.isNative] at hn
  · exact not_endsStatement_of_kind hi (by decide) he

/-- No token of a written statement ends one, if none of its expressions has such a token. -/
lemma Statement.Written.not_endsStatement {E : List Token → Expr → Prop}
    (hE : ∀ run e, E run e → ∀ t ∈ run, ¬t.endsStatement) {ts : List Token} {s : Statement}
    (h : Written E ts s) (hplain : ∀ t ∈ ts, t.Plain) : ∀ t ∈ ts, ¬t.endsStatement := by
  have hsymbol {t : Token} {x : Symbol} (ht : t.kind = .symbol x) : ¬t.endsStatement :=
    Token.not_endsStatement_of_symbol ht
  have hkeyword {t : Token} {k : Keyword} (ht : t.kind = .keyword k) : ¬t.endsStatement :=
    Token.not_endsStatement_of_kind ht (by simp [Kind.endsStatement])
  have hidentifier {t : Token} (ht : t.kind = .identifier) : ¬t.endsStatement :=
    Token.not_endsStatement_of_kind ht (by decide)
  have hlist {us : List Token} {es : List Expr} (hes : Separated E us es) :
      ∀ t ∈ us, ¬t.endsStatement := hes.forall_mem hE fun _ => hsymbol
  cases h with
  | declare hk hid hcolon htype =>
    simp only [List.forall_mem_cons]
    exact ⟨hkeyword hk, hidentifier hid, hsymbol hcolon, htype.not_endsStatement, by simp⟩
  | declareArray hk hid hcolon harray hopening hbounds hclosing hof htype =>
    have hdimension : ∀ us e, DimensionWritten E us e → ∀ t ∈ us, ¬t.endsStatement := by
      rintro _ e ⟨one, colon, run, rfl, hone, hcolon, he⟩
      rw [List.forall_mem_cons, List.forall_mem_cons]
      exact ⟨Token.not_endsStatement_of_kind hone.1 (by decide), hsymbol hcolon, hE run e he⟩
    simp only [List.forall_mem_cons, List.forall_mem_append]
    exact ⟨hkeyword hk, hidentifier hid, hsymbol hcolon, hkeyword harray, hsymbol hopening,
      hbounds.forall_mem hdimension fun _ => hsymbol, hsymbol hclosing, hkeyword hof,
      htype.not_endsStatement, by simp⟩
  | constant hk hid hequals hvalue =>
    simp only [List.forall_mem_cons] at hplain ⊢
    exact ⟨hkeyword hk, hidentifier hid, hsymbol hequals,
      hplain.2.2.2.1.not_endsStatement (by simp [Token.isAtom, hvalue]), by simp⟩
  | assign hid harrow hvalue =>
    simp only [List.forall_mem_cons]
    exact ⟨hidentifier hid, hsymbol harrow, hE _ _ hvalue⟩
  | assignElement hid hopening hindexes hclosing harrow hvalue =>
    simp only [List.forall_mem_cons, List.forall_mem_append]
    exact ⟨hidentifier hid, hsymbol hopening, hlist hindexes, hsymbol hclosing, hsymbol harrow,
      hE _ _ hvalue⟩
  | input hk hid =>
    simp only [List.forall_mem_cons]
    exact ⟨hkeyword hk, hidentifier hid, by simp⟩
  | output hk hvalues => exact List.forall_mem_cons.2 ⟨hkeyword hk, hlist hvalues⟩

/-! ## Statements and lines of the grammar -/

lemma Statement.cost_zero (s : Statement) : s.cost (fun _ => 0) = 0 := by
  have hlist (es : List Expr) : Expr.listCost (fun _ => 0) es = 0 := by
    induction es with
    | nil => rfl
    | cons e es ih => exact (Nat.zero_max _).trans ih
  cases s <;> simp [cost, hlist]

/-- The line is one of a source text: it ends at the first end of statement. -/
structure Line.Proper (line : Line) : Prop where
  plain : ∀ t ∈ line.all, t.Plain
  inLine : ∀ t ∈ line.tokens, ¬t.endsStatement
  ends : line.ending.endsStatement

lemma Line.proper_of_mem {source : String} {line : Line} (h : line ∈ tokenLines (tokenize source)) :
    line.Proper := by
  obtain ⟨hends, hline, hsublist⟩ := of_mem_splitStatements (List.mem_of_mem_filter h)
  exact ⟨fun t ht => forall_mem_tokenize Cursor.plain_next source t (hsublist.subset ht), hline,
    hends⟩

lemma Line.Proper.window {line : Line} (h : line.Proper) : (Window.ofStream line.all).Proper :=
  Window.proper_ofList h.plain

lemma Line.Proper.barrier {line : Line} (h : line.Proper) : line.ending.Barrier :=
  (h.plain line.ending (by simp [all])).barrier h.ends

/-- A line is a statement exactly if it is in the grammar. -/
lemma Line.Proper.outcome_eq_ok_iff {line : Line} (h : line.Proper) {s : Statement} :
    line.outcome = .ok s ↔ Statement.Written ReadsAs line.tokens s := by
  have hshows : (Window.ofStream line.all).Shows (line.tokens ++ [line.ending]) :=
    Window.shows_ofList_self line.all
  constructor
  · intro hok
    have hrun : (Grammar.statement : Parser (List Token) Statement).run
        (Window.ofStream line.all) = (.ok s, _) := Prod.ext hok rfl
    obtain ⟨k, hk, hwritten⟩ := (reads_statement h.window).ok hrun
    have hends := stopsAtEnd_statement hrun
    have htaken : (Window.ofStream line.all).Shows
        ((Window.ofStream line.all).taken k ++ [((Window.ofStream line.all).advanceBy k).current])
        := by
      rw [Window.shows_append, Window.length_taken]
      exact ⟨Window.shows_taken .., rfl, trivial⟩
    have hin := hwritten.not_endsStatement (fun _ _ h => h.inLine) fun t =>
      h.window.plain_of_mem (Window.shows_taken k _)
    rw [hk] at hends
    rwa [htaken.eq_of_ends hshows hends h.ends hin h.inLine] at hwritten
  · intro hwritten
    have hneeds := hwritten.needs accepts_readsAs h.window hshows h.ends
    rw [Statement.cost_zero] at hneeds
    have hdepth : (Window.ofStream line.all).depth = 0 := rfl
    rw [Line.outcome, hneeds.ok (by rw [hdepth]; simp)]

/-! ## Expressions by themselves and source texts -/

/-- What a source text is read as is what the tokens of its first line are by themselves. -/
lemma readsAs_lineTokens_iff {source : String} {e : Expr} :
    ReadsAs (lineTokens source) e ↔ parseExpression source = .ok e := by
  obtain ⟨t, ht, hs⟩ := TokenStream.exists_shows_line (Cursor.ofSource source)
  have hw : (Window.ofStream (Cursor.ofSource source)).Proper := Window.proper_ofCursor _
  have hin : ∀ t ∈ lineTokens source, ¬t.endsStatement := fun t =>
    TokenStream.not_endsStatement_of_mem_line
  constructor
  · intro h
    obtain ⟨g, htokens, rfl, hwf, hbinds, hclear, hlevels⟩ :=
      h.exists_grouped fun t ht => hw.plain_of_mem hs (List.mem_append_left _ ht)
    have hshows : (Window.ofStream (Cursor.ofSource source)).Shows (g.tokens ++ [t]) := by
      rw [htokens]
      exact hs
    exact (parseExpression_of_shows hwf hbinds hclear hshows ht).1 hlevels
  · intro h
    obtain ⟨g, htokens, rfl, hwf, hbinds, hclear, hlevels⟩ :=
      exists_grouped_of_standalone hw hs ht hin h
    have hplain : ∀ t ∈ g.tokens, t.Plain := by
      rw [htokens]
      exact fun t ht => hw.plain_of_mem hs (List.mem_append_left _ ht)
    have hreads := readsAs_tokens hwf hbinds hclear hplain hlevels
    rwa [htokens] at hreads

lemma not_endsStatement_of_map_unplaced {ts us : List Token}
    (h : us.map Token.unplaced = ts.map Token.unplaced) (hts : ∀ t ∈ ts, ¬t.endsStatement) :
    ∀ u ∈ us, ¬u.endsStatement := by
  intro u hu
  have hmem := List.mem_map_of_mem (f := Token.unplaced) hu
  rw [h] at hmem
  obtain ⟨t, ht, heq⟩ := List.mem_map.1 hmem
  rw [← Token.endsStatement_eq_of_unplaced heq]
  exact hts t ht

/-- What a run is read as does not depend on where its tokens stand. -/
lemma ReadsAs.of_unplaced_eq {run run' : List Token} {e : Expr} (h : ReadsAs run e)
    (hrun : run.map Token.unplaced = run'.map Token.unplaced) :
    ∃ e', ReadsAs run' e' ∧ e'.unplaced = e.unplaced := by
  have hmap : (run ++ [Token.afterAll]).map Token.unplaced =
      (run' ++ [Token.afterAll]).map Token.unplaced := by
    rw [List.map_append, hrun, List.map_append]
  obtain ⟨-, -, -, -, hresult⟩ := (tracks_standalone .anywhere (Window.ofStream run)
    (Window.ofStream run')).of_shows rfl (Window.shows_ofList run) (Window.shows_ofList run') hmap
    ⟨rfl, .inl rfl⟩
  rcases hresult with ⟨e₁, e', he₁, he', halike⟩ | ⟨_, _, _, herror, -⟩
  · obtain rfl : e₁ = e := Except.ok.inj (he₁.symm.trans h.accepted)
    refine ⟨e', ⟨?_, ?_, he'⟩, ?_⟩
    · rintro rfl
      exact h.nonempty (by simpa using hrun)
    · exact not_endsStatement_of_map_unplaced hrun.symm h.inLine
    · rw [← Expr.mapTokens_unplaced, ← Expr.mapTokens_unplaced]
      exact halike.symm
  · rw [h.accepted] at herror
    cases herror

/-- **A program consists of the lines of the grammar.**  Every line of a source text that is not
blank has one outcome; the outcomes that are statements are the statements of the program, in their
order, and the others are its diagnostics.  An outcome is a statement exactly if the tokens of the
line are a written form of the statement: its keywords and symbols, its identifiers, datatypes and
literals, and runs of tokens that by themselves are read as its expressions.  To be read by itself
does not depend on where a run stands: a text with the same tokens on its first line is read as the
same expression, but for positions. -/
theorem parse_line_iff_written (source : String) :
    (parse source).statements = (outcomesOf source).filterMap Except.toOption ∧
    (parse source).diagnostics = (outcomesOf source).filterMap Outcome.diagnostic? ∧
    List.Forall₂ (fun (line : Line) (outcome : Outcome) =>
        ∀ s, outcome = .ok s ↔ Statement.Written ReadsAs line.tokens s)
      (tokenLines (tokenize source)) (outcomesOf source) ∧
    ∀ (run : List Token) (text : String),
      run.map Token.unplaced = (lineTokens text).map Token.unplaced →
      (∀ e, ReadsAs run e → ∃ e', parseExpression text = .ok e' ∧ e'.unplaced = e.unplaced) ∧
      ∀ e', parseExpression text = .ok e' → ∃ e, ReadsAs run e ∧ e.unplaced = e'.unplaced := by
  refine ⟨statements_parse source, diagnostics_parse source, ?_,
    fun run text h => ⟨fun e he => ?_, fun e' he' => ?_⟩⟩
  · rw [outcomesOf_eq_map, List.forall₂_map_right_iff, List.forall₂_same]
    exact fun line hline s => (Line.proper_of_mem hline).outcome_eq_ok_iff
  · obtain ⟨e', he', hunplaced⟩ := he.of_unplaced_eq h
    exact ⟨e', readsAs_lineTokens_iff.1 he', hunplaced⟩
  · exact (readsAs_lineTokens_iff.2 he').of_unplaced_eq h.symm

end Pseudolang
