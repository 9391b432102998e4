import Pseudolang.Proofs.Lines
import Pseudolang.Proofs.Precedence.Completeness

/-!
# The grammar of statements

`Statement.Written` says which tokens a statement is written with, form by form and without the
parser.  The expressions of a statement are runs of tokens; what it takes for a run to be an
expression is left open as a relation `E`, so that the one grammar serves for runs that are accepted
by themselves (`ReadsAs`) and for runs whose nesting is yet to be counted.

The result of this module is that every line of the grammar is read.  A run that is an expression by
itself is read as the same expression wherever a token follows it that ends every expression
(`Token.Delimits`): each slot of a statement is followed by such a token, a comma, a closing bracket
or the end of the line.  What a statement needs is the most that one of its expressions needs
(`Statement.Written.needs`).
-/

namespace Pseudolang

open Pseudolang.Grammar Pseudolang.Parser

/-! ## Written forms -/

/-- One or more items with commas between them. -/
inductive Separated {α : Type} (item : List Token → α → Prop) : List Token → List α → Prop
  | one {ts : List Token} {a : α} : item ts a → Separated item ts [a]
  | more {ts us : List Token} {comma : Token} {a : α} {as : List α} : item ts a →
      comma.kind = .symbol .comma → Separated item us as →
      Separated item (ts ++ comma :: us) (a :: as)

/-- The token names a built-in or a user-defined datatype. -/
def Token.IsDatatype (t : Token) : Prop :=
  t.kind.isNative ∧ ¬t.isLiteral ∨ t.kind = .identifier

/-- The token is the literal `1`. -/
def Token.IsOne (t : Token) : Prop :=
  t.kind = .native .integer ∧ t.isLiteral ∧ t.text = "1"

/-- One dimension of an array type: the literal `1`, a colon and the bound. -/
def DimensionWritten (E : List Token → Expr → Prop) (ts : List Token) (bound : Expr) : Prop :=
  ∃ one colon run, ts = one :: colon :: run ∧ one.IsOne ∧ colon.kind = .symbol .colon ∧
    E run bound

/-- The tokens that a statement is written with, where `E` says which tokens an expression is. -/
inductive Statement.Written (E : List Token → Expr → Prop) : List Token → Statement → Prop
  | declare {keyword id colon type : Token} : keyword.kind = .keyword .declare →
      id.kind = .identifier → colon.kind = .symbol .colon → type.IsDatatype →
      Written E [keyword, id, colon, type] (.declare id type)
  | declareArray {keyword id colon array opening closing ofType type : Token} {ts : List Token}
      {bounds : List Expr} : keyword.kind = .keyword .declare → id.kind = .identifier →
      colon.kind = .symbol .colon → array.kind = .keyword .array →
      opening.kind = .symbol .openBracket → Separated (DimensionWritten E) ts bounds →
      closing.kind = .symbol .closeBracket → ofType.kind = .keyword .ofType → type.IsDatatype →
      Written E (keyword :: id :: colon :: array :: opening :: (ts ++ [closing, ofType, type]))
        (.declareArray id bounds type)
  | constant {keyword id equals value : Token} : keyword.kind = .keyword .constant →
      id.kind = .identifier → equals.kind = .symbol .equals → value.isLiteral →
      Written E [keyword, id, equals, value] (.constant id value)
  | assign {id arrow : Token} {run : List Token} {value : Expr} : id.kind = .identifier →
      arrow.kind = .symbol .assign → E run value →
      Written E (id :: arrow :: run) (.assign id value)
  | assignElement {id opening closing arrow : Token} {ts run : List Token} {indexes : List Expr}
      {value : Expr} : id.kind = .identifier → opening.kind = .symbol .openBracket →
      Separated E ts indexes → closing.kind = .symbol .closeBracket →
      arrow.kind = .symbol .assign → E run value →
      Written E (id :: opening :: (ts ++ closing :: arrow :: run)) (.assignElement id indexes value)
  | input {keyword id : Token} : keyword.kind = .keyword .input → id.kind = .identifier →
      Written E [keyword, id] (.input id)
  | output {keyword : Token} {ts : List Token} {values : List Expr} :
      keyword.kind = .keyword .output → Separated E ts values →
      Written E (keyword :: ts) (.output values)

/-- The tokens, taken by themselves as a whole line, are read as the expression. -/
structure ReadsAs (run : List Token) (e : Expr) : Prop where
  nonempty : run ≠ []
  inLine : ∀ t ∈ run, ¬t.endsStatement
  accepted : (standalone.run (Window.ofStream run)).1 = .ok e

lemma Token.isDatatype_iff {t : Token} : t.IsDatatype ↔ namesDatatype t := by
  simp [IsDatatype, namesDatatype]

lemma Token.IsDatatype.kind_ne_keyword {t : Token} (h : t.IsDatatype) {k : Keyword} :
    t.kind ≠ .keyword k := by
  rintro hk
  rcases h with ⟨hn, -⟩ | hi
  · simp [hk, Kind.isNative] at hn
  · simp [hk] at hi

/-! ## Windows between statements -/

variable {σ : Type} [TokenStream σ]

/-- No expression is open, and every token ahead is a literal only if its kind allows it. -/
structure Window.Proper (w : Window σ) : Prop where
  depth : w.depth = 0
  plain (j : ℕ) : (w.ahead j).Plain

namespace Window

variable {w : Window σ} {ts : List Token}

lemma Proper.advanceBy (h : w.Proper) (n : ℕ) : (w.advanceBy n).Proper where
  depth := by rw [depth_advanceBy, h.depth]
  plain j := by
    rw [ahead_advanceBy]
    exact h.plain _

lemma Proper.advance (h : w.Proper) : w.advance.Proper := h.advanceBy 1

lemma Proper.plain_current (h : w.Proper) : w.current.Plain := h.plain 0

lemma Proper.plain_of_mem (h : w.Proper) (hs : w.Shows ts) {t : Token} (ht : t ∈ ts) :
    t.Plain := by
  obtain ⟨j, hj, rfl⟩ := List.mem_iff_getElem.1 ht
  rw [← hs.ahead_eq hj]
  exact h.plain j

/-- The token after a list is an end of file, however far ahead. -/
lemma ahead_ofList_of_le {j : ℕ} (hj : ts.length ≤ j) : (ofStream ts).ahead j = .afterAll := by
  induction ts generalizing j with
  | nil =>
    induction j with
    | zero => rfl
    | succ j ih => exact (ahead_advance (ofStream []) j).symm.trans (ih (Nat.zero_le _))
  | cons t ts ih =>
    cases j with
    | zero => simp at hj
    | succ j => exact (ahead_advance (ofStream (t :: ts)) j).symm.trans (ih (by simpa using hj))

lemma proper_ofList (h : ∀ t ∈ ts, t.Plain) : (ofStream ts).Proper where
  depth := rfl
  plain j := by
    by_cases hj : j < ts.length
    · rw [(shows_ofList_self ts).ahead_eq hj]
      exact h _ (List.getElem_mem hj)
    · rw [ahead_ofList_of_le (by omega)]
      exact fun hl => by cases hl

lemma proper_ofCursor (c : Cursor) : (ofStream c).Proper where
  depth := rfl
  plain j := by
    induction j generalizing c with
    | zero => exact Cursor.plain_next c
    | succ j ih =>
      rw [← ahead_advance]
      exact ih (TokenStream.next c).2

end Window

/-! ## Delimiters -/

/-- No expression goes on with the token, nor does it tell a caret to be between operands. -/
structure Token.Delimits (t : Token) : Prop where
  inert : t.kind.Inert
  clear : ¬t.startsExpression

namespace Token

variable {t : Token}

lemma Plain.delimits_of_endsStatement (h : t.Plain) (ht : t.endsStatement) : t.Delimits :=
  ⟨Kind.inert_of_endsStatement ht, not_startsExpression_of_endsStatement h ht⟩

lemma Plain.delimits_of_comma (h : t.Plain) (ht : t.kind = .symbol .comma) : t.Delimits :=
  ⟨ht ▸ ⟨rfl, rfl⟩, fun hs => h.kind_ne_of_startsExpression hs (by decide) (by decide) ht⟩

lemma Plain.delimits_of_closeBracket (h : t.Plain) (ht : t.kind = .symbol .closeBracket) :
    t.Delimits :=
  ⟨ht ▸ ⟨rfl, rfl⟩, fun hs => h.kind_ne_of_startsExpression hs (by decide) (by decide) ht⟩

end Token

/-! ## Expressions by themselves -/

/-- A tree that the binding powers allow is an expression by itself. -/
lemma readsAs_tokens {g : Grouped} (hwf : g.WellFormed) (hbinds : g.Binds)
    (hclear : g.DerefsClear none) (hplain : ∀ t ∈ g.tokens, t.Plain)
    (hlevels : g.levels ≤ Expr.maxNesting) : ReadsAs g.tokens g.toExpr where
  nonempty := by
    obtain ⟨t, ts, hts, -⟩ := Grouped.exists_tokens_eq_cons hwf
    simp [hts]
  inLine := Grouped.not_endsStatement hwf hplain
  accepted := by
    have hend : ∀ t ∈ some Token.afterAll, ¬t.startsExpression := by
      rintro t ⟨⟩
      exact not_startsExpression_of_endsStatement (fun h => by cases h) rfl
    have hneeds := needs_standalone ⟨hwf, hbinds, hclear.change hend, hplain⟩
      (Window.shows_ofList g.tokens) rfl
    have hdepth : (Window.ofStream g.tokens).depth = 0 := rfl
    rw [hneeds.ok (by omega)]

/-- Where a run of tokens is a whole line that is read as an expression, the run is such a tree. -/
lemma exists_grouped_of_standalone {w : Window σ} {run : List Token} {t : Token} {e : Expr}
    (hw : w.Proper) (hs : w.Shows (run ++ [t])) (ht : t.endsStatement)
    (hin : ∀ t ∈ run, ¬t.endsStatement) (h : (standalone.run w).1 = .ok e) :
    ∃ g : Grouped, g.tokens = run ∧ g.toExpr = e ∧ g.WellFormed ∧ g.Binds ∧ g.DerefsClear none ∧
      g.levels ≤ Expr.maxNesting := by
  have hrun : standalone.run w = (.ok e, (standalone.run w).2) := Prod.ext h rfl
  rw [standalone, run_bind_eq_ok] at hrun
  obtain ⟨e₁, w₁, hexpr, hrun⟩ := hrun
  rw [run_bind_eq_ok] at hrun
  obtain ⟨_, w₂, hend, hrun⟩ := hrun
  obtain ⟨rfl, -⟩ := run_pure_eq_ok.1 hrun
  obtain ⟨hends, rfl⟩ := run_endOfStatement_eq_ok.1 hend
  obtain ⟨g, rfl, hg, hlevels, -, -⟩ := exists_spans_of_expr hexpr
  have hplain : ∀ t ∈ g.tokens, t.Plain := fun t => hw.plain_of_mem hg.shows
  have hshows : w.Shows (g.tokens ++ [w₁.current]) := by
    rw [Window.shows_append, hg.stops]
    exact ⟨hg.shows, rfl, trivial⟩
  have htokens : g.tokens = run :=
    hshows.eq_of_ends hs hends ht (Grouped.not_endsStatement hg.wellFormed hplain) hin
  exact ⟨g, htokens, rfl, hg.wellFormed, hg.binds, hg.derefsClear.change (by simp), by omega⟩

lemma ReadsAs.exists_grouped {run : List Token} {e : Expr} (h : ReadsAs run e)
    (hplain : ∀ t ∈ run, t.Plain) :
    ∃ g : Grouped, g.tokens = run ∧ g.toExpr = e ∧ g.WellFormed ∧ g.Binds ∧ g.DerefsClear none ∧
      g.levels ≤ Expr.maxNesting :=
  exists_grouped_of_standalone (Window.proper_ofList hplain) (Window.shows_ofList run) rfl h.inLine
    h.accepted

/-! ## Reading what is written -/

/-- Where the tokens of an item are followed by a delimiter, the parser reads the item, and needs as
many levels as are counted for it. -/
def Parser.Accepts {α : Type} (p : Parser σ α) (item : List Token → α → Prop) (cost : α → ℕ) :
    Prop :=
  ∀ ⦃w : Window σ⦄ ⦃ts : List Token⦄ ⦃a : α⦄ ⦃next : Token⦄, item ts a → w.Proper →
    w.Shows (ts ++ [next]) → next.Delimits → Needs p w (cost a) a (w.advanceBy ts.length)

/-- An expression by itself is read as the same expression before every delimiter, and never refused
for its nesting. -/
lemma accepts_readsAs : (expr minPower : Parser σ Expr).Accepts ReadsAs fun _ => 0 := by
  intro w run e next h hw hs hnext
  have hplain : ∀ t ∈ run, t.Plain := fun t ht =>
    hw.plain_of_mem hs (List.mem_append_left _ ht)
  obtain ⟨g, rfl, rfl, hwf, hbinds, hclear, hlevels⟩ := h.exists_grouped hplain
  have hchange : ∀ t ∈ some next, ¬t.startsExpression := by
    rintro t ⟨⟩
    exact hnext.clear
  have hneeds := (Grouped.readsBack g).needs_expr_of_inert
    ⟨hwf, hbinds, hclear.change hchange, hplain⟩ hs hnext.inert
  exact Needs.of_run_eq (hneeds.ok (by rw [hw.depth]; omega))

/-- The most that is counted for one of the expressions of a list. -/
def Expr.listCost (cost : Expr → ℕ) (es : List Expr) : ℕ :=
  (es.map cost).foldr max 0

/-- The most that is counted for one of the expressions of a statement. -/
def Statement.cost (cost : Expr → ℕ) : Statement → ℕ
  | declareArray _ bounds _ => Expr.listCost cost bounds
  | assign _ value => cost value
  | assignElement _ indexes value => max (Expr.listCost cost indexes) (cost value)
  | output values => Expr.listCost cost values
  | _ => 0

namespace Parser.Needs

variable {α β : Type} {w w' : Window σ} {n : ℕ} {b : β} {kind : Kind} {d : Diagnostic}
  {f : Token → Parser σ β}

lemma expectOr_bind (hk : w.current.kind = kind) (h : Needs (f w.current) w.advance n b w') :
    Needs (expectOr kind d >>= f) w n b w' :=
  h.congr (run_bind_of_ok (run_expectOr_eq_ok.2 ⟨hk, rfl, rfl⟩)) rfl

lemma expect_bind (hk : w.current.kind = kind) (h : Needs (f w.current) w.advance n b w') :
    Needs (expect kind >>= f) w n b w' :=
  h.congr (run_bind_of_ok (run_expect_eq_ok.2 ⟨hk, rfl, rfl⟩)) rfl

lemma datatype_bind (hd : w.current.IsDatatype) (h : Needs (f w.current) w.advance n b w') :
    Needs (datatype >>= f) w n b w' := by
  have hrun : (datatype : Parser σ Token).run w = (.ok w.current, w.advance) := by
    rw [datatype, run_window_bind, if_pos (Token.isDatatype_iff.1 hd)]
    rfl
  exact h.congr (run_bind_of_ok hrun) rfl

lemma lowerBound_bind (ho : w.current.IsOne) (h : Needs (f w.current) w.advance n b w') :
    Needs (lowerBound >>= f) w n b w' := by
  have hrun : (lowerBound : Parser σ Token).run w = (.ok w.current, w.advance) := by
    rw [lowerBound, run_window_bind, if_pos ⟨ho.1, ho.2.1⟩, if_pos ho.2.2]
    rfl
  exact h.congr (run_bind_of_ok hrun) rfl

/-- The end of the line, and the statement that was read. -/
lemma finish (he : w.current.endsStatement) (s : Statement) :
    Needs (endOfStatement >>= fun _ => Pure.pure s) w 0 s w :=
  of_run_eq (run_bind_of_ok (a := ()) (run_endOfStatement_eq_ok.2 ⟨he, rfl⟩))

/-- What follows needs no levels of its own. -/
lemma bind_zero {p : Parser σ α} {g : α → Parser σ β} {a : α} {w₁ : Window σ}
    (hp : Needs p w n a w₁) (hg : Needs (g a) w₁ 0 b w') : Needs (p >>= g) w n b w' := by
  rw [← Nat.max_zero n]
  exact hp.bind hg

end Parser.Needs

section Lists

variable {item : List Token → Expr → Prop} {cost : Expr → ℕ} {p : Parser σ Expr}

/-- Items with commas between them are read up to the delimiter after the last of them. -/
lemma Separated.needs (hp : p.Accepts item cost) {ts : List Token} {es : List Expr}
    (h : Separated item ts es) {w : Window σ} {next : Token} (hw : w.Proper)
    (hs : w.Shows (ts ++ [next])) (hnext : next.Delimits) (hcomma : next.kind ≠ .symbol .comma) :
    Needs (commaSeparated p) w (Expr.listCost cost es) es (w.advanceBy ts.length) := by
  induction h generalizing w with
  | @one ts e he =>
    have hcurrent : (w.advanceBy ts.length).current = next :=
      ((Window.shows_append ..).1 hs).2.1
    refine (hp he hw hs hnext).commaSeparated (Needs.of_run_eq ?_)
    rw [run_commaTail, if_neg (by rwa [hcurrent])]
  | @more ts us comma e es he hk _ ih =>
    rw [List.append_assoc, List.cons_append] at hs
    obtain ⟨hts, hcurrent, hus⟩ := (Window.shows_append ..).1 hs
    have hplain : comma.Plain := hcurrent ▸ (hw.advanceBy ts.length).plain_current
    have hitem := hp he hw ((Window.shows_append ..).2 ⟨hts, hcurrent, trivial⟩)
      (hplain.delimits_of_comma hk)
    have hrest := ih (hw.advanceBy ts.length).advance hus
    -- After a comma the tail of a list is read as a list of its own.
    have htail : (commaTail p).run (w.advanceBy ts.length) =
        (commaSeparated p).run (w.advanceBy ts.length).advance := by
      rw [run_commaTail, if_pos (by rw [hcurrent, hk])]
      rfl
    have hend : w.advanceBy (ts ++ comma :: us).length =
        (w.advanceBy ts.length).advance.advanceBy us.length := by
      rw [List.length_append, Window.advanceBy_add]
      rfl
    rw [hend]
    exact hitem.commaSeparated (hrest.congr htail rfl)

lemma accepts_dimension (hp : (expr minPower : Parser σ Expr).Accepts item cost) :
    (dimension : Parser σ Expr).Accepts (DimensionWritten item) cost := by
  rintro w - e next ⟨one, colon, run, rfl, hone, hcolon, hrun⟩ hw ⟨rfl, rfl, hs⟩ hnext
  exact .lowerBound_bind hone (.expect_bind hcolon (hp hrun hw.advance.advance hs hnext))

end Lists

namespace Statement.Written

variable {E : List Token → Expr → Prop} {cost : Expr → ℕ} {ts : List Token} {s : Statement}

lemma needs_of_statementOf? {p : Parser σ Statement} {w w' : Window σ} {n : ℕ}
    (hk : statementOf? w.current.kind = some p) (h : Needs p w n s w') :
    Needs statement w n s w' := by
  refine h.congr ?_ rfl
  rw [statement, run_window_bind, hk]

variable {w : Window σ} {t : Token}

lemma needs_declare {keyword id colon type : Token}
    (hid : id.kind = .identifier) (hcolon : colon.kind = .symbol .colon) (htype : type.IsDatatype)
    (hs : w.Shows [keyword, id, colon, type, t]) (ht : t.endsStatement) :
    Needs declareStatement w 0 (.declare id type) (w.advanceBy 4) := by
  obtain ⟨rfl, rfl, rfl, rfl, rfl, -⟩ := hs
  refine .take_bind (.expect_bind hid (.expect_bind hcolon (.window_bind ?_)))
  rw [if_neg htype.kind_ne_keyword]
  exact .datatype_bind htype (.finish ht _)

lemma needs_arrayType (hE : (expr minPower : Parser σ Expr).Accepts E cost)
    {array opening closing ofType type : Token} {bounds : List Expr}
    (harray : array.kind = .keyword .array) (hopening : opening.kind = .symbol .openBracket)
    (hbounds : Separated (DimensionWritten E) ts bounds)
    (hclosing : closing.kind = .symbol .closeBracket) (hof : ofType.kind = .keyword .ofType)
    (htype : type.IsDatatype) (hw : w.Proper)
    (hs : w.Shows (array :: opening :: (ts ++ [closing, ofType, type]))) :
    Needs arrayType w (Expr.listCost cost bounds) (bounds, type)
      (w.advanceBy (ts.length + 5)) := by
  obtain ⟨rfl, rfl, hs⟩ := hs
  obtain ⟨hts, rfl, rfl, rfl, -⟩ := (Window.shows_append ..).1 hs
  have hproper : w.advance.advance.Proper := hw.advance.advance
  have hdelimits := (hproper.advanceBy ts.length).plain_current.delimits_of_closeBracket hclosing
  have hlist := hbounds.needs (accepts_dimension hE) hproper
    ((Window.shows_append ..).2 ⟨hts, rfl, trivial⟩) hdelimits (by simp [hclosing])
  have hend : w.advanceBy (ts.length + 5) =
      (w.advance.advance.advanceBy ts.length).advance.advance.advance :=
    Window.advanceBy_add ts.length 3 w.advance.advance
  rw [hend]
  refine .expect_bind harray (.expect_bind hopening (hlist.bind_zero (.window_bind ?_)))
  exact .expectOr_bind hclosing (.expect_bind hof (.datatype_bind htype (.of_run_eq rfl)))

lemma needs_declareArray (hE : (expr minPower : Parser σ Expr).Accepts E cost)
    {keyword id colon array opening closing ofType type : Token} {bounds : List Expr}
    (hid : id.kind = .identifier)
    (hcolon : colon.kind = .symbol .colon) (harray : array.kind = .keyword .array)
    (hopening : opening.kind = .symbol .openBracket)
    (hbounds : Separated (DimensionWritten E) ts bounds)
    (hclosing : closing.kind = .symbol .closeBracket) (hof : ofType.kind = .keyword .ofType)
    (htype : type.IsDatatype) (hw : w.Proper)
    (hs : w.Shows (keyword :: id :: colon :: array :: opening ::
      (ts ++ [closing, ofType, type] ++ [t]))) (ht : t.endsStatement) :
    Needs declareStatement w (Expr.listCost cost bounds) (.declareArray id bounds type)
      (w.advanceBy (ts.length + 8)) := by
  obtain ⟨rfl, rfl, rfl, hs⟩ := hs
  have htype' : w.advance.advance.advance.Shows
      ((array :: opening :: (ts ++ [closing, ofType, type])) ++ [t]) := hs
  obtain ⟨harrayType, hcurrent, -⟩ := (Window.shows_append ..).1 htype'
  have hneeds := needs_arrayType hE harray hopening hbounds hclosing hof htype
    hw.advance.advance.advance harrayType
  have hkind : w.advance.advance.advance.current.kind = .keyword .array := by
    rw [harrayType.1, harray]
  have hend : (w.advance.advance.advance.advanceBy (ts.length + 5)).current.endsStatement := by
    have hlength : (array :: opening :: (ts ++ [closing, ofType, type])).length =
        ts.length + 5 := by simp
    rw [← hlength, hcurrent]
    exact ht
  refine .take_bind (.expect_bind hid (.expect_bind hcolon (.window_bind ?_)))
  rw [if_pos hkind]
  exact hneeds.bind_zero (.finish hend _)

lemma needs_constant {keyword id equals value : Token} (hid : id.kind = .identifier)
    (hequals : equals.kind = .symbol .equals) (hvalue : value.isLiteral)
    (hs : w.Shows [keyword, id, equals, value, t]) (ht : t.endsStatement) :
    Needs constantStatement w 0 (.constant id value) (w.advanceBy 4) := by
  obtain ⟨rfl, rfl, rfl, rfl, rfl, -⟩ := hs
  refine .take_bind (.expect_bind hid (.expect_bind hequals (.window_bind ?_)))
  rw [if_pos hvalue]
  exact .take_bind (.finish ht _)

lemma needs_assign (hE : (expr minPower : Parser σ Expr).Accepts E cost) {id arrow : Token}
    {value : Expr} (harrow : arrow.kind = .symbol .assign) (hvalue : E ts value) (hw : w.Proper)
    (hs : w.Shows (id :: arrow :: (ts ++ [t]))) (ht : t.endsStatement) (hplain : t.Plain) :
    Needs assignStatement w (cost value) (.assign id value) (w.advanceBy (ts.length + 2)) := by
  obtain ⟨rfl, rfl, hs⟩ := hs
  have hneeds := hE hvalue hw.advance.advance hs (hplain.delimits_of_endsStatement ht)
  have hend : (w.advance.advance.advanceBy ts.length).current.endsStatement := by
    rw [((Window.shows_append ..).1 hs).2.1]
    exact ht
  have hafter : Needs (plainAfter w.current) w.advance (cost value) (.assign w.current value)
      (w.advanceBy (ts.length + 2)) :=
    .expect_bind harrow (hneeds.bind_zero (.finish hend _))
  have hrun : assignStatement.run w = (plainAfter w.current).run w.advance := by
    rw [run_assignStatement, if_neg]
    intro hbracket
    exact absurd (harrow.symm.trans hbracket) (by simp)
  exact hafter.congr hrun rfl

/-- Indexes are read up to and including the bracket that closes them. -/
lemma needs_indexes (hE : (expr minPower : Parser σ Expr).Accepts E cost) {closing : Token}
    {indexes : List Expr} (hindexes : Separated E ts indexes)
    (hclosing : closing.kind = .symbol .closeBracket) (hw : w.Proper)
    (hs : w.Shows (ts ++ [closing])) :
    Needs (exprList (.symbol .closeBracket) false) w (Expr.listCost cost indexes) indexes
      (w.advanceBy ts.length).advance := by
  obtain ⟨-, rfl, -⟩ := (Window.shows_append ..).1 hs
  have hlist := hindexes.needs hE hw hs
    ((hw.advanceBy ts.length).plain_current.delimits_of_closeBracket hclosing) (by simp [hclosing])
  refine .window_bind ?_
  rw [if_neg (by simp)]
  exact hlist.bind_zero (.window_bind (.expectOr_bind hclosing (.of_run_eq rfl)))

lemma needs_assignElement (hE : (expr minPower : Parser σ Expr).Accepts E cost)
    {id opening closing arrow : Token} {us : List Token} {indexes : List Expr} {value : Expr}
    (hopening : opening.kind = .symbol .openBracket) (hindexes : Separated E ts indexes)
    (hclosing : closing.kind = .symbol .closeBracket) (harrow : arrow.kind = .symbol .assign)
    (hvalue : E us value) (hw : w.Proper)
    (hs : w.Shows (id :: opening :: (ts ++ closing :: arrow :: (us ++ [t]))))
    (ht : t.endsStatement) (hplain : t.Plain) :
    Needs assignStatement w (max (Expr.listCost cost indexes) (cost value))
      (.assignElement id indexes value) (w.advanceBy (ts.length + (us.length + 2) + 2)) := by
  obtain ⟨rfl, rfl, hs⟩ := hs
  obtain ⟨hts, rfl, rfl, hus⟩ := (Window.shows_append ..).1 hs
  have hproper : w.advance.advance.Proper := hw.advance.advance
  have hlist := needs_indexes hE hindexes hclosing hproper
    ((Window.shows_append ..).2 ⟨hts, rfl, trivial⟩)
  have hneeds := hE hvalue (hproper.advanceBy ts.length).advance.advance hus
    (hplain.delimits_of_endsStatement ht)
  have hends : ((w.advance.advance.advanceBy ts.length).advance.advance.advanceBy
      us.length).current.endsStatement := by
    rw [((Window.shows_append ..).1 hus).2.1]
    exact ht
  have hend : w.advanceBy (ts.length + (us.length + 2) + 2) =
      (w.advance.advance.advanceBy ts.length).advance.advance.advanceBy us.length :=
    Window.advanceBy_add ts.length (us.length + 2) w.advance.advance
  have hafter : Needs (elementAfter w.current) w.advance
      (max (Expr.listCost cost indexes) (cost value)) (.assignElement w.current indexes value)
      (w.advanceBy (ts.length + (us.length + 2) + 2)) := by
    rw [hend]
    exact .expect_bind hopening
      (hlist.bind (.expect_bind harrow (hneeds.bind_zero (.finish hends _))))
  have hrun : assignStatement.run w = (elementAfter w.current).run w.advance := by
    have hpeek : w.peek.kind = .symbol .openBracket := hopening
    rw [run_assignStatement, if_pos hpeek]
  exact hafter.congr hrun rfl

lemma needs_input {keyword id : Token} (hid : id.kind = .identifier)
    (hs : w.Shows [keyword, id, t]) (ht : t.endsStatement) :
    Needs inputStatement w 0 (.input id) (w.advanceBy 2) := by
  obtain ⟨rfl, rfl, rfl, -⟩ := hs
  exact .take_bind (.expect_bind hid (.finish ht _))

lemma needs_output (hE : (expr minPower : Parser σ Expr).Accepts E cost) {keyword : Token}
    {values : List Expr} (hvalues : Separated E ts values) (hw : w.Proper)
    (hs : w.Shows (keyword :: (ts ++ [t]))) (ht : t.endsStatement) (hplain : t.Plain) :
    Needs outputStatement w (Expr.listCost cost values) (.output values)
      (w.advanceBy (ts.length + 1)) := by
  obtain ⟨rfl, hs⟩ := hs
  have hlist := hvalues.needs hE hw.advance hs (hplain.delimits_of_endsStatement ht) (by
    rcases Kind.eq_of_endsStatement ht with hk | hk
    · simp [hk]
    · simp [hk])
  have hend : (w.advance.advanceBy ts.length).current.endsStatement := by
    rw [((Window.shows_append ..).1 hs).2.1]
    exact ht
  exact .take_bind (hlist.bind_zero (.finish hend _))

/-- Every line of the grammar is read as the statement that it is the written form of. -/
lemma needs (hE : (expr minPower : Parser σ Expr).Accepts E cost) (h : Written E ts s)
    (hw : w.Proper) (hs : w.Shows (ts ++ [t])) (ht : t.endsStatement) :
    Needs statement w (s.cost cost) s (w.advanceBy ts.length) := by
  have hplain : t.Plain := hw.plain_of_mem hs (by simp)
  have hkind {k : Kind} {us : List Token} {first : Token} (hts : ts = first :: us)
      (hk : first.kind = k) : w.current.kind = k := by
    rw [hts] at hs
    rw [hs.1, hk]
  cases h with
  | declare hkeyword hid hcolon htype =>
    exact needs_of_statementOf? (by rw [hkind rfl hkeyword]; rfl)
      (needs_declare hid hcolon htype hs ht)
  | @declareArray keyword id colon array opening closing ofType type us bounds hkeyword hid hcolon
      harray hopening hbounds hclosing hof htype =>
    have hlength : (keyword :: id :: colon :: array :: opening ::
        (us ++ [closing, ofType, type])).length = us.length + 8 := by simp
    rw [hlength]
    exact needs_of_statementOf? (by rw [hkind rfl hkeyword]; rfl)
      (needs_declareArray hE hid hcolon harray hopening hbounds hclosing hof htype hw hs ht)
  | constant hkeyword hid hequals hvalue =>
    exact needs_of_statementOf? (by rw [hkind rfl hkeyword]; rfl)
      (needs_constant hid hequals hvalue hs ht)
  | assign hid harrow hvalue =>
    exact needs_of_statementOf? (by rw [hkind rfl hid]; rfl)
      (needs_assign hE harrow hvalue hw hs ht hplain)
  | @assignElement id opening closing arrow us run indexes value hid hopening hindexes hclosing
      harrow hvalue =>
    have hlength : (id :: opening :: (us ++ closing :: arrow :: run)).length =
        us.length + (run.length + 2) + 2 := by simp
    rw [hlength]
    refine needs_of_statementOf? (by rw [hkind rfl hid]; rfl)
      (needs_assignElement hE hopening hindexes hclosing harrow hvalue hw ?_ ht hplain)
    simpa using hs
  | input hkeyword hid =>
    exact needs_of_statementOf? (by rw [hkind rfl hkeyword]; rfl) (needs_input hid hs ht)
  | output hkeyword hvalues =>
    exact needs_of_statementOf? (by rw [hkind rfl hkeyword]; rfl)
      (needs_output hE hvalues hw hs ht hplain)

end Statement.Written

end Pseudolang
