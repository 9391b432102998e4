import Pseudolang.Proofs.EarliestError
import Pseudolang.Proofs.Printing

/-!
# Printing statements and reading them again

The printed form of a statement is put together from words, symbols and expressions, with blanks or
brackets between them.  `Spells text P` says that wherever the text stands before something that
cannot belong to its last lexeme, tokens with the property `P` are read from it.  Two texts with a
blank between them spell what the one spells and then what the other does (`Spells.blank`), and the
same holds with a character between them that is a token by itself (`Spells.char`).  The printed
form of a well-formed statement so spells a line of the grammar (`Statement.spells`), in which every
expression has the parentheses of its printed form.

The outcome of such a line depends on the levels that the printed expressions open, as it does for
one expression.  Lines do not depend on each other, so that a printed program is read line by line
(`outcomesOf_append`).
-/

namespace Pseudolang

open Pseudolang.Grammar Pseudolang.Parser

/-! ## Well-formed statements -/

/-- The token is an identifier, with a text that it is read from. -/
def Token.IsName (t : Token) : Prop :=
  t.kind = .identifier ∧ t.Lexed

/-- There are expressions, and all of them are well-formed. -/
def Expr.SomeWellFormed (es : List Expr) : Prop :=
  es ≠ [] ∧ ∀ e ∈ es, e.WellFormed

namespace Statement

/-- Every token of the statement is of a kind that may stand where it does, with a text that it is
read from. -/
def WellFormed : Statement → Prop
  | declare identifier datatype =>
    identifier.IsName ∧ datatype.IsDatatype ∧ datatype.Lexed
  | declareArray identifier bounds datatype =>
    identifier.IsName ∧ Expr.SomeWellFormed bounds ∧ datatype.IsDatatype ∧ datatype.Lexed
  | constant identifier value => identifier.IsName ∧ value.isLiteral ∧ value.Lexed
  | assign identifier value => identifier.IsName ∧ value.WellFormed
  | assignElement identifier indexes value =>
    identifier.IsName ∧ Expr.SomeWellFormed indexes ∧ value.WellFormed
  | input identifier => identifier.IsName
  | output values => Expr.SomeWellFormed values

/-- The expressions of the statement. -/
def exprs : Statement → List Expr
  | declareArray _ bounds _ => bounds
  | assign _ value => [value]
  | assignElement _ indexes value => indexes ++ [value]
  | output values => values
  | _ => []

/-- The printed form of some expression of the statement opens more levels than allowed. -/
def TooDeep (s : Statement) : Prop :=
  ∃ e ∈ s.exprs, Expr.maxNesting < e.printedLevels

end Statement

/-- The statements in their printed form, one a line. -/
def printedLines (ss : List Statement) : String :=
  String.join (ss.map fun s => s.text ++ "\n")

/-! ## Positions do not matter -/

namespace Expr

mutual

lemma printedNesting_unplaced : ∀ e : Expr, e.unplaced.printedNesting = e.printedNesting
  | atom _ => rfl
  | unary _ operand => by
      rw [unplaced, printedNesting, printedNesting, printedNesting_unplaced operand]
  | binary _ left right => by
      rw [unplaced, printedNesting, printedNesting, printedNesting_unplaced left,
        printedNesting_unplaced right]
  | suffix _ operand => by
      rw [unplaced, printedNesting, printedNesting, printedNesting_unplaced operand]
  | call _ arguments => by
      rw [unplaced, printedNesting, printedNesting, listNesting_unplacedAll arguments]
  | index _ indexes => by
      rw [unplaced, printedNesting, printedNesting, listNesting_unplacedAll indexes]

lemma listNesting_unplacedAll : ∀ es : List Expr, listNesting (unplacedAll es) = listNesting es
  | [] => rfl
  | e :: es => by
      rw [unplacedAll, listNesting, listNesting, printedNesting_unplaced e,
        listNesting_unplacedAll es]

end

lemma mapTokens_unplaced_eq : mapTokens Token.unplaced = unplaced :=
  funext mapTokens_unplaced

lemma listText_eq_intercalate (es : List Expr) :
    listText es = String.intercalate ", " (es.map text) := by
  have htail (es : List Expr) (s : String) :
      s ++ tailText es = String.intercalate ", " (s :: es.map text) := by
    induction es generalizing s with
    | nil => simp [tailText]
    | cons e es ih =>
      rw [tailText, List.map_cons, String.intercalate_cons_cons, ← ih, String.append_assoc,
        String.append_assoc]
  cases es with
  | nil => rfl
  | cons e es => exact htail es e.text

end Expr

namespace Statement

variable {f : Token → Token} {s s' : Statement}

lemma text_mapTokens (hf : ∀ t, (f t).unplaced = t.unplaced) (s : Statement) :
    (s.mapTokens f).text = s.text := by
  have htoken (t : Token) : (f t).text = t.text := (Token.unplaced_eq_iff.1 (hf t)).2.1
  have hexpr (e : Expr) : (e.mapTokens f).text = e.text := Expr.text_mapTokens hf e
  have hlist (es : List Expr) : Expr.listText (es.map (Expr.mapTokens f)) = Expr.listText es := by
    rw [← Expr.mapAllTokens_eq_map, Expr.listText_mapAllTokens hf]
  cases s <;> simp [mapTokens, text, boundsText, htoken, hexpr, hlist, Function.comp_def]

lemma text_eq_of_unplaced (h : s'.unplaced = s.unplaced) : s'.text = s.text := by
  have htext (s : Statement) : s.unplaced.text = s.text :=
    text_mapTokens (f := Token.unplaced) (fun _ => rfl) s
  rw [← htext s', h, htext]

lemma unplaced_shift (k : ℕ) (s : Statement) : (s.shift k).unplaced = s.unplaced :=
  mapTokens_mapTokens ..

lemma cost_eq_of_unplaced (h : s'.unplaced = s.unplaced) :
    s'.cost Expr.printedLevels = s.cost Expr.printedLevels := by
  have hcost (s : Statement) : s.unplaced.cost Expr.printedLevels = s.cost Expr.printedLevels := by
    have hlevels (e : Expr) : e.unplaced.printedLevels = e.printedLevels :=
      congrArg (1 + ·) e.printedNesting_unplaced
    cases s <;> simp [unplaced, mapTokens, cost, Expr.listCost, Expr.mapTokens_unplaced, hlevels,
      Function.comp_def]
  rw [← hcost s', h, hcost]

lemma cost_le_iff {cost : Expr → ℕ} {n : ℕ} : s.cost cost ≤ n ↔ ∀ e ∈ s.exprs, cost e ≤ n := by
  have hlist (es : List Expr) : Expr.listCost cost es ≤ n ↔ ∀ e ∈ es, cost e ≤ n := by
    induction es with
    | nil => simp [Expr.listCost]
    | cons e es ih => simpa [Expr.listCost] using fun _ => ih
  cases s <;> simp [Statement.cost, exprs, hlist, or_imp, forall_and]

lemma tooDeep_iff : s.TooDeep ↔ Expr.maxNesting < s.cost Expr.printedLevels := by
  rw [← not_le, cost_le_iff]
  simp [TooDeep]

end Statement

/-! ## Spelling -/

/-- Wherever the text stands after blanks and before a text that cannot belong to its last lexeme,
tokens with the property are read from it. -/
def Spells (text : List Char) (P : List Token → Prop) : Prop :=
  ∀ ⦃c : Cursor⦄ ⦃gap rest : List Char⦄, (∀ x ∈ gap, isBlank x) → c.rest = gap ++ (text ++ rest) →
    EndsLexeme rest → ∃ ts c', P ts ∧ TokenStream.Yields c ts c' ∧ c'.rest = rest

/-- Tokens with the first property and then tokens with the second one. -/
def Followed (P Q : List Token → Prop) (ts : List Token) : Prop :=
  ∃ us vs, ts = us ++ vs ∧ P us ∧ Q vs

/-- One token, which is the given one but for its position. -/
def Token.IsCopy (t : Token) (ts : List Token) : Prop :=
  ∃ u, ts = [u] ∧ u.unplaced = t.unplaced

/-- The tokens of an item that is the given one but for positions. -/
def Expr.IsCopy (item : List Token → Expr → Prop) (e : Expr) (ts : List Token) : Prop :=
  ∃ e', item ts e' ∧ e'.unplaced = e.unplaced

namespace Spells

variable {a b gap : List Char} {P Q : List Token → Prop} {t : Token} {x : Char} {k : Kind}

lemma mono (h : Spells a P) (hPQ : ∀ ts, P ts → Q ts) : Spells a Q := by
  intro c gap rest hgap hc hrest
  obtain ⟨ts, c', hts, hyields, hc'⟩ := h hgap hc hrest
  exact ⟨ts, c', hPQ ts hts, hyields, hc'⟩

lemma lexed (ht : t.Lexed) (hi : t.kind ≠ .illegal) (hk : t.kind ≠ .endOfFile) :
    Spells t.text.toList t.IsCopy := by
  intro c gap rest hgap hc hrest
  obtain ⟨hnext, hrest'⟩ := Cursor.next_of_lexed ht hi hk hgap hc hrest
  exact ⟨[c.next.1], c.next.2, ⟨_, rfl, hnext⟩, TokenStream.yields_next c, hrest'⟩

lemma writable (ht : t.Writable) : Spells t.text.toList t.IsCopy :=
  lexed ht.lexed ht.legal (Window.kind_ne_endOfFile ht.inLine)

lemma datatype (ht : t.IsDatatype) (hl : t.Lexed) : Spells t.text.toList t.IsCopy := by
  refine lexed hl ?_ (Window.kind_ne_endOfFile ht.not_endsStatement)
  intro hi
  simp [Token.IsDatatype, hi, Kind.isNative] at ht

lemma atom (ha : t.isAtom) (hl : t.Lexed) : Spells t.text.toList t.IsCopy := by
  intro c gap rest hgap hc hrest
  obtain ⟨hnext, hrest'⟩ := Cursor.next_of_atom ha hl hgap hc hrest
  exact ⟨[c.next.1], c.next.2, ⟨_, rfl, hnext⟩, TokenStream.yields_next c, hrest'⟩

lemma name (h : t.IsName) : Spells t.text.toList t.IsCopy :=
  atom (Token.isAtom_of_kind h.1) h.2

/-- Two texts with blanks between them, or without if the second one cannot belong to the first. -/
lemma append (ha : Spells a P) (hb : Spells b Q) (hgap : ∀ y ∈ gap, isBlank y)
    (hend : ∀ rest, EndsLexeme (gap ++ (b ++ rest))) : Spells (a ++ (gap ++ b)) (Followed P Q) := by
  intro c gap' rest hgap' hc hrest
  obtain ⟨us, c₁, hus, hyields₁, hc₁⟩ := ha hgap' (hc.trans (by simp)) (hend rest)
  obtain ⟨vs, c₂, hvs, hyields₂, hc₂⟩ := hb hgap hc₁ hrest
  exact ⟨us ++ vs, c₂, ⟨us, vs, rfl, hus, hvs⟩, hyields₁.append hyields₂, hc₂⟩

lemma blank (ha : Spells a P) (hb : Spells b Q) : Spells (a ++ ' ' :: b) (Followed P Q) :=
  ha.append hb Expr.isBlank_of_mem_blank fun _ => Expr.endsLexeme_blank _

/-- Nothing can belong to a character that is a token by itself. -/
lemma char_cons (hx : Kind.ofChar? x = some k) (hb : Spells b Q) (hgap : ∀ y ∈ gap, isBlank y) :
    Spells (x :: (gap ++ b)) (Followed k.token.IsCopy Q) := by
  intro c gap' rest hgap' hc hrest
  have hstart : c.rest = gap' ++ x :: (gap ++ (b ++ rest)) := by simp [hc]
  obtain ⟨hnext, hc₁⟩ := Cursor.next_of_ofChar? hx hgap' hstart
  obtain ⟨vs, c₂, hvs, hyields, hc₂⟩ := hb hgap hc₁ hrest
  exact ⟨[c.next.1] ++ vs, c₂, ⟨_, vs, rfl, ⟨_, rfl, hnext⟩, hvs⟩,
    (TokenStream.yields_next c).append hyields, hc₂⟩

/-- Two texts with such a character between them. -/
lemma char (ha : Spells a P) (hx : Kind.ofChar? x = some k) (hend : isLexemeEnd x)
    (hb : Spells b Q) (hgap : ∀ y ∈ gap, isBlank y) :
    Spells (a ++ x :: (gap ++ b)) (Followed P (Followed k.token.IsCopy Q)) :=
  ha.append (char_cons hx hb hgap) (List.forall_mem_nil _) fun _ => (endsLexeme_cons ..).2 hend

/-- Items with a comma and a blank between them. -/
lemma list {item : List Token → Expr → Prop} {print : Expr → String} {es : List Expr}
    (hne : es ≠ []) (h : ∀ e ∈ es, Spells (print e).toList (e.IsCopy item)) :
    Spells (String.intercalate ", " (es.map print)).toList (fun ts =>
      ∃ es', Separated item ts es' ∧ es'.map Expr.unplaced = es.map Expr.unplaced) := by
  induction es with
  | nil => exact absurd rfl hne
  | cons e es ih =>
    rw [List.forall_mem_cons] at h
    cases es with
    | nil =>
      rw [List.map_singleton, String.intercalate_singleton]
      refine h.1.mono ?_
      rintro ts ⟨e', he', hunplaced⟩
      exact ⟨[e'], .one he', by simp [hunplaced]⟩
    | cons e₁ es =>
      have hspells := h.1.char (x := ',') rfl (by decide) (ih (by simp) h.2)
        Expr.isBlank_of_mem_blank
      have htext : (String.intercalate ", " ((e :: e₁ :: es).map print)).toList =
          (print e).toList ++
            ',' :: ([' '] ++ (String.intercalate ", " ((e₁ :: es).map print)).toList) := by
        rw [List.map_cons, List.map_cons, String.intercalate_cons_cons]
        simp
      rw [htext]
      refine hspells.mono ?_
      rintro _ ⟨us, _, rfl, ⟨e', he', hunplaced⟩, _, vs, rfl, ⟨comma, rfl, hcomma⟩, es', hes',
        hrest⟩
      refine ⟨e' :: es', .more he' (Token.kind_eq_of_unplaced hcomma) hes', ?_⟩
      rw [List.map_cons, hunplaced, hrest]
      rfl

end Spells

/-! ## Printed expressions -/

/-- The tokens are a form of the expression in which a pair of parentheses stands around every
operator. -/
def PrintedAs (run : List Token) (e : Expr) : Prop :=
  ∃ g : Grouped, g.Prints e ∧ g.tokens = run ∧ g.toExpr = e ∧ ∀ t ∈ run, t.Plain

lemma PrintedAs.not_endsStatement {run : List Token} {e : Expr} (h : PrintedAs run e) :
    ∀ t ∈ run, ¬t.endsStatement := by
  obtain ⟨g, hg, rfl, -, hplain⟩ := h
  exact Grouped.not_endsStatement hg.wellFormed hplain

/-- A tree that prints an expression prints the one that it is read as. -/
lemma Grouped.Prints.self {g : Grouped} {e : Expr} (h : g.Prints e) : g.Prints g.toExpr :=
  { h with
    toExpr := rfl
    nesting := by
      rw [h.nesting, ← e.printedNesting_unplaced, ← h.toExpr, Expr.printedNesting_unplaced] }

/-- Before a delimiter it is read as the expression, and needs the levels of the printed form. -/
lemma accepts_printedAs {σ : Type} [TokenStream σ] :
    (expr minPower : Parser σ Expr).Accepts PrintedAs Expr.printedLevels := by
  rintro w _ _ next ⟨g, hg, rfl, rfl, hplain⟩ hw hs hnext
  have hneeds := (Grouped.readsBack g).needs_expr_of_inert
    ⟨hg.wellFormed, hg.binds, hg.derefsClear _, hplain⟩ hs hnext.inert
  rwa [Grouped.levels, hg.nesting] at hneeds

lemma Spells.expr {e : Expr} (h : e.WellFormed) : Spells e.text.toList (e.IsCopy PrintedAs) := by
  intro c gap rest hgap hc hrest
  obtain ⟨g, c', hg, hyields, hc'⟩ := Expr.readsBack e h c gap rest hgap hc hrest
  have hplain : ∀ t ∈ g.tokens, t.Plain := hyields.shows.forall_mem Cursor.plain_next
  exact ⟨g.tokens, c', ⟨g.toExpr, ⟨g, hg.self, rfl, rfl, hplain⟩, hg.toExpr⟩, hyields, hc'⟩

lemma Spells.dimension {e : Expr} (h : e.WellFormed) :
    Spells ("1:" ++ e.text).toList (e.IsCopy (DimensionWritten PrintedAs)) := by
  have hspells := (writable Token.writable_one).char (x := ':') rfl (by decide) (expr h)
    (List.forall_mem_nil _)
  have htext : ("1:" ++ e.text).toList = Token.one.text.toList ++ ':' :: ([] ++ e.text.toList) := by
    simp [Token.one]
  rw [htext]
  refine hspells.mono ?_
  rintro _ ⟨_, _, rfl, ⟨one, rfl, hone⟩, _, run, rfl, ⟨colon, rfl, hcolon⟩, e', he', hunplaced⟩
  refine ⟨e', ⟨one, colon, run, rfl, ?_, Token.kind_eq_of_unplaced hcolon, he'⟩, hunplaced⟩
  obtain ⟨hkind, htext, hliteral, -⟩ := Token.unplaced_eq_iff.1 hone
  exact ⟨hkind, hliteral, htext⟩

lemma Spells.exprs {es : List Expr} (h : Expr.SomeWellFormed es) :
    Spells (Expr.listText es).toList (fun ts =>
      ∃ es', Separated PrintedAs ts es' ∧ es'.map Expr.unplaced = es.map Expr.unplaced) := by
  rw [Expr.listText_eq_intercalate]
  exact list h.1 fun e he => expr (h.2 e he)

lemma Spells.bounds {es : List Expr} (h : Expr.SomeWellFormed es) :
    Spells (Statement.boundsText es).toList (fun ts => ∃ es',
      Separated (DimensionWritten PrintedAs) ts es' ∧
        es'.map Expr.unplaced = es.map Expr.unplaced) :=
  list h.1 fun e he => dimension (h.2 e he)

/-! ## Printed statements -/

lemma Token.IsDatatype.of_unplaced_eq {t u : Token} (h : t.IsDatatype)
    (htu : u.unplaced = t.unplaced) : u.IsDatatype := by
  obtain ⟨hkind, -, hliteral, -⟩ := Token.unplaced_eq_iff.1 htu
  rwa [IsDatatype, hkind, hliteral]

namespace Statement

/-- The tokens of a statement that is the given one but for positions, with its expressions as they
are printed. -/
def IsCopy (s : Statement) (ts : List Token) : Prop :=
  ∃ s', Written PrintedAs ts s' ∧ s'.unplaced = s.unplaced

variable {id type value : Token} {e : Expr} {es : List Expr}

lemma spells_keyword (k : Keyword) :
    Spells (Kind.keyword k).token.text.toList (Kind.keyword k).token.IsCopy :=
  .writable (Kind.writable_keyword k)

lemma spells_symbol {x : Symbol} (hd : x ≠ .doubleQuote) (hs : x ≠ .singleQuote) :
    Spells (Kind.symbol x).token.text.toList (Kind.symbol x).token.IsCopy :=
  .writable (Kind.writable_symbol hd hs)

lemma kind_of_isName (h : id.IsName) {i : Token} (hi : i.unplaced = id.unplaced) :
    i.kind = .identifier :=
  (Token.kind_eq_of_unplaced hi).trans h.1

lemma spells_declare (h : (declare id type).WellFormed) :
    Spells (declare id type).text.toList (declare id type).IsCopy := by
  have hspells := (spells_keyword .declare).blank ((Spells.name h.1).blank
    ((spells_symbol (x := .colon) (by decide) (by decide)).blank (.datatype h.2.1 h.2.2)))
  refine .mono (by simpa [text, Kind.token, Kind.text, Keyword.text, Symbol.text] using hspells) ?_
  rintro _ ⟨_, _, rfl, ⟨k, rfl, hk⟩, _, _, rfl, ⟨i, rfl, hi⟩, _, _, rfl, ⟨c, rfl, hc⟩, t, rfl, ht⟩
  refine ⟨.declare i t, .declare (Token.kind_eq_of_unplaced hk) (kind_of_isName h.1 hi)
    (Token.kind_eq_of_unplaced hc) (h.2.1.of_unplaced_eq ht), ?_⟩
  simp [unplaced, mapTokens, hi, ht]

lemma spells_declareArray (h : (declareArray id es type).WellFormed) :
    Spells (declareArray id es type).text.toList (declareArray id es type).IsCopy := by
  have harray := (spells_keyword .array).char (x := '[') rfl (by decide)
    ((Spells.bounds h.2.1).char (x := ']') rfl (by decide)
      ((spells_keyword .ofType).blank (.datatype h.2.2.1 h.2.2.2)) Expr.isBlank_of_mem_blank)
    (List.forall_mem_nil _)
  have hspells := (spells_keyword .declare).blank ((Spells.name h.1).blank
    ((spells_symbol (x := .colon) (by decide) (by decide)).blank harray))
  refine .mono (by simpa [text, Kind.token, Kind.text, Keyword.text, Symbol.text] using hspells) ?_
  rintro _ ⟨_, _, rfl, ⟨k, rfl, hk⟩, _, _, rfl, ⟨i, rfl, hi⟩, _, _, rfl, ⟨c, rfl, hc⟩,
    _, _, rfl, ⟨a, rfl, ha⟩, _, _, rfl, ⟨o, rfl, ho⟩, us, _, rfl, ⟨es', hes', hes⟩,
    _, _, rfl, ⟨b, rfl, hb⟩, _, _, rfl, ⟨f, rfl, hf⟩, t, rfl, ht⟩
  refine ⟨.declareArray i es' t, .declareArray (Token.kind_eq_of_unplaced hk)
    (kind_of_isName h.1 hi) (Token.kind_eq_of_unplaced hc) (Token.kind_eq_of_unplaced ha)
    (Token.kind_eq_of_unplaced ho) hes' (Token.kind_eq_of_unplaced hb)
    (Token.kind_eq_of_unplaced hf) (h.2.2.1.of_unplaced_eq ht), ?_⟩
  simp [unplaced, mapTokens, hi, ht, Expr.mapTokens_unplaced_eq, hes]

lemma spells_constant (h : (constant id value).WellFormed) :
    Spells (constant id value).text.toList (constant id value).IsCopy := by
  have hatom : value.isAtom := by simp [Token.isAtom, h.2.1]
  have hspells := (spells_keyword .constant).blank ((Spells.name h.1).blank
    ((spells_symbol (x := .equals) (by decide) (by decide)).blank (.atom hatom h.2.2)))
  refine .mono (by simpa [text, Kind.token, Kind.text, Keyword.text, Symbol.text] using hspells) ?_
  rintro _ ⟨_, _, rfl, ⟨k, rfl, hk⟩, _, _, rfl, ⟨i, rfl, hi⟩, _, _, rfl, ⟨c, rfl, hc⟩, v, rfl, hv⟩
  have hliteral : v.isLiteral := by
    rw [(Token.unplaced_eq_iff.1 hv).2.2.1]
    exact h.2.1
  refine ⟨.constant i v, .constant (Token.kind_eq_of_unplaced hk) (kind_of_isName h.1 hi)
    (Token.kind_eq_of_unplaced hc) hliteral, ?_⟩
  simp [unplaced, mapTokens, hi, hv]

lemma spells_assign (h : (assign id e).WellFormed) :
    Spells (assign id e).text.toList (assign id e).IsCopy := by
  have hspells := (Spells.name h.1).blank
    ((spells_symbol (x := .assign) (by decide) (by decide)).blank (.expr h.2))
  refine .mono (by simpa [text, Kind.token, Kind.text, Symbol.text] using hspells) ?_
  rintro _ ⟨_, _, rfl, ⟨i, rfl, hi⟩, _, run, rfl, ⟨a, rfl, ha⟩, e', he', hunplaced⟩
  refine ⟨.assign i e', .assign (kind_of_isName h.1 hi) (Token.kind_eq_of_unplaced ha) he', ?_⟩
  simp [unplaced, mapTokens, hi, Expr.mapTokens_unplaced, hunplaced]

lemma spells_assignElement (h : (assignElement id es e).WellFormed) :
    Spells (assignElement id es e).text.toList (assignElement id es e).IsCopy := by
  have hspells := (Spells.name h.1).char (x := '[') rfl (by decide)
    ((Spells.exprs h.2.1).char (x := ']') rfl (by decide)
      ((spells_symbol (x := .assign) (by decide) (by decide)).blank (.expr h.2.2))
      Expr.isBlank_of_mem_blank) (List.forall_mem_nil _)
  refine .mono (by simpa [text, Kind.token, Kind.text, Symbol.text] using hspells) ?_
  rintro _ ⟨_, _, rfl, ⟨i, rfl, hi⟩, _, _, rfl, ⟨o, rfl, ho⟩, us, _, rfl, ⟨es', hes', hes⟩,
    _, _, rfl, ⟨b, rfl, hb⟩, _, run, rfl, ⟨a, rfl, ha⟩, e', he', hunplaced⟩
  refine ⟨.assignElement i es' e', .assignElement (kind_of_isName h.1 hi)
    (Token.kind_eq_of_unplaced ho) hes' (Token.kind_eq_of_unplaced hb)
    (Token.kind_eq_of_unplaced ha) he', ?_⟩
  simp [unplaced, mapTokens, hi, Expr.mapTokens_unplaced_eq, hes, hunplaced]

lemma spells_input (h : (input id).WellFormed) :
    Spells (input id).text.toList (input id).IsCopy := by
  have hspells := (spells_keyword .input).blank (Spells.name h)
  refine .mono (by simpa [text, Kind.token, Kind.text, Keyword.text] using hspells) ?_
  rintro _ ⟨_, _, rfl, ⟨k, rfl, hk⟩, i, rfl, hi⟩
  refine ⟨.input i, .input (Token.kind_eq_of_unplaced hk) (kind_of_isName h hi), ?_⟩
  simp [unplaced, mapTokens, hi]

lemma spells_output (h : (output es).WellFormed) :
    Spells (output es).text.toList (output es).IsCopy := by
  have hspells := (spells_keyword .output).blank (Spells.exprs h)
  refine .mono (by simpa [text, Kind.token, Kind.text, Keyword.text] using hspells) ?_
  rintro _ ⟨_, us, rfl, ⟨k, rfl, hk⟩, es', hes', hes⟩
  refine ⟨.output es', .output (Token.kind_eq_of_unplaced hk) hes', ?_⟩
  simp [unplaced, mapTokens, Expr.mapTokens_unplaced_eq, hes]

/-- The printed form of a well-formed statement spells a line of the grammar for the same
statement. -/
lemma spells {s : Statement} (h : s.WellFormed) : Spells s.text.toList s.IsCopy := by
  cases s with
  | declare => exact spells_declare h
  | declareArray => exact spells_declareArray h
  | constant => exact spells_constant h
  | assign => exact spells_assign h
  | assignElement => exact spells_assignElement h
  | input => exact spells_input h
  | output => exact spells_output h

end Statement

/-! ## Tokens of one line -/

namespace Cursor

variable {c c' : Cursor} {ts : List Token}

/-- A text that is read without coming to the end of a line holds no line break. -/
lemma newline_notMem_of_yields {text rest : List Char} (h : TokenStream.Yields c ts c')
    (hts : ∀ t ∈ ts, ¬t.endsStatement) (hc : c.rest = text ++ rest) (hc' : c'.rest = rest) :
    '\n' ∉ text := by
  obtain ⟨n, hn, rfl⟩ := exists_eq_skip_of_yields h
  have hlength : n = text.length := by
    have := congrArg List.length hc'
    rw [rest_skip, List.length_drop] at this
    simp only [hc, List.length_append] at this hn
    omega
  have hline := (line_of_yields h hts).1
  rw [line_skip, hc, hlength, List.take_left] at hline
  exact List.count_eq_zero.1 (by omega)

end Cursor

namespace Statement

/-- What the printed form of the statement comes to on a line with the number: the statement itself,
or the refusal of what is nested too deeply. -/
structure ReadAgain (s : Statement) (n : ℕ) (outcome : Outcome) : Prop where
  ok : ¬s.TooDeep → ∃ s', outcome = .ok s' ∧ s'.unplaced = s.unplaced
  error : s.TooDeep → ∃ d, outcome = .error d ∧ d.TooDeep ∧ d.position.line = n

lemma ReadAgain.shift {s : Statement} {n : ℕ} {outcome : Outcome} (h : s.ReadAgain n outcome) :
    s.ReadAgain (n + 1) (outcome.shift 1) where
  ok hs := by
    obtain ⟨s', rfl, hs'⟩ := h.ok hs
    exact ⟨s'.shift 1, rfl, (unplaced_shift 1 s').trans hs'⟩
  error hs := by
    obtain ⟨d, rfl, ⟨found, hd⟩, hline⟩ := h.error hs
    exact ⟨d.shift 1, rfl, ⟨found, hd⟩, congrArg (· + 1) hline⟩

/-- One printed statement is one line of the grammar. -/
lemma exists_line {s : Statement} (h : s.WellFormed) :
    '\n' ∉ s.text.toList ∧ ∃ line : Line, tokenLines (tokenize (s.text ++ "\n")) = [line] ∧
      s.IsCopy line.tokens ∧ ∀ t ∈ line.all, t.position.line = 1 := by
  have hrest : (Cursor.ofSource (s.text ++ "\n")).rest = [] ++ (s.text.toList ++ ['\n']) := by
    simp [Cursor.ofSource]
  obtain ⟨ts, c, ⟨s', hwritten, hunplaced⟩, hyields, hc⟩ :=
    spells h (List.forall_mem_nil _) hrest ((endsLexeme_cons ..).2 (by decide))
  have hin := hwritten.not_endsStatement (fun _ _ h => h.not_endsStatement)
    (hyields.shows.forall_mem Cursor.plain_next)
  have hne : ts ≠ [] := by
    rintro rfl
    cases hwritten
  obtain ⟨hline, hposition⟩ := Cursor.line_of_yields hyields hin
  refine ⟨Cursor.newline_notMem_of_yields hyields hin hrest hc, ⟨ts, c.next.1⟩,
    tokenLines_of_yields hyields hc hin hne, ⟨s', hwritten, hunplaced⟩, ?_⟩
  refine List.forall_mem_append.2 ⟨hposition, List.forall_mem_singleton.2 ?_⟩
  exact (Cursor.line_position_next c).trans hline

/-- The levels that its expressions open decide what such a line comes to. -/
lemma IsCopy.readAgain {s : Statement} {line : Line} (h : s.IsCopy line.tokens)
    (hproper : line.Proper) {n : ℕ} (hposition : ∀ t ∈ line.all, t.position.line = n) :
    s.ReadAgain n line.outcome := by
  obtain ⟨s', hwritten, hunplaced⟩ := h
  have hneeds := hwritten.needs accepts_printedAs hproper.window
    (Window.shows_ofList_self line.all) hproper.ends
  rw [cost_eq_of_unplaced hunplaced] at hneeds
  have hdepth : (Window.ofStream line.all).depth = 0 := rfl
  constructor
  · intro hs
    rw [tooDeep_iff, not_lt] at hs
    exact ⟨s', by rw [Line.outcome, hneeds.ok (by omega)], hunplaced⟩
  · intro hs
    rw [tooDeep_iff] at hs
    obtain ⟨w, hw⟩ := hneeds.tooDeep (by omega) (by omega)
    have hd : line.outcome = .error w.tooDeep := by rw [Line.outcome, hw]
    obtain ⟨t, ht, htd⟩ := Line.exists_mem_position hproper.barrier hd
    exact ⟨w.tooDeep, hd, ⟨_, rfl⟩, htd ▸ hposition t ht⟩

end Statement

/-! ## Statements of a source text -/

lemma Separated.ne_nil {α : Type} {item : List Token → α → Prop} {ts : List Token} {as : List α}
    (h : Separated item ts as) : as ≠ [] := by
  cases h <;> simp

/-- Every item of a list has its tokens among those of the list. -/
lemma Separated.exists_of_mem {α : Type} {item : List Token → α → Prop} {ts : List Token}
    {as : List α} (h : Separated item ts as) {a : α} (ha : a ∈ as) : ∃ us ⊆ ts, item us a := by
  induction h with
  | one hitem =>
    obtain rfl := List.mem_singleton.1 ha
    exact ⟨_, List.Subset.refl _, hitem⟩
  | more hitem _ _ ih =>
    rcases List.mem_cons.1 ha with rfl | ha
    · exact ⟨_, List.subset_append_left .., hitem⟩
    · obtain ⟨us, hus, hitem'⟩ := ih ha
      exact ⟨us, fun t ht => List.mem_append_right _ (List.mem_cons_of_mem _ (hus ht)), hitem'⟩

lemma ReadsAs.wellFormed {run : List Token} {e : Expr} (h : ReadsAs run e)
    (hs : ∀ t ∈ run, t.Sourced) : e.WellFormed := by
  obtain ⟨g, rfl, rfl, hwf, -⟩ := h.exists_grouped fun t ht => (hs t ht).1
  exact Grouped.wellFormed_toExpr hwf hs

namespace Statement

/-- A statement that is written with tokens of a source text is well-formed. -/
lemma Written.wellFormed {ts : List Token} {s : Statement} (h : Written ReadsAs ts s)
    (hs : ∀ t ∈ ts, t.Sourced) : s.WellFormed := by
  have hname {t : Token} (ht : t ∈ ts) (hk : t.kind = .identifier) : t.IsName :=
    ⟨hk, (hs t ht).2 (by simp [hk])⟩
  have htype {t : Token} (ht : t ∈ ts) (hd : t.IsDatatype) : t.IsDatatype ∧ t.Lexed :=
    ⟨hd, (hs t ht).2 fun hi => by simp [Token.IsDatatype, hi, Kind.isNative] at hd⟩
  have hexpr {run : List Token} {e : Expr} (hrun : run ⊆ ts) (he : ReadsAs run e) : e.WellFormed :=
    he.wellFormed fun t ht => hs t (hrun ht)
  cases h with
  | declare _ hid _ hd => exact ⟨hname (by simp) hid, htype (by simp) hd⟩
  | declareArray _ hid _ _ _ hbounds _ _ hd =>
    refine ⟨hname (by simp) hid, ⟨hbounds.ne_nil, fun e he => ?_⟩, htype (by simp) hd⟩
    obtain ⟨us, hus, one, colon, run, rfl, -, -, hrun⟩ := hbounds.exists_of_mem he
    refine hexpr (fun t ht => ?_) hrun
    simp [hus (List.mem_cons_of_mem _ (List.mem_cons_of_mem _ ht))]
  | constant _ hid _ hvalue =>
    exact ⟨hname (by simp) hid, hvalue,
      (hs _ (by simp)).lexed_of_isAtom (by simp [Token.isAtom, hvalue])⟩
  | assign hid _ hvalue => exact ⟨hname (by simp) hid, hexpr (by simp) hvalue⟩
  | assignElement hid _ hindexes _ _ hvalue =>
    refine ⟨hname (by simp) hid, ⟨hindexes.ne_nil, fun e he => ?_⟩,
      hexpr (fun t ht => by simp [ht]) hvalue⟩
    obtain ⟨us, hus, hrun⟩ := hindexes.exists_of_mem he
    exact hexpr (fun t ht => by simp [hus ht]) hrun
  | input _ hid => exact hname (by simp) hid
  | output _ hvalues =>
    refine ⟨hvalues.ne_nil, fun e he => ?_⟩
    obtain ⟨us, hus, hrun⟩ := hvalues.exists_of_mem he
    exact hexpr (fun t ht => by simp [hus ht]) hrun

end Statement

namespace Program

lemma mem_statements_ofOutcomes {outcomes : List Outcome} {s : Statement} :
    s ∈ (ofOutcomes outcomes).statements ↔ .ok s ∈ outcomes := by
  rw [statements_ofOutcomes, List.mem_filterMap]
  constructor
  · rintro ⟨d | s', hmem, heq⟩
    · cases heq
    · cases heq
      exact hmem
  · exact fun hmem => ⟨.ok s, hmem, rfl⟩

end Program

lemma wellFormed_of_mem_parse {source : String} {s : Statement}
    (h : s ∈ (parse source).statements) : s.WellFormed := by
  have hmem : .ok s ∈ outcomesOf source := Program.mem_statements_ofOutcomes.1 h
  rw [outcomesOf_eq_map, List.mem_map] at hmem
  obtain ⟨line, hline, hok⟩ := hmem
  obtain ⟨-, -, hsublist⟩ := of_mem_splitStatements (List.mem_of_mem_filter hline)
  refine ((Line.proper_of_mem hline).outcome_eq_ok_iff.1 hok).wellFormed fun t ht => ?_
  exact forall_mem_tokenize Cursor.sourced_next source t
    (hsublist.subset (List.mem_append_left _ ht))

/-! ## Programs -/

lemma printedLines_cons (s : Statement) (ss : List Statement) :
    printedLines (s :: ss) = s.text ++ "\n" ++ printedLines ss := by
  simp [printedLines]

/-- Every printed statement comes to its own outcome, on its own line. -/
lemma readAgain_outcomesOf {ss : List Statement} (h : ∀ s ∈ ss, s.WellFormed) :
    List.Forall₂ (fun (x : Statement × ℕ) outcome => x.1.ReadAgain x.2 outcome) (ss.zipIdx 1)
      (outcomesOf (printedLines ss)) := by
  induction ss with
  | nil =>
    have hnone : outcomesOf (printedLines []) = [] := outcomes_of_endOfFile rfl
    rw [hnone]
    exact .nil
  | cons s ss ih =>
    rw [List.forall_mem_cons] at h
    obtain ⟨htext, line, hlines, hcopy, hposition⟩ := Statement.exists_line h.1
    have hproper : line.Proper := Line.proper_of_mem (hlines ▸ List.mem_singleton_self line)
    rw [printedLines_cons, outcomesOf_append, outcomesOf_eq_map (s.text ++ "\n"), hlines, lineCount,
      List.count_eq_zero.2 htext, List.zipIdx_cons, List.zipIdx_succ, List.map_singleton,
      List.singleton_append]
    refine .cons (hcopy.readAgain hproper hposition) ?_
    rw [List.forall₂_map_left_iff, List.forall₂_map_right_iff]
    exact (ih h.2).imp fun _ _ => Statement.ReadAgain.shift

/-- Where nothing is nested too deeply there are the same statements and no diagnostics. -/
lemma Program.ofOutcomes_of_readAgain {xs : List (Statement × ℕ)} {outcomes : List Outcome}
    (h : List.Forall₂ (fun x outcome => x.1.ReadAgain x.2 outcome) xs outcomes)
    (hdeep : ∀ x ∈ xs, ¬x.1.TooDeep) :
    (ofOutcomes outcomes).diagnostics = [] ∧
      List.Forall₂ (fun s s' => s'.unplaced = s.unplaced) (xs.map Prod.fst)
        (ofOutcomes outcomes).statements := by
  induction h with
  | nil => exact ⟨rfl, .nil⟩
  | cons hx _ ih =>
    rw [List.forall_mem_cons] at hdeep
    obtain ⟨s', rfl, hs'⟩ := hx.ok hdeep.1
    obtain ⟨hdiagnostics, hstatements⟩ := ih hdeep.2
    exact ⟨hdiagnostics, .cons hs' hstatements⟩

lemma printedLines_eq_of_unplaced {ss ss' : List Statement}
    (h : List.Forall₂ (fun s s' => s'.unplaced = s.unplaced) ss ss') :
    printedLines ss' = printedLines ss := by
  induction h with
  | nil => rfl
  | cons hs _ ih =>
    rw [printedLines_cons, printedLines_cons, ih, Statement.text_eq_of_unplaced hs]

/-- **Printed statements are a source text.**  Well-formed statements, printed one a line, are read
as the same statements line by line, but for positions; only a statement with an expression whose
printed form opens more levels than allowed comes to the refusal of its nesting, on its line.  Where
there is no such statement the text has no diagnostics, and what is read from it is printed as the
same text.  All statements of a source text are well-formed. -/
theorem parse_printedLines :
    (∀ ss : List Statement, (∀ s ∈ ss, s.WellFormed) →
      (parse (printedLines ss)).statements =
        (outcomesOf (printedLines ss)).filterMap Except.toOption ∧
      (parse (printedLines ss)).diagnostics =
        (outcomesOf (printedLines ss)).filterMap Outcome.diagnostic? ∧
      List.Forall₂ (fun (x : Statement × ℕ) outcome => x.1.ReadAgain x.2 outcome) (ss.zipIdx 1)
        (outcomesOf (printedLines ss)) ∧
      ((∀ s ∈ ss, ¬s.TooDeep) → (parse (printedLines ss)).diagnostics = [] ∧
        printedLines (parse (printedLines ss)).statements = printedLines ss)) ∧
    ∀ (source : String), ∀ s ∈ (parse source).statements, s.WellFormed := by
  refine ⟨fun ss h => ⟨statements_parse _, diagnostics_parse _, readAgain_outcomesOf h,
    fun hdeep => ?_⟩, fun source s => wellFormed_of_mem_parse⟩
  obtain ⟨hdiagnostics, hstatements⟩ := Program.ofOutcomes_of_readAgain (readAgain_outcomesOf h)
    fun x hx => hdeep x.1 (List.fst_mem_of_mem_zipIdx hx)
  rw [List.zipIdx_map_fst] at hstatements
  exact ⟨hdiagnostics, printedLines_eq_of_unplaced hstatements⟩

/-- An array with an operator in a bound, an element of it, and a string that looks like a
comment. -/
theorem parse_printedLines_array :
    ∃ ss, ss = (parse
        "DECLARE a:ARRAY[1:n+1,1:2]OF T\na[i,j] <- -b^\nOUTPUT \"// \",x").statements ∧
      (∀ s ∈ ss, s.WellFormed) ∧
      printedLines ss =
        "DECLARE a : ARRAY[1:(n + 1), 1:2] OF T\na[i, j] <- (-(b^))\nOUTPUT \"// \", x\n" ∧
      (parse (printedLines ss)).diagnostics = [] ∧
      printedLines (parse (printedLines ss)).statements = printedLines ss := by
  have hlevels : ((parse
      "DECLARE a:ARRAY[1:n+1,1:2]OF T\na[i,j] <- -b^\nOUTPUT \"// \",x").statements).all
        (fun s => s.exprs.all (·.printedLevels ≤ Expr.maxNesting)) = true := by
    decide +kernel
  have hss := parse_printedLines.2
    "DECLARE a:ARRAY[1:n+1,1:2]OF T\na[i,j] <- -b^\nOUTPUT \"// \",x"
  refine ⟨_, rfl, hss, by decide +kernel, (parse_printedLines.1 _ hss).2.2.2 fun s hs hdeep => ?_⟩
  obtain ⟨e, he, hlt⟩ := hdeep
  have hle := List.all_eq_true.1 (List.all_eq_true.1 hlevels s hs) e he
  exact absurd hlt (not_lt.2 (by simpa using hle))

end Pseudolang
