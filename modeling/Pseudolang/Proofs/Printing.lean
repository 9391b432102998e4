import Pseudolang.Proofs.Precedence.Completeness

/-!
# Printing and reading again

The printed form of an expression puts a pair of parentheses around every operator, so that no
binding power is needed to read it.  It is read as a grouped tree over the same expression, up to
positions: `Grouped.Prints` collects what is known of that tree, and `Expr.readsBack` finds it for
every expression whose tokens are what a source text could hold (`Expr.WellFormed`).  Every
lexeme of the printed form stands before a blank, a bracket, a comma, a caret or the end, none of
which could belong to it, unless it is a character that is a token by itself.

The parentheses are steps of nesting of their own.  `Expr.printedLevels` counts how many expressions
are open at once while the printed form is read, and that number alone decides whether it is read
back or refused.
-/

namespace Pseudolang

namespace Expr

mutual

/-- Every token of the expression is of a kind that may stand where it does, with a text that it is
read from. -/
def WellFormed : Expr → Prop
  | atom token => token.isAtom ∧ token.Lexed
  | unary operator operand =>
    (operator.kind = .keyword .not ∨ operator.kind = .symbol .minus) ∧ operator.Canonical ∧
      operand.WellFormed
  | binary operator left right =>
    operator.kind.binaryPower?.isSome ∧ operator.Canonical ∧ left.WellFormed ∧ right.WellFormed
  | suffix operator operand =>
    operator.kind = .symbol .caret ∧ operator.Canonical ∧ operand.WellFormed
  | call callee arguments =>
    callee.kind = .identifier ∧ callee.Lexed ∧ AllWellFormed arguments
  | index callee indexes =>
    callee.kind = .identifier ∧ callee.Lexed ∧ indexes ≠ [] ∧ AllWellFormed indexes

def AllWellFormed : List Expr → Prop
  | [] => True
  | e :: es => e.WellFormed ∧ AllWellFormed es

end

mutual

/-- The most that a way from the root to a leaf counts, where every operator on the way counts one
for its printed parentheses, and every step into the operand of an operator before it, the right
operand of one between two, an argument or an index counts one more. -/
def printedNesting : Expr → ℕ
  | atom _ => 0
  | unary _ operand => 1 + (1 + operand.printedNesting)
  | binary _ left right => 1 + max left.printedNesting (1 + right.printedNesting)
  | suffix _ operand => 1 + operand.printedNesting
  | call _ arguments => listNesting arguments
  | index _ indexes => listNesting indexes

def listNesting : List Expr → ℕ
  | [] => 0
  | e :: es => max (1 + e.printedNesting) (listNesting es)

end

/-- How many expressions are open at once, at most, while the printed form is read. -/
def printedLevels (e : Expr) : ℕ :=
  1 + e.printedNesting

end Expr

/-! ## What the printed form is read as -/

/-- The tree is a form of the expression in which a pair of parentheses stands around every
operator: it can be an operand of any operator, on either side. -/
structure Grouped.Prints (g : Grouped) (e : Expr) : Prop where
  toExpr : g.toExpr.unplaced = e.unplaced
  wellFormed : g.WellFormed
  binds : g.Binds
  derefsClear (next : Option Token) : g.DerefsClear next
  rightPowers : g.rightPowers = []
  leftPowers : ∀ p ∈ g.leftPowers, p = 23
  nesting : g.nesting = e.printedNesting

/-- The same for the trees of a list that ends with a token of kind `closing`. -/
structure Items.Prints (is : Items) (closing : Kind) (es : List Expr) : Prop where
  toExprs : Expr.unplacedAll is.toExprs = Expr.unplacedAll es
  wellFormed : is.WellFormed closing
  binds : is.Binds
  derefsClear : is.DerefsClear
  nesting : is.nesting = Expr.listNesting es

/-- The tree is such a form of an expression with an operator at its root, but for the pair of
parentheses around it. -/
structure Grouped.PrintsInside (g : Grouped) (e : Expr) : Prop where
  toExpr : g.toExpr.unplaced = e.unplaced
  wellFormed : g.WellFormed
  binds : g.Binds
  derefsClear {next : Token} (h : ¬next.startsExpression) : g.DerefsClear (some next)
  nesting : g.nesting + 1 = e.printedNesting

namespace Grouped

variable {e left right : Expr} {operator : Token} {g g₁ g₂ : Grouped}

lemma Prints.inside_unary (h : g.Prints e) {t : Token} (ht : t.unplaced = operator.unplaced)
    (hk : t.kind.unaryPower?.isSome) :
    (Grouped.unary t g).PrintsInside (.unary operator e) where
  toExpr := by rw [Grouped.toExpr, Expr.unplaced, Expr.unplaced, h.toExpr, ht]
  wellFormed := ⟨hk, h.wellFormed⟩
  binds := by
    refine ⟨h.binds, fun p hp q hq => ?_⟩
    rw [h.leftPowers q hq]
    exact Kind.lt_of_unaryPower? hp
  derefsClear _ := h.derefsClear _
  nesting := by
    rw [Grouped.nesting, Expr.printedNesting, h.nesting]
    omega

lemma Prints.inside_binary (h₁ : g₁.Prints left) (h₂ : g₂.Prints right) {t : Token}
    (ht : t.unplaced = operator.unplaced) (hk : t.kind.binaryPower?.isSome) :
    (Grouped.binary t g₁ g₂).PrintsInside (.binary operator left right) where
  toExpr := by rw [Grouped.toExpr, Expr.unplaced, Expr.unplaced, h₁.toExpr, h₂.toExpr, ht]
  wellFormed := ⟨hk, h₁.wellFormed, h₂.wellFormed⟩
  binds := by
    refine ⟨h₁.binds, h₂.binds, fun p hp => ⟨by simp [h₁.rightPowers], fun q hq => ?_⟩⟩
    rw [h₂.leftPowers q hq]
    exact Kind.right_lt_of_binaryPower? hp
  derefsClear _ := ⟨h₁.derefsClear _, h₂.derefsClear _⟩
  nesting := by
    rw [Grouped.nesting, Expr.printedNesting, h₁.nesting, h₂.nesting]
    omega

lemma Prints.inside_suffix (h : g.Prints e) {t : Token} (ht : t.unplaced = operator.unplaced)
    (hk : t.kind = .symbol .caret) : (Grouped.suffix t g).PrintsInside (.suffix operator e) where
  toExpr := by rw [Grouped.toExpr, Expr.unplaced, Expr.unplaced, h.toExpr, ht]
  wellFormed := ⟨hk, h.wellFormed⟩
  binds := ⟨h.binds, by simp [h.rightPowers]⟩
  derefsClear hnext := ⟨h.derefsClear _, by simpa using hnext⟩
  nesting := by
    rw [Grouped.nesting, Expr.printedNesting, h.nesting]
    omega

/-- The pair of parentheses. -/
lemma PrintsInside.group (h : g.PrintsInside e) {opening closing : Token}
    (hopen : opening.kind = .symbol .openParen) (hclose : closing.kind = .symbol .closeParen)
    (hplain : closing.Plain) : (Grouped.group opening g closing).Prints e where
  toExpr := h.toExpr
  wellFormed := ⟨hopen, h.wellFormed, hclose⟩
  binds := h.binds
  derefsClear _ := h.derefsClear fun hs =>
    hplain.kind_ne_of_startsExpression hs (by decide) (by decide) hclose
  rightPowers := rfl
  leftPowers := by simp [Grouped.leftPowers]
  nesting := h.nesting

end Grouped

/-! ## Reading the printed form -/

/-- Wherever the printed form stands after blanks and before a text that cannot belong to its last
lexeme, a tree of this form is read. -/
def Expr.ReadsBack (e : Expr) : Prop :=
  ∀ (c : Cursor) (gap rest : List Char), (∀ x ∈ gap, isBlank x) →
    c.rest = gap ++ (e.text.toList ++ rest) → EndsLexeme rest →
    ∃ (g : Grouped) (c' : Cursor), g.Prints e ∧ TokenStream.Yields c g.tokens c' ∧ c'.rest = rest

/-- The same for the printed forms of a list up to the character that closes it. -/
def Expr.ListReadsBack (es : List Expr) : Prop :=
  ∀ (c : Cursor) (gap rest : List Char) (first : Char) (closing : Kind), (∀ x ∈ gap, isBlank x) →
    c.rest = gap ++ ((Expr.listText es).toList ++ first :: rest) →
    Kind.ofChar? first = some closing → isLexemeEnd first →
    ∃ (is : Items) (c' : Cursor), is.Prints closing es ∧
      TokenStream.Yields c (is.body ++ [is.closing]) c' ∧ c'.rest = rest

namespace Expr

variable {e left right : Expr} {operator callee : Token} {es : List Expr}

lemma readsBack_atom {t : Token} (h : (atom t).WellFormed) : (atom t).ReadsBack := by
  intro c gap rest hgap hrest hend
  obtain ⟨hatom, hlexed⟩ := h
  obtain ⟨hnext, hrest'⟩ := Cursor.next_of_atom hatom hlexed hgap hrest hend
  have hatom' : c.next.1.isAtom := by
    rwa [← Token.unplaced_isAtom, hnext, Token.unplaced_isAtom]
  refine ⟨.atom c.next.1, c.next.2, ?_, TokenStream.yields_next c, hrest'⟩
  exact ⟨by rw [Grouped.toExpr, unplaced, unplaced, hnext], hatom', trivial, fun _ => trivial, rfl,
    by simp [Grouped.leftPowers], rfl⟩

/-- An operator and its operands are read once what stands between the parentheses is. -/
lemma readsBack_of_inside (inner : List Char) (htext : e.text.toList = '(' :: (inner ++ [')']))
    (hinside : ∀ (c : Cursor) (rest : List Char), c.rest = inner ++ ')' :: rest →
      ∃ (g : Grouped) (c' : Cursor), g.PrintsInside e ∧ TokenStream.Yields c g.tokens c' ∧
        c'.rest = ')' :: rest) : e.ReadsBack := by
  intro c gap rest hgap hrest _
  have hstart : c.rest = gap ++ '(' :: (inner ++ ')' :: rest) := by
    rw [hrest, htext]
    simp
  obtain ⟨hopen, hc₁⟩ := Cursor.next_of_ofChar? (by rfl) hgap hstart
  obtain ⟨g, c₂, hg, hyields, hc₂⟩ := hinside _ _ hc₁
  obtain ⟨hclose, hc₃⟩ := Cursor.next_of_ofChar?_cons (by rfl) hc₂
  refine ⟨.group c.next.1 g c₂.next.1, c₂.next.2, hg.group ?_ ?_ (Cursor.plain_next c₂), ?_, hc₃⟩
  · exact congrArg Token.kind hopen
  · exact congrArg Token.kind hclose
  · exact (TokenStream.yields_next c).append (hyields.append (TokenStream.yields_next c₂))

lemma endsLexeme_closeParen (rest : List Char) : EndsLexeme (')' :: rest) :=
  (endsLexeme_cons ..).2 (by decide)

lemma endsLexeme_blank (rest : List Char) : EndsLexeme (' ' :: rest) :=
  (endsLexeme_cons ..).2 (by decide)

lemma isBlank_of_mem_blank : ∀ x ∈ [' '], isBlank x := by simp [isBlank]

/-- `NOT` is printed with a blank after it; the sign needs none, being a token by itself. -/
lemma exists_text_unary (h : (unary operator e).WellFormed) :
    ∃ gap : List Char, (∀ x ∈ gap, isBlank x) ∧
      (unary operator e).text.toList =
        '(' :: (operator.text.toList ++ (gap ++ e.text.toList) ++ [')']) ∧
      ∀ (c : Cursor) (rest : List Char), c.rest = operator.text.toList ++ (gap ++ rest) →
        c.next.1.unplaced = operator.unplaced ∧ c.next.2.rest = gap ++ rest := by
  obtain ⟨hk, hcanonical, -⟩ := h
  rcases hk with hk | hk
  · refine ⟨[' '], isBlank_of_mem_blank, by simp [text, hk], fun c rest hrest => ?_⟩
    have hlexed : operator.Lexed :=
      hcanonical.lexed (by simp [hk]) (by simp [hk]) (by simp [hk]) (by simp [hk])
    exact Cursor.next_of_lexed hlexed (by simp [hk]) (by simp [hk]) (List.forall_mem_nil _)
      (by simpa using hrest) (endsLexeme_blank rest)
  · refine ⟨[], List.forall_mem_nil _, by simp [text, hk], fun c rest hrest => ?_⟩
    rw [hcanonical.1, hk] at hrest
    rw [hcanonical.unplaced_eq, hk]
    exact Cursor.next_of_ofChar?_cons (by rfl) hrest

lemma readsBack_unary (he : e.ReadsBack) (h : (unary operator e).WellFormed) :
    (unary operator e).ReadsBack := by
  obtain ⟨gap, hgap, htext, hread⟩ := exists_text_unary h
  refine readsBack_of_inside _ htext fun c rest hrest => ?_
  obtain ⟨hnext, hc₁⟩ := hread c (e.text.toList ++ ')' :: rest) (by simp [hrest])
  obtain ⟨g, c₂, hg, hyields, hc₂⟩ := he _ gap _ hgap hc₁ (endsLexeme_closeParen rest)
  have hunary : c.next.1.kind.unaryPower?.isSome := by
    rw [Token.kind_eq_of_unplaced hnext]
    rcases h.1 with hk | hk
    · rw [hk]; rfl
    · rw [hk]; rfl
  exact ⟨.unary c.next.1 g, c₂, hg.inside_unary hnext hunary,
    (TokenStream.yields_next c).append hyields, hc₂⟩

lemma readsBack_binary (hl : left.ReadsBack) (hr : right.ReadsBack)
    (h : (binary operator left right).WellFormed) : (binary operator left right).ReadsBack := by
  obtain ⟨hk, hcanonical, -, -⟩ := h
  have htext : (binary operator left right).text.toList =
      '(' :: (left.text.toList ++ ' ' :: (operator.text.toList ++ ' ' :: right.text.toList) ++
        [')']) := by
    simp [text]
  refine readsBack_of_inside _ htext fun c rest hrest => ?_
  have hc : c.rest = [] ++ (left.text.toList ++
      ' ' :: (operator.text.toList ++ ' ' :: (right.text.toList ++ ')' :: rest))) := by
    simp [hrest]
  obtain ⟨g₁, c₁, hg₁, hyields₁, hc₁⟩ := hl c [] _ (List.forall_mem_nil _) hc (endsLexeme_blank _)
  have hlexed : operator.Lexed := hcanonical.lexed (Kind.ne_of_binaryPower? hk rfl)
    (Kind.ne_of_binaryPower? hk rfl) (Kind.ne_of_binaryPower? hk rfl)
    (Kind.ne_of_binaryPower? hk rfl)
  obtain ⟨hnext, hc₂⟩ := Cursor.next_of_lexed hlexed (Kind.ne_of_binaryPower? hk rfl)
    (Kind.ne_of_binaryPower? hk rfl) isBlank_of_mem_blank hc₁ (endsLexeme_blank _)
  obtain ⟨g₂, c₃, hg₂, hyields₂, hc₃⟩ :=
    hr _ [' '] _ isBlank_of_mem_blank hc₂ (endsLexeme_closeParen rest)
  exact ⟨.binary c₁.next.1 g₁ g₂, c₃,
    hg₁.inside_binary hg₂ hnext (by rwa [Token.kind_eq_of_unplaced hnext]),
    hyields₁.append ((TokenStream.yields_next c₁).append hyields₂), hc₃⟩

lemma readsBack_suffix (he : e.ReadsBack) (h : (suffix operator e).WellFormed) :
    (suffix operator e).ReadsBack := by
  obtain ⟨hk, hcanonical, -⟩ := h
  have htext : (suffix operator e).text.toList = '(' :: (e.text.toList ++ ['^'] ++ [')']) := by
    simp [text, hcanonical.1, hk, Kind.text, Symbol.text]
  refine readsBack_of_inside _ htext fun c rest hrest => ?_
  have hc : c.rest = [] ++ (e.text.toList ++ '^' :: ')' :: rest) := by simp [hrest]
  obtain ⟨g, c₁, hg, hyields, hc₁⟩ := he c [] _ (List.forall_mem_nil _) hc
    ((endsLexeme_cons ..).2 (by decide))
  obtain ⟨hnext, hc₂⟩ := Cursor.next_of_ofChar?_cons (by rfl) hc₁
  have hoperator : c₁.next.1.unplaced = operator.unplaced := by
    rw [hnext, hcanonical.unplaced_eq, hk]
  exact ⟨.suffix c₁.next.1 g, c₁.next.2,
    hg.inside_suffix hoperator (congrArg Token.kind hnext),
    hyields.append (TokenStream.yields_next c₁), hc₂⟩

/-! ### Calls and indexings -/

/-- The callee and the bracket that opens the list. -/
lemma yields_callee (hkind : callee.kind = .identifier) (hlexed : callee.Lexed) {c : Cursor}
    {gap rest : List Char} {first : Char} {opening : Kind} (hgap : ∀ x ∈ gap, isBlank x)
    (hrest : c.rest = gap ++ (callee.text.toList ++ first :: rest))
    (hfirst : Kind.ofChar? first = some opening) (hend : isLexemeEnd first) :
    ∃ (t u : Token) (c' : Cursor), t.unplaced = callee.unplaced ∧ u.kind = opening ∧
      TokenStream.Yields c [t, u] c' ∧ c'.rest = rest := by
  obtain ⟨hcallee, hc₁⟩ := Cursor.next_of_atom (Token.isAtom_of_kind hkind) hlexed hgap hrest
    ((endsLexeme_cons ..).2 hend)
  obtain ⟨hopen, hc₂⟩ := Cursor.next_of_ofChar?_cons hfirst hc₁
  exact ⟨c.next.1, c.next.2.next.1, c.next.2.next.2, hcallee, congrArg Token.kind hopen,
    (TokenStream.yields_next c).append (TokenStream.yields_next c.next.2), hc₂⟩

lemma readsBack_callNone (h : (call callee []).WellFormed) : (call callee []).ReadsBack := by
  intro c gap rest hgap hrest _
  have hc : c.rest = gap ++ (callee.text.toList ++ '(' :: (')' :: rest)) := by
    simp [hrest, text, listText]
  obtain ⟨t, u, c₁, ht, hu, hyields, hc₁⟩ :=
    yields_callee h.1 h.2.1 hgap hc (by rfl) (by decide)
  obtain ⟨hclose, hc₂⟩ := Cursor.next_of_ofChar?_cons (by rfl) hc₁
  refine ⟨.callNone t u c₁.next.1, c₁.next.2, ?_, hyields.append (TokenStream.yields_next c₁), hc₂⟩
  have hkind : t.kind = .identifier := (Token.kind_eq_of_unplaced ht).trans h.1
  exact ⟨by rw [Grouped.toExpr, unplaced, unplaced, ht], ⟨hkind, hu, congrArg Token.kind hclose⟩,
    trivial, fun _ => trivial, rfl, by simp [Grouped.leftPowers, hu, Kind.suffixPower?], rfl⟩

/-- The callee, the list and the brackets around it. -/
lemma yields_bracketed (hes : ListReadsBack es) (hkind : callee.kind = .identifier)
    (hlexed : callee.Lexed) {c : Cursor} {gap rest : List Char} {first last : Char}
    {opening closing : Kind} (hgap : ∀ x ∈ gap, isBlank x)
    (hrest : c.rest =
      gap ++ (callee.text.toList ++ first :: ((listText es).toList ++ last :: rest)))
    (hfirst : Kind.ofChar? first = some opening) (hlast : Kind.ofChar? last = some closing)
    (hends : isLexemeEnd first ∧ isLexemeEnd last) :
    ∃ (t u : Token) (is : Items) (c' : Cursor), t.unplaced = callee.unplaced ∧
      u.kind = opening ∧ is.Prints closing es ∧
      TokenStream.Yields c (t :: u :: (is.body ++ [is.closing])) c' ∧ c'.rest = rest := by
  obtain ⟨t, u, c₁, ht, hu, hyields, hc₁⟩ :=
    yields_callee hkind hlexed hgap hrest hfirst hends.1
  obtain ⟨is, c₂, his, hlist, hc₂⟩ :=
    hes c₁ [] rest last closing (List.forall_mem_nil _) hc₁ hlast hends.2
  exact ⟨t, u, is, c₂, ht, hu, his, hyields.append hlist, hc₂⟩

lemma readsBack_call (hes : ListReadsBack es) (h : (call callee es).WellFormed) :
    (call callee es).ReadsBack := by
  intro c gap rest hgap hrest _
  have hc : c.rest =
      gap ++ (callee.text.toList ++ '(' :: ((listText es).toList ++ ')' :: rest)) := by
    simp [hrest, text]
  obtain ⟨t, u, is, c', ht, hu, his, hyields, hc'⟩ :=
    yields_bracketed hes h.1 h.2.1 hgap hc (by rfl) (by rfl) (by decide)
  have hkind : t.kind = .identifier := (Token.kind_eq_of_unplaced ht).trans h.1
  refine ⟨.call t u is, c', ?_, hyields, hc'⟩
  exact ⟨by rw [Grouped.toExpr, unplaced, unplaced, ht, his.toExprs], ⟨hkind, hu, his.wellFormed⟩,
    his.binds, fun _ => his.derefsClear, rfl, by simp [Grouped.leftPowers, hu, Kind.suffixPower?],
    his.nesting⟩

lemma readsBack_index (hes : ListReadsBack es) (h : (index callee es).WellFormed) :
    (index callee es).ReadsBack := by
  intro c gap rest hgap hrest _
  have hc : c.rest =
      gap ++ (callee.text.toList ++ '[' :: ((listText es).toList ++ ']' :: rest)) := by
    simp [hrest, text]
  obtain ⟨t, u, is, c', ht, hu, his, hyields, hc'⟩ :=
    yields_bracketed hes h.1 h.2.1 hgap hc (by rfl) (by rfl) (by decide)
  have hkind : t.kind = .identifier := (Token.kind_eq_of_unplaced ht).trans h.1
  refine ⟨.index t u is, c', ?_, hyields, hc'⟩
  exact ⟨by rw [Grouped.toExpr, unplaced, unplaced, ht, his.toExprs], ⟨hkind, hu, his.wellFormed⟩,
    his.binds, fun _ => his.derefsClear, rfl, by simp [Grouped.leftPowers, hu, Kind.suffixPower?],
    his.nesting⟩

lemma listReadsBack_singleton (he : e.ReadsBack) : ListReadsBack [e] := by
  intro c gap rest first closing hgap hrest hfirst hend
  have hc : c.rest = gap ++ (e.text.toList ++ first :: rest) := by
    simpa [listText, tailText] using hrest
  obtain ⟨g, c₁, hg, hyields, hc₁⟩ := he c gap _ hgap hc ((endsLexeme_cons ..).2 hend)
  obtain ⟨hclose, hc₂⟩ := Cursor.next_of_ofChar?_cons hfirst hc₁
  refine ⟨.last g c₁.next.1, c₁.next.2, ?_, hyields.append (TokenStream.yields_next c₁), hc₂⟩
  refine ⟨?_, ⟨hg.wellFormed, congrArg Token.kind hclose⟩, hg.binds, hg.derefsClear _, ?_⟩
  · rw [Items.toExprs, unplacedAll, unplacedAll, hg.toExpr]
    rfl
  · rw [Items.nesting, listNesting, listNesting, hg.nesting]
    omega

lemma listReadsBack_cons {e' : Expr} (he : e.ReadsBack) (hes : ListReadsBack (e' :: es)) :
    ListReadsBack (e :: e' :: es) := by
  intro c gap rest first closing hgap hrest hfirst hend
  have hc : c.rest = gap ++ (e.text.toList ++
      ',' :: ([' '] ++ ((listText (e' :: es)).toList ++ first :: rest))) := by
    simpa [listText, tailText] using hrest
  obtain ⟨g, c₁, hg, hyields, hc₁⟩ := he c gap _ hgap hc ((endsLexeme_cons ..).2 (by decide))
  obtain ⟨hcomma, hc₂⟩ := Cursor.next_of_ofChar?_cons (by rfl) hc₁
  obtain ⟨is, c₃, his, hlist, hc₃⟩ :=
    hes _ [' '] rest first closing isBlank_of_mem_blank hc₂ hfirst hend
  refine ⟨.more g c₁.next.1 is, c₃, ?_, ?_, hc₃⟩
  · refine ⟨?_, ⟨hg.wellFormed, congrArg Token.kind hcomma, his.wellFormed⟩,
      ⟨hg.binds, his.binds⟩, ⟨hg.derefsClear _, his.derefsClear⟩, ?_⟩
    · rw [Items.toExprs, unplacedAll, hg.toExpr, his.toExprs]
      rfl
    · rw [Items.nesting, listNesting, hg.nesting, his.nesting, Nat.add_comm]
  · rw [Items.body, Items.closing, List.append_assoc]
    exact hyields.append ((TokenStream.yields_next c₁).append hlist)

/-! ### All expressions -/

mutual

/-- The printed form of a well-formed expression is read as a tree over the same expression. -/
lemma readsBack : ∀ e : Expr, e.WellFormed → e.ReadsBack
  | atom _, h => readsBack_atom h
  | unary _ e, h => readsBack_unary (readsBack e h.2.2) h
  | binary _ left right, h =>
      readsBack_binary (readsBack left h.2.2.1) (readsBack right h.2.2.2) h
  | suffix _ e, h => readsBack_suffix (readsBack e h.2.2) h
  | call _ [], h => readsBack_callNone h
  | call _ (e :: es), h => readsBack_call (listReadsBack (e :: es) (by simp) h.2.2) h
  | index _ es, h => readsBack_index (listReadsBack es h.2.2.1 h.2.2.2) h

lemma listReadsBack : ∀ es : List Expr, es ≠ [] → AllWellFormed es → ListReadsBack es
  | [], hne, _ => absurd rfl hne
  | [e], _, h => listReadsBack_singleton (readsBack e h.1)
  | e :: e' :: es, _, h =>
      listReadsBack_cons (readsBack e h.1) (listReadsBack (e' :: es) (by simp) h.2)

end

end Expr

/-! ## Well-formed expressions -/

/-- What a token of a source text satisfies: it is what its own text is read as, unless it is
illegal. -/
def Token.Sourced (t : Token) : Prop :=
  t.Plain ∧ (t.kind ≠ .illegal → t.Lexed)

lemma Token.Sourced.lexed_of_isAtom {t : Token} (h : t.Sourced) (ha : t.isAtom) : t.Lexed := by
  apply h.2
  intro hi
  simpa [hi, Kind.isNative] using h.1.kind_of_isAtom ha

lemma Token.Sourced.canonical {t : Token} (h : t.Sourced)
    (hk : (∃ k, t.kind = .keyword k) ∨ ∃ s, t.kind = .symbol s) : t.Canonical := by
  refine (h.2 ?_).canonical hk
  rcases hk with ⟨_, hk⟩ | ⟨_, hk⟩ <;> simp [hk]

lemma Cursor.sourced_next (c : Cursor) : (TokenStream.next c).1.Sourced :=
  ⟨plain_next c, lexed_next c⟩

mutual

/-- A tree over tokens of a source text has a well-formed expression. -/
lemma Grouped.wellFormed_toExpr : ∀ {g : Grouped}, g.WellFormed →
    (∀ t ∈ g.tokens, t.Sourced) → g.toExpr.WellFormed
  | .atom _, h, hs => ⟨h, (hs _ (by simp [Grouped.tokens])).lexed_of_isAtom h⟩
  | .group _ inner _, h, hs =>
      Grouped.wellFormed_toExpr (g := inner) h.2.1 fun t ht => hs t (by simp [Grouped.tokens, ht])
  | .unary operator _, h, hs => by
      have hk := Kind.eq_of_unaryPower? h.1
      have hoperator : operator.Sourced := hs _ (by simp [Grouped.tokens])
      refine ⟨hk, hoperator.canonical ?_, Grouped.wellFormed_toExpr h.2 fun t ht =>
        hs t (by simp [Grouped.tokens, ht])⟩
      exact hk.imp (fun h => ⟨_, h⟩) (fun h => ⟨_, h⟩)
  | .binary operator _ _, h, hs => by
      have hoperator : operator.Sourced := hs _ (by simp [Grouped.tokens])
      exact ⟨h.1, hoperator.canonical (Kind.keyword_or_symbol_of_binaryPower? h.1),
        Grouped.wellFormed_toExpr h.2.1 fun t ht => hs t (by simp [Grouped.tokens, ht]),
        Grouped.wellFormed_toExpr h.2.2 fun t ht => hs t (by simp [Grouped.tokens, ht])⟩
  | .suffix operator _, h, hs => by
      have hoperator : operator.Sourced := hs _ (by simp [Grouped.tokens])
      exact ⟨h.1, hoperator.canonical (.inr ⟨_, h.1⟩),
        Grouped.wellFormed_toExpr h.2 fun t ht => hs t (by simp [Grouped.tokens, ht])⟩
  | .callNone callee _ _, h, hs => by
      have hcallee : callee.Sourced := hs _ (by simp [Grouped.tokens])
      exact ⟨h.1, hcallee.lexed_of_isAtom (Token.isAtom_of_kind h.1), trivial⟩
  | .call callee _ _, h, hs => by
      have hcallee : callee.Sourced := hs _ (by simp [Grouped.tokens])
      exact ⟨h.1, hcallee.lexed_of_isAtom (Token.isAtom_of_kind h.1),
        (Items.wellFormed_toExprs h.2.2 fun t ht => hs t (by simp [Grouped.tokens, ht])).2⟩
  | .index callee _ _, h, hs => by
      have hcallee : callee.Sourced := hs _ (by simp [Grouped.tokens])
      exact ⟨h.1, hcallee.lexed_of_isAtom (Token.isAtom_of_kind h.1),
        Items.wellFormed_toExprs h.2.2 fun t ht => hs t (by simp [Grouped.tokens, ht])⟩

lemma Items.wellFormed_toExprs {closing : Kind} : ∀ {is : Items}, is.WellFormed closing →
    (∀ t ∈ is.body, t.Sourced) → is.toExprs ≠ [] ∧ Expr.AllWellFormed is.toExprs
  | .last .., h, hs => ⟨by simp [Items.toExprs], Grouped.wellFormed_toExpr h.1 hs, trivial⟩
  | .more .., h, hs =>
      ⟨by simp [Items.toExprs],
        Grouped.wellFormed_toExpr h.1 fun t ht => hs t (by simp [Items.body, ht]),
        (Items.wellFormed_toExprs h.2.2 fun t ht => hs t (by simp [Items.body, ht])).2⟩

end

/-! ## The expression of a printed form -/

/-- **What is printed is read back.**  The printed form of a well-formed expression is read as the
same expression but for the positions of its tokens if it opens no more levels than allowed, and is
refused as nested too deeply if it opens more.  Every expression that is read from a source text is
well-formed. -/
theorem parseExpression_text :
    (∀ e : Expr, e.WellFormed →
      (e.printedLevels ≤ Expr.maxNesting →
        ∃ e', parseExpression e.text = .ok e' ∧ e'.unplaced = e.unplaced) ∧
      (Expr.maxNesting < e.printedLevels →
        ∃ t : Token, parseExpression e.text = .error ⟨.nestingTooDeep t.describe, t.position⟩)) ∧
    ∀ (source : String) (e : Expr), parseExpression source = .ok e → e.WellFormed := by
  refine ⟨fun e he => ?_, fun source e h => ?_⟩
  · have hrest : (Cursor.ofSource e.text).rest = [] ++ (e.text.toList ++ []) := by
      simp [Cursor.ofSource]
    obtain ⟨g, c, hg, hyields, hc⟩ :=
      e.readsBack he _ [] [] (List.forall_mem_nil _) hrest endsLexeme_nil
    have hend : c.next.1.endsStatement := by
      rw [Cursor.next_of_skipTrivia_eq_nil (by rw [Cursor.rest_skipTrivia, hc]; rfl)]
      rfl
    have hshows := (hyields.append (TokenStream.yields_next c)).shows
    have hlevels : g.levels = e.printedLevels := by
      rw [Grouped.levels, hg.nesting, Expr.printedLevels]
    rw [← hlevels]
    obtain ⟨hok, hdeep⟩ :=
      parseExpression_of_shows hg.wellFormed hg.binds (hg.derefsClear none) hshows hend
    exact ⟨fun hle => ⟨g.toExpr, hok hle, hg.toExpr⟩, hdeep⟩
  · obtain ⟨g, w, rfl, hg, -, -⟩ := exists_spans_of_parseExpression h
    exact Grouped.wellFormed_toExpr hg.wellFormed (hg.shows.forall_mem Cursor.sourced_next)

/-- A sign before a point, a slash before a sign, and a string that looks like a comment. -/
theorem parseExpression_text_comment_in_string :
    ∃ e : Expr, parseExpression "a / -.5 . f(\"//\", b^) = NOT c" = .ok e ∧ e.WellFormed ∧
      e.text = "((a / (-(.5 . f(\"//\", (b^))))) = (NOT c))" ∧ e.printedLevels = 10 ∧
      ∃ e', parseExpression e.text = .ok e' ∧ e'.unplaced = e.unplaced := by
  have hread : (parseExpression "a / -.5 . f(\"//\", b^) = NOT c").toOption.map
      (fun e => (e.text, e.printedLevels)) =
        some ("((a / (-(.5 . f(\"//\", (b^))))) = (NOT c))", 10) := by decide +kernel
  cases h : parseExpression "a / -.5 . f(\"//\", b^) = NOT c" with
  | error d => simp [h, Except.toOption] at hread
  | ok e =>
    obtain ⟨htext, hlevels⟩ : e.text = _ ∧ e.printedLevels = 10 := by
      simpa [h, Except.toOption] using hread
    have he := parseExpression_text.2 _ e h
    exact ⟨e, rfl, he, htext, hlevels,
      (parseExpression_text.1 e he).1 (hlevels.trans_le (by decide))⟩

end Pseudolang
