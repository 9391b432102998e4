import Pseudolang.Proofs.Calls
import Pseudolang.Proofs.Simulation.Grammar

/-!
# Parsers on streams that give the same tokens

A map of streams (`TokenStream.Hom`) takes each stream to one that gives the same tokens.  A window
is taken along with its source (`Window.map`); what it shows and how many expressions are open stay.

Nothing that a parser does depends on where its tokens come from.  `Parser.Transports φ p q` says so
of the same parser over two streams, once as `p` and once as `q`: from the image of a window `q`
comes to the result of `p` and to the image of the window where `p` stopped.  Unlike a comparison of
two windows that show the same tokens for a while, this needs no care about how far a parser looks,
and it holds of every piece of the grammar from every window (`Grammar.Call.transports`).
-/

namespace Pseudolang

variable {σ τ : Type} [TokenStream σ] [TokenStream τ]

/-- A map of streams that changes nothing about their tokens. -/
structure TokenStream.Hom (σ τ : Type) [TokenStream σ] [TokenStream τ] where
  map : σ → τ
  next_map (s : σ) :
    TokenStream.next (map s) = ((TokenStream.next s).1, map (TokenStream.next s).2)

variable {φ : TokenStream.Hom σ τ}

/-! ## Windows -/

namespace Window

/-- The same window over the image of its source. -/
def map (φ : TokenStream.Hom σ τ) (w : Window σ) : Window τ where
  source := φ.map w.source
  current := w.current
  peek := w.peek
  depth := w.depth

@[simp] lemma current_map (w : Window σ) : (w.map φ).current = w.current := rfl

lemma advance_map (w : Window σ) : (w.map φ).advance = w.advance.map φ := by
  simp only [advance, map, φ.next_map]

lemma ahead_map (φ : TokenStream.Hom σ τ) (w : Window σ) (k : ℕ) :
    (w.map φ).ahead k = w.ahead k := by
  induction k generalizing w with
  | zero => rfl
  | succ k ih => rw [← ahead_advance, ← ahead_advance, advance_map, ih]

/-- An expression is refused in both windows or in none. -/
lemma enter_map (w : Window σ) : (w.map φ).enter = w.enter.map (map φ) := by
  change (if Expr.maxNesting ≤ w.depth then _ else _) = _
  unfold enter
  split <;> rfl

lemma ofStream_map (φ : TokenStream.Hom σ τ) (s : σ) : ofStream (φ.map s) = (ofStream s).map φ := by
  simp only [ofStream, map, φ.next_map]

lemma skipLine_map (w : Window σ) : (w.map φ).skipLine = w.skipLine.map φ := by
  fun_induction skipLine w with
  | case1 w h =>
    have h' : (w.map φ).current.endsStatement := h
    rw [skipLine, dif_pos h']
  | case2 w h _ ih =>
    have h' : ¬(w.map φ).current.endsStatement := h
    rw [skipLine, dif_neg h']
    exact (congrArg skipLine (advance_map w)).trans ih

end Window

/-! ## Parsers -/

namespace Parser

variable {α β : Type}

/-- From the image of a window the second parser does what the first one does from the window. -/
def Transports (φ : TokenStream.Hom σ τ) (p : Parser σ α) (q : Parser τ α) : Prop :=
  ∀ w : Window σ, q.run (w.map φ) = ((p.run w).1, (p.run w).2.map φ)

namespace Transports

variable {p p' : Parser σ α} {q q' : Parser τ α} {f : α → Parser σ β} {g : α → Parser τ β}

lemma pure (a : α) : Transports φ (Pure.pure a) (Pure.pure a) := fun _ => rfl

lemma fail (d : Diagnostic) : Transports φ (fail d : Parser σ α) (fail d) := fun _ => rfl

lemma take : Transports φ take take := fun w => by
  rw [run_take, run_take, Window.advance_map]
  rfl

lemma bind (h : Transports φ p q) (hf : ∀ a, Transports φ (f a) (g a)) :
    Transports φ (p >>= f) (q >>= g) := by
  intro w
  have hq := h w
  cases hrun : p.run w with
  | mk r w' =>
    rw [hrun] at hq
    cases r with
    | ok a => rw [run_bind_of_ok hrun, run_bind_of_ok hq, hf a w']
    | error d => rw [run_bind_of_error hrun, run_bind_of_error hq]

lemma map (h : Transports φ p q) (k : α → β) : Transports φ (k <$> p) (k <$> q) :=
  h.bind fun a => .pure (k a)

/-- What looks at the window sees the same tokens and the same number of open expressions. -/
lemma window {f : Window σ → Parser σ α} {g : Window τ → Parser τ α}
    (h : ∀ w, Transports φ (f w) (g (w.map φ))) :
    Transports φ (Parser.window >>= f) (Parser.window >>= g) :=
  fun w => h w w

lemma ite {c : Prop} [Decidable c] (h : Transports φ p q) (h' : Transports φ p' q') :
    Transports φ (if c then p else p') (if c then q else q') := by
  split
  · exact h
  · exact h'

lemma unexpected (expected : String) :
    Transports φ (unexpected expected : Parser σ α) (unexpected expected) :=
  window fun _ => fail _

lemma expectOr (kind : Kind) (d : Diagnostic) :
    Transports φ (expectOr kind d) (expectOr kind d) :=
  window fun _ => ite take (fail d)

lemma expect (kind : Kind) : Transports φ (expect kind) (expect kind) :=
  window fun _ => expectOr kind _

lemma endOfStatement : Transports φ endOfStatement endOfStatement :=
  window fun _ => ite (pure ()) (fail _)

lemma nested (h : Transports φ p q) : Transports φ (nested p) (nested q) := by
  intro w
  have hmap : (w.map φ).enter = w.enter.map (Window.map φ) := Window.enter_map w
  cases henter : w.enter with
  | error d =>
    rw [henter] at hmap
    rw [run_nested_of_error henter, run_nested_of_error hmap]
  | ok w' =>
    rw [henter] at hmap
    rw [run_nested_of_ok henter, run_nested_of_ok hmap, h]
    rfl

/-- Rounds: the induction is on what is left to read in the first stream. -/
lemma iterate {offer : Window σ → Option β} {offer' : Window τ → Option β}
    {round : β → Token → α → Parser σ α} {round' : β → Token → α → Parser τ α}
    (hoffer : ∀ w : Window σ, offer' (w.map φ) = offer w)
    (h : ∀ b t a, Transports φ (round b t a) (round' b t a)) (a : α) :
    Transports φ (iterate offer round a) (iterate offer' round' a) := by
  intro w
  induction a, w using iterate_induction offer round with
  | stop a w hstop =>
    rw [run_iterate_of_stop hstop, run_iterate_of_stop (by rwa [Window.current_map, hoffer])]
  | more a w b a' w' hf ho hr ih =>
    have hf' : (w.map φ).current.kind ≠ .endOfFile := hf
    have ho' : offer' (w.map φ) = some b := (hoffer w).trans ho
    have hround : (round' b (w.map φ).current a).run (w.map φ).advance = (.ok a', w'.map φ) := by
      rw [Window.advance_map, Window.current_map, h, hr]
    rw [run_iterate_of_ok hf ho hr, run_iterate_of_ok hf' ho' hround, ih]
  | failed a w b d w' hf ho hr =>
    have hf' : (w.map φ).current.kind ≠ .endOfFile := hf
    have ho' : offer' (w.map φ) = some b := (hoffer w).trans ho
    have hround : (round' b (w.map φ).current a).run (w.map φ).advance = (.error d, w'.map φ) := by
      rw [Window.advance_map, Window.current_map, h, hr]
    rw [run_iterate_of_error hf ho hr, run_iterate_of_error hf' ho' hround]

/-- Items with commas before them, by the same induction. -/
lemma commaTail (h : Transports φ p q) : Transports φ (commaTail p) (commaTail q) := by
  intro w
  induction w using commaTail_induction p with
  | stop w hc => rw [run_commaTail, run_commaTail, Window.current_map, if_neg hc, if_neg hc]
  | more w a w' hc hr ih =>
    have hitem : q.run (w.map φ).advance = (.ok a, w'.map φ) := by rw [Window.advance_map, h, hr]
    rw [run_commaTail, run_commaTail, Window.current_map, if_pos hc, if_pos hc,
      run_bind_of_ok hr, run_bind_of_ok hitem]
    cases hs : (Parser.commaTail p).run w' with
    | mk r w'' =>
      rw [hs] at ih
      cases r with
      | ok as => rw [run_bind_of_ok hs, run_bind_of_ok ih, run_pure, run_pure]
      | error d => rw [run_bind_of_error hs, run_bind_of_error ih]
  | failed w d w' hc hr =>
    have hitem : q.run (w.map φ).advance = (.error d, w'.map φ) := by rw [Window.advance_map, h, hr]
    rw [run_commaTail, run_commaTail, Window.current_map, if_pos hc, if_pos hc,
      run_bind_of_error hr, run_bind_of_error hitem]

lemma commaSeparated (h : Transports φ p q) : Transports φ (commaSeparated p) (commaSeparated q) :=
  h.bind fun _ => h.commaTail.bind fun _ => .pure _

end Transports

end Parser

/-! ## The grammar -/

namespace Grammar

open Pseudolang.Parser

section Pieces

variable {sub : ℕ → Parser σ Expr} {sub' : ℕ → Parser τ Expr}
  (h : ∀ power, Transports φ (sub power) (sub' power))
include h

lemma transports_groupWith : Transports φ (groupWith sub) (groupWith sub') :=
  .bind .take fun _ => .bind (h minPower) fun _ => .bind (.expect _) fun _ => .pure _

lemma transports_unaryWith (power : ℕ) :
    Transports φ (unaryWith sub power) (unaryWith sub' power) :=
  .bind .take fun _ => .bind (h power) fun _ => .pure _

lemma transports_operandWith : Transports φ (operandWith sub) (operandWith sub') := by
  refine .window fun w => .ite (.bind .take fun _ => .pure _) (.ite (transports_groupWith h) ?_)
  rw [Window.current_map]
  split
  · exact transports_unaryWith h _
  · exact .unexpected _

lemma transports_listWith (closing : Kind) (allowEmpty : Bool) :
    Transports φ (listWith sub closing allowEmpty) (listWith sub' closing allowEmpty) :=
  .window fun _ => .ite (.bind .take fun _ => .pure _) <|
    .bind (.commaSeparated (h minPower)) fun _ => .window fun _ =>
      .bind (.expectOr _ _) fun _ => .pure _

lemma transports_suffixAfter (left : Expr) (grouped : Bool) (operator : Token) :
    Transports φ (suffixAfter sub left grouped operator)
      (suffixAfter sub' left grouped operator) := by
  refine .ite ?_ (.pure _)
  cases callee? left grouped with
  | none => exact .fail _
  | some callee =>
    refine .ite ?_ ?_
    · exact .bind (transports_listWith h _ _) fun _ => .pure _
    · exact .bind (transports_listWith h _ _) fun _ => .pure _

lemma transports_binaryAfter (left : Expr) (power : ℕ) (operator : Token) :
    Transports φ (binaryAfter sub left power operator) (binaryAfter sub' left power operator) :=
  .bind (h power) fun _ => .pure _

lemma transports_extendBy (grouped : Bool) (extension : Extension) (operator : Token)
    (left : Expr) :
    Transports φ (extendBy sub grouped extension operator left)
      (extendBy sub' grouped extension operator left) := by
  cases extension with
  | suffix => exact transports_suffixAfter h left grouped operator
  | binary power => exact transports_binaryAfter h left power operator

lemma transports_operatorsWith (power : ℕ) :
    Transports φ (operatorsWith sub power) (operatorsWith sub' power) :=
  .window fun _ => .bind (transports_operandWith h) fun first =>
    .iterate (fun _ => rfl) (transports_extendBy h _) first

end Pieces

lemma transports_exprAt (levels power : ℕ) :
    Transports φ (exprAt levels power) (exprAt levels power) := by
  induction levels generalizing power with
  | zero => exact .window fun _ => .fail _
  | succ levels ih => exact .nested (transports_operatorsWith ih power)

lemma transports_expr (power : ℕ) : Transports φ (expr power) (expr power) :=
  fun w => transports_exprAt (Expr.maxNesting - w.depth) power w

lemma transports_exprList (closing : Kind) (allowEmpty : Bool) :
    Transports φ (exprList closing allowEmpty) (exprList closing allowEmpty) :=
  transports_listWith transports_expr closing allowEmpty

lemma transports_standalone : Transports φ standalone standalone :=
  .bind (transports_expr minPower) fun _ => .bind .endOfStatement fun _ => .pure _

/-! ### Datatypes -/

lemma transports_datatype : Transports φ datatype datatype :=
  .window fun _ => .ite .take (.unexpected _)

lemma transports_lowerBound : Transports φ lowerBound lowerBound :=
  .window fun _ => .ite (.ite .take (.fail _)) (.unexpected _)

lemma transports_dimension : Transports φ dimension dimension :=
  .bind transports_lowerBound fun _ => .bind (.expect _) fun _ => transports_expr minPower

lemma transports_arrayType : Transports φ arrayType arrayType :=
  .bind (.expect _) fun _ => .bind (.expect _) fun _ => .bind (.commaSeparated transports_dimension)
    fun _ => .window fun _ => .bind (.expectOr _ _) fun _ => .bind (.expect _) fun _ =>
      .bind transports_datatype fun _ => .pure _

/-! ### Statements -/

/-- The end of a statement, and the statement that was read. -/
lemma transports_finish (s : Statement) :
    Transports φ (endOfStatement >>= fun _ => pure s) (endOfStatement >>= fun _ => pure s) :=
  .bind .endOfStatement fun _ => .pure s

lemma transports_declareStatement : Transports φ declareStatement declareStatement :=
  .bind .take fun _ => .bind (.expect _) fun _ => .bind (.expect _) fun _ => .window fun _ =>
    .ite (.bind transports_arrayType fun _ => transports_finish _)
      (.bind transports_datatype fun _ => transports_finish _)

lemma transports_constantStatement : Transports φ constantStatement constantStatement :=
  .bind .take fun _ => .bind (.expect _) fun _ => .bind (.expect _) fun _ => .window fun _ =>
    .ite (.bind .take fun _ => transports_finish _) (.unexpected _)

lemma transports_assignElementStatement :
    Transports φ assignElementStatement assignElementStatement :=
  .bind .take fun _ => .bind (.expect _) fun _ => .bind (transports_exprList _ _) fun _ =>
    .bind (.expect _) fun _ => .bind (transports_expr minPower) fun _ => transports_finish _

lemma transports_assignPlainStatement : Transports φ assignPlainStatement assignPlainStatement :=
  .bind .take fun _ => .bind (.expect _) fun _ => .bind (transports_expr minPower) fun _ =>
    transports_finish _

lemma transports_assignStatement : Transports φ assignStatement assignStatement :=
  .window fun _ => .ite transports_assignElementStatement transports_assignPlainStatement

lemma transports_inputStatement : Transports φ inputStatement inputStatement :=
  .bind .take fun _ => .bind (.expect _) fun _ => transports_finish _

lemma transports_outputStatement : Transports φ outputStatement outputStatement :=
  .bind .take fun _ => .bind (.commaSeparated (transports_expr minPower)) fun _ =>
    transports_finish _

/-- The kind of the first token chooses the same statement. -/
lemma transports_statementOf? (kind : Kind) (d : Diagnostic) :
    Transports φ ((statementOf? kind).getD (fail d)) ((statementOf? kind).getD (fail d)) := by
  cases kind with
  | identifier => exact transports_assignStatement
  | keyword k =>
    cases k with
    | declare => exact transports_declareStatement
    | constant => exact transports_constantStatement
    | input => exact transports_inputStatement
    | output => exact transports_outputStatement
    | _ => exact .fail d
  | _ => exact .fail d

lemma transports_statement : Transports φ statement statement := by
  rw [statement_eq_bind, statement_eq_bind]
  exact .window fun w => transports_statementOf? w.current.kind w.notStatement

/-! ### Calls and programs -/

/-- Every call comes to the same result over the image of a stream, whatever its arguments are. -/
lemma Call.transports (call : Call) : Transports φ call.parser call.parser := by
  cases call with
  | expr power => exact (transports_expr power).map _
  | operators power => exact (transports_operatorsWith transports_expr power).map _
  | operand => exact (transports_operandWith transports_expr).map _
  | unary power => exact (transports_unaryWith transports_expr power).map _
  | group => exact (transports_groupWith transports_expr).map _
  | binary left power =>
    exact .map (.bind .take (transports_binaryAfter transports_expr left power)) _
  | suffix left grouped =>
    exact .map (.bind .take (transports_suffixAfter transports_expr left grouped)) _
  | exprList closing allowEmpty => exact (transports_exprList closing allowEmpty).map _
  | standalone => exact transports_standalone.map _
  | datatype => exact transports_datatype.map _
  | lowerBound => exact transports_lowerBound.map _
  | arrayType => exact transports_arrayType.map _
  | declareStatement => exact transports_declareStatement.map _
  | constantStatement => exact transports_constantStatement.map _
  | assignStatement => exact transports_assignStatement.map _
  | assignElementStatement => exact transports_assignElementStatement.map _
  | inputStatement => exact transports_inputStatement.map _
  | outputStatement => exact transports_outputStatement.map _
  | statement => exact transports_statement.map _

/-- So do the lines of a program. -/
lemma outcomes_map (w : Window σ) :
    outcomes (w.map φ) = ((outcomes w).1, (outcomes w).2.map φ) := by
  fun_induction outcomes w with
  | case1 w hf =>
    have hf' : (w.map φ).current.kind = .endOfFile := hf
    rw [outcomes, dif_pos hf']
  | case2 w hf hl _ ih =>
    have hf' : (w.map φ).current.kind ≠ .endOfFile := hf
    have hl' : (w.map φ).current.kind = .endOfLine := hl
    rw [outcomes, dif_neg hf', dif_pos hl']
    exact (congrArg outcomes (Window.advance_map w)).trans ih
  | case3 w hf hl outcome w₁ hr _ rest last ho ih =>
    have hf' : (w.map φ).current.kind ≠ .endOfFile := hf
    have hl' : (w.map φ).current.kind ≠ .endOfLine := hl
    have hstatement : statement.run (w.map φ) = ((statement.run w).1, (statement.run w).2.map φ) :=
      transports_statement w
    rw [hr] at hstatement
    rw [ho, ← Window.skipLine_map] at ih
    rw [outcomes, dif_neg hf', dif_neg hl']
    split
    · next outcome' v hv =>
      obtain ⟨rfl, rfl⟩ := Prod.mk.inj (hstatement.symm.trans hv)
      rw [ih]

end Grammar

end Pseudolang
