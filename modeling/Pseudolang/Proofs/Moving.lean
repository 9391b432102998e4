import Pseudolang.Proofs.Lines

/-!
# Moving the tokens of a text

The tokens of a text may be moved to other positions, each by a rule `f` that leaves everything else
of a token as it is.  What the text is read as moves along (`Moves`): statements and expressions are
made of the moved tokens, and a diagnostic stays with the token that it points at.

The reason is that parsers are settled by their tokens and not by where these stand
(`Parser.Tracks`).  A run that ends within a line so has a counterpart on the moved line
(`Parser.Tracks.moves`), and the lines of the moved tokens are the moved lines
(`outcomesOf_moves`).
-/

namespace Pseudolang

open Pseudolang.Grammar

/-- The second result is the first one after the tokens were moved by `f`: what was read is changed
by `g`, and a diagnostic moves along with the token that it points at, which is one of `ts`. -/
inductive Moves (f : Token → Token) {α : Type} (g : α → α) (ts : List Token) :
    Except Diagnostic α → Except Diagnostic α → Prop
  | ok (a : α) : Moves f g ts (.ok a) (.ok (g a))
  | error {t : Token} (mem : t ∈ ts) (cause : Cause) :
      Moves f g ts (.error ⟨cause, t.position⟩) (.error ⟨cause, (f t).position⟩)

section Runs

variable {f : Token → Token} {α : Type} {g : α → α}

lemma Moves.mono {ts us : List Token} {x y : Except Diagnostic α} (h : Moves f g ts x y)
    (hsub : ts ⊆ us) : Moves f g us x y := by
  cases h with
  | ok a => exact .ok a
  | error mem cause => exact .error (hsub mem) cause

/-- Runs that track each other move along where the tokens were moved up to a barrier. -/
lemma Parser.Tracks.moves {σ τ : Type} [TokenStream σ] [TokenStream τ] {V : α → α → Prop}
    {p : Parser σ α} {q : Parser τ α} {w : Window σ} {v : Window τ}
    (h : Tracks f id V p q w v) (hV : ∀ a b, V a b → g a = b) {ts : List Token} {t : Token}
    (hdepth : w.depth = v.depth) (hw : w.Shows (ts ++ [t])) (hv : v.Shows (ts.map f ++ [f t]))
    (ht : t.Barrier) : Moves f g (ts ++ [t]) (p.run w).1 (q.run v).1 := by
  obtain ⟨-, -, -, -, hresult⟩ := h.of_shows hdepth hw hv (by simp) ht
  rcases hresult with ⟨a, b, ha, hb, hab⟩ | ⟨k, hk, cause, hd, hd'⟩
  · rw [ha, hb, ← hV a b hab]
    exact .ok a
  · have hlt : k < (ts ++ [t]).length := by
      rw [List.length_append]
      exact Nat.lt_succ_of_le hk
    have hlt' : k < (ts.map f ++ [f t]).length := by simpa using hlt
    have hmoved : (ts.map f ++ [f t])[k] = f (ts ++ [t])[k] := by
      have hmap : ts.map f ++ [f t] = (ts ++ [t]).map f := by simp
      simp only [hmap, List.getElem_map]
    rw [hd, hd', hw.ahead_eq hlt, hv.ahead_eq hlt', hmoved]
    exact .error (List.getElem_mem hlt) cause

end Runs

/-! ## Lines and programs -/

section Programs

variable {f : Token → Token} (hf : ∀ t, (f t).unplaced = t.unplaced)
include hf

/-- What a line comes to moves along with its tokens. -/
lemma Line.outcome_moves {line : Line} (h : line.ending.Barrier) :
    Moves f (Statement.mapTokens f) line.all line.outcome (line.map f).outcome := by
  refine (tracks_statement (.move hf) (Window.ofStream line.all)
    (Window.ofStream (line.map f).all)).moves (fun s s' halike => ?_) rfl
    (Window.shows_ofList_self line.all) (Window.shows_ofList_self (line.map f).all) h
  rw [← Statement.mapTokens_id s', ← halike]

/-- The lines of moved tokens are the moved lines. -/
lemma tokenLines_map (ts : List Token) :
    tokenLines (ts.map f) = (tokenLines ts).map (Line.map f) := by
  rw [tokenLines, splitStatements_map fun t => Token.endsStatement_eq_of_unplaced (hf t),
    tokenLines, List.filter_map]
  congr 2
  funext line
  simp [Line.map]

/-- What the lines of a text come to moves along with the tokens of the text. -/
lemma outcomesOf_moves {source source' : String}
    (h : tokenize source' = (tokenize source).map f) :
    List.Forall₂ (Moves f (Statement.mapTokens f) (tokenize source)) (outcomesOf source)
      (outcomesOf source') := by
  rw [outcomesOf_eq_map, outcomesOf_eq_map, h, tokenLines_map hf, List.map_map,
    List.forall₂_map_left_iff, List.forall₂_map_right_iff, List.forall₂_same]
  intro line hline
  obtain ⟨hends, -, hsublist⟩ := of_mem_splitStatements (List.mem_of_mem_filter hline)
  have hmem : line.ending ∈ tokenize source := hsublist.subset (by simp [Line.all])
  have hplain := forall_mem_tokenize Cursor.plain_next source _ hmem
  exact (line.outcome_moves hf (hplain.barrier hends)).mono hsublist.subset

/-- So does the expression on its first line. -/
lemma parseExpression_moves {source source' : String}
    (h : tokenize source' = (tokenize source).map f) :
    Moves f (Expr.mapTokens f) (tokenize source) (parseExpression source)
      (parseExpression source') := by
  obtain ⟨t, us, ht, htokens⟩ := TokenStream.exists_line_append (Cursor.ofSource source)
  have hsub : TokenStream.line (Cursor.ofSource source) ++ [t] ⊆ tokenize source := by
    intro x hx
    rw [tokenize, htokens]
    simpa [or_assoc] using Or.inl (List.mem_append.1 hx)
  have hplain := forall_mem_tokenize Cursor.plain_next source t (hsub (by simp))
  have htokens' : tokenize source' =
      (TokenStream.line (Cursor.ofSource source)).map f ++ f t :: us.map f := by
    rw [h, tokenize, htokens, List.map_append, List.map_cons]
  refine ((tracks_standalone (.move hf) (Window.ofStream (Cursor.ofSource source))
    (Window.ofStream (Cursor.ofSource source'))).moves (fun e e' halike => ?_) rfl
    (Window.shows_front htokens) (Window.shows_front htokens') (hplain.barrier ht)).mono hsub
  rw [← Expr.mapTokens_id e', ← halike]

end Programs

/-! ## Statements and diagnostics -/

namespace Program

variable {f : Token → Token} {ts : List Token} {xs ys : List Outcome}

lemma statements_of_moves (h : List.Forall₂ (Moves f (Statement.mapTokens f) ts) xs ys) :
    (ofOutcomes ys).statements = (ofOutcomes xs).statements.map (Statement.mapTokens f) := by
  induction h with
  | nil => rfl
  | cons hxy _ ih =>
    cases hxy with
    | ok s => exact congrArg (s.mapTokens f :: ·) ih
    | error => exact ih

lemma diagnostics_of_moves (h : List.Forall₂ (Moves f (Statement.mapTokens f) ts) xs ys) :
    List.Forall₂ (fun d d' : Diagnostic =>
        d'.cause = d.cause ∧ ∃ t ∈ ts, d.position = t.position ∧ d'.position = (f t).position)
      (ofOutcomes xs).diagnostics (ofOutcomes ys).diagnostics := by
  induction h with
  | nil => exact .nil
  | cons hxy _ ih =>
    cases hxy with
    | ok s => exact ih
    | error mem cause => exact .cons ⟨rfl, _, mem, rfl, rfl⟩ ih

end Program

end Pseudolang
