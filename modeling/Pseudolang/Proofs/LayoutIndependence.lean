import Mathlib.Logic.Function.Basic
import Pseudolang.Proofs.Positions

/-!
# Reading depends on the tokens alone

Two texts may be laid out differently and still have the same tokens, one by one, but for where
these stand.  Such texts are read as the same statements, and what is wrong in the one is wrong in
the other, for the same cause and at the same token (`parse_eq_of_tokens`).

No token occurs twice in a text, since no two of them stand at the same position.  So the second
text has the tokens of the first one, moved by a rule that depends on the token alone
(`exists_eq_map_of_unplaced`), and what is read moves along.
-/

namespace Pseudolang

/-- The two diagnostics have the same cause, and they point at tokens with the same number in the
two lists. -/
def Diagnostic.Corresponds (ts us : List Token) (d d' : Diagnostic) : Prop :=
  d.cause = d'.cause ∧ ∃ (i : ℕ) (t u : Token), ts[i]? = some t ∧ us[i]? = some u ∧
    t.position = d.position ∧ u.position = d'.position

/-- Tokens that differ in their positions only are moved into each other by one rule for all
tokens, where none of them occurs twice. -/
lemma exists_eq_map_of_unplaced {ts us : List Token} (hts : ts.Nodup)
    (h : List.Forall₂ (fun t u : Token => t.unplaced = u.unplaced) ts us) :
    ∃ f : Token → Token, (∀ t, (f t).unplaced = t.unplaced) ∧ us = ts.map f := by
  induction h with
  | nil => exact ⟨id, fun _ => rfl, rfl⟩
  | @cons t u ts us htu _ ih =>
    rw [List.nodup_cons] at hts
    obtain ⟨f, hf, rfl⟩ := ih hts.2
    refine ⟨Function.update f t u, fun x => ?_, ?_⟩
    · by_cases hx : x = t
      · rw [hx, Function.update_self, htu]
      · rw [Function.update_of_ne hx, hf]
    · rw [List.map_cons, Function.update_self]
      congr 1
      refine List.map_congr_left fun x hx => (Function.update_of_ne ?_ u f).symm
      rintro rfl
      exact hts.1 hx

/-- A diagnostic that moved along with its token corresponds to the one before. -/
lemma Diagnostic.corresponds_of_mem {f : Token → Token} {ts : List Token} {d d' : Diagnostic}
    {t : Token} (hcause : d.cause = d'.cause) (ht : t ∈ ts) (hd : d.position = t.position)
    (hd' : d'.position = (f t).position) : d.Corresponds ts (ts.map f) d' := by
  obtain ⟨i, hi⟩ := List.mem_iff_getElem?.1 ht
  exact ⟨hcause, i, t, f t, hi, by rw [List.getElem?_map, hi, Option.map_some], hd.symm, hd'.symm⟩

/-- **Reading depends on the tokens alone.**  Let two texts have tokens that agree one by one in
kind, text, literal flag and fault.  Then the statements of the two are the same up to positions,
and the diagnostics correspond one by one: they have the same causes, at tokens with the same number
in the two texts.  The same holds of the expression that the first line is read as. -/
theorem parse_eq_of_tokens {a b : String}
    (h : List.Forall₂ (fun t u : Token => t.kind = u.kind ∧ t.text = u.text ∧
      t.isLiteral = u.isLiteral ∧ t.fault = u.fault) (tokenize a) (tokenize b)) :
    (parse a).statements.map Statement.unplaced = (parse b).statements.map Statement.unplaced ∧
    List.Forall₂ (Diagnostic.Corresponds (tokenize a) (tokenize b)) (parse a).diagnostics
      (parse b).diagnostics ∧
    ((∃ e e', parseExpression a = .ok e ∧ parseExpression b = .ok e' ∧
        e.unplaced = e'.unplaced) ∨
      ∃ d d', parseExpression a = .error d ∧ parseExpression b = .error d' ∧
        d.Corresponds (tokenize a) (tokenize b) d') := by
  obtain ⟨f, hf, htokens⟩ := exists_eq_map_of_unplaced (nodup_tokenize a)
    (h.imp fun _ _ => Token.unplaced_eq_iff.2)
  have hmoves := outcomesOf_moves hf htokens
  have hunplaced : Token.unplaced ∘ f = Token.unplaced := funext hf
  refine ⟨?_, ?_, ?_⟩
  · rw [parse_eq_ofOutcomes b, Program.statements_of_moves hmoves, List.map_map]
    refine List.map_congr_left fun s _ => ?_
    rw [Function.comp_apply, Statement.unplaced, Statement.mapTokens_mapTokens, hunplaced]
  · rw [htokens]
    refine (Program.diagnostics_of_moves hmoves).imp ?_
    rintro d d' ⟨hcause, t, ht, hd, hd'⟩
    exact Diagnostic.corresponds_of_mem hcause.symm ht hd hd'
  · rw [htokens]
    have hmoves := parseExpression_moves hf htokens
    generalize parseExpression a = x, parseExpression b = y at hmoves ⊢
    cases hmoves with
    | ok e =>
      refine .inl ⟨e, e.mapTokens f, rfl, rfl, ?_⟩
      rw [← Expr.mapTokens_unplaced, ← Expr.mapTokens_unplaced, Expr.mapTokens_mapTokens, hunplaced]
    | error mem cause =>
      exact .inr ⟨_, _, rfl, rfl, Diagnostic.corresponds_of_mem rfl mem rfl rfl⟩

/-- A line with blanks and a comment, on which a parenthesis is left open, and one without. -/
theorem parse_eq_of_tokens_comment :
    tokenize "x<-(1\nINPUT y" ≠ tokenize "\tx <- ( 1 // one\n INPUT  y" ∧
    (parse "x<-(1\nINPUT y").statements.map Statement.unplaced =
      (parse "\tx <- ( 1 // one\n INPUT  y").statements.map Statement.unplaced ∧
    List.Forall₂ (Diagnostic.Corresponds (tokenize "x<-(1\nINPUT y")
        (tokenize "\tx <- ( 1 // one\n INPUT  y"))
      (parse "x<-(1\nINPUT y").diagnostics (parse "\tx <- ( 1 // one\n INPUT  y").diagnostics ∧
    (parse "x<-(1\nINPUT y").diagnostics.map Diagnostic.position = [⟨1, 6⟩] ∧
    (parse "\tx <- ( 1 // one\n INPUT  y").diagnostics.map Diagnostic.position = [⟨1, 17⟩] := by
  have h : List.Forall₂ (fun t u : Token => t.kind = u.kind ∧ t.text = u.text ∧
      t.isLiteral = u.isLiteral ∧ t.fault = u.fault) (tokenize "x<-(1\nINPUT y")
      (tokenize "\tx <- ( 1 // one\n INPUT  y") := by
    decide +kernel
  obtain ⟨hstatements, hdiagnostics, -⟩ := parse_eq_of_tokens h
  exact ⟨by decide +kernel, hstatements, hdiagnostics, by decide +kernel, by decide +kernel⟩

end Pseudolang
