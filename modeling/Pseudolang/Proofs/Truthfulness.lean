import Pseudolang.Proofs.Callees
import Pseudolang.Proofs.Outcomes

/-!
# Diagnostics tell the truth

What a diagnostic says can be checked against the tokens of the text.  It points at one token, none
of the tokens before that one on its line is illegal, and its cause is made from that token: the
fault of an illegal token comes before anything that the grammar has to say, whatever was found is
the token itself, and a bracket that is refused is said to follow the smallest operand that is
complete before it.  These are the fields of `Diagnostic.TellsTruth`.

The parts come from different places.  What the cause says of its token is known for every parser
(`Grammar.answers_statement`), that no illegal token stands before it follows from the line being
settled there (`Line.outcome_eq_error`), and the operand before a bracket is followed through the
grammar (`Grammar.namesCallee_statement`).  They speak of one line that is read by itself; its
tokens are found in the text as those with its number (`tokensBefore_eq`).

No illegal token slips through, since a statement takes no barrier and ends at the end of its line:
a line with an illegal token is refused there or before (`exists_diagnostic_of_illegal`).
-/

namespace Pseudolang

open Pseudolang.Grammar Pseudolang.Parser

/-! ## The tokens before a token -/

/-- The tokens of a text that stand on the line of the token and before it. -/
def tokensBefore (source : String) (t : Token) : List Token :=
  (tokenize source).filter fun u =>
    u.position.line = t.position.line ∧ u.position.column < t.position.column

lemma mem_tokensBefore {source : String} {t u : Token} :
    u ∈ tokensBefore source t ↔ u ∈ tokenize source ∧
      u.position.line = t.position.line ∧ u.position.column < t.position.column := by
  simp [tokensBefore]

lemma Position.key_lt_key_iff {p q : Position} (h : p.line = q.line) :
    p.key < q.key ↔ p.column < q.column := by
  simp [key, Prod.Lex.toLex_lt_toLex, h]

section Lines

variable {source : String} {x : Line × ℕ} {before after : List Token} {t u : Token}

/-- A token belongs to the line of its number. -/
lemma mem_all_of_line (hx : x ∈ numberedLines source) (hu : u ∈ tokenize source)
    (hline : u.position.line = x.2) : u ∈ x.1.all := by
  rw [tokenize, ← TokenStream.flatMap_splitStatements, List.mem_flatMap] at hu
  obtain ⟨line, hmem, hu⟩ := hu
  rw [← List.zipIdx_map_fst 1 (splitStatements _), List.mem_map] at hmem
  obtain ⟨y, hy, rfl⟩ := hmem
  have hnumber : u.position.line = y.2 := (Cursor.ofSource source).line_of_mem_zipIdx y hy u hu
  have hnodup : (((splitStatements (tokenize source)).zipIdx 1).map Prod.snd).Nodup := by
    rw [List.zipIdx_map_snd]
    exact List.nodup_range'
  obtain rfl := List.inj_on_of_nodup_map hnodup (List.mem_of_mem_filter hx) hy
    (hline.symm.trans hnumber)
  exact hu

/-- The tokens of a line stand in the order of their columns. -/
lemma column_lt_of_split (hx : x ∈ numberedLines source)
    (hsplit : x.1.all = before ++ t :: after) :
    (∀ u ∈ before, u.position.column < t.position.column) ∧
      ∀ u ∈ after, t.position.column < u.position.column := by
  obtain ⟨-, -, -, hall⟩ := of_mem_numberedLines hx
  have hline : ∀ u ∈ x.1.all, u.position.line = t.position.line := fun u hu =>
    (hall u hu).2.trans (hall t (by simp [hsplit])).2.symm
  have hpairwise := (Cursor.pairwise_key (Cursor.ofSource source)).1.sublist
    (sublist_of_mem_numberedLines hx)
  rw [hsplit] at hline hpairwise
  obtain ⟨-, hcons, hcross⟩ := List.pairwise_append.1 hpairwise
  constructor
  · intro u hu
    exact (Position.key_lt_key_iff (hline u (by simp [hu]))).1
      (hcross u hu t (List.mem_cons_self ..))
  · intro u hu
    exact (Position.key_lt_key_iff (hline u (by simp [hu])).symm).1
      ((List.pairwise_cons.1 hcons).1 u hu)

lemma tokensBefore_eq (hx : x ∈ numberedLines source) (hsplit : x.1.all = before ++ t :: after) :
    tokensBefore source t = before := by
  obtain ⟨-, -, -, hall⟩ := of_mem_numberedLines hx
  have ht := hall t (by simp [hsplit])
  obtain ⟨hbefore, hafter⟩ := column_lt_of_split hx hsplit
  have hfront : before.Sublist (tokenize source) :=
    (hsplit ▸ List.sublist_append_left ..).trans (sublist_of_mem_numberedLines hx)
  -- both are sublists of the tokens, so that it is enough to compare their members
  refine ((nodup_tokenize source).perm_iff_eq_of_sublist List.filter_sublist hfront).1 ?_
  refine (List.perm_ext_iff_of_nodup ((nodup_tokenize source).sublist List.filter_sublist)
    ((nodup_tokenize source).sublist hfront)).2 fun u => ?_
  rw [← tokensBefore, mem_tokensBefore]
  constructor
  · rintro ⟨hu, hline, hcolumn⟩
    have hmem := mem_all_of_line hx hu (hline.trans ht.2)
    rw [hsplit, List.mem_append, List.mem_cons] at hmem
    rcases hmem with hmem | rfl | hmem
    · exact hmem
    · exact absurd hcolumn (lt_irrefl _)
    · exact absurd hcolumn (hafter u hmem).not_gt
  · intro hu
    have hmem := hall u (by simp [hsplit, hu])
    exact ⟨hmem.1, hmem.2.trans ht.2.symm, hbefore u hu⟩

end Lines

/-! ## What the cause says of its token -/

namespace Cause.Describes

variable {P : Token → Prop} {t : Token} {c : Cause}

lemma kind_of_illegalToken (ht : t.Tidy) {fault : Fault} {found : String}
    (h : (Cause.illegalToken fault found).Describes P t) : t.kind = .illegal := by
  cases h with
  | illegalToken _ hfault =>
    by_contra hlegal
    rw [ht.legal.2 hlegal] at hfault
    cases hfault

/-- An illegal token is reported for its fault, if the nesting is not refused. -/
lemma of_illegal (ht : t.Tidy) (hi : t.kind = .illegal) (h : c.Describes P t) :
    (∃ fault, t.fault = some fault ∧ c = .illegalToken fault t.text) ∨
      ∃ found, c = .nestingTooDeep found := by
  have hfault : t.fault ≠ none := fun hnone => ht.legal.1 hnone hi
  cases h with
  | unexpectedToken _ _ legal => exact absurd legal hfault
  | invalidStatement legal => exact absurd legal hfault
  | illegalToken fault illegal => exact .inl ⟨fault, illegal, rfl⟩
  | invalidCallee _ _ bracket => simp [hi] at bracket
  | invalidLowerBound literal => simpa [hi, Kind.isNative] using ht.plain literal
  | nestingTooDeep => exact .inr ⟨_, rfl⟩

/-- What was found is the token, but for a bracket that is refused. -/
lemma found_eq (ht : t.Tidy) (h : c.Describes P t)
    (hc : ∀ operator found, c ≠ .invalidCallee operator found) : c.found = t.describe := by
  have hdescribe (hends : ¬t.endsStatement) : t.describe = t.text := if_neg hends
  cases h with
  | unexpectedToken => rfl
  | invalidStatement => rfl
  | illegalToken fault illegal =>
    refine (hdescribe fun hends => ?_).symm
    have hkind := kind_of_illegalToken ht (P := P) (.illegalToken fault illegal)
    simp [Token.endsStatement, hkind, Kind.endsStatement] at hends
  | invalidCallee left grouped => exact absurd rfl (hc _ _)
  | invalidLowerBound literal =>
    refine (hdescribe fun hends => ?_).symm
    exact Token.not_barrier_of_isLiteral literal (ht.plain.barrier hends)
  | nestingTooDeep => rfl

lemma of_invalidCallee {operator found : String}
    (h : (Cause.invalidCallee operator found).Describes P t) :
    (t.kind = .symbol .openParen ∨ t.kind = .symbol .openBracket) ∧ operator = t.text := by
  generalize hc : Cause.invalidCallee operator found = c at h
  cases h with
  | invalidCallee _ _ bracket => exact ⟨bracket, (Cause.invalidCallee.inj hc).1⟩
  | _ => cases hc

end Cause.Describes

/-! ## The truth of diagnostics -/

/-- What the diagnostic says is true of the token of the text at which it points. -/
structure Diagnostic.TellsTruth (source : String) (d : Diagnostic) (t : Token) : Prop where
  /-- Nothing illegal was passed over. -/
  legal : ∀ u ∈ tokensBefore source t, u.kind ≠ .illegal
  /-- An illegal token is reported for what it is, unless the nesting is refused there. -/
  of_illegal : t.kind = .illegal →
    (∃ fault, t.fault = some fault ∧ d.cause = .illegalToken fault t.text) ∨ d.TooDeep
  illegal : ∀ fault found, d.cause = .illegalToken fault found → t.kind = .illegal
  found : (∀ operator found, d.cause ≠ .invalidCallee operator found) →
    d.cause.found = t.describe
  /-- A bracket is said to follow the smallest operand that is complete before it. -/
  callee : ∀ operator found, d.cause = .invalidCallee operator found →
    (t.kind = .symbol .openParen ∨ t.kind = .symbol .openBracket) ∧ operator = t.text ∧
      NamesOperand (tokensBefore source t) t found

section Lines

variable {source : String} {x : Line × ℕ} {d : Diagnostic} {t : Token}

/-- The cause describes the token at the position of the diagnostic. -/
lemma describes_of_outcome (hx : x ∈ numberedLines source) (h : x.1.outcome = .error d)
    (ht : t ∈ tokenize source) (hposition : t.position = d.position) :
    ∃ P, d.cause.Describes P t := by
  obtain ⟨-, -, -, hall⟩ := of_mem_numberedLines hx
  have hw : (Window.ofStream x.1.all).All (fun u => u ∈ tokenize source ∨ u = .afterAll) :=
    Window.all_ofList (fun u hu => .inl (hall u hu).1) (.inr rfl)
  obtain ⟨u, hu, hu', hdescribes⟩ := (answers_statement hw).error h
  rw [← hposition] at hu'
  rcases hu with hu | rfl
  · obtain rfl := eq_of_position_eq ht hu hu'
    exact ⟨_, hdescribes⟩
  · have hcolumn := forall_mem_tokenize (P := fun t => 0 < t.position.column)
      Cursor.column_pos_next source t ht
    simp [hu', Token.afterAll] at hcolumn

lemma tellsTruth_of_outcome (hx : x ∈ numberedLines source) (h : x.1.outcome = .error d) :
    ∃ t ∈ tokenize source, t.position = d.position ∧ d.TellsTruth source t := by
  obtain ⟨-, hending, -, hall⟩ := of_mem_numberedLines hx
  have hmem := mem_tokenLines_of_mem_numberedLines hx
  obtain ⟨before, t, after, hsplit, hposition, hclear, -⟩ := x.1.outcome_eq_error hending h x.1
  have ht : t ∈ tokenize source := (hall t (by simp [hsplit])).1
  have htidy : t.Tidy := forall_mem_tokenize Cursor.tidy_next source t ht
  obtain ⟨P, hdescribes⟩ := describes_of_outcome hx h ht hposition
  have hnames : d.NamesCallee [] (Window.ofStream x.1.all) :=
    namesCallee_statement (Line.proper_of_mem hmem).window.plain d _ (Prod.ext h rfl)
  refine ⟨t, ht, hposition, ?_, hdescribes.of_illegal htidy, ?_, hdescribes.found_eq htidy, ?_⟩
  · rw [tokensBefore_eq hx hsplit]
    intro u hu hi
    have huplain := (Line.proper_of_mem hmem).plain u (by simp [hsplit, hu])
    exact hclear u hu (huplain.barrier_of_illegal hi)
  · intro fault found hcause
    exact (hcause ▸ hdescribes).kind_of_illegalToken htidy
  · intro operator found hcause
    obtain ⟨hbracket, hoperator⟩ := (hcause ▸ hdescribes).of_invalidCallee
    obtain ⟨k, hk, hoperand⟩ := hnames operator found hcause
    obtain ⟨htaken, hahead⟩ := Line.taken_eq_of_position hmem hsplit (hposition.trans hk)
    rw [htaken, hahead, List.nil_append] at hoperand
    rw [tokensBefore_eq hx hsplit]
    exact ⟨hbracket, hoperator, hoperand⟩

/-- A statement takes all tokens of its line, and none of them is a barrier. -/
lemma Line.Proper.not_barrier {line : Line} {s : Statement} (hline : line.Proper)
    (h : line.outcome = .ok s) : ∀ u ∈ line.tokens, ¬u.Barrier := by
  have hshows := Window.shows_ofList_self line.all
  cases tracks_statement .anywhere (Window.ofStream line.all) (Window.ofStream line.all) with
  | error k m cause hrun =>
    rw [outcome, hrun] at h
    cases h
  | ok k s hrun hclear =>
    have hahead {j : ℕ} (hj : j < line.tokens.length) :
        (Window.ofStream line.all).ahead j = line.tokens[j] := by
      rw [hshows.ahead_eq (by simp [all]; omega)]
      simp [all, hj]
    have hle : line.tokens.length ≤ k := by
      by_contra hlt
      refine hline.inLine _ (List.getElem_mem (not_le.1 hlt)) ?_
      rw [← hahead]
      exact stopsAtEnd_statement hrun
    intro u hu
    obtain ⟨j, hj, rfl⟩ := List.getElem_of_mem hu
    rw [← hahead hj]
    exact hclear j (by omega)

/-- A line with an illegal token is refused there or before. -/
lemma exists_diagnostic_of_illegal (ht : t ∈ tokenize source) (hi : t.kind = .illegal) :
    ∃ d ∈ (parse source).diagnostics, d.position.line = t.position.line ∧
      d.position.column ≤ t.position.column := by
  have hin : ¬t.endsStatement := by simp [Token.endsStatement, hi, Kind.endsStatement]
  obtain ⟨x, hx, htx⟩ := exists_mem_numberedLines ht hin
  obtain ⟨-, hending, -, hall⟩ := of_mem_numberedLines hx
  have hproper := Line.proper_of_mem (mem_tokenLines_of_mem_numberedLines hx)
  have hbarrier : t.Barrier := (hproper.plain t htx).barrier_of_illegal hi
  cases houtcome : x.1.outcome with
  | ok s =>
    rcases List.mem_append.1 htx with htokens | hlast
    · exact absurd hbarrier (hproper.not_barrier houtcome t htokens)
    · exact absurd (List.mem_singleton.1 hlast ▸ hproper.ends) hin
  | error d =>
    obtain ⟨before, u, after, hsplit, hposition, hclear, -⟩ :=
      x.1.outcome_eq_error hending houtcome x.1
    refine ⟨d, mem_diagnostics_iff.2 ⟨x, hx, houtcome⟩, ?_⟩
    rw [← hposition, (hall u (by simp [hsplit])).2, (hall t htx).2]
    refine ⟨rfl, ?_⟩
    rw [hsplit, List.mem_append, List.mem_cons] at htx
    rcases htx with htx | rfl | htx
    · exact absurd hbarrier (hclear t htx)
    · exact le_refl _
    · exact ((column_lt_of_split hx hsplit).2 t htx).le

end Lines

/-- An atom in two pairs of parentheses is named with one, and a caret takes what the dot before it
has taken. -/
example : (parse "OUTPUT -((a))(2)\nOUTPUT 1 + p.q^[1]\n").diagnostics =
    [⟨.invalidCallee "(" "(a)", ⟨1, 14⟩⟩, ⟨.invalidCallee "[" "((p . q)^)", ⟨2, 16⟩⟩] := by
  decide +kernel

end Pseudolang
