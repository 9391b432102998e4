import Pseudolang.Proofs.Precedence
import Pseudolang.Proofs.Simulation

/-!
# Every piece of the grammar is settled by what it has seen

Each parser of the grammar tracks itself over two streams of tokens (`Parser.Tracks`): expressions
first, given that the parser for the expressions inside does, and from them datatypes and
statements.  So a statement is determined by the tokens up to the one where it was settled, and a
line is left only by passing a barrier, which no parser does.

Two decisions look one token past the current one.  Whether a bracket follows the identifier of an
assignment is only asked before that identifier is taken.  Whether a caret is read as an operator
between or after operands does not change that it is read at all, since its two left powers are next
to each other and no operator asks for a power between them (`Grammar.extension?_eq_none_of_kind`).
-/

namespace Pseudolang

variable {σ τ : Type} [TokenStream σ] [TokenStream τ] {l r : Token → Token}

/-! ## Corresponding trees -/

/-- The two expressions are the same but for the relabelling. -/
def Expr.Alike (l r : Token → Token) (e e' : Expr) : Prop :=
  e.mapTokens l = e'.mapTokens r

/-- The two statements are the same but for the relabelling. -/
def Statement.Alike (l r : Token → Token) (s s' : Statement) : Prop :=
  s.mapTokens l = s'.mapTokens r

namespace Expr

variable {es es' : List Expr} {e e' : Expr}

lemma map_eq_of_forall₂ (h : List.Forall₂ (Alike l r) es es') :
    es.map (mapTokens l) = es'.map (mapTokens r) := by
  induction h with
  | nil => rfl
  | cons he _ ih => rw [List.map_cons, List.map_cons, ih, he]

lemma Alike.text_eq (hr : Token.Relabels l r) (h : Alike l r e e') : e.text = e'.text := by
  rw [← text_mapTokens hr.left e, h, text_mapTokens hr.right e']

lemma Alike.isAtom_eq (h : Alike l r e e') : e.isAtom = e'.isAtom := by
  rw [← isAtom_mapTokens l e, h, isAtom_mapTokens]

lemma Alike.identifier?_eq (hr : Token.Relabels l r) (h : Alike l r e e') :
    e.identifier?.map l = e'.identifier?.map r := by
  rw [← identifier?_mapTokens hr.left e, h, identifier?_mapTokens hr.right e']

end Expr

/-! ## Extensions -/

lemma Token.startsExpression_eq_of_unplaced {t u : Token} (h : t.unplaced = u.unplaced) :
    t.startsExpression = u.startsExpression := by
  rw [startsExpression, startsExpression, isAtom_eq_of_unplaced h, kind_eq_of_unplaced h]

namespace Grammar

open Pseudolang.Parser

section Extensions

variable {σ τ : Type} {w : Window σ} {v : Window τ} {power : ℕ}

/-- The current token and whether an operand can follow it decide on the extension. -/
lemma extension?_congr (hk : w.current.kind = v.current.kind)
    (hn : w.peek.startsExpression = v.peek.startsExpression) :
    extension? power w = extension? power v := by
  rw [extension?, extension?, suffixPower?, suffixPower?, hk, hn]

/-- Unless the current token is a caret, it decides alone. -/
lemma extension?_congr_of_ne_caret (hk : w.current.kind = v.current.kind)
    (hc : w.current.kind ≠ .symbol .caret) : extension? power w = extension? power v := by
  have hc' : v.current.kind ≠ .symbol .caret := hk ▸ hc
  rw [extension?, extension?, suffixPower?, suffixPower?, if_neg fun h => hc h.1,
    if_neg fun h => hc' h.1, hk]

lemma extension?_of_caret (hc : w.current.kind = .symbol .caret) :
    extension? power w =
      if w.peek.startsExpression then if power < 18 then some (.binary 17) else none
      else if power < 19 then some .suffix else none := by
  by_cases hn : w.peek.startsExpression
  · simp [extension?, suffixPower?, hc, hn, Kind.binaryPower?]
  · simp [extension?, suffixPower?, hc, hn, Kind.suffixPower?]

/-- Whether there is an extension is decided by the current token alone. -/
lemma extension?_eq_none_of_kind (hpower : power ≠ 18) (hk : w.current.kind = v.current.kind)
    (h : extension? power w = none) : extension? power v = none := by
  by_cases hc : w.current.kind = .symbol .caret
  · have hsame : power < 19 ↔ power < 18 := by omega
    rw [extension?_of_caret hc] at h
    rw [extension?_of_caret (hk ▸ hc)]
    by_cases hsmall : power < 18
    · simp only [hsmall, hsame, if_true] at h
      split at h <;> cases h
    · simp [hsmall, hsame]
  · rwa [← extension?_congr_of_ne_caret hk hc]

end Extensions

/-! ## Operands and lists -/

section Pieces

variable {sub : ℕ → Parser σ Expr} {sub' : ℕ → Parser τ Expr} {w : Window σ} {v : Window τ}

lemma ne_of_unaryPower? {k : Kind} {p : ℕ} (h : k.unaryPower? = some p) : p ≠ 18 := by
  unfold Kind.unaryPower? at h
  split at h <;> simp at h <;> omega

lemma right_ne_of_binaryPower? {k : Kind} {p : BindingPower} (h : k.binaryPower? = some p) :
    p.right ≠ 18 := by
  unfold Kind.binaryPower? at h
  split at h <;> simp only [Option.some.injEq, reduceCtorEq] at h <;> subst h <;> decide

variable (hr : Token.Relabels l r)
  (hsub : ∀ power, power ≠ 18 → ∀ (w : Window σ) (v : Window τ),
    Tracks l r (Expr.Alike l r) (sub power) (sub' power) w v)

include hr hsub

lemma tracks_groupWith (ho : w.current.kind = .symbol .openParen) :
    Tracks l r (Expr.Alike l r) (groupWith sub) (groupWith sub') w v := by
  have htake : ¬w.current.Barrier := Token.not_barrier_of_kind ho (by decide) (by decide)
  refine (Tracks.take htake).bind hr.total fun _ _ w₁ v₁ _ _ => ?_
  refine (hsub minPower (by decide) w₁ v₁).bind (Expr.exists_mapTokens_eq hr)
    fun e e' w₂ v₂ _ he => ?_
  exact (Tracks.expect hr (by decide) (by decide)).bind hr.total fun _ _ _ _ _ _ => .pure he

lemma tracks_unaryWith {power : ℕ} (hp : w.current.kind.unaryPower? = some power) :
    Tracks l r (Expr.Alike l r) (unaryWith sub power) (unaryWith sub' power) w v := by
  have htake : ¬w.current.Barrier := by
    rcases Kind.eq_of_unaryPower? (by rw [hp]; rfl) with hk | hk
    · exact Token.not_barrier_of_kind hk (by decide) (by decide)
    · exact Token.not_barrier_of_kind hk (by decide) (by decide)
  refine (Tracks.take htake).bind hr.total fun t u w₁ v₁ _ htu => ?_
  refine (hsub power (ne_of_unaryPower? hp) w₁ v₁).bind (Expr.exists_mapTokens_eq hr)
    fun e e' _ _ _ he => .pure ?_
  rw [Expr.Alike, Expr.mapTokens, Expr.mapTokens, htu, he]

lemma tracks_operandWith :
    Tracks l r (Expr.Alike l r) (operandWith sub) (operandWith sub') w v := by
  refine .window (.ite (fun ha => ?_) (fun hatom => ?_) fun _ =>
    .ite (fun ha => ?_) (tracks_groupWith hr hsub) fun _ => ?_)
  · rw [Token.isAtom_eq_of_unplaced (ha.unplaced_current hr)]
  · refine (Tracks.take (Token.not_barrier_of_isAtom hatom)).bind hr.total
      fun t u _ _ _ htu => .pure ?_
    rw [Expr.Alike, Expr.mapTokens, Expr.mapTokens, htu]
  · rw [ha.kind_current hr]
  · cases hp : w.current.kind.unaryPower? with
    | some power =>
      refine (tracks_unaryWith hr hsub hp).congr_right fun ha => ?_
      rw [← ha.kind_current hr, hp]
    | none =>
      refine (Tracks.unexpected hr "an expression").congr_right fun ha => ?_
      rw [← ha.kind_current hr, hp]

lemma tracks_listWith {closing : Symbol} {allowEmpty : Bool} :
    Tracks l r (List.Forall₂ (Expr.Alike l r)) (listWith sub (.symbol closing) allowEmpty)
      (listWith sub' (.symbol closing) allowEmpty) w v := by
  have hkind : (Kind.symbol closing) ≠ .illegal ∧ ¬(Kind.symbol closing).endsStatement := by
    simp [Kind.endsStatement]
  refine .window (.ite (fun ha => ?_) (fun hempty => ?_) fun _ => ?_)
  · rw [ha.kind_current hr]
  · have htake := Token.not_barrier_of_kind hempty.2 hkind.1 hkind.2
    exact (Tracks.take htake).bind hr.total fun _ _ _ _ _ _ => .pure .nil
  · refine (Tracks.commaSeparated hr (Expr.exists_mapTokens_eq hr)
      (hsub minPower (by decide)) w v).bind (exists_forall₂ (Expr.exists_mapTokens_eq hr))
      fun es es' w₁ v₁ _ hes => .window ?_
    exact (Tracks.expectOr hr hkind.1 hkind.2 rfl fun ha => ha.unexpected_eq hr _).bind hr.total
      fun _ _ _ _ _ _ => .pure hes

/-! ## Operators -/

omit hr hsub in
/-- What may be called corresponds on both sides. -/
lemma callee?_map_eq (hr : Token.Relabels l r) {left left' : Expr} (h : left.Alike l r left')
    (grouped : Bool) : (callee? left grouped).map l = (callee? left' grouped).map r := by
  cases grouped with
  | true => rfl
  | false => exact h.identifier?_eq hr

omit hr hsub in
lemma calleeText_eq (hr : Token.Relabels l r) {left left' : Expr} (h : left.Alike l r left')
    (grouped : Bool) : calleeText left grouped = calleeText left' grouped := by
  rw [calleeText, calleeText, h.isAtom_eq, h.text_eq hr]

/-- An operator after its operand, unless it is a bracket after what cannot be called or indexed. -/
lemma tracks_suffixAfter {left left' : Expr} {grouped : Bool} {operator operator' : Token}
    (hleft : left.Alike l r left') (hoperator : l operator = r operator')
    (hcallee : operator.kind = .symbol .openParen ∨ operator.kind = .symbol .openBracket →
      (callee? left grouped).isSome) :
    Tracks l r (Expr.Alike l r) (suffixAfter sub left grouped operator)
      (suffixAfter sub' left' grouped operator') w v := by
  have hkind : operator.kind = operator'.kind :=
    Token.kind_eq_of_unplaced (hr.unplaced_eq hoperator)
  unfold suffixAfter
  rw [← hkind]
  split
  · next hbracket =>
    obtain ⟨callee, hc⟩ := Option.isSome_iff_exists.1 (hcallee hbracket)
    obtain ⟨callee', hc', hcc⟩ : ∃ callee', callee? left' grouped = some callee' ∧
        l callee = r callee' := by
      have hmap := callee?_map_eq hr hleft grouped
      rw [hc] at hmap
      obtain ⟨callee', hc', hcc⟩ := Option.map_eq_some_iff.1 hmap.symm
      exact ⟨callee', hc', hcc.symm⟩
    rw [hc, hc']
    have htotal := exists_forall₂ (Expr.exists_mapTokens_eq hr)
    dsimp only
    split
    · refine (tracks_listWith hr hsub).bind htotal fun es es' _ _ _ hes => .pure ?_
      simp [Expr.Alike, Expr.mapTokens, hcc, Expr.map_eq_of_forall₂ hes]
    · refine (tracks_listWith hr hsub).bind htotal fun es es' _ _ _ hes => .pure ?_
      simp [Expr.Alike, Expr.mapTokens, hcc, Expr.map_eq_of_forall₂ hes]
  · refine .pure ?_
    rw [Expr.Alike, Expr.mapTokens, Expr.mapTokens, hoperator, hleft]

lemma tracks_binaryAfter {left left' : Expr} {power : ℕ} {operator operator' : Token}
    (hpower : power ≠ 18) (hleft : left.Alike l r left') (hoperator : l operator = r operator') :
    Tracks l r (Expr.Alike l r) (binaryAfter sub left power operator)
      (binaryAfter sub' left' power operator') w v := by
  refine (hsub power hpower w v).bind (Expr.exists_mapTokens_eq hr) fun e e' _ _ _ he => .pure ?_
  rw [Expr.Alike, Expr.mapTokens, Expr.mapTokens, hoperator, hleft, he]

/-! ## Expressions -/

omit [TokenStream σ] hr hsub in
lemma kind_ne_endOfFile_of_extension? {power : ℕ} {extension : Extension}
    (hx : extension? power w = some extension) : w.current.kind ≠ .endOfFile := by
  intro hf
  rw [extension?_of_inert (by rw [hf]; exact ⟨rfl, rfl⟩)] at hx
  cases hx

omit hr hsub in
/-- A round of the loop over operators. -/
lemma run_operators_of_some {power : ℕ} {grouped : Bool} {left : Expr} {extension : Extension}
    (hx : extension? power w = some extension) :
    (iterate (extension? power) (extendBy sub grouped) left).run w =
      (extendBy sub grouped extension w.current left >>=
        iterate (extension? power) (extendBy sub grouped)).run w.advance := by
  rw [run_iterate, if_neg (kind_ne_endOfFile_of_extension? hx), hx]

omit hr hsub in
lemma run_operators_of_none {power : ℕ} {grouped : Bool} {left : Expr}
    (hx : extension? power w = none) :
    (iterate (extension? power) (extendBy sub grouped) left).run w = (.ok left, w) := by
  rw [run_iterate, hx]
  split <;> rfl

omit [TokenStream σ] hr hsub in
lemma not_barrier_of_extension? {power : ℕ} {extension : Extension}
    (hx : extension? power w = some extension) : ¬w.current.Barrier := by
  rintro ⟨-, hends | hillegal⟩
  · rw [extension?_of_inert (Kind.inert_of_endsStatement hends)] at hx
    cases hx
  · rw [extension?_of_inert (by rw [hillegal]; exact ⟨rfl, rfl⟩)] at hx
    cases hx

omit [TokenStream σ] hr hsub in
lemma extension_eq_suffix {power : ℕ} {extension : Extension}
    (hb : w.current.kind = .symbol .openParen ∨ w.current.kind = .symbol .openBracket)
    (hx : extension? power w = some extension) : extension = .suffix := by
  have hs : suffixPower? w = some 23 := by
    rcases hb with hb | hb
    · simp [suffixPower?, hb, Kind.suffixPower?]
    · simp [suffixPower?, hb, Kind.suffixPower?]
  rw [extension?_of_suffix hs] at hx
  split at hx
  · exact (Option.some.inj hx).symm
  · cases hx

omit hr hsub in
/-- A bracket after what cannot be called or indexed is refused, which needs no look past it. -/
lemma run_operators_of_bracket {power : ℕ} {grouped : Bool} {left : Expr} {extension : Extension}
    (hb : w.current.kind = .symbol .openParen ∨ w.current.kind = .symbol .openBracket)
    (hx : extension? power w = some extension) (hcallee : callee? left grouped = none) :
    (iterate (extension? power) (extendBy sub grouped) left).run w =
      (.error ⟨.invalidCallee w.current.text (calleeText left grouped), w.current.position⟩,
        w.advance) := by
  rw [run_operators_of_some hx, extension_eq_suffix hb hx, extendBy, suffixAfter, if_pos hb,
    hcallee]
  rfl

omit hsub in
lemma tracks_bracket {power : ℕ} {grouped : Bool} {left left' : Expr} {extension : Extension}
    (hleft : left.Alike l r left')
    (hb : w.current.kind = .symbol .openParen ∨ w.current.kind = .symbol .openBracket)
    (hx : extension? power w = some extension) (hcallee : callee? left grouped = none) :
    Tracks l r (Expr.Alike l r) (iterate (extension? power) (extendBy sub grouped) left)
      (iterate (extension? power) (extendBy sub' grouped) left') w v := by
  refine .error 0 1 _ (run_operators_of_bracket hb hx hcallee) (by omega) (by omega)
    (Window.not_barrier_of_lt_one (not_barrier_of_extension? hx)) fun ha => ?_
  have hcallee' : callee? left' grouped = none := by
    have hmap := callee?_map_eq hr hleft grouped
    rw [hcallee] at hmap
    exact Option.map_eq_none_iff.1 hmap.symm
  have hx' : extension? power v = some extension := by
    rw [← hx, extension?_congr_of_ne_caret (ha.kind_current hr)]
    rcases hb with hb | hb
    · simp [hb]
    · simp [hb]
  obtain ⟨hkind, htext, -, -⟩ := Token.unplaced_eq_iff.1 (ha.unplaced_current hr)
  rw [run_operators_of_bracket (hkind ▸ hb) hx' hcallee', htext, calleeText_eq hr hleft]
  rfl

lemma tracks_extendBy {grouped : Bool} {left left' : Expr} {extension : Extension}
    {operator operator' : Token} (hleft : left.Alike l r left')
    (hoperator : l operator = r operator')
    (hcallee : operator.kind = .symbol .openParen ∨ operator.kind = .symbol .openBracket →
      (callee? left grouped).isSome)
    (hextension : ∀ power, extension = .binary power → power ≠ 18) :
    Tracks l r (Expr.Alike l r) (extendBy sub grouped extension operator left)
      (extendBy sub' grouped extension operator' left') w v := by
  cases extension with
  | suffix => exact tracks_suffixAfter hr hsub hleft hoperator hcallee
  | binary power => exact tracks_binaryAfter hr hsub (hextension power rfl) hleft hoperator

/-- The loop over operators: the induction is on what is left to read on the left, and the decision
for one more round looks at the token after the operator, which is then past. -/
lemma tracks_operators {power : ℕ} (hpower : power ≠ 18) (grouped : Bool) {left left' : Expr}
    (hleft : left.Alike l r left') (w : Window σ) (v : Window τ) :
    Tracks l r (Expr.Alike l r) (iterate (extension? power) (extendBy sub grouped) left)
      (iterate (extension? power) (extendBy sub' grouped) left') w v := by
  cases hx : extension? power w with
  | none =>
    refine .ok 0 left (run_operators_of_none hx) (by simp) fun ha => ⟨left', ?_, hleft⟩
    exact run_operators_of_none (extension?_eq_none_of_kind hpower (ha.kind_current hr) hx)
  | some extension =>
    by_cases hinvalid : (w.current.kind = .symbol .openParen ∨
        w.current.kind = .symbol .openBracket) ∧ callee? left grouped = none
    · exact tracks_bracket hr hleft hinvalid.1 hx hinvalid.2
    · have hcallee : w.current.kind = .symbol .openParen ∨ w.current.kind = .symbol .openBracket →
          (callee? left grouped).isSome := fun hb =>
        Option.isSome_iff_ne_none.2 fun hnone => hinvalid ⟨hb, hnone⟩
      have hextension : ∀ p, extension = .binary p → p ≠ 18 := by
        rintro p rfl
        obtain ⟨bp, hbp, -, rfl, -⟩ := extension?_eq_binary hx
        exact right_ne_of_binaryPower? hbp
      obtain ⟨u, hu, hcurrent⟩ := Window.exists_counterpart hr w v
      have hround := (tracks_extendBy hr hsub (w := w.advance) (v := v.advance) hleft hu hcallee
        hextension).bind (Expr.exists_mapTokens_eq hr) fun e e' w' v' hrun he =>
          have : w'.remaining < w.remaining := by
            have := remaining_run_advance_lt (extendBy sub grouped extension w.current left)
              (kind_ne_endOfFile_of_extension? hx)
            rwa [hrun] at this
          tracks_operators hpower grouped he w' v'
      refine .after 1 hround (Window.not_barrier_of_lt_one (not_barrier_of_extension? hx))
        (run_operators_of_some hx) fun ha => ?_
      have hpeek : w.peek.startsExpression = v.peek.startsExpression :=
        Token.startsExpression_eq_of_unplaced (hr.unplaced_eq ha.peek)
      have hx' : extension? power v = some extension := by
        rw [← hx, extension?_congr (ha.kind_current hr) hpeek]
      rw [run_operators_of_some hx', hcurrent (ha.mono (by omega))]
      rfl
termination_by w.remaining

lemma tracks_operatorsWith {power : ℕ} (hpower : power ≠ 18) :
    Tracks l r (Expr.Alike l r) (operatorsWith sub power) (operatorsWith sub' power) w v := by
  have hloop : Tracks l r (Expr.Alike l r)
      (operandWith sub >>= iterate (extension? power)
        (extendBy sub (w.current.kind = .symbol .openParen)))
      (operandWith sub' >>= iterate (extension? power)
        (extendBy sub' (w.current.kind = .symbol .openParen))) w v :=
    (tracks_operandWith hr hsub).bind (Expr.exists_mapTokens_eq hr) fun _ _ w' v' _ he =>
      tracks_operators hr hsub hpower _ he w' v'
  refine .window (hloop.congr_right fun ha => ?_)
  rw [ha.kind_current hr]

end Pieces

/-! ## Assignments after their identifier -/

/-- What follows the identifier in an assignment to an element. -/
def elementAfter (identifier : Token) : Parser σ Statement := do
  let _ ← expect (.symbol .openBracket)
  let indexes ← exprList (.symbol .closeBracket) false
  let _ ← expect (.symbol .assign)
  let value ← expr minPower
  endOfStatement
  pure (.assignElement identifier indexes value)

/-- What follows the identifier in any other assignment. -/
def plainAfter (identifier : Token) : Parser σ Statement := do
  let _ ← expect (.symbol .assign)
  let value ← expr minPower
  endOfStatement
  pure (.assign identifier value)

lemma run_assignStatement (w : Window σ) :
    assignStatement.run w = (if w.peek.kind = .symbol .openBracket then elementAfter w.current
      else plainAfter w.current).run w.advance := by
  rw [assignStatement, run_window_bind]
  split <;> rfl

/-- The kind of the current token chooses what is read. -/
lemma statement_eq_bind : (statement : Parser σ Statement) = Parser.window >>= fun w =>
    (statementOf? w.current.kind).getD (fail w.notStatement) := by
  refine congrArg (Parser.window >>= ·) (funext fun w => ?_)
  cases (statementOf? w.current.kind : Option (Parser σ Statement)) <;> rfl

/-! ## Levels -/

variable (hr : Token.Relabels l r)
include hr

lemma tracks_exprAt (levels : ℕ) {power : ℕ} (hpower : power ≠ 18) (w : Window σ)
    (v : Window τ) :
    Tracks l r (Expr.Alike l r) (exprAt levels power) (exprAt levels power) w v := by
  induction levels generalizing power w v with
  | zero => exact .window (.fail rfl fun ha => ha.tooDeep_eq hr)
  | succ levels ih =>
    exact .nested hr (tracks_operatorsWith hr (fun _ hp w v => ih hp w v) hpower)

/-- An expression is settled by the tokens up to the one where it ends or fails. -/
lemma tracks_expr {power : ℕ} (hpower : power ≠ 18) (w : Window σ) (v : Window τ) :
    Tracks l r (Expr.Alike l r) (expr power) (expr power) w v := by
  have h : Tracks l r (Expr.Alike l r) (expr power)
      (exprAt (Expr.maxNesting - w.depth) power) w v :=
    .after 0 (tracks_exprAt hr (Expr.maxNesting - w.depth) hpower w v) (by simp) rfl fun _ => rfl
  refine h.congr_right fun ha => ?_
  rw [ha.depth]
  rfl

lemma tracks_standalone (w : Window σ) (v : Window τ) :
    Tracks l r (Expr.Alike l r) standalone standalone w v := by
  refine (tracks_expr hr (by decide) w v).bind (Expr.exists_mapTokens_eq hr)
    fun e e' w₁ v₁ _ he => ?_
  exact (Tracks.endOfStatement hr).bind (fun _ => ⟨(), trivial⟩) fun _ _ _ _ _ _ => .pure he

/-! ## Datatypes -/

omit hr in
lemma not_barrier_of_namesDatatype {t : Token} (h : namesDatatype t) : ¬t.Barrier := by
  cases hk : t.kind with
  | native n => exact Token.not_barrier_of_kind hk (by simp) (by simp [Kind.endsStatement])
  | identifier => exact Token.not_barrier_of_kind hk (by decide) (by decide)
  | _ => simp [namesDatatype, hk, Kind.isNative] at h

lemma tracks_datatype (w : Window σ) (v : Window τ) :
    Tracks l r (fun t u => l t = r u) datatype datatype w v := by
  refine .window (.ite (fun ha => ?_) (fun hd => .take (not_barrier_of_namesDatatype hd))
    fun _ => .unexpected hr _)
  obtain ⟨hkind, -, hliteral, -⟩ := Token.unplaced_eq_iff.1 (ha.unplaced_current hr)
  rw [namesDatatype, namesDatatype, hkind, hliteral]

lemma tracks_lowerBound (w : Window σ) (v : Window τ) :
    Tracks l r (fun t u => l t = r u) lowerBound lowerBound w v := by
  refine .window (.ite (fun ha => ?_) (fun hd => .ite (fun ha => ?_) (fun _ => .take ?_)
    fun _ => .fail rfl fun ha => ?_) fun _ => .unexpected hr _)
  · obtain ⟨hkind, -, hliteral, -⟩ := Token.unplaced_eq_iff.1 (ha.unplaced_current hr)
    rw [hkind, hliteral]
  · rw [(Token.unplaced_eq_iff.1 (ha.unplaced_current hr)).2.1]
  · exact Token.not_barrier_of_isLiteral hd.2
  · rw [(Token.unplaced_eq_iff.1 (ha.unplaced_current hr)).2.1]

lemma tracks_dimension (w : Window σ) (v : Window τ) :
    Tracks l r (Expr.Alike l r) dimension dimension w v := by
  refine (tracks_lowerBound hr w v).bind hr.total fun _ _ w₁ v₁ _ _ => ?_
  refine (Tracks.expect hr (by decide) (by decide)).bind hr.total fun _ _ w₂ v₂ _ _ => ?_
  exact tracks_expr hr (by decide) w₂ v₂

lemma tracks_arrayType (w : Window σ) (v : Window τ) :
    Tracks l r (fun x y => List.Forall₂ (Expr.Alike l r) x.1 y.1 ∧ l x.2 = r y.2) arrayType
      arrayType w v := by
  refine (Tracks.expect hr (by decide) (by decide)).bind hr.total fun _ _ w₁ v₁ _ _ => ?_
  refine (Tracks.expect hr (by decide) (by decide)).bind hr.total fun _ _ w₂ v₂ _ _ => ?_
  refine (Tracks.commaSeparated hr (Expr.exists_mapTokens_eq hr) (tracks_dimension hr) w₂ v₂).bind
    (exists_forall₂ (Expr.exists_mapTokens_eq hr)) fun es es' w₃ v₃ _ hes => .window ?_
  refine (Tracks.expectOr hr (by decide) (by decide) rfl fun ha => ha.unexpected_eq hr _).bind
    hr.total fun _ _ w₄ v₄ _ _ => ?_
  refine (Tracks.expect hr (by decide) (by decide)).bind hr.total fun _ _ w₅ v₅ _ _ => ?_
  exact (tracks_datatype hr w₅ v₅).bind hr.total fun _ _ _ _ _ htu => .pure ⟨hes, htu⟩

/-! ## Statements -/

/-- The end of a statement, and the statement that was read. -/
lemma tracks_finish {s s' : Statement} (h : s.Alike l r s') (w : Window σ) (v : Window τ) :
    Tracks l r (Statement.Alike l r) (endOfStatement >>= fun _ => pure s)
      (endOfStatement >>= fun _ => pure s') w v :=
  (Tracks.endOfStatement hr).bind (fun _ => ⟨(), trivial⟩) fun _ _ _ _ _ _ => .pure h

lemma tracks_declareStatement {w : Window σ} (v : Window τ)
    (hk : w.current.kind = .keyword .declare) :
    Tracks l r (Statement.Alike l r) declareStatement declareStatement w v := by
  refine (Tracks.take (Token.not_barrier_of_kind hk (by decide) (by decide))).bind hr.total
    fun _ _ w₁ v₁ _ _ => ?_
  refine (Tracks.expect hr (by decide) (by decide)).bind hr.total fun t u w₂ v₂ _ htu => ?_
  refine (Tracks.expect hr (by decide) (by decide)).bind hr.total fun _ _ w₃ v₃ _ _ => .window ?_
  refine .ite (fun ha => by rw [ha.kind_current hr]) (fun _ => ?_) fun _ => ?_
  · have htotal : ∀ x : List Expr × Token, ∃ y : List Expr × Token,
        List.Forall₂ (Expr.Alike l r) x.1 y.1 ∧ l x.2 = r y.2 := by
      intro x
      obtain ⟨es, hes⟩ := exists_forall₂ (Expr.exists_mapTokens_eq hr) x.1
      obtain ⟨u, hu⟩ := hr.total x.2
      exact ⟨(es, u), hes, hu⟩
    refine (tracks_arrayType hr w₃ v₃).bind htotal fun x y w₄ v₄ _ hxy => ?_
    refine tracks_finish hr ?_ w₄ v₄
    rw [Statement.Alike, Statement.mapTokens, Statement.mapTokens, htu, hxy.2,
      Expr.map_eq_of_forall₂ hxy.1]
  · refine (tracks_datatype hr w₃ v₃).bind hr.total fun t' u' w₄ v₄ _ htu' => ?_
    refine tracks_finish hr ?_ w₄ v₄
    rw [Statement.Alike, Statement.mapTokens, Statement.mapTokens, htu, htu']

lemma tracks_constantStatement {w : Window σ} (v : Window τ)
    (hk : w.current.kind = .keyword .constant) :
    Tracks l r (Statement.Alike l r) constantStatement constantStatement w v := by
  refine (Tracks.take (Token.not_barrier_of_kind hk (by decide) (by decide))).bind hr.total
    fun _ _ w₁ v₁ _ _ => ?_
  refine (Tracks.expect hr (by decide) (by decide)).bind hr.total fun t u w₂ v₂ _ htu => ?_
  refine (Tracks.expect hr (by decide) (by decide)).bind hr.total fun _ _ w₃ v₃ _ _ => .window ?_
  refine .ite (fun ha => ?_) (fun hl => ?_) fun _ => .unexpected hr _
  · rw [(Token.unplaced_eq_iff.1 (ha.unplaced_current hr)).2.2.1]
  · refine (Tracks.take (Token.not_barrier_of_isLiteral hl)).bind hr.total
      fun t' u' w₄ v₄ _ htu' => tracks_finish hr ?_ w₄ v₄
    rw [Statement.Alike, Statement.mapTokens, Statement.mapTokens, htu, htu']

lemma tracks_elementAfter {t u : Token} (htu : l t = r u) (w : Window σ) (v : Window τ) :
    Tracks l r (Statement.Alike l r) (elementAfter t) (elementAfter u) w v := by
  refine (Tracks.expect hr (by decide) (by decide)).bind hr.total fun _ _ w₁ v₁ _ _ => ?_
  refine (tracks_listWith hr (fun _ hp => tracks_expr hr hp)).bind
    (exists_forall₂ (Expr.exists_mapTokens_eq hr)) fun es es' w₂ v₂ _ hes => ?_
  refine (Tracks.expect hr (by decide) (by decide)).bind hr.total fun _ _ w₃ v₃ _ _ => ?_
  refine (tracks_expr hr (by decide) w₃ v₃).bind (Expr.exists_mapTokens_eq hr)
    fun e e' w₄ v₄ _ he => tracks_finish hr ?_ w₄ v₄
  rw [Statement.Alike, Statement.mapTokens, Statement.mapTokens, htu, he,
    Expr.map_eq_of_forall₂ hes]

lemma tracks_plainAfter {t u : Token} (htu : l t = r u) (w : Window σ) (v : Window τ) :
    Tracks l r (Statement.Alike l r) (plainAfter t) (plainAfter u) w v := by
  refine (Tracks.expect hr (by decide) (by decide)).bind hr.total fun _ _ w₁ v₁ _ _ => ?_
  refine (tracks_expr hr (by decide) w₁ v₁).bind (Expr.exists_mapTokens_eq hr)
    fun e e' w₂ v₂ _ he => tracks_finish hr ?_ w₂ v₂
  rw [Statement.Alike, Statement.mapTokens, Statement.mapTokens, htu, he]

/-- The token that decides between the two assignments is the current one once the identifier is
taken. -/
lemma tracks_assignStatement {w : Window σ} (v : Window τ)
    (hk : w.current.kind = .identifier) :
    Tracks l r (Statement.Alike l r) assignStatement assignStatement w v := by
  obtain ⟨u, hu, hcurrent⟩ := Window.exists_counterpart hr w v
  have hafter : Tracks l r (Statement.Alike l r)
      (if w.peek.kind = .symbol .openBracket then elementAfter w.current else plainAfter w.current)
      (if v.peek.kind = .symbol .openBracket then elementAfter u else plainAfter u)
      w.advance v.advance := by
    refine .ite (fun ha => ?_) (fun _ => tracks_elementAfter hr hu _ _)
      fun _ => tracks_plainAfter hr hu _ _
    have hpeek : w.peek.kind = v.peek.kind := ha.kind_current hr
    rw [hpeek]
  refine .after 1 hafter (Window.not_barrier_of_lt_one ?_) (run_assignStatement w) fun ha => ?_
  · exact Token.not_barrier_of_kind hk (by decide) (by decide)
  · rw [run_assignStatement, hcurrent (ha.mono (by omega))]
    rfl

lemma tracks_inputStatement {w : Window σ} (v : Window τ)
    (hk : w.current.kind = .keyword .input) :
    Tracks l r (Statement.Alike l r) inputStatement inputStatement w v := by
  refine (Tracks.take (Token.not_barrier_of_kind hk (by decide) (by decide))).bind hr.total
    fun _ _ w₁ v₁ _ _ => ?_
  refine (Tracks.expect hr (by decide) (by decide)).bind hr.total fun t u w₂ v₂ _ htu => ?_
  refine tracks_finish hr ?_ w₂ v₂
  rw [Statement.Alike, Statement.mapTokens, Statement.mapTokens, htu]

lemma tracks_outputStatement {w : Window σ} (v : Window τ)
    (hk : w.current.kind = .keyword .output) :
    Tracks l r (Statement.Alike l r) outputStatement outputStatement w v := by
  refine (Tracks.take (Token.not_barrier_of_kind hk (by decide) (by decide))).bind hr.total
    fun _ _ w₁ v₁ _ _ => ?_
  refine (Tracks.commaSeparated hr (Expr.exists_mapTokens_eq hr)
    (tracks_expr hr (by decide)) w₁ v₁).bind (exists_forall₂ (Expr.exists_mapTokens_eq hr))
    fun es es' w₂ v₂ _ hes => tracks_finish hr ?_ w₂ v₂
  rw [Statement.Alike, Statement.mapTokens, Statement.mapTokens, Expr.map_eq_of_forall₂ hes]

/-- A statement is settled by the tokens up to the one where it ends or fails. -/
lemma tracks_statement (w : Window σ) (v : Window τ) :
    Tracks l r (Statement.Alike l r) statement statement w v := by
  have hmatch : Tracks l r (Statement.Alike l r)
      ((statementOf? w.current.kind).getD (fail w.notStatement))
      ((statementOf? w.current.kind).getD (fail v.notStatement)) w v := by
    cases hk : w.current.kind with
    | identifier => exact tracks_assignStatement hr v hk
    | keyword k =>
      cases k with
      | declare => exact tracks_declareStatement hr v hk
      | constant => exact tracks_constantStatement hr v hk
      | input => exact tracks_inputStatement hr v hk
      | output => exact tracks_outputStatement hr v hk
      | _ => exact .fail w.notStatement_position fun ha => ha.notStatement_eq hr
    | _ => exact .fail w.notStatement_position fun ha => ha.notStatement_eq hr
  rw [statement_eq_bind, statement_eq_bind]
  exact .window (hmatch.congr_right fun ha => ha.kind_current hr ▸ rfl)

end Grammar

end Pseudolang
