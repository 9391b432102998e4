import Pseudolang.Proofs.Lines
import Pseudolang.Proofs.Precedence.Completeness

/-!
# Complete operands

An expression can be cut in front of many of its tokens, but what is behind a cut is seldom an
operand: it may lack an opening bracket, belong to an identifier before it, or be bound by the
operator before it.  `Grouped.EndsAt` says that a tree is a complete operand at the end of some
tokens, in terms of the tree, the token before it (`Token.Leads`) and the one after it.

A tree whose right spine holds no operator is the smallest operand that ends where it does
(`Grouped.EndsAt.isSmallest`).  Brackets show it for a tree that ends with one: behind every cut
inside it there are more closing brackets than opening ones, while a tree has as many of both.  A
dereference may be cut behind a dot as well, but the dot asks for more than the caret binds.
-/

namespace Pseudolang

open Pseudolang.Grammar

/-! ## Brackets -/

/-- By how much the token changes the number of open brackets. -/
def Kind.bracket : Kind → ℤ
  | symbol .openParen | symbol .openBracket => 1
  | symbol .closeParen | symbol .closeBracket => -1
  | _ => 0

/-- By how many there are more opening brackets than closing ones. -/
def excess : List Token → ℤ
  | [] => 0
  | t :: ts => t.kind.bracket + excess ts

@[simp] lemma excess_nil : excess [] = 0 := rfl

@[simp] lemma excess_cons (t : Token) (ts : List Token) :
    excess (t :: ts) = t.kind.bracket + excess ts := rfl

@[simp] lemma excess_append (ts us : List Token) : excess (ts ++ us) = excess ts + excess us := by
  induction ts with
  | nil => simp
  | cons t ts ih => simp [ih, Int.add_assoc]

/-- There are as many opening brackets as closing ones, and never fewer of them to the left than are
closed. -/
structure Balanced (ts : List Token) : Prop where
  excess_eq : excess ts = 0
  excess_le : ∀ us vs, ts = us ++ vs → excess vs ≤ 0

namespace Balanced

variable {ts us vs : List Token} {t opening closing : Token}

lemma nil : Balanced [] :=
  ⟨rfl, fun us vs h => by simp [(List.append_eq_nil_iff.1 h.symm).2]⟩

lemma append (hts : Balanced ts) (hus : Balanced us) : Balanced (ts ++ us) where
  excess_eq := by rw [excess_append, hts.excess_eq, hus.excess_eq, Int.add_zero]
  excess_le front vs h := by
    rcases List.append_eq_append_iff.1 h with ⟨_, -, rfl⟩ | ⟨mid, rfl, rfl⟩
    · exact hus.excess_le _ _ rfl
    · rw [excess_append, hus.excess_eq, Int.add_zero]
      exact hts.excess_le _ _ rfl

lemma singleton (h : t.kind.bracket = 0) : Balanced [t] where
  excess_eq := by simp [h]
  excess_le us vs heq := by
    rcases List.singleton_eq_append_iff.1 heq with ⟨-, rfl⟩ | ⟨-, rfl⟩ <;> simp [h]

lemma cons (h : t.kind.bracket = 0) (hts : Balanced ts) : Balanced (t :: ts) :=
  append (singleton h) hts

/-- Behind a cut before a closing bracket that bracket is unmatched. -/
lemma excess_neg (h : Balanced ts) (hc : closing.kind.bracket = -1)
    (heq : ts ++ [closing] = us ++ vs) (hvs : vs ≠ []) : excess vs < 0 := by
  obtain ⟨rest, last, rfl⟩ := List.eq_nil_or_concat vs |>.resolve_left hvs
  rw [List.concat_eq_append, ← List.append_assoc] at heq
  obtain ⟨rfl, hlast⟩ := List.append_inj' heq rfl
  obtain rfl : closing = last := by simpa using hlast
  have hle := h.excess_le us rest rfl
  simp [hc]
  omega

lemma wrap (ho : opening.kind.bracket = 1) (h : Balanced ts) (hc : closing.kind.bracket = -1) :
    Balanced (opening :: (ts ++ [closing])) where
  excess_eq := by simp [ho, hc, h.excess_eq]
  excess_le us vs heq := by
    cases us with
    | nil =>
      rw [List.nil_append] at heq
      simp [← heq, ho, hc, h.excess_eq]
    | cons u us =>
      rw [List.cons_append] at heq
      by_cases hvs : vs = []
      · simp [hvs]
      · exact Int.le_of_lt (h.excess_neg hc (List.cons.inj heq).2 hvs)

end Balanced

lemma Token.Plain.bracket_of_isAtom {t : Token} (h : t.Plain) (ha : t.isAtom) :
    t.kind.bracket = 0 := by
  rcases h.kind_of_isAtom ha with hk | hk
  · rw [hk]
    rfl
  · cases hkind : t.kind <;> simp_all [Kind.isNative, Kind.bracket]

lemma Kind.bracket_of_unaryPower? {k : Kind} (h : k.unaryPower?.isSome) : k.bracket = 0 := by
  rcases eq_of_unaryPower? h with rfl | rfl
  · rfl
  · rfl

lemma Kind.bracket_of_binaryPower? {k : Kind} (h : k.binaryPower?.isSome) : k.bracket = 0 := by
  cases k with
  | symbol s => cases s <;> simp_all [binaryPower?, bracket]
  | _ => rfl

mutual

/-- The brackets of a tree match. -/
lemma Grouped.balanced : ∀ {g : Grouped}, g.WellFormed → (∀ t ∈ g.tokens, t.Plain) →
    Balanced g.tokens
  | .atom token, h, hp => .singleton ((hp token (by simp [Grouped.tokens])).bracket_of_isAtom h)
  | .group opening inner closing, h, hp => by
      simp only [Grouped.tokens, List.forall_mem_cons, List.forall_mem_append] at hp
      exact (Grouped.balanced h.2.1 hp.2.1).wrap (by rw [h.1]; rfl) (by rw [h.2.2]; rfl)
  | .unary operator operand, h, hp => by
      simp only [Grouped.tokens, List.forall_mem_cons] at hp
      exact .cons (Kind.bracket_of_unaryPower? h.1) (Grouped.balanced h.2 hp.2)
  | .binary operator left right, h, hp => by
      simp only [Grouped.tokens, List.forall_mem_cons, List.forall_mem_append] at hp
      exact (Grouped.balanced h.2.1 hp.1).append
        (.cons (Kind.bracket_of_binaryPower? h.1) (Grouped.balanced h.2.2 hp.2.2))
  | .suffix operator operand, h, hp => by
      simp only [Grouped.tokens, List.forall_mem_append] at hp
      exact (Grouped.balanced h.2 hp.1).append (.singleton (by rw [h.1]; rfl))
  | .callNone callee opening closing, h, hp =>
      .cons (by rw [h.1]; rfl) (Balanced.nil.wrap (by rw [h.2.1]; rfl) (by rw [h.2.2]; rfl))
  | .call callee opening arguments, h, hp => by
      simp only [Grouped.tokens, List.forall_mem_cons, List.forall_mem_append] at hp
      exact .cons (by rw [h.1]; rfl) ((Items.balanced h.2.2 hp.2.2.1).wrap (by rw [h.2.1]; rfl)
        (by rw [Items.kind_closing _ h.2.2]; rfl))
  | .index callee opening indexes, h, hp => by
      simp only [Grouped.tokens, List.forall_mem_cons, List.forall_mem_append] at hp
      exact .cons (by rw [h.1]; rfl) ((Items.balanced h.2.2 hp.2.2.1).wrap (by rw [h.2.1]; rfl)
        (by rw [Items.kind_closing _ h.2.2]; rfl))

lemma Items.balanced {closing : Kind} : ∀ {is : Items}, is.WellFormed closing →
    (∀ t ∈ is.body, t.Plain) → Balanced is.body
  | .last item token, h, hp => Grouped.balanced h.1 hp
  | .more item comma rest, h, hp => by
      simp only [Items.body, List.forall_mem_cons, List.forall_mem_append] at hp
      exact (Grouped.balanced h.1 hp.1).append
        (.cons (by rw [h.2.1]; rfl) (Items.balanced h.2.2 hp.2.2))

end

/-! ## Where operands start -/

/-- An operand may be complete with the token.  A dereference ends with a caret, but where an
operand starts behind a caret it is no dereference. -/
def Token.ClosesOperand (t : Token) : Prop :=
  t.isAtom ∨ t.kind = .symbol .closeParen ∨ t.kind = .symbol .closeBracket

/-- The powers that an operator of the kind may ask for on its right.  The sign has two of them,
since it stands before an operand and between two. -/
def Kind.rightPowers (k : Kind) : List ℕ :=
  k.unaryPower?.toList ++ (k.binaryPower?.map BindingPower.right).toList

/-- The tree may be the operand behind the token: no operand is complete with the token, and if it
is an operator, it asks for less than the tree binds on its left spine. -/
structure Token.Leads (t : Token) (g : Grouped) : Prop where
  opens : ¬t.ClosesOperand
  asks : t.kind.rightPowers = [] ∨ ∃ p ∈ t.kind.rightPowers, ∀ q ∈ g.leftPowers, p < q

lemma Token.Plain.not_closesOperand {t : Token} (h : t.Plain) (hid : t.kind ≠ .identifier)
    (hnative : ¬t.kind.isNative) (hparen : t.kind ≠ .symbol .closeParen)
    (hbracket : t.kind ≠ .symbol .closeBracket) : ¬t.ClosesOperand := by
  rintro (ha | hk | hk)
  · exact (h.kind_of_isAtom ha).elim hid hnative
  · exact hparen hk
  · exact hbracket hk

/-- No operand is complete with an operator that asks for one on its right. -/
lemma Token.Plain.leads {t : Token} {g : Grouped} (h : t.Plain) {p : ℕ}
    (hp : p ∈ t.kind.rightPowers) (hbelow : ∀ q ∈ g.leftPowers, p < q) : t.Leads g where
  asks := .inr ⟨p, hp, hbelow⟩
  opens := by
    have hnil {k : Kind} (hk : k.rightPowers = []) : t.kind ≠ k := by
      rintro rfl
      rw [hk] at hp
      cases hp
    refine h.not_closesOperand (hnil rfl) (fun hnative => ?_) (hnil rfl) (hnil rfl)
    cases hkind : t.kind with
    | native n => exact hnil (k := .native n) rfl hkind
    | _ => simp [hkind, Kind.isNative] at hnative

/-- The tree is a complete operand at the end of the tokens, with `next` behind it: it is one that
is read there, its tokens are the last ones, and it may be the operand behind the token before
them. -/
structure Grouped.EndsAt (g : Grouped) (before : List Token) (next : Token) : Prop where
  allowed : g.Allowed next
  isSuffix : g.tokens <:+ before
  leads : ∀ front t, before = front ++ t :: g.tokens → t.Leads g

/-- No complete operand that ends there has fewer tokens. -/
structure Grouped.IsSmallest (g : Grouped) (before : List Token) (next : Token) : Prop where
  endsAt : g.EndsAt before next
  length_le : ∀ g' : Grouped, g'.EndsAt before next → g.tokens.length ≤ g'.tokens.length

/-! ## Cutting a tree -/

/-- An operand may start with `vs` behind the token `t`. -/
structure StartsBehind (t : Token) (vs : List Token) : Prop where
  opens : ¬t.ClosesOperand
  starts : ∃ u ∈ vs.head?, u.startsExpression

namespace StartsBehind

variable {t u : Token} {us vs ts rest : List Token} {opening closing callee : Token}

lemma ne_nil (h : StartsBehind t vs) : vs ≠ [] := by
  rintro rfl
  obtain ⟨_, hu, -⟩ := h.starts
  cases hu

/-- Where a list is cut, the cut is behind a token `u` of it, at this token or before it.  In the
last case the part before `u` is cut as well, since no operand starts with `u`. -/
lemma cut_append (h : StartsBehind t vs) (hu : ¬u.startsExpression)
    (heq : ts ++ u :: rest = us ++ t :: vs) :
    (∃ mid, rest = mid ++ t :: vs) ∨ (t = u ∧ vs = rest) ∨
      ∃ mid, ts = us ++ t :: mid ∧ vs = mid ++ u :: rest ∧ StartsBehind t mid := by
  rcases List.append_eq_append_iff.1 heq with ⟨mid, -, hmid⟩ | ⟨mid, hmid, hrest⟩
  · cases mid with
    | nil => exact .inr (.inl ⟨(List.cons.inj hmid).1.symm, (List.cons.inj hmid).2.symm⟩)
    | cons x mid => exact .inl ⟨mid, (List.cons.inj hmid).2⟩
  · cases mid with
    | nil => exact .inr (.inl (List.cons.inj hrest))
    | cons x mid =>
      obtain ⟨rfl, rfl⟩ := List.cons.inj hrest
      refine .inr (.inr ⟨mid, hmid, rfl, h.opens, ?_⟩)
      obtain ⟨y, hy, hstarts⟩ := h.starts
      cases mid with
      | nil =>
        obtain rfl : u = y := by simpa using hy
        exact absurd hstarts hu
      | cons z mid => exact ⟨y, hy, hstarts⟩

/-- Behind every cut inside a pair of brackets the closing one is unmatched. -/
lemma excess_neg_of_wrap (h : StartsBehind t vs) (hts : Balanced ts)
    (hc : closing.kind.bracket = -1) (heq : opening :: (ts ++ [closing]) = us ++ t :: vs) :
    excess vs < 0 := by
  obtain ⟨us', heq'⟩ : ∃ us', ts ++ [closing] = us' ++ vs := by
    cases us with
    | nil => exact ⟨[], (List.cons.inj heq).2⟩
    | cons u us => exact ⟨us ++ [t], by simpa using (List.cons.inj heq).2⟩
  exact hts.excess_neg hc heq' h.ne_nil

/-- Nothing starts between an identifier and its brackets. -/
lemma excess_neg_of_call (h : StartsBehind t vs) (hcallee : callee.kind = .identifier)
    (hts : Balanced ts) (hc : closing.kind.bracket = -1)
    (heq : callee :: opening :: (ts ++ [closing]) = us ++ t :: vs) : excess vs < 0 := by
  cases us with
  | nil =>
    obtain rfl := (List.cons.inj heq).1
    exact absurd (.inl (Token.isAtom_of_kind hcallee)) h.opens
  | cons u us => exact h.excess_neg_of_wrap hts hc (List.cons.inj heq).2

end StartsBehind

/-! ### Spines that end in a bracket or a caret -/

/-- Of the operators only the dot asks for so much as a caret binds. -/
lemma Kind.eq_dot_of_binaryPower? {k : Kind} {p : BindingPower} (h : k.binaryPower? = some p)
    (hp : 19 ≤ p.right) : k = .symbol .dot := by
  unfold binaryPower? at h
  split at h <;> simp_all <;> subst h <;> simp at hp

namespace Grouped

variable {g : Grouped} {us vs : List Token} {t : Token}

/-- The tree ends with a bracket of its own. -/
def IsBracketed : Grouped → Prop
  | .group .. | .callNone .. | .call .. | .index .. => True
  | _ => False

/-- No operator on the right spine asks for less than a caret binds, so that a caret behind the tree
takes all of it. -/
def Tight (g : Grouped) : Prop :=
  ∀ q ∈ g.rightPowers, 19 ≤ q

lemma excess_neg_of_isBracketed (hwf : g.WellFormed) (hp : ∀ t ∈ g.tokens, t.Plain)
    (heq : g.tokens = us ++ t :: vs) (hs : StartsBehind t vs) (hg : g.IsBracketed) :
    excess vs < 0 := by
  cases g with
  | group opening inner closing =>
    simp only [Grouped.tokens, List.forall_mem_cons, List.forall_mem_append] at hp
    exact hs.excess_neg_of_wrap (Grouped.balanced hwf.2.1 hp.2.1) (by rw [hwf.2.2]; rfl) heq
  | callNone callee opening closing =>
    exact hs.excess_neg_of_call hwf.1 .nil (by rw [hwf.2.2]; rfl) heq
  | call callee opening arguments =>
    simp only [Grouped.tokens, List.forall_mem_cons, List.forall_mem_append] at hp
    exact hs.excess_neg_of_call hwf.1 (Items.balanced hwf.2.2 hp.2.2.1)
      (by rw [Items.kind_closing _ hwf.2.2]; rfl) heq
  | index callee opening indexes =>
    simp only [Grouped.tokens, List.forall_mem_cons, List.forall_mem_append] at hp
    exact hs.excess_neg_of_call hwf.1 (Items.balanced hwf.2.2 hp.2.2.1)
      (by rw [Items.kind_closing _ hwf.2.2]; rfl) heq
  | _ => cases hg

lemma ne_cut_atom {token : Token} (h : (atom token).tokens = us ++ t :: vs) : vs = [] := by
  rcases List.singleton_eq_append_iff.1 h with ⟨-, h⟩ | ⟨-, h⟩
  · exact (List.cons.inj h).2
  · cases h

/-- Where an operand may start inside a tight tree, but for the places behind a dot, a closing
bracket behind the cut is unmatched.  The induction is along both spines. -/
lemma excess_neg : ∀ {g : Grouped}, g.WellFormed → g.Binds → (∀ t ∈ g.tokens, t.Plain) →
    g.Tight → ∀ {us vs : List Token} {t : Token}, g.tokens = us ++ t :: vs → StartsBehind t vs →
    t.kind ≠ .symbol .dot → excess vs < 0
  | .atom token, _, _, _, _, us, vs, t, heq, hs, _ => absurd (ne_cut_atom heq) hs.ne_nil
  | .unary operator operand, hwf, _, _, htight, us, vs, t, _, _, _ => by
      obtain ⟨p, hpower⟩ := Option.isSome_iff_exists.1 hwf.1
      have hle := htight p (by simp [rightPowers, hpower])
      exact absurd (Kind.lt_caret_of_unaryPower? hpower) (by omega)
  | .binary operator left right, hwf, hbinds, hp, htight, us, vs, t, heq, hs, hdot => by
      simp only [Grouped.tokens, List.forall_mem_cons, List.forall_mem_append] at hp
      obtain ⟨p, hpower⟩ := Option.isSome_iff_exists.1 hwf.1
      have hoperator : operator.kind = .symbol .dot :=
        Kind.eq_dot_of_binaryPower? hpower (htight p.right (by simp [rightPowers, hpower]))
      have hstarts : ¬operator.startsExpression := fun h =>
        hp.2.1.kind_ne_of_startsExpression h (by decide) (by decide) hoperator
      obtain ⟨hleft, hright, hpowers⟩ := hbinds
      rcases hs.cut_append hstarts heq with ⟨mid, hmid⟩ | ⟨rfl, -⟩ | ⟨mid, hmid, rfl, hsmid⟩
      · refine excess_neg (g := right) hwf.2.2 hright hp.2.2 (fun q hq => ?_) hmid hs hdot
        exact htight q (by simp [rightPowers, hq])
      · exact absurd hoperator hdot
      · have hneg := excess_neg (g := left) hwf.2.1 hleft hp.1 (fun q hq => ?_) hmid hsmid hdot
        · have hbalanced := (Grouped.balanced hwf.2.2 hp.2.2).excess_eq
          simp [hoperator, Kind.bracket, hbalanced, hneg]
        · rw [hoperator] at hpowers
          exact le_trans (by decide) ((hpowers ⟨22, 21⟩ rfl).1 q hq)
  | .suffix operator operand, hwf, hbinds, hp, _, us, vs, t, heq, hs, hdot => by
      simp only [Grouped.tokens, List.forall_mem_append, List.forall_mem_singleton] at hp
      obtain ⟨hcaret, hwf⟩ := hwf
      have hstarts : ¬operator.startsExpression := fun h =>
        hp.2.kind_ne_of_startsExpression h (by decide) (by decide) hcaret
      rcases hs.cut_append hstarts heq with ⟨mid, hmid⟩ | ⟨-, hnil⟩ | ⟨mid, hmid, rfl, hsmid⟩
      · simp at hmid
      · exact absurd hnil hs.ne_nil
      · have hneg := excess_neg (g := operand) hwf hbinds.1 hp.1
          (hbinds.2 19 (by rw [hcaret]; rfl)) hmid hsmid hdot
        simp [hcaret, Kind.bracket, hneg]
  | .group .., hwf, _, hp, _, us, vs, t, heq, hs, _ =>
      excess_neg_of_isBracketed hwf hp heq hs trivial
  | .callNone .., hwf, _, hp, _, us, vs, t, heq, hs, _ =>
      excess_neg_of_isBracketed hwf hp heq hs trivial
  | .call .., hwf, _, hp, _, us, vs, t, heq, hs, _ =>
      excess_neg_of_isBracketed hwf hp heq hs trivial
  | .index .., hwf, _, hp, _, us, vs, t, heq, hs, _ =>
      excess_neg_of_isBracketed hwf hp heq hs trivial

/-! ### The last operand of a tree -/

/-- With no operator on its right spine, a tree is an atom or a dereference, or ends with a bracket
of its own. -/
lemma cases_of_rightPowers_eq_nil (hwf : g.WellFormed) (hnil : g.rightPowers = []) :
    (∃ token, g = .atom token) ∨ (∃ operator operand, g = .suffix operator operand) ∨
      g.IsBracketed := by
  cases g with
  | atom token => exact .inl ⟨token, rfl⟩
  | suffix operator operand => exact .inr (.inl ⟨operator, operand, rfl⟩)
  | unary operator operand =>
    obtain ⟨p, hp⟩ := Option.isSome_iff_exists.1 hwf.1
    simp [rightPowers, hp] at hnil
  | binary operator left right =>
    obtain ⟨p, hp⟩ := Option.isSome_iff_exists.1 hwf.1
    simp [rightPowers, hp] at hnil
  | _ => exact .inr (.inr trivial)

lemma exists_closing (hwf : g.WellFormed) (hg : g.IsBracketed) :
    ∃ ts closing, g.tokens = ts ++ [closing] ∧ closing.kind.bracket = -1 := by
  cases g with
  | group opening inner closing =>
    exact ⟨opening :: inner.tokens, closing, rfl, by rw [hwf.2.2]; rfl⟩
  | callNone callee opening closing =>
    exact ⟨[callee, opening], closing, rfl, by rw [hwf.2.2]; rfl⟩
  | call callee opening arguments =>
    exact ⟨callee :: opening :: arguments.body, _, rfl, by rw [Items.kind_closing _ hwf.2.2]; rfl⟩
  | index callee opening indexes =>
    exact ⟨callee :: opening :: indexes.body, _, rfl, by rw [Items.kind_closing _ hwf.2.2]; rfl⟩
  | _ => cases hg

/-- Such a tree binds a caret at its end on its left spine. -/
lemma mem_leftPowers_of_caret (hwf : g.WellFormed) (hp : ∀ t ∈ g.tokens, t.Plain)
    (hnil : g.rightPowers = []) (heq : g.tokens = us ++ [t]) (ht : t.kind = .symbol .caret) :
    19 ∈ g.leftPowers := by
  rcases cases_of_rightPowers_eq_nil hwf hnil with ⟨token, rfl⟩ | ⟨operator, operand, rfl⟩ | hg
  · obtain rfl : token = t := by simpa [Grouped.tokens] using congrArg List.getLast? heq
    have hatom := (hp token (by simp [Grouped.tokens])).kind_of_isAtom hwf
    simp [ht, Kind.isNative] at hatom
  · simp [leftPowers, hwf.1, Kind.suffixPower?]
  · obtain ⟨ts, closing, htokens, hclosing⟩ := exists_closing hwf hg
    obtain rfl : closing = t := by simpa using (List.append_inj' (htokens.symm.trans heq) rfl).2
    rw [ht] at hclosing
    cases hclosing

/-- At the end of a tree stands one with no operator on its right spine.  Unless it is all of the
tree, an operator of the tree leads it. -/
lemma exists_last : ∀ {g : Grouped}, g.WellFormed → g.Binds → (∀ t ∈ g.tokens, t.Plain) →
    ∃ last : Grouped, last.WellFormed ∧ last.Binds ∧ last.rightPowers = [] ∧
      (last = g ∨ ∃ us t, g.tokens = us ++ t :: last.tokens ∧ t.Leads last)
  | .unary operator operand, hwf, hbinds, hp => by
      simp only [Grouped.tokens, List.forall_mem_cons] at hp
      obtain ⟨p, hpower⟩ := Option.isSome_iff_exists.1 hwf.1
      obtain ⟨last, hlwf, hlbinds, hnil, rfl | ⟨us, t, htokens, ht⟩⟩ :=
        exists_last (g := operand) hwf.2 hbinds.1 hp.2
      · refine ⟨last, hlwf, hlbinds, hnil, .inr ⟨[], operator, rfl, ?_⟩⟩
        exact hp.1.leads (by simp [Kind.rightPowers, hpower]) (hbinds.2 p hpower)
      · exact ⟨last, hlwf, hlbinds, hnil, .inr ⟨operator :: us, t,
          by simp [Grouped.tokens, htokens], ht⟩⟩
  | .binary operator left right, hwf, hbinds, hp => by
      simp only [Grouped.tokens, List.forall_mem_cons, List.forall_mem_append] at hp
      obtain ⟨p, hpower⟩ := Option.isSome_iff_exists.1 hwf.1
      obtain ⟨last, hlwf, hlbinds, hnil, rfl | ⟨us, t, htokens, ht⟩⟩ :=
        exists_last (g := right) hwf.2.2 hbinds.2.1 hp.2.2
      · refine ⟨last, hlwf, hlbinds, hnil, .inr ⟨left.tokens, operator, rfl, ?_⟩⟩
        exact hp.2.1.leads (by simp [Kind.rightPowers, hpower]) (hbinds.2.2 p hpower).2
      · exact ⟨last, hlwf, hlbinds, hnil, .inr ⟨left.tokens ++ operator :: us, t,
          by simp [Grouped.tokens, htokens], ht⟩⟩
  | .atom token, hwf, hbinds, _ => ⟨.atom token, hwf, hbinds, rfl, .inl rfl⟩
  | .group opening inner closing, hwf, hbinds, _ => ⟨_, hwf, hbinds, rfl, .inl rfl⟩
  | .suffix operator operand, hwf, hbinds, _ => ⟨_, hwf, hbinds, rfl, .inl rfl⟩
  | .callNone callee opening closing, hwf, hbinds, _ => ⟨_, hwf, hbinds, rfl, .inl rfl⟩
  | .call callee opening arguments, hwf, hbinds, _ => ⟨_, hwf, hbinds, rfl, .inl rfl⟩
  | .index callee opening indexes, hwf, hbinds, _ => ⟨_, hwf, hbinds, rfl, .inl rfl⟩

/-- No operand may start inside a tree with no operator on its right spine and go up to its end, if
it has none there either. -/
lemma not_leads {last : Grouped} (hwf : g.WellFormed) (hbinds : g.Binds)
    (hp : ∀ t ∈ g.tokens, t.Plain) (hnil : g.rightPowers = []) (hlwf : last.WellFormed)
    (hlnil : last.rightPowers = []) (heq : g.tokens = us ++ t :: last.tokens) :
    ¬t.Leads last := by
  intro hleads
  have hlp : ∀ t ∈ last.tokens, t.Plain := fun u hu => hp u (by simp [heq, hu])
  have hs : StartsBehind t last.tokens := by
    obtain ⟨u, ts, hts, hstarts⟩ := exists_tokens_eq_cons hlwf
    exact ⟨hleads.opens, u, by rw [hts]; rfl, hstarts⟩
  have hne : ¬excess last.tokens < 0 := by
    rw [(Grouped.balanced hlwf hlp).excess_eq]
    exact Int.lt_irrefl 0
  rcases cases_of_rightPowers_eq_nil hwf hnil with ⟨token, rfl⟩ | ⟨operator, operand, rfl⟩ | hg
  · exact hs.ne_nil (ne_cut_atom heq)
  · refine hne (excess_neg hwf hbinds hp (by simp [Tight, hnil]) heq hs fun hdot => ?_)
    -- the dot asks for more than the caret at the end binds
    obtain ⟨ts, x, htokens⟩ := (List.eq_nil_or_concat last.tokens).resolve_left hs.ne_nil
    rw [List.concat_eq_append] at htokens
    rw [Grouped.tokens, htokens, ← List.cons_append, ← List.append_assoc] at heq
    obtain rfl : operator = x := by simpa using (List.append_inj' heq rfl).2
    have hmem := mem_leftPowers_of_caret hlwf hlp hlnil htokens hwf.1
    rcases hleads.asks with hnone | ⟨p, hpower, hbelow⟩
    · simp [hdot, Kind.rightPowers, Kind.binaryPower?] at hnone
    · obtain rfl : p = 21 := by
        simpa [hdot, Kind.rightPowers, Kind.unaryPower?, Kind.binaryPower?] using hpower
      exact absurd (hbelow 19 hmem) (by decide)
  · exact hne (excess_neg_of_isBracketed hwf hp heq hs hg)

/-- A complete operand with no operator on its right spine is the smallest one that ends there. -/
lemma EndsAt.isSmallest {before : List Token} {next : Token} (h : g.EndsAt before next)
    (hnil : g.rightPowers = []) : g.IsSmallest before next where
  endsAt := h
  length_le g' h' := by
    by_contra hlt
    obtain ⟨front, rfl⟩ := h.isSuffix
    obtain ⟨cut, hcut⟩ := List.suffix_of_suffix_length_le h'.isSuffix h.isSuffix (by omega)
    obtain ⟨us, t, rfl⟩ := (List.eq_nil_or_concat cut).resolve_left (by
      rintro rfl
      exact hlt (by rw [← hcut, List.nil_append]))
    rw [List.concat_eq_append, List.append_assoc, List.singleton_append] at hcut
    have hp := h.allowed.plain
    obtain ⟨last, hlwf, -, hlnil, rfl | ⟨us', t', htokens, ht'⟩⟩ :=
      exists_last h'.allowed.wellFormed h'.allowed.binds h'.allowed.plain
    · have hleads := h'.leads (front ++ us) t (by rw [List.append_assoc, hcut])
      exact not_leads h.allowed.wellFormed h.allowed.binds hp hnil hlwf hlnil hcut.symm hleads
    · have hcut' : g.tokens = (us ++ t :: us') ++ t' :: last.tokens := by
        rw [← hcut, htokens, List.append_assoc, List.cons_append]
      exact not_leads h.allowed.wellFormed h.allowed.binds hp hnil hlwf hlnil hcut' ht'

/-! ## How an operand is named -/

/-- The expression of the tree.  An atom in parentheses is shown in one pair of them, however many
it stands in. -/
def shown : Grouped → String
  | .group _ inner _ =>
    if inner.toExpr.isAtom then "(" ++ inner.toExpr.text ++ ")" else inner.toExpr.text
  | g => g.toExpr.text

/-- The first token tells whether the tree is one in parentheses. -/
lemma calleeText_toExpr {ts : List Token} (hwf : g.WellFormed) (htokens : g.tokens = t :: ts)
    (ht : t.Plain) : calleeText g.toExpr (t.kind = .symbol .openParen) = g.shown := by
  cases g with
  | group opening inner closing =>
    obtain rfl : opening = t := (List.cons.inj htokens).1
    simp [calleeText, shown, toExpr, hwf.1]
  | atom token =>
    obtain rfl : token = t := (List.cons.inj htokens).1
    have hkind : token.kind ≠ .symbol .openParen := fun hk => by
      simpa [hk, Kind.isNative] using ht.kind_of_isAtom hwf
    simp [calleeText, shown, toExpr, hkind]
  | _ => simp [calleeText, shown, toExpr, Expr.isAtom]

/-- Trees with the same tokens are read as the same expression, if one of them is read at all. -/
lemma toExpr_eq_of_tokens_eq {g' : Grouped} {next next' : Token} (h : g.Allowed next)
    (h' : g'.Allowed next') (htokens : g.tokens = g'.tokens)
    (hlevels : g.levels ≤ Expr.maxNesting) : g.toExpr = g'.toExpr := by
  have hends : Token.afterAll.endsStatement := by decide
  have hplain : Token.afterAll.Plain := fun hl => by cases hl
  have hclear : ∀ t ∈ some Token.afterAll, ¬t.startsExpression := by
    rintro t ⟨⟩
    exact not_startsExpression_of_endsStatement hplain hends
  have hshows := Window.shows_ofList_self (g.tokens ++ [.afterAll])
  have hread := needs_standalone
    ⟨h.wellFormed, h.binds, h.derefsClear.change hclear, h.plain⟩ hshows hends
  rw [htokens] at hshows
  have hread' := needs_standalone
    ⟨h'.wellFormed, h'.binds, h'.derefsClear.change hclear, h'.plain⟩ hshows hends
  rw [← htokens] at hread'
  have hok := hread.ok (by simpa [Window.ofStream] using hlevels)
  by_cases hlevels' : g'.levels ≤ Expr.maxNesting
  · have hok' := hread'.ok (by simpa [Window.ofStream] using hlevels')
    rw [hok] at hok'
    simpa using hok'
  · obtain ⟨w, hw⟩ := hread'.tooDeep (Nat.zero_le _) (by simpa [Window.ofStream] using hlevels')
    rw [hok] at hw
    cases hw

end Grouped

/-- The text is how the smallest operand is shown that is complete at the end of the tokens. -/
structure NamesOperand (before : List Token) (next : Token) (text : String) : Prop where
  exists_isSmallest : ∃ g : Grouped, g.IsSmallest before next
  eq_shown : ∀ g : Grouped, g.IsSmallest before next → text = g.shown

/-- There is one smallest operand, and one way to show it. -/
lemma Grouped.IsSmallest.namesOperand {g : Grouped} {before : List Token} {next : Token}
    (h : g.IsSmallest before next) (hlevels : g.levels ≤ Expr.maxNesting) :
    NamesOperand before next g.shown where
  exists_isSmallest := ⟨g, h⟩
  eq_shown g' h' := by
    have hle := h.length_le g' h'.endsAt
    have hge := h'.length_le g h.endsAt
    have htokens : g.tokens = g'.tokens :=
      (List.suffix_of_suffix_length_le h.endsAt.isSuffix h'.endsAt.isSuffix hle).eq_of_length
        (Nat.le_antisymm hle hge)
    obtain ⟨t, ts, hts, -⟩ := exists_tokens_eq_cons h.endsAt.allowed.wellFormed
    have ht : t.Plain := h.endsAt.allowed.plain t (by simp [hts])
    rw [← calleeText_toExpr h.endsAt.allowed.wellFormed hts ht,
      ← calleeText_toExpr h'.endsAt.allowed.wellFormed (htokens ▸ hts) ht,
      toExpr_eq_of_tokens_eq h.endsAt.allowed h'.endsAt.allowed htokens hlevels]

end Pseudolang
