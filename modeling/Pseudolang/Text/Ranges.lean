/-!
# Ranges of code points

Classes of characters are listed as closed ranges of code points in ascending order; the list comes
with the proof that it ascends.  A look-up walks the list and stops at the first range that ends at
or after the code point, which decides membership in one of the ranges (`Ranges.covers_iff`).
-/

namespace Pseudolang.Text

/-- Every range, given by its first and last member, is non-empty and ends before the next one
starts. -/
def Ascending : List (Nat × Nat) → Prop
  | [] => True
  | [(lo, hi)] => lo ≤ hi
  | (lo, hi) :: (lo', hi') :: rest => lo ≤ hi ∧ hi < lo' ∧ Ascending ((lo', hi') :: rest)

instance decidableAscending : (ranges : List (Nat × Nat)) → Decidable (Ascending ranges)
  | [] => .isTrue trivial
  | [(lo, hi)] => inferInstanceAs (Decidable (lo ≤ hi))
  | (lo, hi) :: (lo', hi') :: rest =>
    have := decidableAscending ((lo', hi') :: rest)
    inferInstanceAs (Decidable (lo ≤ hi ∧ hi < lo' ∧ Ascending ((lo', hi') :: rest)))

/-- Closed ranges of code points in ascending order. -/
structure Ranges where
  list : List (Nat × Nat)
  ascending : Ascending list

/-- Whether `n` lies in one of the ranges of an ascending list. -/
def search : List (Nat × Nat) → Nat → Bool
  | [], _ => false
  | (lo, hi) :: rest, n => if n < lo then false else if n ≤ hi then true else search rest n

theorem Ascending.tail {p : Nat × Nat} {rest : List (Nat × Nat)} (h : Ascending (p :: rest)) :
    Ascending rest := by
  cases rest with
  | nil => trivial
  | cons q rest => exact h.2.2

/-- No later range of an ascending list starts before the end of the first. -/
theorem Ascending.lt_of_mem {lo hi : Nat} {rest : List (Nat × Nat)}
    (h : Ascending ((lo, hi) :: rest)) {q : Nat × Nat} (hq : q ∈ rest) : hi < q.1 := by
  induction rest generalizing lo hi with
  | nil => cases hq
  | cons p rest ih =>
    obtain ⟨lo', hi'⟩ := p
    obtain ⟨_, hlt, htail⟩ := h
    rcases List.mem_cons.1 hq with rfl | hmem
    · exact hlt
    · have hle : lo' ≤ hi' := by
        cases rest with
        | nil => cases hmem
        | cons r rest => exact htail.1
      exact Nat.lt_of_lt_of_le hlt (Nat.le_trans hle (Nat.le_of_lt (ih htail hmem)))

/-- On an ascending list the look-up that stops early decides membership in one of the ranges. -/
theorem Ascending.search_iff {ranges : List (Nat × Nat)} (h : Ascending ranges) (n : Nat) :
    search ranges n = true ↔ ∃ p ∈ ranges, p.1 ≤ n ∧ n ≤ p.2 := by
  induction ranges with
  | nil => simp [search]
  | cons p rest ih =>
    obtain ⟨lo, hi⟩ := p
    simp only [search]
    split
    · next hlo =>
      simp only [Bool.false_eq_true, false_iff, not_exists, not_and, Nat.not_le]
      intro q hq hle
      rcases List.mem_cons.1 hq with rfl | hmem
      · exact absurd hle (Nat.not_le.2 hlo)
      · have hlohi : lo ≤ hi := by
          cases rest with
          | nil => cases hmem
          | cons r rest => exact h.1
        have := h.lt_of_mem hmem
        omega
    · next hlo =>
      split
      · next hhi => exact iff_of_true rfl ⟨(lo, hi), List.mem_cons_self, Nat.not_lt.1 hlo, hhi⟩
      · next hhi =>
        rw [ih h.tail]
        constructor
        · rintro ⟨q, hq, hle⟩
          exact ⟨q, List.mem_cons_of_mem _ hq, hle⟩
        · rintro ⟨q, hq, hle⟩
          rcases List.mem_cons.1 hq with rfl | hmem
          · exact absurd hle.2 hhi
          · exact ⟨q, hmem, hle⟩

namespace Ranges

/-- Whether `n` lies in one of the ranges. -/
def covers (r : Ranges) (n : Nat) : Bool :=
  search r.list n

theorem covers_iff (r : Ranges) (n : Nat) :
    r.covers n = true ↔ ∃ p ∈ r.list, p.1 ≤ n ∧ n ≤ p.2 :=
  r.ascending.search_iff n

end Ranges

end Pseudolang.Text
