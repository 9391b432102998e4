import Mathlib.Logic.Function.Iterate
import Pseudolang.Proofs.Isolation

/-!
# Reading moves on and comes to rest

Taking a token shortens the unread text, unless nothing but trivia was left of it
(`Cursor.endOfFile_next_iff`).  Then the token is the end of file, and the cursor comes to rest
behind the trivia: passing trivia a second time moves it no further
(`Cursor.skipTrivia_skipTrivia`), so that whoever asks again gets the same end of file at the same
place (`Cursor.next_next_of_endOfFile`).  `Cursor.MovesOn` collects this of one cursor.

For the tokens of a text it means that they are counted by its characters, and that the end of file
is the last of them and stands nowhere else.
-/

namespace Pseudolang

/-- The text consists of blanks and of at most one comment, which runs to its end. -/
def IsTrivia (cs : List Char) : Prop :=
  ∃ blanks rest, cs = blanks ++ rest ∧ (∀ c ∈ blanks, c = ' ' ∨ c = '\t' ∨ c = '\r') ∧
    (rest = [] ∨ ∃ body, rest = '/' :: '/' :: body ∧ '\n' ∉ body)

lemma trivia_eq_self_of_isTrivia {cs : List Char} (h : IsTrivia cs) : trivia cs = cs := by
  obtain ⟨blanks, rest, rfl, hblanks, hrest⟩ := h
  have hblank : ∀ c ∈ blanks, isBlank c := fun c hc => by
    simpa [isBlank, or_assoc] using hblanks c hc
  rw [trivia, List.takeWhile_append_of_pos hblank, List.dropWhile_append_of_pos hblank]
  rcases hrest with rfl | ⟨body, rfl, hbody⟩
  · simp [comment]
  · have hline : body.takeWhile (· ≠ '\n') = body :=
      List.takeWhile_eq_self_iff.2 fun c hc => decide_eq_true fun hn : c = '\n' => hbody (hn ▸ hc)
    have hslash : ¬isBlank '/' := by decide
    rw [List.takeWhile_cons_of_neg hslash, List.dropWhile_cons_of_neg hslash, comment, hline,
      List.append_nil]

/-- A text is trivia just if all of it is passed before a token. -/
lemma isTrivia_iff {cs : List Char} : IsTrivia cs ↔ trivia cs = cs := by
  refine ⟨trivia_eq_self_of_isTrivia, fun h => ?_⟩
  refine ⟨cs.takeWhile isBlank, comment (cs.dropWhile isBlank), h.symm, fun c hc => ?_, ?_⟩
  · simpa [isBlank, or_assoc] using List.mem_takeWhile_imp hc
  · rcases comment_cases (cs.dropWhile isBlank) with hnone | ⟨body, hbody, hline, -⟩
    · exact .inl hnone
    · exact .inr ⟨body, hbody, hline⟩

/-! ## One token -/

namespace Cursor

variable {c : Cursor}

/-- Behind the trivia there are no more of them: a comment ends before a line break or at the end of
the text, and no blank follows it. -/
lemma skipTrivia_skipTrivia (c : Cursor) : c.skipTrivia.skipTrivia = c.skipTrivia := by
  have hnone : trivia c.skipTrivia.rest = [] := by
    rw [rest_skipTrivia]
    exact trivia_drop_trivia c.rest
  rw [skipTrivia, hnone]
  rfl

/-- Whoever has passed the trivia finds the same token there. -/
lemma next_skipTrivia (c : Cursor) : c.skipTrivia.next = c.next := by
  simp only [next, skipTrivia_skipTrivia]

/-- The end of file comes where nothing but trivia is left. -/
lemma endOfFile_next_iff (c : Cursor) : c.next.1.kind = .endOfFile ↔ IsTrivia c.rest := by
  obtain ⟨-, hrest⟩ := c.gap_skipTrivia
  rw [isTrivia_iff]
  constructor
  · intro hf
    rw [c.rest_skipTrivia_eq_nil hf, List.append_nil] at hrest
    exact hrest.symm
  · intro htrivia
    have hnil : c.skipTrivia.rest = [] := by rw [rest_skipTrivia, htrivia, List.drop_length]
    rw [next_of_skipTrivia_eq_nil hnil]

/-- Any other token takes something from the front of the unread text. -/
lemma exists_taken (h : c.next.1.kind ≠ .endOfFile) :
    ∃ taken ≠ [], c.rest = taken ++ c.next.2.rest := by
  obtain ⟨-, hrest⟩ := c.gap_skipTrivia
  rw [c.rest_skipTrivia_eq h, ← List.append_assoc] at hrest
  refine ⟨_, fun hnil => ?_, hrest⟩
  have hlt := c.length_next_lt h
  rw [hnil, List.nil_append] at hrest
  exact absurd (congrArg List.length hrest) hlt.ne'

/-- At the end of file the cursor has come to rest. -/
lemma next_next_of_endOfFile (h : c.next.1.kind = .endOfFile) : c.next.2.next = c.next := by
  have hcursor : c.next.2 = c.skipTrivia := by
    rw [next_of_skipTrivia_eq_nil (c.rest_skipTrivia_eq_nil h)]
  rw [hcursor, next_skipTrivia]

/-- What taking the next token does to the cursor. -/
structure MovesOn (c : Cursor) : Prop where
  endOfFile_iff : c.next.1.kind = .endOfFile ↔ IsTrivia c.rest
  shortens : c.next.1.kind ≠ .endOfFile → ∃ taken ≠ [], c.rest = taken ++ c.next.2.rest
  /-- However often the cursor is asked on, it gives the end of file again and stays where it is. -/
  rests : c.next.1.kind = .endOfFile →
    ∀ n, ((fun c : Cursor => c.next.2)^[n] c.next.2).next = c.next

lemma movesOn (c : Cursor) : c.MovesOn where
  endOfFile_iff := c.endOfFile_next_iff
  shortens := exists_taken
  rests h n := by
    have hnext := next_next_of_endOfFile h
    have hfixed : (fun c : Cursor => c.next.2)^[n] c.next.2 = c.next.2 :=
      Function.iterate_fixed (congrArg Prod.snd hnext) n
    rw [hfixed, hnext]

end Cursor

/-! ## All tokens -/

namespace TokenStream

variable {σ : Type} [TokenStream σ]

/-- Each token but the end of file uses up some of what remains. -/
lemma length_tokens_le (s : σ) : (tokens s).length ≤ remaining s + 1 := by
  fun_induction tokens s with
  | case1 s _ => simp
  | case2 s hf _ ih =>
    have hlt := remaining_next_lt s hf
    rw [List.length_cons]
    omega

/-- The end of file is the last token and no other one. -/
lemma exists_tokens_eq_concat (s : σ) :
    ∃ ts t, tokens s = ts ++ [t] ∧ t.kind = .endOfFile ∧ ∀ u ∈ ts, u.kind ≠ .endOfFile := by
  fun_induction tokens s with
  | case1 s hf => exact ⟨[], _, rfl, hf, by simp⟩
  | case2 s hf _ ih =>
    obtain ⟨ts, t, hts, ht, hne⟩ := ih
    exact ⟨_ :: ts, t, by rw [hts, List.cons_append], ht, List.forall_mem_cons.2 ⟨hf, hne⟩⟩

/-- The tokens are what the stream gives when it is asked so many times. -/
lemma tokens_eq_map_range (s : σ) :
    tokens s = (List.range (tokens s).length).map fun n =>
      (next ((fun s : σ => (next s).2)^[n] s)).1 := by
  fun_induction tokens s with
  | case1 s _ => rfl
  | case2 s _ _ ih =>
    rw [List.length_cons, List.range_succ_eq_map, List.map_cons, List.map_map]
    exact congrArg _ ih

end TokenStream

/-- **Reading moves on and comes to rest.**  Wherever reading stops between two tokens, the next one
is the end of file just if only blanks are left and a comment up to the end of the text; any other
token shortens the unread text, and after the end of file every further token is the same one, at
the same place, with the cursor unmoved.  So the tokens of a text are what the cursor gives when it
is asked once for each of them, they are at most one more than its characters, and the last of them,
and no other, is the end of file. -/
theorem reading_moves_on (source : String) :
    (∀ n, ((fun c : Cursor => c.next.2)^[n] (Cursor.ofSource source)).MovesOn) ∧
    (tokenize source = (List.range (tokenize source).length).map fun n =>
      ((fun c : Cursor => c.next.2)^[n] (Cursor.ofSource source)).next.1) ∧
    (tokenize source).length ≤ source.length + 1 ∧
    ∃ ts t, tokenize source = ts ++ [t] ∧ t.kind = .endOfFile ∧ ∀ u ∈ ts, u.kind ≠ .endOfFile := by
  have hlength := TokenStream.length_tokens_le (Cursor.ofSource source)
  change (tokenize source).length ≤ source.toList.length + 1 at hlength
  rw [String.length_toList] at hlength
  exact ⟨fun n => Cursor.movesOn _, TokenStream.tokens_eq_map_range (Cursor.ofSource source),
    hlength, TokenStream.exists_tokens_eq_concat (Cursor.ofSource source)⟩

end Pseudolang
