import Mathlib.Data.List.DropRight
import Pseudolang.Proofs.Classification
import Pseudolang.Proofs.Positions

/-!
# Positions tell where in the text a token stands

The position that follows a text is settled by the text: the line counts its line breaks, the column
the characters behind the last of them (`positionAfter`).  A cursor that has read the front `p` of a
source stands there (`Cursor.Behind`).  Passing a character keeps this, hence so do passing any
number of them and taking a token, and so it holds of every cursor that reading leads to
(`Cursor.Behind.next`).  A token has the position of the cursor behind the trivia before it.

A position counts without a limit.  To keep 32 bits of it is the same as to count in 32 bits from
the start, with additions that wrap around (`Counts.position_behind`), and in a text of fewer than
`2 ^ 32 - 1` characters no count gets so large (`kept_position`).

Characters may be passed one by one, each of them moving the line or the column, or a piece at once,
by the number of its bytes, with its characters added to the column.  For a piece that holds no line
break the two are the same (`Cursor.skip_eq_skipBytes`), and no piece but the line break itself
holds one (`Cursor.next_eq_skipBytes`).
-/

namespace Pseudolang

/-! ## The position behind a text -/

/-- The characters of a text behind its last line break. -/
def lastLine (p : List Char) : List Char :=
  p.rtakeWhile (· ≠ '\n')

lemma length_lastLine_le (p : List Char) : (lastLine p).length ≤ p.length :=
  (List.rtakeWhile_suffix _ p).length_le

lemma lastLine_concat (p : List Char) (x : Char) :
    lastLine (p ++ [x]) = if x = '\n' then [] else lastLine p ++ [x] := by
  rw [lastLine, List.rtakeWhile_concat]
  by_cases hx : x = '\n' <;> simp [hx, lastLine]

/-- A character belongs to the last line if no line break follows it. -/
lemma lastLine_cons (x : Char) (p : List Char) :
    lastLine (x :: p) = if x ≠ '\n' ∧ '\n' ∉ p then x :: lastLine p else lastLine p := by
  induction p using List.reverseRecOn with
  | nil =>
    rw [← List.nil_append [x], lastLine_concat]
    by_cases hx : x = '\n' <;> simp [hx, lastLine]
  | append_singleton p y ih =>
    rw [← List.cons_append, lastLine_concat, lastLine_concat, ih]
    by_cases hy : y = '\n'
    · simp [hy]
    · by_cases hx : x ≠ '\n' ∧ '\n' ∉ p
      · simp [hx, hy, Ne.symm hy]
      · simp [hx, hy, Ne.symm hy]

/-- The position of the character that follows the text. -/
def positionAfter (p : List Char) : Position where
  line := 1 + p.count '\n'
  column := 1 + (lastLine p).length

/-! ## Counting in 32 bits -/

/-- The line, and the characters read on it, counted in 32 bits. -/
structure Counts where
  line : UInt32 := 1
  column : UInt32 := 0

namespace Counts

/-- A line break starts the next line, and any other character is one more on its line.  Either
addition wraps around. -/
def pass (k : Counts) (x : Char) : Counts :=
  if x = '\n' then ⟨k.line + 1, 0⟩ else ⟨k.line, k.column + 1⟩

/-- The counts behind a text. -/
def behind (p : List Char) : Counts :=
  p.foldl pass {}

/-- The position of the next character. -/
def position (k : Counts) : Position where
  line := k.line.toNat
  column := (k.column + 1).toNat

lemma behind_eq (p : List Char) :
    behind p = ⟨UInt32.ofNat (1 + p.count '\n'), UInt32.ofNat (lastLine p).length⟩ := by
  induction p using List.reverseRecOn with
  | nil => rfl
  | append_singleton p x ih =>
    rw [behind, List.foldl_concat, ← behind, ih, lastLine_concat, pass]
    by_cases hx : x = '\n'
    · simp [hx, ← Nat.add_assoc, UInt32.ofNat_add]
    · simp [hx, UInt32.ofNat_add]

/-- Keeping 32 bits of the counts is counting in 32 bits. -/
lemma position_behind (p : List Char) : (behind p).position = (positionAfter p).kept := by
  rw [behind_eq, position, positionAfter, Position.kept, Nat.add_comm 1 (lastLine p).length,
    UInt32.ofNat_add (lastLine p).length]
  rfl

end Counts

namespace Cursor

variable {c : Cursor} {source p : List Char}

/-- The cursor stands behind the front `p` of the source. -/
structure Behind (c : Cursor) (source p : List Char) : Prop where
  split : source = p ++ c.rest
  line : c.line = 1 + p.count '\n'
  column : c.column = (lastLine p).length

lemma behind_ofSource (source : String) : (ofSource source).Behind source.toList [] :=
  ⟨rfl, rfl, rfl⟩

namespace Behind

lemma position_eq (h : c.Behind source p) : c.position = positionAfter p := by
  rw [position, positionAfter, h.line, h.column, Nat.add_comm (lastLine p).length]

lemma kept_eq (h : c.Behind source p) : c.position.kept = (Counts.behind p).position := by
  rw [h.position_eq, Counts.position_behind]

/-- Passing characters keeps a cursor behind what it has read, the induction being on their number:
each moves the line or the column. -/
lemma skip (h : c.Behind source p) (n : ℕ) :
    (c.skip n).Behind source (p ++ c.rest.take n) := by
  induction n generalizing c p with
  | zero => simpa [Cursor.skip] using h
  | succ n ih =>
    cases hrest : c.rest with
    | nil => simpa [skip_of_rest_eq_nil hrest] using h
    | cons x cs =>
      have hsplit : source = p ++ [x] ++ cs := by rw [h.split, hrest, List.append_assoc]; rfl
      rw [skip_succ_cons hrest, List.take_succ_cons, List.append_cons]
      split
      · next hx =>
        refine ih ⟨hsplit, ?_, ?_⟩
        · simp [h.line, hx, Nat.add_assoc]
        · simp [lastLine, hx]
      · next hx =>
        refine ih ⟨hsplit, ?_, ?_⟩
        · simp [h.line, hx]
        · simp [lastLine, hx, h.column]

lemma skipTrivia (h : c.Behind source p) :
    c.skipTrivia.Behind source (p ++ trivia c.rest) := by
  have hskip := h.skip (trivia c.rest).length
  rwa [← List.prefix_iff_eq_take.1 (trivia_isPrefix c.rest)] at hskip

/-- So does taking a token. -/
lemma next (h : c.Behind source p) : ∃ q, c.next.2.Behind source q := by
  obtain ⟨n, -, hnext⟩ := c.exists_next_eq_skip
  exact ⟨_, hnext ▸ h.skip n⟩

lemma iterate_next (h : c.Behind source p) (n : ℕ) :
    ∃ q, ((fun c : Cursor => c.next.2)^[n] c).Behind source q := by
  induction n with
  | zero => exact ⟨p, h⟩
  | succ n ih =>
    rw [Function.iterate_succ_apply']
    obtain ⟨q, hq⟩ := ih
    exact hq.next

lemma line_le (h : c.Behind source p) : c.line ≤ source.length + 1 := by
  have hcount : p.count '\n' ≤ p.length := List.count_le_length
  rw [h.line, h.split, List.length_append]
  omega

lemma column_le (h : c.Behind source p) : c.column ≤ source.length := by
  have hlength := length_lastLine_le p
  rw [h.column, h.split, List.length_append]
  omega

end Behind

end Cursor

/-! ## The place of a token -/

/-- The source consists of the text `before`, the token and the text `rest`, and the position of the
token says so. -/
structure Token.StandsAt (t : Token) (source before rest : List Char) : Prop where
  split : source = before ++ (t.text.toList ++ rest)
  position : t.position = positionAfter before
  /-- The end of file stands behind all of the source. -/
  endOfFile : t.kind = .endOfFile → before = source

namespace Cursor

variable {c : Cursor} {source p : List Char}

/-- The next token stands behind the trivia. -/
lemma Behind.standsAt_next (h : c.Behind source p) :
    c.next.1.StandsAt source (p ++ trivia c.rest) c.next.2.rest := by
  have hbehind := h.skipTrivia
  refine ⟨c.rest_skipTrivia_eq_append ▸ hbehind.split, c.position_next.trans hbehind.position_eq,
    fun hf => ?_⟩
  rw [hbehind.split, c.rest_skipTrivia_eq_nil hf, List.append_nil]

end Cursor

lemma laidOut_standsAt (source : String) :
    LaidOut (fun t rest => ∃ before, t.StandsAt source.toList before rest) (tokenize source)
      source.toList :=
  laidOut_tokens_of_invariant (I := fun c => ∃ p, c.Behind source.toList p)
    (fun _ ⟨_, h⟩ => h.next) (fun _ ⟨_, h⟩ => ⟨_, h.standsAt_next⟩)
    ⟨[], Cursor.behind_ofSource source⟩

lemma Token.StandsAt.le {t : Token} {source before rest : List Char}
    (h : t.StandsAt source before rest) :
    t.position.line ≤ source.length + 1 ∧ t.position.column ≤ source.length + 1 := by
  have hcount : before.count '\n' ≤ before.length := List.count_le_length
  have hlength := length_lastLine_le before
  rw [h.position, positionAfter, h.split, List.length_append]
  constructor <;> dsimp only <;> omega

lemma exists_standsAt_of_mem {source : String} {t : Token} (h : t ∈ tokenize source) :
    ∃ before rest, t.StandsAt source.toList before rest := by
  obtain ⟨rest, before, hstands⟩ := (laidOut_standsAt source).exists_of_mem h
  exact ⟨before, rest, hstands⟩

/-- In a text that is not too long no count wraps around. -/
lemma kept_position {source : String} (hlength : source.length + 1 < UInt32.size) {t : Token}
    (h : t ∈ tokenize source) : t.position.kept = t.position := by
  obtain ⟨before, rest, hstands⟩ := exists_standsAt_of_mem h
  obtain ⟨hline, hcolumn⟩ := hstands.le
  rw [String.length_toList] at hline hcolumn
  exact Position.kept_eq_self (by omega) (by omega)

/-- **Positions are exact.**  Wherever reading stops between two tokens, the unread text is what is
left of the source behind the text that was read; the line is one more than the number of line
breaks in that text, and the column is the number of its characters behind the last of them.  What
is kept of a position is what counting in 32 bits comes to.  A token has the position that follows
the text before it, which is the whole source for the end of file.  So positions strictly increase
from token to token, and neither lines nor columns get larger than the source has characters, but by
one: where these are fewer than `2 ^ 32 - 1`, positions are kept as they are. -/
theorem positions_exact (source : String) :
    (∀ n, let c := (fun c : Cursor => c.next.2)^[n] (Cursor.ofSource source)
      (∃ p, c.Behind source.toList p ∧ c.position.kept = (Counts.behind p).position) ∧
        c.line ≤ source.length + 1 ∧ c.column ≤ source.length) ∧
    LaidOut (fun t rest => ∃ before, t.StandsAt source.toList before rest) (tokenize source)
      source.toList ∧
    (∀ t ∈ tokenize source,
      t.position.line ≤ source.length + 1 ∧ t.position.column ≤ source.length + 1) ∧
    (tokenize source).Pairwise (fun t u => t.position.order u.position = .lt) ∧
    (source.length + 1 < UInt32.size → ∀ t ∈ tokenize source, t.position.kept = t.position) := by
  refine ⟨fun n => ?_, laidOut_standsAt source, fun t ht => ?_, ?_,
    fun hlength t => kept_position hlength⟩
  · obtain ⟨p, hp⟩ := (Cursor.behind_ofSource source).iterate_next n
    exact ⟨⟨p, hp, hp.kept_eq⟩, String.length_toList ▸ hp.line_le,
      String.length_toList ▸ hp.column_le⟩
  · obtain ⟨before, rest, hstands⟩ := exists_standsAt_of_mem ht
    exact String.length_toList ▸ hstands.le
  · exact (Cursor.pairwise_key (Cursor.ofSource source)).1.imp Position.order_of_key_lt

/-! ## Passing a piece at once -/

/-- The front of a text that takes so many bytes. -/
def takeBytes (n : ℕ) : List Char → List Char
  | [] => []
  | x :: cs => if n = 0 then [] else x :: takeBytes (n - x.utf8Size) cs

lemma takeBytes_append (t rest : List Char) :
    takeBytes (String.ofList t).utf8ByteSize (t ++ rest) = t := by
  induction t with
  | nil => cases rest <;> simp [takeBytes]
  | cons x t ih =>
    have hsize : (String.ofList (x :: t)).utf8ByteSize =
        x.utf8Size + (String.ofList t).utf8ByteSize := by
      rw [String.ofList_cons, String.utf8ByteSize_append, String.utf8ByteSize_singleton]
    have hpos := x.utf8Size_pos
    rw [hsize, List.cons_append, takeBytes, if_neg (by omega), Nat.add_sub_cancel_left, ih]

namespace Cursor

/-- The cursor behind so many bytes, their characters being added to the column. -/
def skipBytes (n : ℕ) (c : Cursor) : Cursor where
  rest := c.rest.drop (takeBytes n c.rest).length
  line := c.line
  column := c.column + (takeBytes n c.rest).length

variable {c : Cursor} {t rest : List Char}

/-- Without a line break, passing a piece at once is passing its characters one by one. -/
lemma skip_eq_skipBytes (h : c.rest = t ++ rest) (hn : '\n' ∉ t) :
    c.skip t.length = c.skipBytes (String.ofList t).utf8ByteSize := by
  rw [skip_of_append h hn, skipBytes, h, takeBytes_append, List.drop_left]

lemma next_eq_skip (c : Cursor) : c.next.2 = c.skipTrivia.skip c.next.1.text.toList.length := by
  cases hrest : c.skipTrivia.rest with
  | nil =>
    rw [next_of_skipTrivia_eq_nil hrest]
    rfl
  | cons x cs =>
    rw [next_of_cons hrest]
    simp [Lexeme.toToken]

/-- Trivia may be passed at once, and so may any token but a line break. -/
theorem next_eq_skipBytes (c : Cursor) :
    c.skipTrivia = c.skipBytes (String.ofList (trivia c.rest)).utf8ByteSize ∧
      (c.next.1.kind ≠ .endOfLine →
        c.next.2 = c.skipTrivia.skipBytes c.next.1.text.utf8ByteSize) := by
  obtain ⟨hgap, hrest⟩ := c.gap_skipTrivia
  refine ⟨skip_eq_skipBytes hrest hgap.newline_notMem, fun hk => ?_⟩
  have hskip := skip_eq_skipBytes c.rest_skipTrivia_eq_append ((keepsLine_next c).2 hk)
  rwa [← next_eq_skip, String.ofList_toList] at hskip

end Cursor

end Pseudolang
