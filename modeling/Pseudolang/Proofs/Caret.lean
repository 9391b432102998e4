import Pseudolang.Diagnostic.Excerpt
import Pseudolang.Proofs.ExactPositions
import Pseudolang.Proofs.Outcomes
import Pseudolang.Proofs.Spacing

/-!
# The caret under a diagnostic

A diagnostic is shown with the line that it is about, and a caret below it.  The line is found by
its number in the source split at line breaks, and the caret is placed by the column; both come from
the position of a token.  The two fit because of what a position is: with `before` the text before
the token, the line of its number begins with the last line of `before`, and goes on with the token
(`splitLines_getElem?`).  So the token is met in that line at its column, a carriage return at the
end of the line does not matter (`exists_dropReturn_append`), and the indentation, which no token
starts with, is no longer than what stands before the token (`length_takeWhile_dropReturn_le`).
The white space that is dropped at the end of the line does not reach a token that starts with none
(`getElem?_rdropWhile`).

All this is about the numbers that are kept of a position, and holds where these are the position;
they are so in every text that is not too long for it (`kept_position_of_mem_diagnostics`).
-/

namespace Pseudolang

/-! ## The line of a position -/

section Lines

variable {x : Char} {p rest : List Char}

lemma splitLines_cons (hx : x ≠ '\n') {cs line : List Char} {lines : List (List Char)}
    (h : splitLines cs = line :: lines) : splitLines (x :: cs) = (x :: line) :: lines := by
  rw [splitLines, if_neg hx, h]

lemma splitLines_getElem?_zero (cs : List Char) :
    (splitLines cs)[0]? = some (cs.takeWhile (· ≠ '\n')) := by
  induction cs with
  | nil => rfl
  | cons x cs ih =>
    by_cases hx : x = '\n'
    · simp [splitLines, hx]
    · obtain ⟨line, lines, hlines⟩ := List.exists_cons_of_ne_nil (splitLines_ne_nil cs)
      rw [hlines] at ih
      rw [splitLines_cons hx hlines]
      simpa [hx] using ih

/-- The line on which a text ends begins with what the text has of it. -/
lemma splitLines_getElem? (p rest : List Char) :
    (splitLines (p ++ rest))[p.count '\n']? = some (lastLine p ++ rest.takeWhile (· ≠ '\n')) := by
  induction p with
  | nil => exact splitLines_getElem?_zero rest
  | cons x p ih =>
    by_cases hx : x = '\n'
    · simpa [splitLines, hx, lastLine_cons] using ih
    · obtain ⟨line, lines, hlines⟩ := List.exists_cons_of_ne_nil (splitLines_ne_nil (p ++ rest))
      rw [hlines] at ih
      rw [List.cons_append, splitLines_cons hx hlines, List.count_cons_of_ne hx, lastLine_cons]
      by_cases hp : '\n' ∈ p
      · obtain ⟨k, hk⟩ := Nat.exists_eq_succ_of_ne_zero (List.count_pos_iff.2 hp).ne'
        rw [hk] at ih ⊢
        simpa [hp] using ih
      · rw [List.count_eq_zero.2 hp] at ih ⊢
        simpa [hx, hp] using ih

/-- A carriage return that ends the line stands behind any other character of it. -/
lemma exists_dropReturn_append (hx : x ≠ '\r') (front more : List Char) :
    ∃ more', dropReturn (front ++ x :: more) = front ++ x :: more' := by
  rw [dropReturn]
  split
  · next hlast =>
    cases more with
    | nil => simp [hx] at hlast
    | cons y more =>
      refine ⟨(y :: more).dropLast, ?_⟩
      rw [List.dropLast_append_of_ne_nil (by simp)]
      rfl
  · exact ⟨more, rfl⟩

end Lines

/-! ## What is cut off a line -/

section Cuts

variable {α : Type} {p : α → Bool} {x : α} {l : List α} {n : ℕ}

/-- What is cut off at the front moves the rest to the left. -/
lemma getElem?_dropWhile (h : (l.takeWhile p).length ≤ n) :
    (l.dropWhile p)[n - (l.takeWhile p).length]? = l[n]? := by
  conv_rhs => rw [← List.takeWhile_append_dropWhile (p := p) (l := l)]
  exact (List.getElem?_append_right h).symm

/-- What is cut off at the end is of the class, so that an element outside it stays. -/
lemma getElem?_rdropWhile (h : l[n]? = some x) (hx : ¬p x) : (l.rdropWhile p)[n]? = some x := by
  rw [← List.rdropWhile_append_rtakeWhile (p := p) (l := l)] at h
  by_cases hn : n < (l.rdropWhile p).length
  · rwa [List.getElem?_append_left hn] at h
  · rw [List.getElem?_append_right (Nat.le_of_not_lt hn)] at h
    exact absurd (List.mem_rtakeWhile_imp (List.mem_of_getElem? h)) hx

end Cuts

/-- How many blanks and tabs the line starts with. -/
def indentation (line : String) : ℕ :=
  (line.toList.takeWhile Excerpt.isIndent).length

/-- The line without the blanks and tabs at its start and the white space at its end. -/
def shownText (line : String) : List Char :=
  (line.toList.dropWhile Excerpt.isIndent).rdropWhile Text.isWhiteSpace

/-- A line is not indented further than to the first character that is no blank. -/
lemma length_takeWhile_dropReturn_le (front : List Char) {more : List Char}
    (h : ∀ x ∈ more.head?, ¬isBlank x) :
    ((dropReturn (front ++ more)).takeWhile Excerpt.isIndent).length ≤ front.length := by
  cases more with
  | nil =>
    rw [List.append_nil]
    refine (List.takeWhile_prefix _).length_le.trans ?_
    rw [dropReturn]
    split
    · simp
    · exact le_refl _
  | cons x more =>
    have hx : ¬isBlank x := h x rfl
    obtain ⟨more', hline⟩ := exists_dropReturn_append (x := x)
      (by rintro rfl; exact hx rfl) front more
    have hindent : Excerpt.isIndent x = false := by
      simp only [isBlank, Bool.or_eq_true, not_or] at hx
      simpa [Excerpt.isIndent] using hx.1
    rw [hline, List.takeWhile_append]
    split
    · simp [hindent]
    · exact (List.takeWhile_prefix _).length_le

/-! ## Tokens in their lines -/

namespace Token.StandsAt

variable {source : String} {t : Token} {before rest : List Char}

/-- The line of a token begins with the last line of the text before it, and goes on with it. -/
lemma sourceLine?_eq (h : t.StandsAt source.toList before rest) :
    sourceLine? source t.position.line = some (String.ofList
      (dropReturn (lastLine before ++ (t.text.toList ++ rest).takeWhile (· ≠ '\n')))) := by
  rw [h.position, positionAfter, Nat.add_comm, sourceLine?, h.split, splitLines_getElem?]
  rfl

/-- What the line goes on with starts with no blank: neither does a token, and the end of file has
nothing behind it. -/
lemma not_isBlank (h : t.StandsAt source.toList before rest) (ht : t ∈ tokenize source) :
    ∀ x ∈ ((t.text.toList ++ rest).takeWhile (· ≠ '\n')).head?, ¬isBlank x := by
  obtain ⟨rest', f, hf⟩ := exists_form_of_mem ht
  have hfits := hf.fits
  have hsplit := h.split
  cases htext : t.text.toList with
  | nil =>
    rw [htext] at hfits hsplit
    have hend : t.kind = .endOfFile := hf.kind.trans (congrArg Form.kind hfits.eq_endOfFile)
    obtain rfl : rest = [] := by simpa [h.endOfFile hend] using hsplit
    simp
  | cons y ys =>
    rw [htext] at hfits
    intro x hx
    obtain rfl : y = x := by
      by_cases hy : y = '\n'
      · simp [hy] at hx
      · simpa [hy] using hx
    exact hfits.not_isBlank

/-- So the indentation of the line ends before the token. -/
lemma indentation_lt (h : t.StandsAt source.toList before rest) (ht : t ∈ tokenize source)
    {line : String} (hline : sourceLine? source t.position.line = some line) :
    indentation line < t.position.column := by
  rw [h.sourceLine?_eq, Option.some_inj] at hline
  rw [h.position, positionAfter, indentation, ← hline, String.toList_ofList]
  have := length_takeWhile_dropReturn_le (lastLine before) (h.not_isBlank ht)
  dsimp only
  omega

/-- A token that starts with no white space is shown, and as many characters behind the indentation
as it stands there in the line. -/
lemma getElem?_shownText (h : t.StandsAt source.toList before rest) (ht : t ∈ tokenize source)
    {line : String} (hline : sourceLine? source t.position.line = some line) {x : Char}
    (hx : x ∈ t.text.toList.head?) (hwhite : ¬Text.isWhiteSpace x) :
    (shownText line)[t.position.column - indentation line - 1]? = some x := by
  have hindentation := h.indentation_lt ht hline
  obtain ⟨xs, htext⟩ := List.head?_eq_some_iff.1 hx
  have hbreak : x ≠ '\n' ∧ x ≠ '\r' :=
    ⟨by rintro rfl; exact hwhite (by decide), by rintro rfl; exact hwhite (by decide)⟩
  have hplace : line.toList[t.position.column - 1]? = some x := by
    obtain ⟨more, hreturn⟩ := exists_dropReturn_append hbreak.2 (lastLine before)
      ((xs ++ rest).takeWhile (· ≠ '\n'))
    rw [h.sourceLine?_eq, Option.some_inj] at hline
    have hgoes : (t.text.toList ++ rest).takeWhile (· ≠ '\n') =
        x :: (xs ++ rest).takeWhile (· ≠ '\n') := by
      rw [htext, List.cons_append, List.takeWhile_cons_of_pos (by simpa using hbreak.1)]
    rw [← hline, String.toList_ofList, hgoes, hreturn, h.position, positionAfter]
    simp
  refine getElem?_rdropWhile ?_ hwhite
  rw [indentation] at hindentation
  rw [Nat.sub_right_comm, indentation, getElem?_dropWhile (Nat.le_sub_one_of_lt hindentation)]
  exact hplace

end Token.StandsAt

/-! ## The rows of an excerpt -/

namespace Position

/-- The line of a source with its number. -/
def excerptRow (p : Position) (line : String) : String :=
  Nat.repr p.line ++ " | " ++ String.ofList (shownText line)

/-- A bar under the one beside the number. -/
def bar (p : Position) : String :=
  String.ofList (List.replicate ((Nat.repr p.line).length + 1) ' ') ++ "|"

/-- The bar, dashes up to the place behind the indentation where the position is, and the caret. -/
def caretRow (p : Position) (line : String) : String :=
  p.bar ++ " " ++ String.ofList (List.replicate (p.column - indentation line - 1) '-') ++ "^"

variable {p : Position} {line : String}

lemma toList_excerptRow :
    (p.excerptRow line).toList =
      (Nat.repr p.line).toList ++ ' ' :: '|' :: ' ' :: shownText line := by
  simp [excerptRow]

lemma toList_caretRow :
    (p.caretRow line).toList = List.replicate ((Nat.repr p.line).length + 1) ' ' ++
      '|' :: ' ' :: (List.replicate (p.column - indentation line - 1) '-' ++ ['^']) := by
  simp [caretRow, bar]

/-- The bars stand one under the other. -/
lemma bar_excerptRow : (p.excerptRow line).toList[(Nat.repr p.line).length + 1]? = some '|' := by
  rw [toList_excerptRow, ← String.length_toList, List.getElem?_append_right (Nat.le_succ _)]
  simp

/-- The caret comes last. -/
lemma getLast?_caretRow : (p.caretRow line).toList.getLast? = some '^' := by
  rw [toList_caretRow, ← List.cons_append, ← List.cons_append, ← List.append_assoc,
    List.getLast?_concat]

lemma bar_caretRow : (p.caretRow line).toList[(Nat.repr p.line).length + 1]? = some '|' := by
  simp [toList_caretRow]

/-- The character above the caret, which stands behind the number and the bar. -/
lemma getElem?_excerptRow :
    (p.excerptRow line).toList[(p.caretRow line).length - 1]? =
      (shownText line)[p.column - indentation line - 1]? := by
  have hlength : (p.caretRow line).length - 1 =
      (Nat.repr p.line).toList.length + (3 + (p.column - indentation line - 1)) := by
    rw [← String.length_toList, toList_caretRow, String.length_toList]
    simp
    omega
  rw [hlength, toList_excerptRow, List.getElem?_append_right (Nat.le_add_right _ _),
    Nat.add_sub_cancel_left, Nat.add_comm]
  rfl

end Position

/-- The excerpt of a line in which the position is behind the indentation. -/
lemma Excerpt.ofSource_eq {source line : String} {p : Position}
    (hline : sourceLine? source p.line = some line) (hlt : indentation line < p.column) :
    ofSource source p = ⟨p.line, shownText line, p.column - indentation line⟩ := by
  have hcaret : max 1 (p.column - indentation line) = p.column - indentation line := by omega
  rw [ofSource, hline]
  exact congrArg (Excerpt.mk p.line (shownText line)) hcaret

lemma Diagnostic.render?_eq {d : Diagnostic} {source line : String} (file : String)
    (hkept : d.position.kept = d.position)
    (hline : sourceLine? source d.position.line = some line)
    (hlt : indentation line < d.position.column) :
    d.render? source file =
      if 65535 < d.position.column - indentation line then none
      else
        some (d.headline ++ "\n" ++ "-> " ++ file ++ ":" ++ Nat.repr d.position.line ++ ":" ++
          Nat.repr d.position.column ++ "\n" ++ d.position.bar ++ "\n" ++
          d.position.excerptRow line ++ "\n" ++ d.position.caretRow line ++ "\n") := by
  simp only [render?, hkept, Excerpt.ofSource_eq hline hlt]
  rfl

/-- How a diagnostic is shown with the line of its position. -/
structure Diagnostic.PointsUnder (d : Diagnostic) (source file line : String) : Prop where
  isLine : sourceLine? source d.position.line = some line
  indentation_lt : indentation line < d.position.column
  /-- Nothing is shown when the caret would stand too far to the right. -/
  hidden : d.render? source file = none ↔ 65535 < d.position.column - indentation line
  shown : d.position.column - indentation line ≤ 65535 → d.render? source file =
    some (d.headline ++ "\n" ++ "-> " ++ file ++ ":" ++ Nat.repr d.position.line ++ ":" ++
      Nat.repr d.position.column ++ "\n" ++ d.position.bar ++ "\n" ++
      d.position.excerptRow line ++ "\n" ++ d.position.caretRow line ++ "\n")
  bars : (d.position.excerptRow line).toList[(Nat.repr d.position.line).length + 1]? = some '|' ∧
    (d.position.caretRow line).toList[(Nat.repr d.position.line).length + 1]? = some '|'
  caret : (d.position.caretRow line).toList.getLast? = some '^'
  /-- Above the caret stands the character at the column, the indentation not being counted. -/
  above : (d.position.excerptRow line).toList[(d.position.caretRow line).length - 1]? =
    (shownText line)[d.position.column - indentation line - 1]?
  /-- The position is that of a token. -/
  token : ∃ t ∈ tokenize source, t.position = d.position
  /-- Above the caret this token starts. -/
  start : ∀ t ∈ tokenize source, t.position = d.position →
    ∀ x ∈ t.text.toList.head?, ¬Text.isWhiteSpace x →
      (d.position.excerptRow line).toList[(d.position.caretRow line).length - 1]? = some x

end Pseudolang
