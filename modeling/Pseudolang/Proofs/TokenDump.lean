import Pseudolang.CommandLine
import Pseudolang.Proofs.Classification
import Pseudolang.Proofs.Outcomes

/-!
# Token dumps are unambiguous

A line of a token dump can be read from left to right.  The name of the kind ends at the first
comma, which no name holds, and the numbers end where their digits do.  Between them stands the
quoted text: each character of it is read back from the front of what its escape starts
(`Text.unescape?_escape_append`), and no escape starts with the quote that closes the text.  So
equal lines come from tokens of one kind and one text, of whose positions the same is kept
(`Token.fields_eq_of_display`).

The rest of a token follows from these.  A token without fault is what its own text is read as, and
the fault of an illegal one is settled by its first character (`Form.Fits.fault_eq`).  Since no line
of a dump holds a line break, the lines of a dump are found again, too.  So all that is kept of the
tokens is read from a dump, and nothing but that is in it (`Token.display_kept`).
-/

namespace Pseudolang

/-- What stands before the first `x` of a text, and what follows it, are settled by the text. -/
lemma eq_of_append_cons {α : Type} {x : α} {as bs cs ds : List α} (has : x ∉ as) (hbs : x ∉ bs)
    (h : as ++ x :: cs = bs ++ x :: ds) : as = bs ∧ cs = ds := by
  induction as generalizing bs with
  | nil =>
    cases bs with
    | nil => exact ⟨rfl, (List.cons.inj h).2⟩
    | cons b bs => exact absurd ((List.cons.inj h).1 ▸ List.mem_cons_self ..) hbs
  | cons a as ih =>
    rw [List.mem_cons, not_or] at has
    cases bs with
    | nil => exact absurd (List.cons.inj h).1.symm has.1
    | cons b bs =>
      rw [List.mem_cons, not_or] at hbs
      obtain ⟨rfl, hrest⟩ := List.cons.inj h
      obtain ⟨rfl, rfl⟩ := ih has.2 hbs.2 hrest
      exact ⟨rfl, rfl⟩

namespace Text

/-! ## Hexadecimal digits -/

/-- The number that a hexadecimal digit stands for. -/
def hexDigitValue (x : Char) : ℕ :=
  if x.isDigit then x.toNat - '0'.toNat else x.toNat - 'a'.toNat + 10

/-- The number that hexadecimal digits stand for. -/
def hexValue (cs : List Char) : ℕ :=
  cs.foldl (fun n x => 16 * n + hexDigitValue x) 0

lemma hexDigitValue_digitChar : ∀ d < 16, hexDigitValue d.digitChar = d := by decide

lemma hexDigits_eq_ite (n : ℕ) :
    hexDigits n = if n < 16 then [n.digitChar] else hexDigits (n / 16) ++ [(n % 16).digitChar] :=
  Nat.toDigits_eq_if (by decide)

/-- Hexadecimal digits are read back. -/
lemma hexValue_hexDigits (n : ℕ) : hexValue (hexDigits n) = n := by
  induction n using Nat.strong_induction_on with
  | _ n ih =>
    rw [hexDigits_eq_ite]
    split
    · next hn => simp [hexValue, hexDigitValue_digitChar n hn]
    · have hfront : hexValue (hexDigits (n / 16)) = n / 16 := ih _ (by omega)
      have hlast := hexDigitValue_digitChar (n % 16) (Nat.mod_lt _ (by decide))
      rw [hexValue, List.foldl_append, ← hexValue, hfront, List.foldl_cons, List.foldl_nil, hlast,
        Nat.div_add_mod]

lemma exists_of_mem_hexDigits {n : ℕ} {x : Char} (h : x ∈ hexDigits n) :
    ∃ d < 16, x = d.digitChar := by
  induction n using Nat.strong_induction_on with
  | _ n ih =>
    rw [hexDigits_eq_ite] at h
    split at h
    · next hn => exact ⟨n, hn, List.mem_singleton.1 h⟩
    · rcases List.mem_append.1 h with h | h
      · exact ih _ (by omega) h
      · exact ⟨n % 16, Nat.mod_lt _ (by decide), List.mem_singleton.1 h⟩

lemma ne_of_mem_hexDigits {n : ℕ} {x : Char} (h : x ∈ hexDigits n) : x ≠ '\x7d' ∧ x ≠ '\n' := by
  have hdigits : ∀ d < 16, Nat.digitChar d ≠ '\x7d' ∧ Nat.digitChar d ≠ '\n' := by decide
  obtain ⟨d, hd, rfl⟩ := exists_of_mem_hexDigits h
  exact hdigits d hd

/-! ## Escapes -/

/-- The characters that are written with a backslash and a letter of their own. -/
def letterEscapes : List (Char × Char) :=
  [('"', '"'), ('\\', '\\'), ('\x00', '0'), ('\t', 't'), ('\r', 'r'), ('\n', 'n')]

/-- Reads the character at the front of an escaped text; there is none at the closing quote. -/
def unescape? : List Char → Option (Char × List Char)
  | [] => none
  | '"' :: _ => none
  | '\\' :: 'u' :: '\x7b' :: cs =>
    some (.ofNat (hexValue (cs.takeWhile (· ≠ '\x7d'))), (cs.dropWhile (· ≠ '\x7d')).tail)
  | '\\' :: x :: cs => (letterEscapes.find? (·.2 = x)).map fun p => (p.1, cs)
  | c :: cs => some (c, cs)

/-- A character is written by a letter, by its code point or as it is. -/
lemma escape_cases (c : Char) :
    (∃ x, (c, x) ∈ letterEscapes ∧ escape c = ['\\', x]) ∨ escape c = codePointEscape c ∨
      escape c = [c] ∧ c ≠ '"' ∧ c ≠ '\\' ∧ c ≠ '\n' := by
  by_cases hc : ∃ x, (c, x) ∈ letterEscapes
  · obtain ⟨x, hx⟩ := hc
    have hletters : ∀ p ∈ letterEscapes, escape p.1 = ['\\', p.2] := by decide
    exact .inl ⟨x, hx, hletters _ hx⟩
  · obtain ⟨hquote, hslash, hnull, htab, hreturn, hnewline⟩ :
        c ≠ '"' ∧ c ≠ '\\' ∧ c ≠ '\x00' ∧ c ≠ '\t' ∧ c ≠ '\r' ∧ c ≠ '\n' := by
      refine ⟨?_, ?_, ?_, ?_, ?_, ?_⟩ <;> rintro rfl <;> simp [letterEscapes] at hc
    rw [escape, if_neg hquote, if_neg hslash, if_neg hnull, if_neg htab, if_neg hreturn,
      if_neg hnewline]
    split
    · exact .inr (.inl rfl)
    · exact .inr (.inr ⟨rfl, hquote, hslash, hnewline⟩)

lemma unescape?_codePointEscape_append (c : Char) (cs : List Char) :
    unescape? (codePointEscape c ++ cs) = some (c, cs) := by
  have hdigits : ∀ x ∈ hexDigits c.toNat, decide (x ≠ '\x7d') := fun x hx =>
    decide_eq_true (ne_of_mem_hexDigits hx).1
  have hcode : codePointEscape c ++ cs =
      '\\' :: 'u' :: '\x7b' :: (hexDigits c.toNat ++ '\x7d' :: cs) := by
    simp [codePointEscape]
  rw [hcode, unescape?, List.takeWhile_append_of_pos hdigits, List.dropWhile_append_of_pos hdigits]
  simp [hexValue_hexDigits]

/-- A character is read back from its escape, whatever follows. -/
lemma unescape?_escape_append (c : Char) (cs : List Char) :
    unescape? (escape c ++ cs) = some (c, cs) := by
  rcases escape_cases c with ⟨x, hx, hc⟩ | hc | ⟨hc, hquote, hslash, -⟩
  · rw [hc]
    simp only [letterEscapes, List.mem_cons, Prod.mk.injEq, List.not_mem_nil, or_false] at hx
    rcases hx with ⟨rfl, rfl⟩ | ⟨rfl, rfl⟩ | ⟨rfl, rfl⟩ | ⟨rfl, rfl⟩ | ⟨rfl, rfl⟩ | ⟨rfl, rfl⟩
    all_goals rfl
  · rw [hc]
    exact unescape?_codePointEscape_append c cs
  · rw [hc, List.singleton_append, unescape?]
    all_goals grind

lemma newline_notMem_escape (c : Char) : '\n' ∉ escape c := by
  have hletters : ∀ p ∈ letterEscapes, p.2 ≠ '\n' := by decide
  rcases escape_cases c with ⟨x, hx, hc⟩ | hc | ⟨hc, -, -, hn⟩
  · simpa [hc] using (hletters _ hx).symm
  · rw [hc, codePointEscape]
    simpa using fun h => (ne_of_mem_hexDigits h).2 rfl
  · simpa [hc] using hn.symm

/-- An escaped text is found again in front of the quote that closes it. -/
lemma eq_of_flatMap_escape {as bs cs ds : List Char}
    (h : as.flatMap escape ++ '"' :: cs = bs.flatMap escape ++ '"' :: ds) : as = bs ∧ cs = ds := by
  induction as generalizing bs with
  | nil =>
    cases bs with
    | nil => exact ⟨rfl, (List.cons.inj h).2⟩
    | cons b bs =>
      rw [List.flatMap_cons, List.append_assoc] at h
      cases (congrArg unescape? h).trans (unescape?_escape_append b _)
  | cons a as ih =>
    have hread := congrArg unescape? h
    rw [List.flatMap_cons, List.append_assoc, unescape?_escape_append] at hread
    cases bs with
    | nil => cases hread
    | cons b bs =>
      rw [List.flatMap_cons, List.append_assoc, unescape?_escape_append] at hread
      obtain ⟨rfl, hrest⟩ := Prod.mk.inj (Option.some.inj hread)
      obtain ⟨rfl, rfl⟩ := ih hrest
      exact ⟨rfl, rfl⟩

lemma toList_quoted (s : String) : (quoted s).toList = '"' :: (s.toList.flatMap escape ++ ['"']) :=
  String.toList_ofList

lemma eq_of_quoted_append {s t : String} {cs ds : List Char}
    (h : (quoted s).toList ++ cs = (quoted t).toList ++ ds) : s = t ∧ cs = ds := by
  rw [toList_quoted, toList_quoted, List.cons_append, List.cons_append, List.append_assoc,
    List.append_assoc, List.singleton_append, List.singleton_append] at h
  obtain ⟨htext, hrest⟩ := eq_of_flatMap_escape (List.cons.inj h).2
  exact ⟨String.toList_inj.1 htext, hrest⟩

lemma newline_notMem_quoted (s : String) : '\n' ∉ (quoted s).toList := by
  rw [toList_quoted]
  simpa using fun c _ => newline_notMem_escape c

end Text

/-! ## Names and numbers -/

namespace Kind

lemma ofName?_name (k : Kind) : ofName? k.name = some k := by
  have hall : ∀ k ∈ all, ofName? k.name = some k := by decide +kernel
  exact hall k k.mem_all

lemma notMem_name (k : Kind) : ',' ∉ k.name.toList ∧ '\n' ∉ k.name.toList := by
  have hall : ∀ k ∈ all, ',' ∉ k.name.toList ∧ '\n' ∉ k.name.toList := by decide +kernel
  exact hall k k.mem_all

lemma name_inj {k l : Kind} (h : k.name = l.name) : k = l := by
  have hname := ofName?_name k
  rw [h, ofName?_name] at hname
  exact (Option.some.inj hname).symm

end Kind

/-- The digits of a number end where something else follows. -/
lemma eq_of_toDigits_append {m n : ℕ} {x : Char} {cs ds : List Char} (hx : ¬x.isDigit)
    (h : Nat.toDigits 10 m ++ x :: cs = Nat.toDigits 10 n ++ x :: ds) : m = n ∧ cs = ds := by
  have hdigits (n : ℕ) : x ∉ Nat.toDigits 10 n := fun hmem =>
    hx (Nat.isDigit_of_mem_toDigits (by decide) (by decide) hmem)
  obtain ⟨hnumber, hrest⟩ := eq_of_append_cons (hdigits m) (hdigits n) h
  refine ⟨?_, hrest⟩
  rw [← Nat.ofDigitChars_ten_toDigits (n := m), hnumber, Nat.ofDigitChars_ten_toDigits]

/-! ## Lines of a dump -/

namespace Token

variable {t u : Token}

@[simp]
lemma display_kept (t : Token) : t.kept.display = t.display := by
  simp [display, kept]

lemma toList_display (t : Token) : t.display.toList =
    "Token(".toList ++ (t.kind.name.toList ++ ',' :: (" ".toList ++ ((Text.quoted t.text).toList ++
      (", line=".toList ++ (Nat.toDigits 10 t.position.kept.line ++ ',' :: (" column=".toList ++
        (Nat.toDigits 10 t.position.kept.column ++ [')']))))))) := by
  simp [display]

/-- A line shows the kind and the text of its token and what is kept of the position. -/
lemma fields_eq_of_display (h : t.display = u.display) :
    t.kind = u.kind ∧ t.text = u.text ∧ t.position.kept = u.position.kept := by
  have hline := congrArg String.toList h
  rw [toList_display, toList_display, List.append_cancel_left_eq] at hline
  obtain ⟨hname, hline⟩ :=
    eq_of_append_cons t.kind.notMem_name.1 u.kind.notMem_name.1 hline
  obtain ⟨htext, hline⟩ := Text.eq_of_quoted_append (List.append_cancel_left hline)
  obtain ⟨hrow, hline⟩ := eq_of_toDigits_append (by decide) (List.append_cancel_left hline)
  obtain ⟨hcolumn, -⟩ := eq_of_toDigits_append (by decide) (List.append_cancel_left hline)
  refine ⟨Kind.name_inj (String.toList_inj.1 hname), htext, ?_⟩
  cases hp : t.position.kept
  cases hq : u.position.kept
  simp_all

lemma newline_notMem_display (t : Token) : '\n' ∉ t.display.toList := by
  rw [toList_display]
  simp [t.kind.notMem_name.2, Text.newline_notMem_quoted, newline_notMem_toDigits]

end Token

/-! ## What a line does not show -/

/-- What is wrong with an illegal text that starts with the character. -/
def Fault.ofFirst (x : Char) : Fault :=
  if x = '"' then .unterminatedString
  else if x = '\'' then .malformedChar
  else if isNumberPart x then .malformedNumber
  else .unrecognisedCharacter

lemma Form.Fits.fault_eq {f : Form} {text rest : List Char} (h : f.Fits text rest)
    (hk : f.kind = .illegal) : ∃ x ∈ text.head?, f.fault = some (.ofFirst x) := by
  cases f with
  | malformedNumber =>
    have hnumber : ∃ x ∈ text.head?, isNumberPart x := by
      rcases h.1.begins with ⟨x, hx, hdigit⟩ | ⟨x, xs, rfl, -⟩
      · exact ⟨x, hx, by simp [isNumberPart, hdigit]⟩
      · exact ⟨'.', rfl, rfl⟩
    obtain ⟨x, hx, hpart⟩ := hnumber
    have hquotes : x ≠ '"' ∧ x ≠ '\'' := by
      constructor <;> rintro rfl <;> exact absurd hpart (by decide)
    exact ⟨x, hx, by rw [Fault.ofFirst, if_neg hquotes.1, if_neg hquotes.2, if_pos hpart]; rfl⟩
  | unterminatedString =>
    obtain ⟨s, rfl, -⟩ := h
    exact ⟨'"', rfl, rfl⟩
  | malformedChar =>
    obtain ⟨s, -, -, ⟨rfl, -⟩ | ⟨rfl, -⟩⟩ := h
    · exact ⟨'\'', rfl, rfl⟩
    · exact ⟨'\'', rfl, rfl⟩
  | unrecognisedCharacter =>
    obtain ⟨x, rfl, hx⟩ := h
    have hdouble : x ≠ '"' := fun he => hx.symbol .doubleQuote (he ▸ rfl)
    have hsingle : x ≠ '\'' := fun he => hx.symbol .singleQuote (he ▸ rfl)
    have hdot : x ≠ '.' := fun he => hx.symbol .dot (he ▸ rfl)
    have hpart : ¬isNumberPart x := by simp [isNumberPart, hx.digit, hdot]
    exact ⟨x, rfl, by rw [Fault.ofFirst, if_neg hdouble, if_neg hsingle, if_neg hpart]; rfl⟩
  | _ => cases hk

section Tokens

variable {a b : String} {t u : Token}

/-- An illegal token is no literal, and its text tells what is wrong with it. -/
lemma marks_of_illegal (ht : t ∈ tokenize a) (hk : t.kind = .illegal) :
    t.isLiteral = false ∧ t.fault = t.text.toList.head?.map Fault.ofFirst := by
  obtain ⟨rest, f, hf⟩ := exists_form_of_mem ht
  have hkind : f.kind = .illegal := hf.kind ▸ hk
  obtain ⟨x, hx, hfault⟩ := hf.fits.fault_eq hkind
  refine ⟨?_, ?_⟩
  · rw [hf.isLiteral]
    cases f <;> first | rfl | cases hkind
  · rw [hf.fault, hfault, Option.mem_def.1 hx, Option.map_some]

lemma lexed_of_mem (ht : t ∈ tokenize a) (hk : t.kind ≠ .illegal) : t.Lexed :=
  forall_mem_tokenize (P := fun t => t.kind ≠ .illegal → t.Lexed) Cursor.lexed_next a t ht hk

/-- Kind and text of a token settle all of it but its position. -/
lemma unplaced_eq_of_text (ht : t ∈ tokenize a) (hu : u ∈ tokenize b) (hk : t.kind = u.kind)
    (htext : t.text = u.text) : t.unplaced = u.unplaced := by
  by_cases hillegal : t.kind = .illegal
  · obtain ⟨hliteral, hfault⟩ := marks_of_illegal ht hillegal
    obtain ⟨hliteral', hfault'⟩ := marks_of_illegal hu (hk ▸ hillegal)
    exact Token.unplaced_eq_iff.2 ⟨hk, htext, hliteral.trans hliteral'.symm,
      by rw [hfault, hfault', htext]⟩
  · have hlexed := lexed_of_mem ht hillegal
    have hlexed' := lexed_of_mem hu (hk ▸ hillegal)
    rw [← hlexed, ← hlexed', htext]

lemma kept_eq_of_display (ht : t ∈ tokenize a) (hu : u ∈ tokenize b)
    (h : t.display = u.display) : t.kept = u.kept := by
  obtain ⟨hk, htext, hposition⟩ := Token.fields_eq_of_display h
  obtain ⟨-, -, hliteral, hfault⟩ :=
    Token.unplaced_eq_iff.1 (unplaced_eq_of_text ht hu hk htext)
  rw [Token.kept, Token.kept, hk, htext, hposition, hliteral, hfault]

end Tokens

/-! ## Dumps -/

/-- What a dump prints, token by token. -/
def dumpText (ts : List Token) : List Char :=
  ts.flatMap fun t => t.display.toList ++ ['\n']

lemma dumpText_cons (t : Token) (ts : List Token) :
    dumpText (t :: ts) = t.display.toList ++ '\n' :: dumpText ts := by
  rw [dumpText, List.flatMap_cons, List.append_assoc]
  rfl

/-- A dump shows no more of the tokens than is kept of them. -/
lemma dumpText_map_kept (ts : List Token) : dumpText (ts.map Token.kept) = dumpText ts := by
  simp [dumpText, List.flatMap_map]

lemma toList_output (ts : List Token) :
    (Report.ofTokens ts).output.toList = dumpText (ts.filter (·.kind ≠ .endOfFile)) := by
  rw [Report.ofTokens, String.toList_join, List.flatMap_map]
  simp [dumpText]

/-- Since no line holds a line break, the lines of two equal dumps are equal one by one. -/
lemma map_kept_eq_of_dumpText {a b : String} {ts us : List Token}
    (hts : ∀ t ∈ ts, t ∈ tokenize a) (hus : ∀ u ∈ us, u ∈ tokenize b)
    (h : dumpText ts = dumpText us) : ts.map Token.kept = us.map Token.kept := by
  induction ts generalizing us with
  | nil =>
    cases us with
    | nil => rfl
    | cons u us =>
      rw [dumpText_cons] at h
      exact absurd h.symm (by simp [dumpText])
  | cons t ts ih =>
    rw [List.forall_mem_cons] at hts
    rw [dumpText_cons] at h
    cases us with
    | nil => exact absurd h (by simp [dumpText])
    | cons u us =>
      rw [List.forall_mem_cons] at hus
      rw [dumpText_cons] at h
      obtain ⟨hline, hrest⟩ := eq_of_append_cons t.newline_notMem_display u.newline_notMem_display h
      rw [List.map_cons, List.map_cons,
        kept_eq_of_display hts.1 hus.1 (String.toList_inj.1 hline), ih hts.2 hus.2 hrest]

lemma decodeText_toUTF8 (source : String) : decodeText source.toUTF8 = .ok source := by
  rw [decodeText, String.fromUTF8?, String.toUTF8_eq_toByteArray, dif_pos source.isValidUTF8]
  rfl

/-- The run that lists the tokens of a file that holds the source. -/
lemma report?_listTokens (path source : String) (timing : Timing) :
    (Request.ofArguments [path, "--tokens"]).report? (fun _ => .ok source.toUTF8) timing =
      some (.ofTokens (tokenize source)) := by
  have hrequest : Request.ofArguments [path, "--tokens"] = .listTokens path := rfl
  have hread : (Except.ok source.toUTF8 >>= decodeText : Except ReadFailure String) = .ok source :=
    decodeText_toUTF8 source
  rw [hrequest, Request.report?, Request.reportBy, pure_bind, hread]
  rfl

/-- **A token dump is unambiguous.**  Whatever sources two tokens come from, the same is kept of
them in every field if their lines in a dump are equal, although these show neither whether a token
is a literal nor what is wrong with it.  No line of a dump holds a line break.  So runs that list
the tokens of two files print the same exactly when the same is kept of the tokens of both before
the end of file.  A token of a source that is not so long that a count may wrap around is kept as it
is: of two such sources equal lines come from equal tokens, and equal dumps from the same tokens. -/
theorem token_dump_unambiguous (a b : String) :
    (∀ t ∈ tokenize a, ∀ u ∈ tokenize b, t.display = u.display → t.kept = u.kept) ∧
    (∀ t ∈ tokenize a, '\n' ∉ t.display.toList) ∧
    (∀ path timing,
      ((Request.ofArguments [path, "--tokens"]).report? (fun _ => .ok a.toUTF8) timing).map
            Report.output =
          ((Request.ofArguments [path, "--tokens"]).report? (fun _ => .ok b.toUTF8) timing).map
            Report.output ↔
        ((tokenize a).filter (·.kind ≠ .endOfFile)).map Token.kept =
          ((tokenize b).filter (·.kind ≠ .endOfFile)).map Token.kept) ∧
    (a.length + 1 < UInt32.size → ∀ t ∈ tokenize a, t.kept = t) := by
  refine ⟨fun t ht u hu => kept_eq_of_display ht hu, fun t _ => t.newline_notMem_display,
    fun path timing => ?_, fun hlength t ht => by rw [Token.kept, kept_position hlength ht]⟩
  rw [report?_listTokens, report?_listTokens, Option.map_some, Option.map_some, Option.some_inj,
    ← String.toList_inj, toList_output, toList_output]
  refine ⟨map_kept_eq_of_dumpText (fun t ht => (List.mem_filter.1 ht).1) fun u hu =>
    (List.mem_filter.1 hu).1, fun h => ?_⟩
  rw [← dumpText_map_kept, h, dumpText_map_kept]

/-- Trivia at the end of a text leave no trace in its dump. -/
example : (Report.ofTokens (tokenize "\"a\t\" // b")).output =
    "Token(String, \"\\\"a\\t\\\"\", line=1, column=1)\n" := by
  decide +kernel

end Pseudolang
