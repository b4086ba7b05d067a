import WorkbookTables.Cell.NumberFormat

/-!
# Format codes token by token

A format code is a row of tokens: characters that are escaped, quoted literals, sections in square
brackets, and plain characters. Only a plain character can be a letter for a part of a date or a
time, so the kind that a code shows should be told from the plain characters alone.

The machine that reads a code comes to rest behind each token, with nothing escaped and nothing
open, and has noted the letter if the token was one. That is the invariant which carries the reading
over a code. It has one gap. A backslash or an underscore escapes the character behind it wherever
it stands, in a literal and in brackets too, and so the last character of a text in there can escape
the quote or the bracket that should close it. Such a token stays open, and what stands behind it is
hidden until the token is closed after all.

## Main definitions

* `FormatToken` — the tokens of format codes
* `FormatToken.Closes` — tokens that the machine sees the end of
* `kindOfPlain` — the kind that plain characters make
* `ReadsTokens` — what the reading of a code makes of its tokens

## Main results

* `FormatScanner.foldl_written` — what one token does to the machine
* `readsTokens` — the kind of a code is that of its plain characters if its tokens close
* `not_kindOfPlain` — it is not for every code
-/

namespace WorkbookTables.Cell

/-! ### Tokens -/

/-- Holds of the characters that escape the next one. -/
def IsEscapeMark (c : Char) : Prop := c = '_' ∨ c = '\\'

instance (c : Char) : Decidable (IsEscapeMark c) := inferInstanceAs (Decidable (_ ∨ _))

/-- One token of a format code. -/
inductive FormatToken where
  /-- A character behind a backslash or an underscore. -/
  | escaped (mark c : Char) (h : IsEscapeMark mark)
  /-- A text in double quotes. -/
  | literal (text : List Char) (h : '"' ∉ text)
  /-- A text in square brackets. -/
  | bracketed (text : List Char) (h : ']' ∉ text)
  /-- A character that begins none of the others. -/
  | plain (c : Char) (hmark : ¬IsEscapeMark c) (hquote : c ≠ '"') (hbracket : c ≠ '[')

/-- Whether a mark at the end of a text is left waiting for the character it escapes. -/
def waits (text : List Char) : Bool :=
  text.foldl (fun waiting c => !waiting && decide (IsEscapeMark c)) false

namespace FormatToken

/-- How it is written. -/
def written : FormatToken → List Char
  | escaped mark c _ => [mark, c]
  | literal text _ => '"' :: (text ++ ['"'])
  | bracketed text _ => '[' :: (text ++ [']'])
  | plain c _ _ _ => [c]

/-- The character, if it is a plain one. -/
def plain? : FormatToken → Option Char
  | plain c _ _ _ => some c
  | _ => none

/-- Holds of the tokens whose end is not escaped by the last character of their text. -/
def Closes : FormatToken → Prop
  | literal text _ => waits text = false
  | bracketed text _ => waits text = false
  | _ => True

end FormatToken

/-- The format code of a row of tokens. -/
def formatCode (tokens : List FormatToken) : String :=
  String.ofList (tokens.flatMap FormatToken.written)

/-- The plain characters of a row of tokens. -/
def plainCharacters (tokens : List FormatToken) : List Char :=
  tokens.filterMap FormatToken.plain?

/-- The kind that plain characters make: a date or a time if one of them is a letter for a part of
it, both if there are letters of both sorts. -/
def kindOfPlain (cs : List Char) : Kind :=
  if cs.any ['Y', 'y', 'D', 'd'].contains then
    if cs.any ['H', 'h', 'S', 's'].contains then .numberDateTime else .numberDate
  else if cs.any ['H', 'h', 'S', 's'].contains then .numberTime else .number

/-! ### The machine at rest -/

namespace FormatScanner

/-- The machine with nothing escaped and nothing open, behind these plain characters. -/
def atRest (cs : List Char) : FormatScanner :=
  ⟨false, false, false, cs.any isDateLetter, cs.any isTimeLetter⟩

theorem isDateLetter_iff {c : Char} : isDateLetter c = true ↔ c ∈ ['Y', 'y', 'D', 'd'] := by
  simp [isDateLetter, or_assoc]

theorem isTimeLetter_iff {c : Char} : isTimeLetter c = true ↔ c ∈ ['H', 'h', 'S', 's'] := by
  simp [isTimeLetter, or_assoc]

theorem kind_atRest (cs : List Char) : (atRest cs).kind = kindOfPlain cs := by
  have hdate : isDateLetter = ['Y', 'y', 'D', 'd'].contains := by
    funext c
    rw [Bool.eq_iff_iff, isDateLetter_iff, List.contains_iff_mem]
  have htime : isTimeLetter = ['H', 'h', 'S', 's'].contains := by
    funext c
    rw [Bool.eq_iff_iff, isTimeLetter_iff, List.contains_iff_mem]
  rw [kindOfPlain, ← hdate, ← htime, kind, atRest]
  rcases cs.any isDateLetter with _ | _ <;> rcases cs.any isTimeLetter with _ | _ <;> rfl

variable {date time : Bool}

/-- Where no character but a mark counts, a text leaves nothing behind but a mark that waits. -/
theorem foldl_waiting (inside : Bool → FormatScanner) {text : List Char}
    (h : ∀ c ∈ text, ∀ waiting, step (inside waiting) c =
      inside (!waiting && decide (IsEscapeMark c))) (waiting : Bool) :
    text.foldl step (inside waiting) =
      inside (text.foldl (fun waiting c => !waiting && decide (IsEscapeMark c)) waiting) := by
  induction text generalizing waiting with
  | nil => rfl
  | cons c rest ih =>
    obtain ⟨hc, hrest⟩ := List.forall_mem_cons.1 h
    rw [List.foldl_cons, List.foldl_cons, hc, ih hrest]

/-- The machine behind the text of a literal that has been opened at rest. -/
theorem foldl_open_literal {text : List Char} (h : '"' ∉ text) :
    ('"' :: text).foldl step ⟨false, false, false, date, time⟩ =
      ⟨waits text, true, false, date, time⟩ := by
  refine foldl_waiting (fun waiting => ⟨waiting, true, false, date, time⟩) ?_ false
  intro c hc waiting
  have hquote : c ≠ '"' := ne_of_mem_of_not_mem hc h
  rcases waiting with _ | _
  · by_cases hmark : c = '_' ∨ c = '\\'
    · simp [step, IsEscapeMark, hmark]
    · simp [step, IsEscapeMark, hmark, hquote]
  · rfl

theorem foldl_open_bracketed {text : List Char} (h : ']' ∉ text) :
    ('[' :: text).foldl step ⟨false, false, false, date, time⟩ =
      ⟨waits text, false, true, date, time⟩ := by
  refine foldl_waiting (fun waiting => ⟨waiting, false, true, date, time⟩) ?_ false
  intro c hc waiting
  have hbracket : c ≠ ']' := ne_of_mem_of_not_mem hc h
  rcases waiting with _ | _
  · by_cases hmark : c = '_' ∨ c = '\\'
    · simp [step, IsEscapeMark, hmark]
    · simp [step, IsEscapeMark, hmark, hbracket]
  · rfl

/-- A plain character at rest is noted if it is a letter that counts. -/
theorem step_plain {c : Char} (hmark : ¬IsEscapeMark c) (hquote : c ≠ '"') (hbracket : c ≠ '[')
    (cs : List Char) : step (atRest cs) c = atRest (cs ++ [c]) := by
  have hdisjoint : isDateLetter c = true → isTimeLetter c = false := by
    intro hdate
    rw [isDateLetter_iff] at hdate
    rcases (by simpa using hdate : c = 'Y' ∨ c = 'y' ∨ c = 'D' ∨ c = 'd') with
      rfl | rfl | rfl | rfl <;> rfl
  have hnone : ¬(c = '_' ∨ c = '\\') := hmark
  by_cases hdate : isDateLetter c = true
  · simp [step, atRest, hnone, hquote, hbracket, hdate, hdisjoint hdate]
  · by_cases htime : isTimeLetter c = true
    · simp [step, atRest, hnone, hquote, hbracket, hdate, htime]
    · simp [step, atRest, hnone, hquote, hbracket, hdate, htime]

/-- **One token**: if it closes, the machine comes to rest behind it, with one more plain character
if it is one. -/
theorem foldl_written {t : FormatToken} (h : t.Closes) (cs : List Char) :
    t.written.foldl step (atRest cs) = atRest (cs ++ t.plain?.toList) := by
  rcases t with ⟨mark, c, hmark⟩ | ⟨text, htext⟩ | ⟨text, htext⟩ | ⟨c, hmark, hquote, hbracket⟩
  · have hopen : step (atRest cs) mark = { atRest cs with escaped := true } := by
      simp [step, atRest, show mark = '_' ∨ mark = '\\' from hmark]
    have hclose : step { atRest cs with escaped := true } c = atRest cs := rfl
    show step (step (atRest cs) mark) c = atRest (cs ++ [])
    rw [hopen, hclose, List.append_nil]
  · have hwaits : waits text = false := h
    show ('"' :: text ++ ['"']).foldl step (atRest cs) = atRest (cs ++ [])
    rw [List.foldl_append, atRest, foldl_open_literal htext, hwaits, List.append_nil]
    rfl
  · have hwaits : waits text = false := h
    show ('[' :: text ++ [']']).foldl step (atRest cs) = atRest (cs ++ [])
    rw [List.foldl_append, atRest, foldl_open_bracketed htext, hwaits, List.append_nil]
    rfl
  · exact step_plain hmark hquote hbracket cs

/-- **Many tokens.** -/
theorem foldl_flatMap_written {tokens : List FormatToken} (h : ∀ t ∈ tokens, t.Closes)
    (cs : List Char) :
    (tokens.flatMap FormatToken.written).foldl step (atRest cs) =
      atRest (cs ++ plainCharacters tokens) := by
  induction tokens generalizing cs with
  | nil =>
    show atRest cs = atRest (cs ++ [])
    rw [List.append_nil]
  | cons t rest ih =>
    obtain ⟨ht, hrest⟩ := List.forall_mem_cons.1 h
    have hplain : plainCharacters (t :: rest) = t.plain?.toList ++ plainCharacters rest := by
      rw [plainCharacters, List.filterMap_cons]
      rcases t.plain? with _ | c <;> rfl
    rw [List.flatMap_cons, List.foldl_append, foldl_written ht, ih hrest, hplain,
      List.append_assoc]

/-- The machine behind tokens that stand at the beginning. -/
theorem foldl_tokens {tokens : List FormatToken} (h : ∀ t ∈ tokens, t.Closes) :
    (tokens.flatMap FormatToken.written).foldl step {} = atRest (plainCharacters tokens) := by
  have hread := foldl_flatMap_written h []
  rw [List.nil_append] at hread
  exact hread

/-- A token that does not close hides the character behind it. -/
theorem kind_of_not_closes {t : FormatToken} (h : ¬t.Closes) {c : Char} (hmark : ¬IsEscapeMark c)
    (hquote : c ≠ '"') (cs : List Char) :
    ((t.written ++ [c]).foldl step (atRest cs)).kind = (atRest cs).kind := by
  have hnone : ¬(c = '_' ∨ c = '\\') := hmark
  rcases t with ⟨mark, d, hescape⟩ | ⟨text, htext⟩ | ⟨text, htext⟩ | ⟨d, hmark', hquote', hbracket'⟩
  · exact absurd trivial h
  · have hwaits : waits text = true := by simpa [FormatToken.Closes] using h
    show (('"' :: text ++ ['"'] ++ [c]).foldl step (atRest cs)).kind = (atRest cs).kind
    rw [List.foldl_append, List.foldl_append, atRest, foldl_open_literal htext, hwaits]
    simp [step, hnone, hquote, kind]
  · have hwaits : waits text = true := by simpa [FormatToken.Closes] using h
    show (('[' :: text ++ [']'] ++ [c]).foldl step (atRest cs)).kind = (atRest cs).kind
    rw [List.foldl_append, List.foldl_append, atRest, foldl_open_bracketed htext, hwaits]
    by_cases hclose : c = ']'
    · simp [step, hclose, kind]
    · simp [step, hnone, hquote, hclose, kind]
  · exact absurd trivial h

end FormatScanner

/-! ### Codes -/

/-- What the reading of a code makes of its tokens. -/
structure ReadsTokens (tokens : List FormatToken) : Prop where
  /-- If they close, the kind of the code is that of its plain characters. -/
  kind : (∀ t ∈ tokens, t.Closes) →
    kindOfFormatCode (formatCode tokens) = kindOfPlain (plainCharacters tokens)
  /-- Then no token that is no plain character makes a difference where it is put in. -/
  unmoved : (∀ t ∈ tokens, t.Closes) → ∀ before after t, tokens = before ++ t :: after →
    t.plain? = none →
    kindOfFormatCode (formatCode tokens) = kindOfFormatCode (formatCode (before ++ after))
  /-- The first token that does not close hides the character behind it, even if that is a letter
  for a part of a date or a time. -/
  hides : (∀ t ∈ tokens, t.Closes) → ∀ t c hmark hquote hbracket, ¬t.Closes →
    kindOfFormatCode (formatCode (tokens ++ [t, .plain c hmark hquote hbracket])) =
      kindOfPlain (plainCharacters tokens)

theorem kindOfFormatCode_formatCode {tokens : List FormatToken} (h : ∀ t ∈ tokens, t.Closes) :
    kindOfFormatCode (formatCode tokens) = kindOfPlain (plainCharacters tokens) := by
  rw [kindOfFormatCode, formatCode, String.toList_ofList, FormatScanner.foldl_tokens h,
    FormatScanner.kind_atRest]

/-- **The kind of a code is told from the plain characters alone, as long as its tokens close.** -/
theorem readsTokens (tokens : List FormatToken) : ReadsTokens tokens where
  kind h := kindOfFormatCode_formatCode h
  unmoved h before after t htokens ht := by
    have hother : ∀ t ∈ before ++ after, t.Closes := by
      intro t' ht'
      refine h t' ?_
      rw [htokens]
      rcases List.mem_append.1 ht' with hbefore | hafter
      · exact List.mem_append_left _ hbefore
      · exact List.mem_append_right _ (List.mem_cons_of_mem _ hafter)
    have hplain : plainCharacters tokens = plainCharacters (before ++ after) := by
      rw [htokens, plainCharacters, plainCharacters, List.filterMap_append, List.filterMap_append,
        List.filterMap_cons_none ht]
    rw [kindOfFormatCode_formatCode h, kindOfFormatCode_formatCode hother, hplain]
  hides h t c hmark hquote hbracket ht := by
    have hsplit : (tokens ++ [t, FormatToken.plain c hmark hquote hbracket]).flatMap
        FormatToken.written = tokens.flatMap FormatToken.written ++ (t.written ++ [c]) := by
      simp [FormatToken.written]
    rw [kindOfFormatCode, formatCode, String.toList_ofList, hsplit, List.foldl_append,
      FormatScanner.foldl_tokens h, ← FormatScanner.kind_atRest]
    exact FormatScanner.kind_of_not_closes ht hmark hquote _

/-- **Not every code shows the kind of its plain characters.** In front of the `d` stands a literal
with a backslash in it. -/
theorem not_kindOfPlain :
    ¬∀ tokens : List FormatToken,
      kindOfFormatCode (formatCode tokens) = kindOfPlain (plainCharacters tokens) := by
  intro hevery
  have hcode : kindOfFormatCode (formatCode [.literal ['\\'] (by decide),
      .plain 'd' (by decide) (by decide) (by decide)]) = .number := by decide +kernel
  have hplain : kindOfPlain (plainCharacters [.literal ['\\'] (by decide),
      .plain 'd' (by decide) (by decide) (by decide)]) = .numberDate := by decide +kernel
  rw [hevery, hplain] at hcode
  cases hcode

end WorkbookTables.Cell
