/-!
# Line ends

A document may end its lines in several ways; a reader sees a line feed for each of them. The
spellings are carriage return and line feed, carriage return and next line, and each of carriage
return, next line and line separator alone.

## Main definitions

* `unifyLineEnds` — the text with one line feed for each line end
-/

namespace WorkbookTables.Text

/-- A single character that ends a line other than the line feed itself. -/
def isForeignLineEnd (c : Char) : Bool :=
  c == '\r' || c == '\u0085' || c == '\u2028'

/-- One line feed for each line end, every other character as it stands. -/
def unifyLineEnds : List Char → List Char
  | [] => []
  | '\r' :: '\n' :: rest => '\n' :: unifyLineEnds rest
  | '\r' :: '\u0085' :: rest => '\n' :: unifyLineEnds rest
  | c :: rest => (if isForeignLineEnd c then '\n' else c) :: unifyLineEnds rest

/-- Text without foreign line ends is left alone. -/
theorem unifyLineEnds_of_forall_not {cs : List Char}
    (h : ∀ c ∈ cs, isForeignLineEnd c = false) : unifyLineEnds cs = cs := by
  induction cs with
  | nil => rfl
  | cons c rest ih =>
    have hc : isForeignLineEnd c = false := h c (by simp)
    have hr := ih fun d hd => h d (by simp [hd])
    have hne : c ≠ '\r' := by rintro rfl; simp [isForeignLineEnd] at hc
    rw [unifyLineEnds, hr, hc]
    · rfl
    · rintro rest' rfl; exact absurd rfl hne
    · rintro rest' rfl; exact absurd rfl hne

example : unifyLineEnds ['a', '\r', '\n', '\r', 'b', '\u2028', '\n'] =
    ['a', '\n', '\n', 'b', '\n', '\n'] := by decide

end WorkbookTables.Text
