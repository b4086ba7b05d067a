import WorkbookTables.Proofs.Markup.WrittenText
import WorkbookTables.Proofs.Cell.ReferenceRoundTrip
import WorkbookTables.Sheet.RowReading

/-!
# Sheets that are written

A sheet is written with one element for each of its rows, and in it one for each of the cells that
have a text. A row is given by its number and a cell by its reference. Either may be left out where
the reader finds the same by counting on, and only there: whether it is left out is a choice that
was made for each row and each cell, and a choice that cannot be followed is not.

The cells of a row stand in any order. Their positions differ, so that no text is written twice.

## Main definitions

* `WrittenCell`, `WrittenRow` — cells and rows, with the choices that are made in writing them
* `writtenSheet` — a sheet as it is written
* `sheetEvents` — the events of a written sheet

## Main results

* `ofOctets_writtenSheet` — a written sheet is a document with these events
-/

namespace WorkbookTables

open Markup RowReading

/-- A cell with the way in which it is written. -/
structure WrittenCell where
  /-- Its position, counted from 0. -/
  position : Nat
  /-- A sheet has such a column. -/
  position_lt : position < Cell.columnLimit
  /-- Its text. -/
  text : List WrittenChar
  /-- Whether its reference is left out if it stands where the reader expects it. -/
  omitted : Bool

/-- A row with the way in which it is written. -/
structure WrittenRow where
  /-- Its number, counted from 0. -/
  number : Nat
  /-- Counted from 1 it is a number that fits. -/
  number_lt : number + 1 < Nat.pow 2 64
  /-- Its cells, in the order in which they are written. -/
  cells : List WrittenCell
  /-- No two of them stand at one position. -/
  nodup : (cells.map (·.position)).Nodup
  /-- Whether its number is left out if it is the one that the reader expects. -/
  omitted : Bool

/-! ### How it is written -/

namespace WrittenCell

/-- A cell of the given row, where the reader expects position `next`. -/
def written (row next : Nat) (c : WrittenCell) : String :=
  "<c" ++ (if c.omitted ∧ c.position = next then ""
      else " r=\"" ++ Cell.reference row c.position ++ "\"") ++
    " t=\"inlineStr\"><is><t>" ++ writtenText c.text ++ "</t></is></c>"

end WrittenCell

/-- Cells of the given row, one behind the other. -/
def writtenCells (row next : Nat) : List WrittenCell → String
  | [] => ""
  | c :: rest => c.written row next ++ writtenCells row (c.position + 1) rest

namespace WrittenRow

/-- A row where the reader expects number `next`. -/
def written (next : Nat) (r : WrittenRow) : String :=
  "<row" ++ (if r.omitted ∧ r.number = next then ""
      else " r=\"" ++ String.ofList (Nat.toDigits 10 (r.number + 1)) ++ "\"") ++
    ">" ++ writtenCells r.number 0 r.cells ++ "</row>"

end WrittenRow

/-- Rows, one behind the other. -/
def writtenRows (next : Nat) : List WrittenRow → String
  | [] => ""
  | r :: rest => r.written next ++ writtenRows (r.number + 1) rest

/-- A whole sheet. -/
def writtenSheet (rows : List WrittenRow) : String :=
  "<worksheet><sheetData>" ++ writtenRows 0 rows ++ "</sheetData></worksheet>"

example :
    writtenSheet
        [⟨4, by decide, [⟨1, by decide, [.decimal '<' ['6', '0'] ⟨by decide, by decide⟩], false⟩],
          by decide, true⟩,
        ⟨5, by decide, [⟨0, by decide, [], true⟩], by decide, true⟩] =
      "<worksheet><sheetData><row r=\"5\"><c r=\"B5\" t=\"inlineStr\"><is><t>&#60;</t></is></c>" ++
        "</row><row><c t=\"inlineStr\"><is><t></t></is></c></row></sheetData></worksheet>" := by
  decide +kernel

/-! ### Events -/

/-- The element of a whole sheet. -/
def worksheetName : Octets := Text.Utf8.encode "worksheet"

/-- The attribute with a number or a reference, unless it is left out. -/
def referenceAttribute (isLeftOut : Bool) (reference : String) : List (Octets × Octets) :=
  if isLeftOut then [] else [(referenceName, Text.Utf8.encode reference)]

namespace WrittenCell

/-- The attributes of a cell. -/
def attributes (row next : Nat) (c : WrittenCell) : List (Octets × Octets) :=
  referenceAttribute (c.omitted ∧ c.position = next) (Cell.reference row c.position) ++
    [(typeName, Text.Utf8.encode "inlineStr")]

/-- The opening tag of a cell. -/
def tag (row next : Nat) (c : WrittenCell) : Tag :=
  ⟨writtenTag cellName (c.attributes row next)⟩

/-- The events of a cell. -/
def events (row next : Nat) (c : WrittenCell) : List Event :=
  .opening (c.tag row next) :: .opening ⟨writtenTag inlineName []⟩ ::
    .opening ⟨writtenTag textName []⟩ :: (textEvents [] c.text ++ [.closing textName]) ++
      [.closing inlineName, .closing cellName]

end WrittenCell

/-- The events of cells. -/
def cellEvents (row next : Nat) : List WrittenCell → List Event
  | [] => []
  | c :: rest => c.events row next ++ cellEvents row (c.position + 1) rest

namespace WrittenRow

/-- The attributes of a row. -/
def attributes (next : Nat) (r : WrittenRow) : List (Octets × Octets) :=
  referenceAttribute (r.omitted ∧ r.number = next)
    (String.ofList (Nat.toDigits 10 (r.number + 1)))

/-- The opening tag of a row. -/
def tag (next : Nat) (r : WrittenRow) : Tag := ⟨writtenTag rowName (r.attributes next)⟩

/-- The events of a row. -/
def events (next : Nat) (r : WrittenRow) : List Event :=
  .opening (r.tag next) :: cellEvents r.number 0 r.cells ++ [.closing rowName]

end WrittenRow

/-- The events of rows. -/
def rowEvents (next : Nat) : List WrittenRow → List Event
  | [] => []
  | r :: rest => r.events next ++ rowEvents (r.number + 1) rest

/-- The events of a sheet. -/
def sheetEvents (rows : List WrittenRow) : List Event :=
  .opening ⟨writtenTag worksheetName []⟩ :: .opening ⟨writtenTag sheetDataName []⟩ ::
    rowEvents 0 rows ++ [.closing sheetDataName, .closing worksheetName]

/-! ### What is written makes these events -/

theorem encode_referenceAttribute (p : Prop) [Decidable p] (reference : String) :
    Text.Utf8.encode (if p then "" else " r=\"" ++ reference ++ "\"") =
      (referenceAttribute p reference).flatMap fun a => writtenAttribute a.1 a.2 := by
  by_cases h : p
  · simp only [h, referenceAttribute, decide_true, if_true]
    rfl
  · have hbefore : Text.Utf8.encode " r=\"" =
        octet ' ' :: referenceName ++ [octet '=', octet '"'] := rfl
    have hbehind : Text.Utf8.encode "\"" = [octet '"'] := rfl
    simp only [h, referenceAttribute, decide_false, if_false, encode_append, hbefore, hbehind]
    simp [writtenAttribute]

/-- A reference of letters and digits may stand in quotes, and nothing in it is replaced. -/
theorem areAttributes_referenceAttribute {reference : String}
    (h : ∀ c ∈ reference.toList, c.isAlphanum = true) (isLeftOut : Bool) :
    AreAttributes (referenceAttribute isLeftOut reference) := by
  have hquote : octet '"' ∉ Text.Utf8.encode reference := fun hmem =>
    absurd (h _ (mem_of_octet_mem_encode (by decide) hmem)) (by decide)
  have hname : IsName referenceName := by decide +kernel
  cases isLeftOut with
  | true => simp [AreAttributes, referenceAttribute]
  | false =>
    intro a ha
    obtain rfl : a = (referenceName, Text.Utf8.encode reference) := by
      simpa [referenceAttribute] using ha
    exact ⟨hname, hquote⟩

namespace WrittenCell

variable (row next : Nat) (c : WrittenCell)

theorem areAttributes : AreAttributes (c.attributes row next) := by
  refine List.forall_mem_append.2
    ⟨areAttributes_referenceAttribute (Cell.isAlphanum_reference row c.position) _, ?_⟩
  intro a ha
  obtain rfl := List.mem_singleton.1 ha
  exact ⟨by decide +kernel, by decide⟩

theorem encode_written :
    Text.Utf8.encode (c.written row next) =
      openingTag cellName (c.attributes row next) ++
        (openingTag inlineName [] ++ (openingTag textName [] ++
          ((Text.Utf8.encode (writtenText c.text) ++ closingTag textName) ++
            (closingTag inlineName ++ closingTag cellName)))) := by
  have hopen : Text.Utf8.encode "<c" = octet '<' :: cellName := rfl
  have hbetween : Text.Utf8.encode " t=\"inlineStr\"><is><t>" =
      writtenAttribute typeName (Text.Utf8.encode "inlineStr") ++ [octet '>'] ++
        (openingTag inlineName [] ++ openingTag textName []) := rfl
  have hclose : Text.Utf8.encode "</t></is></c>" =
      closingTag textName ++ (closingTag inlineName ++ closingTag cellName) := rfl
  simp only [written, encode_append, encode_referenceAttribute, hopen, hbetween, hclose]
  simp [openingTag, writtenTag, attributes]

/-- **A written cell.** -/
theorem emits (depth : Nat) :
    Emits depth depth (Text.Utf8.encode (c.written row next)) (c.events row next) := by
  have hnone : AreAttributes [] := by simp [AreAttributes]
  have hcell : IsName cellName := by decide +kernel
  have hinline : IsName inlineName := by decide +kernel
  have htext : IsName textName := by decide +kernel
  rw [encode_written]
  have hpieces := (emits_opening depth hcell (c.areAttributes row next)).append
    ((emits_opening (depth + 1) hinline hnone).append
      ((emits_opening (depth + 2) htext hnone).append
        ((emits_text (depth + 2) c.text htext).append
          ((emits_closing (depth + 1) hinline).append (emits_closing depth hcell)))))
  simpa [events, tag] using hpieces

end WrittenCell

theorem emits_writtenCells (row next : Nat) (cells : List WrittenCell) (depth : Nat) :
    Emits depth depth (Text.Utf8.encode (writtenCells row next cells))
      (cellEvents row next cells) := by
  induction cells generalizing next with
  | nil => exact .nil depth
  | cons c rest ih =>
    rw [writtenCells, encode_append]
    exact (c.emits row next depth).append (ih (c.position + 1))

namespace WrittenRow

variable (next : Nat) (r : WrittenRow)

theorem areAttributes : AreAttributes (r.attributes next) :=
  areAttributes_referenceAttribute
    (by simpa using (Numeral.spells_toDigits (r.number + 1)).isAlphanum) _

theorem encode_written :
    Text.Utf8.encode (r.written next) =
      openingTag rowName (r.attributes next) ++
        (Text.Utf8.encode (writtenCells r.number 0 r.cells) ++ closingTag rowName) := by
  have hopen : Text.Utf8.encode "<row" = octet '<' :: rowName := rfl
  have hend : Text.Utf8.encode ">" = [octet '>'] := rfl
  have hclose : Text.Utf8.encode "</row>" = closingTag rowName := rfl
  simp only [written, encode_append, encode_referenceAttribute, hopen, hend, hclose]
  simp [openingTag, writtenTag, attributes]

/-- **A written row.** -/
theorem emits (depth : Nat) :
    Emits depth depth (Text.Utf8.encode (r.written next)) (r.events next) := by
  have hrow : IsName rowName := by decide +kernel
  rw [encode_written]
  have hpieces := (emits_opening depth hrow (r.areAttributes next)).append
    ((emits_writtenCells r.number 0 r.cells (depth + 1)).append (emits_closing depth hrow))
  simpa [events, tag] using hpieces

end WrittenRow

theorem emits_writtenRows (next : Nat) (rows : List WrittenRow) (depth : Nat) :
    Emits depth depth (Text.Utf8.encode (writtenRows next rows)) (rowEvents next rows) := by
  induction rows generalizing next with
  | nil => exact .nil depth
  | cons r rest ih =>
    rw [writtenRows, encode_append]
    exact (r.emits next depth).append (ih (r.number + 1))

theorem encode_writtenSheet (rows : List WrittenRow) :
    Text.Utf8.encode (writtenSheet rows) =
      openingTag worksheetName [] ++ (openingTag sheetDataName [] ++
        (Text.Utf8.encode (writtenRows 0 rows) ++
          (closingTag sheetDataName ++ closingTag worksheetName))) := by
  have hopen : Text.Utf8.encode "<worksheet><sheetData>" =
      openingTag worksheetName [] ++ openingTag sheetDataName [] := rfl
  have hclose : Text.Utf8.encode "</sheetData></worksheet>" =
      closingTag sheetDataName ++ closingTag worksheetName := rfl
  unfold writtenSheet
  rw [encode_append, encode_append, hopen, hclose, List.append_assoc, List.append_assoc]

/-- **A written sheet is a document, and nothing is wrong with it.** -/
theorem ofOctets_writtenSheet (rows : List WrittenRow) :
    Document.ofOctets (Text.Utf8.encode (writtenSheet rows)) = ⟨sheetEvents rows, none⟩ := by
  have hnone : AreAttributes [] := by simp [AreAttributes]
  have hsheet : IsName worksheetName := by decide +kernel
  have hdata : IsName sheetDataName := by decide +kernel
  rw [encode_writtenSheet]
  refine Emits.document ?_ rfl
  have hpieces := (emits_opening 0 hsheet hnone).append
    ((emits_opening 1 hdata hnone).append
      ((emits_writtenRows 0 rows 2).append ((emits_closing 1 hdata).append
        (emits_closing 0 hsheet))))
  simpa [sheetEvents] using hpieces

end WorkbookTables
