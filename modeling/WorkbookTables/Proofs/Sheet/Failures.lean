import WorkbookTables.Proofs.Markup.Failures
import WorkbookTables.Proofs.Sheet.Actions
import WorkbookTables.Scan.Publisher

/-!
# What the rows of a worksheet can fail with

Whatever is wrong in the document of a worksheet is an error of the kind `parse`, and what keeps a
worksheet from being opened is of that kind or of the kind `container`. No table is ever unknown at
this point, so every failure of a scan is put into the context of its table.

## Main results

* `RowReading.failsOnly_reading` — failures in the rows are malformed content
* `Package.kind_of_worksheet` — failures in front of the rows
* `Feed.kind_of_ending` — both together
* `Error.message_within` — the wording of an error in a context
-/

namespace WorkbookTables

open Markup

namespace Error

/-- **A context is written before the error**, unless the table is unknown. -/
theorem message_within {context : String} {e : Error} (h : e.kind ≠ .unknownTable) :
    (e.within context).message = context ++ ": " ++ e.message := by
  cases e with
  | inContext kind text => rfl
  | unknownTable table => exact absurd rfl h
  | _ => rfl

/-- The context of a table names it. -/
theorem message_within_tableContext {table : String} {e : Error} (h : e.kind ≠ .unknownTable) :
    (e.within (tableContext table)).message = s!"Table '{table}': {e.message}" := by
  rw [message_within h]
  apply String.ext
  simp only [tableContext, String.toList_append, List.append_assoc]
  rfl

end Error

namespace RowReading

/-! ### Cells -/

theorem kind_of_positionOf {row next : Nat} {reference : Option String} {e : Error}
    (h : positionOf row next reference = .error e) : e.kind = .parse := by
  simp only [positionOf] at h
  split at h <;> split at h <;> cases h <;> rfl

theorem kind_of_formatIndexOf {value : Option String} {e : Error}
    (h : formatIndexOf value = .error e) : e.kind = .parse := by
  simp only [formatIndexOf] at h
  split at h
  · cases h
  · split at h
    · cases h
    · split at h <;> cases h; rfl

theorem kind_of_describeCell {context : SheetContext} {row next : Nat} {tag : Tag} {e : Error}
    (h : describeCell context row next tag = .error e) : e.kind = .parse := by
  rw [describeCell] at h
  obtain h | ⟨reference, -, h⟩ := error_of_bind h
  · exact Tag.kind_of_attribute? h
  obtain h | ⟨position, -, h⟩ := error_of_bind h
  · exact kind_of_positionOf h
  obtain h | ⟨type, -, h⟩ := error_of_bind h
  · exact Tag.kind_of_attribute? h
  obtain h | ⟨format, -, h⟩ := error_of_bind h
  · exact Tag.kind_of_attribute? h
  obtain h | ⟨index, -, h⟩ := error_of_bind h
  · exact kind_of_formatIndexOf h
  · cases h

theorem kind_of_sharedText {strings : StringTable} {raw : String} {e : Error}
    (h : sharedText strings raw = .error e) : e.kind = .parse := by
  rw [sharedText] at h
  split at h
  · cases h; rfl
  · split at h <;> cases h; rfl

theorem kind_of_renderValue {context : SheetContext} {kind : Cell.Kind} {raw : String} {e : Error}
    (h : renderValue context kind raw = .error e) : e.kind = .parse := by
  cases kind with
  | sharedString =>
    cases htext : sharedText context.strings raw with
    | error e' =>
      simp only [renderValue, htext, Except.map] at h
      cases h
      exact kind_of_sharedText htext
    | ok text => simp [renderValue, htext, Except.map] at h
  | inlineString => cases h
  | formulaString => cases h
  | error => cases h
  | _ =>
    simp only [renderValue] at h
    split at h
    · cases h
    · split at h <;> cases h

/-! ### Rows -/

/-- Holds of the failures that are no error and of the errors of the kind `parse`. -/
def IsMalformed (failure : SheetFailure) : Prop :=
  ∀ e, failure = .error e → e.kind = .parse

theorem isMalformed_error {e : Error} (h : e.kind = .parse) : IsMalformed (.error e) :=
  fun _ he => SheetFailure.error.inj he ▸ h

variable {τ : Type} {context : SheetContext} {withholdBlank : Bool} {onRow : τ → Row → τ × Bool}
  {s s' : State τ} {failure : SheetFailure}

theorem isMalformed_of_openRow {tag : Tag} (h : s.openRow tag = (s', .failed failure)) :
    IsMalformed failure := by
  rw [State.openRow] at h
  split at h
  next e herror =>
    cases h
    refine isMalformed_error ?_
    obtain herror | ⟨number, -, herror⟩ := error_of_bind herror
    · exact Tag.kind_of_numeral? herror
    · simp only [State.rowNumber] at herror
      split at herror
      · cases herror; rfl
      · cases herror
      · split at herror <;> cases herror
  next => cases h

theorem isMalformed_of_openCell {tag : Tag} (h : s.openCell context tag = (s', .failed failure)) :
    IsMalformed failure := by
  rw [State.openCell] at h
  split at h
  next e herror =>
    cases h
    exact isMalformed_error (kind_of_describeCell herror)
  next => cases h

theorem isMalformed_of_closeRow
    (h : s.closeRow withholdBlank onRow = (s', .failed failure)) : IsMalformed failure := by
  simp only [State.closeRow] at h
  split at h
  · cases h
  · split at h <;> cases h

theorem isMalformed_of_closeCell (h : s.closeCell context = (s', .failed failure)) :
    IsMalformed failure := by
  simp only [State.closeCell] at h
  split at h
  · split at h
    · split at h
      next e herror =>
        cases h
        exact isMalformed_error ((Error.kind_within _ e).trans (kind_of_renderValue herror))
      next => cases h
    · cases h
      exact fun _ he => by cases he
  · cases h

theorem isMalformed_of_stepValue {item : StringItem} {e : Event}
    (h : s.stepValue item e = (s', .failed failure)) : IsMalformed failure := by
  simp only [State.stepValue] at h
  split at h
  next => cases h
  next => cases h
  next error hstep =>
    cases h
    exact isMalformed_error (StringItem.kind_of_step hstep)

theorem isMalformed_of_step {e : Event}
    (h : s.step context withholdBlank onRow e = (s', .failed failure)) : IsMalformed failure := by
  rw [State.step_eq] at h
  cases haction : s.action e with
  | readValue item e' =>
    rw [haction] at h
    exact isMalformed_of_stepValue h
  | openRow tag =>
    rw [haction] at h
    exact isMalformed_of_openRow h
  | openCell tag =>
    rw [haction] at h
    exact isMalformed_of_openCell h
  | openValue element isValue =>
    rw [haction] at h
    cases h
  | closeRow =>
    rw [haction] at h
    exact isMalformed_of_closeRow h
  | closeCell =>
    rw [haction] at h
    exact isMalformed_of_closeCell h
  | finish =>
    rw [haction] at h
    cases h
  | skip =>
    rw [haction] at h
    cases h

/-- **Failures in the rows are malformed content.** -/
theorem failsOnly_reading (context : SheetContext) (withholdBlank : Bool)
    (onRow : τ → Row → τ × Bool) :
    (reading context withholdBlank onRow).FailsOnly IsMalformed where
  step := isMalformed_of_step
  atEnd h := by
    cases h
    exact isMalformed_error rfl
  onFault _ := isMalformed_error rfl

end RowReading

/-! ### In front of the rows -/

namespace Package

variable {p : Package} {e : Error}

theorem kind_of_readOptional {α : Type} {file : String} {missing : α}
    {read : Document → Except Error α} (hread : ∀ d e, read d = .error e → e.kind = .parse)
    (h : p.readOptional file missing read = .error e) : e.kind = .parse := by
  rw [readOptional] at h
  split at h
  · exact hread _ e h
  · cases h

theorem kind_of_readDateSystem {d : Document} (h : Manifest.readDateSystem d = .error e) :
    e.kind = .parse := by
  refine Reading.FailsOnly.read (r := Manifest.dateSystemReading) (P := (·.kind = .parse)) ?_ h
  refine ⟨fun {s s' event error} hstep => ?_, fun hend => (by cases hend), fun _ => rfl⟩
  cases event with
  | opening tag =>
    simp only [Manifest.dateSystemReading] at hstep
    split at hstep
    · split at hstep
      next herror => cases hstep; exact Tag.kind_of_attribute? herror
      next => cases hstep
    · split at hstep <;> cases hstep
  | _ => cases hstep

theorem kind_of_stringTable {d : Document} (h : StringTable.ofDocument d = .error e) :
    e.kind = .parse := by
  refine Reading.FailsOnly.read (r := StringTable.reading) (P := (·.kind = .parse)) ?_ h
  refine ⟨fun {s s' event error} hstep => ?_, fun {s error} hend => ?_, fun _ => rfl⟩
  · simp only [StringTable.reading, StringTable.State.step] at hstep
    split at hstep
    · split at hstep
      next => cases hstep
      next => cases hstep
      next hitem => cases hstep; exact StringItem.kind_of_step hitem
    · split at hstep
      · split at hstep <;> cases hstep
      · cases hstep
  · simp only [StringTable.reading] at hend
    split at hend <;> cases hend; rfl

theorem kind_of_formatTable {d : Document} (h : FormatTable.ofDocument d = .error e) :
    e.kind = .parse := by
  have lookUp {s s' : FormatTable.State} {tag : Tag} {error : Error}
      (h : s.addCode tag = (s', .failed error) ∨ s.addFormat tag = (s', .failed error)) :
      error.kind = .parse := by
    obtain h | h := h
    · rw [FormatTable.State.addCode] at h
      split at h
      next herror => cases h; exact Tag.kind_of_attribute? herror
      next =>
        split at h
        next herror => cases h; exact Tag.kind_of_attribute? herror
        next => split at h <;> cases h
    · rw [FormatTable.State.addFormat] at h
      split at h
      next herror => cases h; exact Tag.kind_of_attribute? herror
      next => cases h
  refine Reading.FailsOnly.read (r := FormatTable.reading) (P := (·.kind = .parse)) ?_ h
  refine ⟨fun {s s' event error} hstep => ?_, fun hend => (by cases hend), fun _ => rfl⟩
  cases event with
  | opening tag =>
    simp only [FormatTable.reading, FormatTable.State.step] at hstep
    split at hstep
    · cases hstep
    · split at hstep
      · exact lookUp (.inl hstep)
      · split at hstep
        · cases hstep
        · split at hstep
          · exact lookUp (.inr hstep)
          · cases hstep
  | closing name =>
    simp only [FormatTable.reading, FormatTable.State.step, FormatTable.State.afterList] at hstep
    split at hstep
    · split at hstep <;> cases hstep
    · split at hstep
      · split at hstep <;> cases hstep
      · cases hstep
  | _ => cases hstep

theorem kind_of_require {name path : String} {a : Archive} (h : require name a path = .error e) :
    e.kind = .container := by
  rw [require] at h
  split at h <;> cases h
  rfl

theorem kind_of_readContext (h : p.readContext = .error e) :
    e.kind = .container ∨ e.kind = .parse := by
  rw [readContext] at h
  split at h
  next herror => cases h; exact .inl (kind_of_require herror)
  next =>
    split at h
    next herror => cases h; exact .inr (kind_of_readDateSystem herror)
    next =>
      split at h
      next herror =>
        cases h
        exact .inr (kind_of_readOptional (fun _ _ => kind_of_stringTable) herror)
      next =>
        split at h
        next herror =>
          cases h
          exact .inr (kind_of_readOptional (fun _ _ => kind_of_formatTable) herror)
        next => cases h

theorem kind_of_worksheetDocument {id : String} (h : p.worksheetDocument id = .error e) :
    e.kind = .container := by
  rw [worksheetDocument] at h
  split at h
  · cases h; rfl
  · exact kind_of_require h

/-- **What keeps a worksheet from being opened.** -/
theorem kind_of_worksheet {id : String} (h : (p.worksheet id).2 = .error e) :
    e.kind = .container ∨ e.kind = .parse := by
  rw [worksheet] at h
  split at h
  next e' herror =>
    cases h
    rw [sheetContext] at herror
    split at herror
    · cases herror
    · exact kind_of_readContext herror
  next =>
    cases hd : p.worksheetDocument id with
    | error e' =>
      rw [hd] at h
      cases h
      exact .inl (kind_of_worksheetDocument hd)
    | ok d => rw [hd] at h; cases h

end Package

/-- **No failure of a scan is an unknown table.** -/
theorem Feed.kind_of_ending {p : Package} {id : String} {withholdBlank : Bool} {e : Error}
    (h : (Feed.ofPackage p id withholdBlank).ending = .error (.error e)) :
    e.kind ≠ .unknownTable := by
  rw [Feed.ofPackage] at h
  split at h
  next e' herror =>
    cases h
    obtain hkind | hkind := Package.kind_of_worksheet herror <;> simp [hkind]
  next d context _ =>
    have hparse := (RowReading.failsOnly_reading context withholdBlank RowReading.collect).read h e
    simp [hparse rfl]

end WorkbookTables
