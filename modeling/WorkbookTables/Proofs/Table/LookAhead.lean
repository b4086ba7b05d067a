import WorkbookTables.Proofs.Sheet.Fitting
import WorkbookTables.Proofs.Sheet.Stopping
import WorkbookTables.Proofs.Table.Agreement

/-!
# How far a sheet is looked at for its columns

A probe that stops early has been shown the rows of the sheet up to one, and that one can be told
without the probe. If types are not found out it is the row that defines the columns. If they are,
it is the row of data with which the budget is spent, and rows without cells count as rows of data,
while rows that are withheld are never shown. Rows whose numbers do not ascend cost nothing, and so
the plain count of rows is right only where numbers ascend: then the budget is the number of rows
behind the header, or from the first row on if there is no header.

Nothing behind the end of that row has a part in the columns. Sheets that begin in the same way have
the same columns, whatever else is in them.

## Main definitions

* `Probe.EndsWith` — the last row of a probe that stops, told without the probe

## Main results

* `Probe.endsWith_of_wants` — the row at which a probe stops
* `discoverColumns_lookAhead` — columns do not depend on what follows that row
-/

namespace WorkbookTables

open Markup RowReading

namespace Probe

variable {settings : Settings} {p : Probe} {earlier : List Row} {row : Row}

/-! ### The last row -/

/-- Behind some rows this one is the last that a probe wants. -/
structure EndsWith (settings : Settings) (earlier : List Row) (row : Row) : Prop where
  /-- If types are not found out, it is the row that defines the columns. -/
  defines : settings.detectTypes = false →
    (earlier ++ [row]).dropWhile (isAboveHeader settings) = [row]
  /-- If they are, it is the last of as many rows of data as the budget allows. -/
  spends : settings.detectTypes = true → ∃ d rest sample,
    (earlier ++ [row]).dropWhile (isAboveHeader settings) = d :: rest ∧
      dataRows settings d (followers d rest) = sample ++ [row] ∧
      sample.length + 1 = settings.eagerness
  /-- Where numbers ascend, the budget is the number of rows behind the header, or from the first
  row on. -/
  ascends : settings.detectTypes = true →
    (earlier ++ [row]).Pairwise (fun r r' => r.number < r'.number) → ∃ d rest,
      (earlier ++ [row]).dropWhile (isAboveHeader settings) = d :: rest ∧
        rest.length + (if settings.headerRow.isSome then 0 else 1) = settings.eagerness

/-- A probe wants no more at the follower that spends its budget. -/
theorem exists_last_follower (hdetect : settings.detectTypes = true)
    (hp : p.sampler.wantsMore = true) {rest : List Row}
    (hshown : shown (observe settings) (some p) rest = rest)
    (hstopped : (showAll (observe settings) (.ok .complete) (some p) rest).2 = .ok .stopped) :
    ∃ front sample last, rest = front ++ [last] ∧
      followers p.definingRow rest = sample ++ [last] ∧
      sample.length + 1 = p.sampler.remaining := by
  induction rest generalizing p with
  | nil => cases hstopped
  | cons row rest ih =>
    rw [shown] at hshown
    rw [showAll] at hstopped
    by_cases h : p.definingRow.number < row.number
    · rw [observe_some_of_lt hdetect h] at hshown hstopped
      have hremaining : (p.sampler.sample row).remaining + 1 = p.sampler.remaining := by
        have hpos : 0 < p.sampler.remaining := by simpa [Sampler.wantsMore] using hp
        rw [Sampler.remaining_sample]
        omega
      rw [followers_cons_of_lt h]
      cases hmore : (p.sampler.sample row).wantsMore with
      | true =>
        rw [hmore] at hshown hstopped
        obtain ⟨front, sample, last, rfl, hfollowers, hlength⟩ :=
          ih (p := { p with sampler := p.sampler.sample row }) hmore
            ((List.cons_inj_right row).1 hshown) hstopped
        refine ⟨row :: front, row :: sample, last, rfl, congrArg _ hfollowers, ?_⟩
        rw [List.length_cons, hlength, hremaining]
      | false =>
        rw [hmore] at hshown
        have hnil : rest = [] := ((List.cons_inj_right row).1 hshown).symm
        subst hnil
        refine ⟨[], [], row, rfl, rfl, ?_⟩
        rw [List.length_nil, ← hremaining, remaining_of_not_wantsMore hmore]
    · rw [observe_some_of_not_lt hdetect h] at hshown hstopped
      rw [followers_cons_of_not_lt h]
      obtain ⟨front, sample, last, rfl, hfollowers, hlength⟩ :=
        ih hp ((List.cons_inj_right row).1 hshown) hstopped
      exact ⟨row :: front, sample, last, rfl, hfollowers, hlength⟩

/-- What is left of some rows ends with the last of them. -/
theorem eq_of_dropWhile_append_singleton {test : Row → Bool} (front : List Row) {last : Row}
    (h : (earlier ++ [row]).dropWhile test = front ++ [last]) : last = row := by
  obtain ⟨dropped, hdropped⟩ := List.dropWhile_suffix (l := earlier ++ [row]) test
  rw [h, ← List.append_assoc] at hdropped
  exact (List.cons_eq_cons.1 (List.append_inj' hdropped rfl).2).1

/-- Where numbers ascend, all rows behind the defining row are data. -/
theorem followers_of_ascending {d : Row} {rest : List Row}
    (hd : (earlier ++ [row]).dropWhile (isAboveHeader settings) = d :: rest)
    (hascending : (earlier ++ [row]).Pairwise fun r r' => r.number < r'.number) :
    followers d rest = rest := by
  have hpairwise := hascending.sublist (hd ▸ List.dropWhile_sublist _)
  refine List.filter_eq_self.2 fun r hr => ?_
  exact decide_eq_true ((List.pairwise_cons.1 hpairwise).1 r hr)

section Stopped

variable {d : Row} {rest : List Row}
  (hd : (earlier ++ [row]).dropWhile (isAboveHeader settings) = d :: rest)
  (hseen : seen settings (earlier ++ [row]) = earlier ++ [row])

include hd hseen

/-- Behind the defining row there is what the probe is shown there. -/
theorem rest_of_seen :
    rest = if settings.detectTypes && (define settings d).sampler.wantsMore then
      shown (observe settings) (some (define settings d)) rest else [] := by
  have hdrop := @dropWhile_seen settings (earlier ++ [row])
  rw [hseen, hd] at hdrop
  exact (List.cons_inj_right d).1 hdrop

/-- With the last row there are as many rows of data as the budget allows. -/
theorem exists_sample (hdetect : settings.detectTypes = true)
    (hstopped : (showAll (observe settings) (.ok .complete) none (earlier ++ [row])).2 =
      .ok .stopped) :
    ∃ sample, dataRows settings d (followers d rest) = sample ++ [row] ∧
      sample.length + 1 = settings.eagerness := by
  have hrest := rest_of_seen hd hseen
  rw [showAll_observe, hd] at hstopped
  have hremaining := remaining_define settings d
  rw [dataRows_eq_append]
  cases hmore : (define settings d).sampler.wantsMore with
  | true =>
    simp only [hdetect, hmore, Bool.true_and, if_true] at hrest hstopped
    obtain ⟨front, sample, last, rfl, hfollowers, hlength⟩ :=
      exists_last_follower hdetect hmore hrest.symm hstopped
    obtain rfl := eq_of_dropWhile_append_singleton (d :: front) hd
    rw [definingRow_define] at hfollowers
    refine ⟨dataRows settings d [] ++ sample, by rw [hfollowers, List.append_assoc], ?_⟩
    rw [List.length_append]
    omega
  | false =>
    -- The defining row has spent the budget itself, so it is a row of data.
    simp only [hmore, Bool.and_false, Bool.false_eq_true, if_false] at hrest
    subst hrest
    obtain rfl := eq_of_dropWhile_append_singleton [] hd
    rw [remaining_of_not_wantsMore hmore] at hremaining
    have hpos := settings.eagerness_pos
    rw [dataRows] at hremaining ⊢
    cases hheader : settings.headerRow.isSome with
    | true =>
      rw [hheader, if_pos rfl, List.length_nil] at hremaining
      omega
    | false =>
      rw [hheader, if_neg Bool.false_ne_true, List.length_singleton] at hremaining
      refine ⟨[], rfl, ?_⟩
      rw [List.length_nil]
      omega

end Stopped

/-- **The row at which a probe stops**, if it has wanted all rows before it. -/
theorem endsWith_of_wants {next last : Option Probe}
    (hwants : Wants (observe settings) none earlier next)
    (hlast : observe settings next row = (last, false)) : EndsWith settings earlier row := by
  have hseen : seen settings (earlier ++ [row]) = earlier ++ [row] := by
    rw [seen, hwants.shown_append, shown, hlast]
  have hstopped : (showAll (observe settings) (.ok .complete) none (earlier ++ [row])).2 =
      .ok .stopped := by
    rw [hwants.showAll_append, showAll, hlast]
  cases hd : (earlier ++ [row]).dropWhile (isAboveHeader settings) with
  | nil =>
    rw [showAll_observe, hd] at hstopped
    cases hstopped
  | cons d rest =>
    refine ⟨fun hdetect => ?_, fun hdetect => ?_, fun hdetect hascending => ?_⟩
    · have hrest := rest_of_seen hd hseen
      simp only [hdetect, Bool.false_and, Bool.false_eq_true, if_false] at hrest
      subst hrest
      rw [hd, eq_of_dropWhile_append_singleton [] hd]
    · obtain ⟨sample, hsample, hlength⟩ := exists_sample hd hseen hdetect hstopped
      exact ⟨d, rest, sample, hd, hsample, hlength⟩
    · obtain ⟨sample, hsample, hlength⟩ := exists_sample hd hseen hdetect hstopped
      refine ⟨d, rest, hd, ?_⟩
      have hdata := congrArg List.length hsample
      rw [followers_of_ascending hd hascending, List.length_append, List.length_singleton, hlength]
        at hdata
      rw [← hdata, dataRows]
      split <;> simp

/-- A probe that wants no more has begun. -/
theorem exists_of_observe {probe last : Option Probe}
    (h : observe settings probe row = (last, false)) : ∃ p, last = some p := by
  cases probe with
  | some p =>
    rw [observe] at h
    split at h <;> exact ⟨_, (Prod.mk.inj h).1.symm⟩
  | none =>
    rw [observe] at h
    split at h
    · cases h
    · exact ⟨_, (Prod.mk.inj h).1.symm⟩

end Probe

/-! ### Columns -/

variable {settings : Settings} {table : String} {log : NamingLog} {p : Package} {id : String}
  {d : Document} {context : SheetContext}

theorem snd_discoverColumns (h : (p.worksheet id).2 = .ok (d, context)) :
    (discoverColumns settings table log p id).2 = discoverIn settings table log context d := by
  rw [discoverColumns]
  split
  next hsheet => simp [hsheet] at h
  next hsheet =>
    rw [hsheet] at h
    obtain ⟨rfl, rfl⟩ := Prod.mk.inj (Except.ok.inj h)
    rfl

/-- **Columns do not depend on what follows the row at which their probe stops.** The octets up to
the end of that row give them in every sheet that begins with these octets, and no part that is
shorter does. -/
theorem discoverColumns_lookAhead {octets : Octets}
    (hsheet : (p.worksheet id).2 = .ok (.ofOctets octets, context))
    (hstopped : (Probe.run settings table context (.ofOctets octets)).2 = .ok .stopped)
    (log : NamingLog) :
    ∃ before after earlier row log' columns, octets = before ++ octet '>' :: after ∧
      EndsRow context settings.skipBlankRows before earlier row ∧
      Probe.EndsWith settings earlier row ∧
      (discoverColumns settings table log p id).2 = (log', .ok columns) ∧
      (∀ p' id' other, (p'.worksheet id').2 = .ok (.ofOctets other, context) →
        before ++ [octet '>'] <+: other →
        (discoverColumns settings table log p' id').2 = (log', .ok columns)) ∧
      ∀ p' id' cut, (p'.worksheet id').2 = .ok (.ofOctets cut, context) → cut <+: before →
        ∃ e, e.kind = .parse ∧
          (discoverColumns settings table log p' id').2 = (log, .error (.error e)) := by
  have hrun (d : Document) : Probe.run settings table context d =
      deliver context settings.skipBlankRows (Probe.observe settings) none d := rfl
  obtain ⟨before, after, earlier, row, next, hoctets, hends, hwants, hlast, hstops⟩ :=
    exists_split_of_stopped (Prod.ext rfl hstopped)
  obtain ⟨probe, hprobe⟩ := Probe.exists_of_observe hlast
  have hlonger (p' : Package) (id' : String) (other : Octets)
      (hsheet' : (p'.worksheet id').2 = .ok (.ofOctets other, context))
      (hother : before ++ [octet '>'] <+: other) :
      (discoverColumns settings table log p' id').2 =
        ((probe.columns settings table log).2, .ok (probe.columns settings table log).1) := by
    have hdeliver := hstops.longer other hother
    rw [hprobe, ← hrun] at hdeliver
    rw [snd_discoverColumns hsheet', discoverIn, hdeliver]
  refine ⟨before, after, earlier, row, _, _, hoctets, hends,
    Probe.endsWith_of_wants hwants hlast, hlonger p id octets hsheet ?_, hlonger, ?_⟩
  · exact ⟨after, by rw [hoctets]; simp⟩
  · intro p' id' cut hsheet' hcut
    obtain ⟨probe', e, hkind, hdeliver⟩ := hstops.shorter cut hcut
    rw [← hrun] at hdeliver
    exact ⟨e, hkind, by rw [snd_discoverColumns hsheet', discoverIn, hdeliver]⟩

/-- A package with one worksheet, for which nothing else has to be read. -/
def Package.ofSheet (octets : Octets) : Package :=
  ⟨"book.xlsx", ⟨[("sheet.xml", octets)]⟩, "workbook.xml",
    (∅ : Std.TreeMap String String).insert "rId1" "sheet.xml", some RowParser.plain⟩

theorem Package.worksheet_ofSheet (octets : Octets) :
    ((ofSheet octets).worksheet "rId1").2 = .ok (.ofOctets octets, RowParser.plain) := by
  have hpart : (ofSheet octets).archive.part? "sheet.xml" = some octets := by
    have hname : (Archive.foldCase "sheet.xml".toList ==
        Archive.foldCase (Archive.withSlashes "sheet.xml".toList)) = true := by decide
    simp only [ofSheet, Archive.part?, List.find?_cons, hname, Option.map_some]
  have hpath : (ofSheet octets).worksheets["rId1"]? = some "sheet.xml" := by simp [ofSheet]
  have hdocument : (ofSheet octets).worksheetDocument "rId1" = .ok (.ofOctets octets) := by
    simp only [worksheetDocument, hpath, require, Archive.document?, hpart, Option.map_some]
  simp only [worksheet, sheetContext, ofSheet] at hdocument ⊢
  rw [hdocument]
  rfl

/-- A sheet that ends with its first row of data. -/
def firstScore : Octets :=
  Text.Utf8.encode "<sheetData><row><c t='str'><v>score</v></c></row><row><c><v>1</v></c></row>"

/-- A row that cannot be read and a document that does not end do no harm behind that row. -/
theorem discoverColumns_lookAhead_firstScore :
    (Probe.run (Settings.standard.withEagerness 1) "Data" RowParser.plain
      (.ofOctets firstScore)).2 = .ok .stopped ∧
    (discoverColumns (Settings.standard.withEagerness 1) "Data" []
      (.ofSheet (firstScore ++ Text.Utf8.encode "<row r='0'><!--")) "rId1").2 =
        (discoverColumns (Settings.standard.withEagerness 1) "Data" []
          (.ofSheet firstScore) "rId1").2 := by
  have hstage : RowParser.Stage.after (Probe.run (Settings.standard.withEagerness 1) "Data"
      RowParser.plain (.ofOctets firstScore)).2 = .after (.ok .stopped) := by
    decide +kernel
  have hstopped := RowParser.eq_ok_of_after hstage
  obtain ⟨before, after, _, _, log, columns, hsplit, -, -, hcolumns, hlonger, -⟩ :=
    discoverColumns_lookAhead (Package.worksheet_ofSheet firstScore) hstopped []
  have hbegins : before ++ [octet '>'] <+: firstScore := ⟨after, by rw [hsplit]; simp⟩
  refine ⟨hstopped, ?_⟩
  rw [hcolumns]
  exact hlonger _ _ _ (Package.worksheet_ofSheet _) (hbegins.trans (List.prefix_append _ _))

end WorkbookTables
