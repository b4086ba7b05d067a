import WorkbookTables.Proofs.Session.Operations
import WorkbookTables.Proofs.Session.Scanning

/-!
# Scans are independent of each other

All scans of a session share a reader, and with it a map of ids that schemas replace and a place
whose contents may be replaced. A scan looks at these once, when it is opened. From then on it has a
package, a publisher and a channel of its own, and nothing that is done with the workbench elsewhere
reaches any of them.

A session is a row of commands with their answers, under any schedule: the publishers of all open
datasets may get on between any two commands, and during a command on a dataset its own publisher
may. What has been answered of one dataset can be cut out of a session, and is then the course of
that dataset alone. The other way round such a course is a session by itself, at every workbench at
which the scan is opened in the same way.

## Main definitions

* `Workbench.Performs`, `Workbench.Session` — commands under every schedule
* `Workbench.operations` — what a session has to do with one dataset
* `Workbench.OpensAlike` — what a scan depends on when it is opened

## Main results

* `Workbench.Session.exists_course` — what is answered of a dataset is a course of its own
* `Workbench.session_runAll` — the functions are one schedule
* `Workbench.Session.independent` — scans are independent of each other, and of the reader
-/

namespace WorkbookTables

/-- What a scan depends on when it begins. -/
theorem Reader.query_congr {r₁ r₂ : Reader} {t₁ t₂ : Table} (hplace : r₁.place = r₂.place)
    (hsettings : r₁.settings = r₂.settings) (hname : t₁.name = t₂.name)
    (hid : r₁.ids.get? t₂.name = r₂.ids.get? t₂.name) (found : Container) (columns : List Column)
    (maxRows : Option Nat) :
    r₁.query found t₁ columns maxRows = r₂.query found t₂ columns maxRows := by
  simp only [query, openPackage, scanOf, hplace, hsettings, hname, hid]

namespace Workbench

open Dataset

/-! ### Sessions -/

/-- The workbench differs from another in what is kept under a key, and in nothing else. -/
structure Keeps (w : Workbench) (key : String) (kept : Option Dataset) (w' : Workbench) : Prop where
  /-- The reader is the same. -/
  reader : w'.reader = w.reader
  /-- The place holds the same. -/
  found : w'.found = w.found
  /-- The last schema is the same. -/
  schema : w'.schema = w.schema
  /-- This is kept under the key. -/
  own : w'.dataset? key = kept
  /-- Under other keys the same is kept. -/
  others : ∀ other, other ≠ key → w'.dataset? other = w.dataset? other

/-- A command under some schedule, with its answer. -/
inductive Performs (w : Workbench) : Command → Answer → Workbench → Prop where
  /-- Something is done with an open dataset. -/
  | operate {key : String} {d : Dataset} {c : DatasetCommand} {a : Answer} {kept : Option Dataset}
      {w' : Workbench} (hd : w.dataset? key = some d) (h : d.Operates c a kept)
      (hw : w.Keeps key kept w') : Performs w (.dataset key c) a w'
  /-- There is no dataset of the key. -/
  | gone {key : String} {c : DatasetCommand} (hd : w.dataset? key = none) :
      Performs w (.dataset key c) .noDataset w
  /-- A table is scanned to its end. -/
  | query {request : ScanRequest} {d d' : Dataset} {items : List (Except Error Row)}
      (hd : w.scan request = .ok d) (h : d.History (pulls items) d') :
      Performs w (.query request) (.drained (.ofItems items) d'.outcome) w
  /-- No publisher has a part in anything else. -/
  | run {c : Command} (hc : ∀ key command, c ≠ .dataset key command) :
      Performs w c (w.run c).2 (w.run c).1

/-- Commands one after another with their answers, and steps of the publishers of open datasets
between them. -/
inductive Session : Workbench → List (Command × Answer) → Workbench → Prop where
  /-- Nothing has happened. -/
  | nil (w : Workbench) : Session w [] w
  /-- A command comes first. -/
  | command {w w' w'' : Workbench} {c : Command} {a : Answer} {s : List (Command × Answer)}
      (h : w.Performs c a w') (hrest : Session w' s w'') : Session w ((c, a) :: s) w''
  /-- A step of some publisher comes first. -/
  | work {w w' w'' : Workbench} {key : String} {d : Dataset} {b : Bridge}
      {s : List (Command × Answer)} (hd : w.dataset? key = some d)
      (hstep : d.bridge.advance? = some b) (hw : w.Keeps key (some { d with bridge := b }) w')
      (hrest : Session w' s w'') : Session w s w''

/-- What a session has to do with the dataset of a key, up to where another is opened under it. -/
def operations (key : String) : List (Command × Answer) → List (DatasetCommand × Answer)
  | [] => []
  | (.dataset other c, a) :: rest =>
    if other = key then (c, a) :: operations key rest else operations key rest
  | (.open other _, .opened _) :: rest => if other = key then [] else operations key rest
  | _ :: rest => operations key rest

/-- Operations as a session in which nothing else is done. -/
def alone (key : String) (ops : List (DatasetCommand × Answer)) : List (Command × Answer) :=
  ops.map fun op => (.dataset key op.1, op.2)

/-- What a scan depends on when it is opened: the place and its contents, what the caller has chosen
once and for all, what the map says of the name of the table, and what the scan is to be of. -/
structure OpensAlike (w₁ : Workbench) (request₁ : ScanRequest) (w₂ : Workbench)
    (request₂ : ScanRequest) : Prop where
  /-- The readers have one place. -/
  place : w₁.reader.place = w₂.reader.place
  /-- They have the same choices. -/
  settings : w₁.reader.settings = w₂.reader.settings
  /-- The place holds the same. -/
  found : w₁.found = w₂.found
  /-- The table has one name. -/
  table : request₁.table = request₂.table
  /-- The maps say the same of it. -/
  id : w₁.reader.ids.get? request₂.table = w₂.reader.ids.get? request₂.table
  /-- The same columns are wanted. -/
  columns : requestedColumns (w₁.table request₁.table) request₁ =
    requestedColumns (w₂.table request₂.table) request₂
  /-- As many rows are wanted. -/
  maxRows : request₁.maxRows = request₂.maxRows

variable {w w' w₁ w₂ : Workbench} {key key₁ key₂ : String} {request request₁ request₂ : ScanRequest}
  {c : Command} {a a₁ a₂ : Answer} {d : Dataset} {kept last : Option Dataset}
  {s s₁ s₂ : List (Command × Answer)} {ops : List (DatasetCommand × Answer)}

/-! ### Opening -/

theorem name_table (w : Workbench) (name : String) : (w.table name).name = name := by
  cases htable : w.schema.bind (·.table? name) with
  | none => rw [table, htable, Option.getD_none]
  | some t =>
    obtain ⟨schema, -, hfound⟩ := Option.bind_eq_some_iff.1 htable
    rw [Schema.table?] at hfound
    have hname := List.find?_some hfound
    rw [table, htable, Option.getD_some]
    exact eq_of_beq hname

/-- **Scans that are opened alike begin alike.** -/
theorem OpensAlike.scan_eq (h : w₁.OpensAlike request₁ w₂ request₂) :
    w₁.scan request₁ = w₂.scan request₂ := by
  have hname : (w₁.table request₁.table).name = (w₂.table request₂.table).name := by
    rw [name_table, name_table, h.table]
  have hid := h.id
  rw [← name_table w₂ request₂.table] at hid
  rw [scan, scan, h.found, h.columns, h.maxRows]
  exact Reader.query_congr h.place h.settings hname hid _ _ _

/-- What has been opened is a dataset at its start. -/
theorem exists_start_of_scan (h : w.scan request = .ok d) :
    ∃ scan feed, d = .start scan feed := by
  rw [scan, Reader.query] at h
  split at h
  · cases h
  · split at h
    · cases h
    · split at h
      · exact ⟨_, _, (Except.ok.inj h).symm⟩
      · cases h

/-! ### What is kept -/

theorem dataset?_forget (w : Workbench) (key : String) : (w.forget key).dataset? key = none := by
  rw [dataset?, forget, List.lookup_eq_none_iff]
  intro entry hmem
  have hne := (List.mem_filter.1 hmem).2
  grind

theorem dataset?_forget_of_ne (w : Workbench) {other : String} (h : other ≠ key) :
    (w.forget key).dataset? other = w.dataset? other := by
  simp only [dataset?, forget]
  induction w.datasets with
  | nil => rfl
  | cons entry rest ih => grind

/-- What a command leaves of a dataset. -/
def put (w : Workbench) (key : String) : Option Dataset → Workbench
  | some d => w.keep key d
  | none => w.forget key

theorem keeps_put (w : Workbench) (key : String) (kept : Option Dataset) :
    w.Keeps key kept (w.put key kept) := by
  cases kept with
  | none => exact ⟨rfl, rfl, rfl, w.dataset?_forget key, fun _ h => w.dataset?_forget_of_ne h⟩
  | some d =>
    refine ⟨rfl, rfl, rfl, List.lookup_cons_self, fun other h => ?_⟩
    have hother : (other == key) = false := by simpa using h
    rw [← w.dataset?_forget_of_ne h]
    simp [put, keep, dataset?, List.lookup_cons, hother]

theorem keeps_self (h : w.dataset? key = kept) : w.Keeps key kept w :=
  ⟨rfl, rfl, rfl, h, fun _ _ => rfl⟩

/-! ### What is answered of one dataset -/

/-- A command that is no operation on a dataset leaves the datasets as they are, unless it opens
one. -/
theorem dataset?_run (w : Workbench) (hc : ∀ key command, c ≠ .dataset key command)
    (hopen : ∀ request table, c = .open key request → (w.run c).2 ≠ .opened table) :
    (w.run c).1.dataset? key = w.dataset? key := by
  cases c with
  | createSchema name =>
    rw [run]
    rcases w.reader.createSchema w.found name with ⟨reader, _ | _⟩ <;> rfl
  | refresh =>
    rw [run]
    rcases w.reader.refresh w.found with ⟨reader, _ | _⟩ <;> rfl
  | query request =>
    rw [run]
    split <;> rfl
  | «open» other request =>
    rw [run]
    split
    next d hd =>
      by_cases hkey : other = key
      · subst hkey
        exact absurd (by rw [run, hd]) (hopen request d.table rfl)
      · exact (keeps_put w other (some d)).others key (Ne.symm hkey)
    next => rfl
  | dataset other command => exact absurd rfl (hc other command)
  | tableNames => rfl
  | internalId => rfl
  | lookUp => rfl
  | replace => rfl

/-- Such a command has nothing to do with any one dataset. -/
theorem operations_of_other (hc : ∀ key command, c ≠ .dataset key command)
    (hopen : ∀ request table, c = .open key request → a ≠ .opened table) :
    operations key ((c, a) :: s) = operations key s := by
  cases c with
  | «open» other request =>
    cases a with
    | opened table =>
      rw [operations, if_neg]
      rintro rfl
      exact hopen request table rfl rfl
    | _ => rfl
  | dataset other command => exact absurd rfl (hc other command)
  | _ => rfl

/-- What is answered of a dataset in one command, and then in the rest of a session. -/
theorem Performs.exists_course (h : w.Performs c a w')
    (hrest : ∃ last, Course (w'.dataset? key) (operations key s) last) :
    ∃ last, Course (w.dataset? key) (operations key ((c, a) :: s)) last := by
  obtain ⟨last, hrest⟩ := hrest
  cases h with
  | @operate other d c a kept w' hd hop hw =>
    by_cases hkey : other = key
    · subst hkey
      rw [hw.own] at hrest
      rw [hd, operations, if_pos rfl]
      exact ⟨last, .operate hop hrest⟩
    · rw [hw.others key (Ne.symm hkey)] at hrest
      rw [operations, if_neg hkey]
      exact ⟨last, hrest⟩
  | @gone other c hd =>
    by_cases hkey : other = key
    · subst hkey
      rw [hd] at hrest ⊢
      rw [operations, if_pos rfl]
      exact ⟨last, .gone hrest⟩
    · rw [operations, if_neg hkey]
      exact ⟨last, hrest⟩
  | query hd hrun => exact ⟨last, hrest⟩
  | run hc =>
    by_cases hopen : ∃ request table, c = .open key request ∧ (w.run c).2 = .opened table
    · -- The key is given to another dataset.
      obtain ⟨request, table, rfl, ha⟩ := hopen
      rw [ha, operations, if_pos rfl]
      exact ⟨_, .nil _⟩
    · have hother (request : ScanRequest) (table : String) (hcommand : c = .open key request) :
          (w.run c).2 ≠ .opened table := fun ha => hopen ⟨request, table, hcommand, ha⟩
      rw [dataset?_run w hc hother] at hrest
      rw [operations_of_other hc hother]
      exact ⟨last, hrest⟩

/-- **What is answered of a dataset in a session is a course of that dataset alone.** -/
theorem Session.exists_course (h : w.Session s w') (key : String) :
    ∃ last, Course (w.dataset? key) (operations key s) last := by
  induction h with
  | nil w => exact ⟨_, .nil _⟩
  | command hperforms _ ih => exact hperforms.exists_course ih
  | @work w w' w'' other d b s hd hstep hw _ ih =>
    obtain ⟨last, hcourse⟩ := ih
    by_cases hkey : other = key
    · subst hkey
      rw [hw.own] at hcourse
      rw [hd]
      exact ⟨last, .work hstep hcourse⟩
    · rw [hw.others key (Ne.symm hkey)] at hcourse
      exact ⟨last, hcourse⟩

/-- **A course of a dataset is a session by itself.** -/
theorem exists_session_of_course (h : Course kept ops last) (hw : w.dataset? key = kept) :
    ∃ w', w.Session (alone key ops) w' := by
  induction h generalizing w with
  | nil kept => exact ⟨w, .nil w⟩
  | @operate d c a kept last ops hop _ ih =>
    obtain ⟨w', hrest⟩ := ih (w.keeps_put key kept).own
    exact ⟨w', .command (.operate hw hop (w.keeps_put key kept)) hrest⟩
  | gone _ ih =>
    obtain ⟨w', hrest⟩ := ih hw
    exact ⟨w', .command (.gone hw) hrest⟩
  | @work d b last ops hstep _ ih =>
    have hput := w.keeps_put key (some { d with bridge := b })
    obtain ⟨w', hrest⟩ := ih hput.own
    exact ⟨w', .work hw hstep hput hrest⟩

/-! ### Sessions that open a dataset -/

theorem snd_run_open (w : Workbench) (key : String) (request : ScanRequest) :
    (w.run (.open key request)).2 =
      match w.scan request with
      | .ok d => .opened d.table
      | .error e => .failed (.error e) := by
  rw [run]
  cases w.scan request <;> rfl

theorem dataset?_run_open (h : w.scan request = .ok d) (key : String) :
    (w.run (.open key request)).1.dataset? key = some d := by
  rw [run, h]
  exact (w.keeps_put key (some d)).own

/-- The first command of a session, behind steps of publishers, which leave the reader alone. -/
theorem Session.of_cons (h : w.Session ((c, a) :: s) w') :
    ∃ w₁ w₂ : Workbench, w₁.Performs c a w₂ ∧ w₂.Session s w' ∧
      ∀ request, w₁.scan request = w.scan request := by
  generalize hall : (c, a) :: s = all at h
  induction h with
  | nil => cases hall
  | command hperforms hrest =>
    cases hall
    exact ⟨_, _, hperforms, hrest, fun _ => rfl⟩
  | work hd hstep hw _ ih =>
    obtain ⟨w₁, w₂, hperforms, hrest, hscan⟩ := ih hall
    refine ⟨w₁, w₂, hperforms, hrest, fun request => (hscan request).trans ?_⟩
    simp only [scan, table, hw.reader, hw.found, hw.schema]

/-- What the opening of a dataset is answered, and what is answered of the dataset after it. -/
theorem Session.of_open (h : w.Session ((.open key request, a) :: s) w') :
    a = (w.run (.open key request)).2 ∧
      ∀ d, w.scan request = .ok d → ∃ last, Course (some d) (operations key s) last := by
  obtain ⟨w₁, w₂, hperforms, hrest, hscan⟩ := h.of_cons
  cases hperforms with
  | run hc =>
    refine ⟨by rw [snd_run_open, snd_run_open, hscan], fun d hd => ?_⟩
    rw [← dataset?_run_open ((hscan request).trans hd) key]
    exact hrest.exists_course key

/-! ### The functions are one schedule -/

/-- Commands one after another as the functions carry them out. -/
def runAll (w : Workbench) : List Command → List (Command × Answer) × Workbench
  | [] => ([], w)
  | c :: rest =>
    let (w, a) := w.run c
    let (s, w) := w.runAll rest
    ((c, a) :: s, w)

/-- All open datasets are sound. -/
def Sound (w : Workbench) : Prop :=
  ∀ key d, w.dataset? key = some d → ∃ all given, d.Sound all given

theorem sound_start (place : String) (settings : Settings) (found : Container) :
    (start place settings found).Sound := by
  intro key d hd
  simp [start, dataset?] at hd

/-- What the functions do with a sound dataset is an operation. -/
theorem operates_runDataset (hd : w.dataset? key = some d) (hsound : ∃ all given, d.Sound all given)
    (c : DatasetCommand) :
    ∃ kept, d.Operates c (w.runDataset key d c).2 kept ∧
      w.Keeps key kept (w.runDataset key d c).1 := by
  cases c with
  | hasNext => exact ⟨_, .hasNext (fills_fill d), w.keeps_put key (some _)⟩
  | next => exact ⟨_, .next (fills_fill d), w.keeps_put key (some _)⟩
  | drain =>
    obtain ⟨all, given, hsound⟩ := hsound
    obtain ⟨items, hpulls, hitems⟩ := hsound.history_drain
    have hrun : w.runDataset key d .drain =
      (w.keep key d.drain.2, .drained d.drain.1 d.drain.2.outcome) := rfl
    rw [hrun, hitems]
    exact ⟨_, .drain hpulls, w.keeps_put key (some _)⟩
  | cancel => exact ⟨_, .cancel, w.keeps_put key (some _)⟩
  | close => exact ⟨_, .close (closes_close d), w.keeps_put key (some _)⟩
  | status => exact ⟨_, .status, keeps_self hd⟩
  | drop => exact ⟨_, .drop (closes_close d), w.keeps_put key none⟩

theorem performs_run (hw : w.Sound) (c : Command) : w.Performs c (w.run c).2 (w.run c).1 := by
  cases c with
  | dataset key c =>
    cases hd : w.dataset? key with
    | none =>
      have hrun : w.run (.dataset key c) = (w, .noDataset) := by rw [run, hd]
      rw [hrun]
      exact .gone hd
    | some d =>
      have hrun : w.run (.dataset key c) = w.runDataset key d c := by rw [run, hd]
      obtain ⟨kept, hop, hkeeps⟩ := operates_runDataset hd (hw key d hd) c
      rw [hrun]
      exact .operate hd hop hkeeps
  | _ => exact .run (by simp)

/-- A command leaves all open datasets sound. -/
theorem Performs.sound (h : w.Performs c a w') (hw : w.Sound) : w'.Sound := by
  intro key d hd
  cases h with
  | @operate other e c a kept w' he hop hkeeps =>
    by_cases hkey : key = other
    · subst hkey
      obtain ⟨all, given, hsound⟩ := hw key e he
      obtain ⟨given', hsound'⟩ := hop.sound hsound d (hkeeps.own.symm.trans hd)
      exact ⟨all, given', hsound'⟩
    · exact hw key d ((hkeeps.others key hkey).symm.trans hd)
  | gone => exact hw key d hd
  | query => exact hw key d hd
  | run hc =>
    by_cases hopen : ∃ request table, c = .open key request ∧ (w.run c).2 = .opened table
    · obtain ⟨request, table, rfl, ha⟩ := hopen
      rw [snd_run_open] at ha
      split at ha
      next e he =>
        rw [dataset?_run_open he key] at hd
        obtain rfl := Option.some.inj hd
        obtain ⟨scan, feed, rfl⟩ := exists_start_of_scan he
        exact ⟨_, _, Dataset.sound_start scan feed⟩
      next => cases ha
    · rw [dataset?_run w hc fun request table hcommand ha =>
        hopen ⟨request, table, hcommand, ha⟩] at hd
      exact hw key d hd

/-- **The functions carry out every row of commands, and what they answer is a session.** -/
theorem session_runAll (hw : w.Sound) (commands : List Command) :
    w.Session (w.runAll commands).1 (w.runAll commands).2 := by
  induction commands generalizing w with
  | nil => exact .nil w
  | cons c rest ih =>
    have hperforms := performs_run hw c
    exact .command hperforms (ih (hperforms.sound hw))

/-- A session of the functions, with its first command apart. -/
theorem session_cons_runAll (hw : w.Sound) (c : Command) (commands : List Command) :
    w.Session ((c, (w.run c).2) :: ((w.run c).1.runAll commands).1)
      ((w.run c).1.runAll commands).2 :=
  session_runAll hw (c :: commands)

/-! ### Independence -/

/-- **Scans are independent of each other, and of whatever the reader is asked afterwards.** In two
sessions a dataset is opened under the same conditions, and the same operations on it follow; which
other datasets are open by then, and what else is done in between, need not be the same. Then the
opening is answered the same, the operations agree, and what has been answered in the one session
may be answered in the other if nothing else is done there. -/
theorem Session.independent {w₁' w₂' : Workbench}
    (halike : w₁.OpensAlike request₁ w₂ request₂)
    (h₁ : w₁.Session ((.open key₁ request₁, a₁) :: s₁) w₁')
    (h₂ : w₂.Session ((.open key₂ request₂, a₂) :: s₂) w₂')
    (hops : (operations key₁ s₁).map Prod.fst = (operations key₂ s₂).map Prod.fst) :
    a₁ = a₂ ∧ ∀ d, w₁.scan request₁ = .ok d →
      d.Agree (operations key₁ s₁) (operations key₂ s₂) ∧
      ∃ w', w₂.Session ((.open key₂ request₂, a₁) :: alone key₂ (operations key₁ s₁)) w' := by
  have hscan := halike.scan_eq
  obtain ⟨ha₁, hcourse₁⟩ := h₁.of_open
  obtain ⟨ha₂, hcourse₂⟩ := h₂.of_open
  have ha : a₁ = (w₂.run (.open key₂ request₂)).2 := by
    rw [ha₁, snd_run_open, snd_run_open, hscan]
  refine ⟨ha.trans ha₂.symm, fun d hd => ?_⟩
  obtain ⟨last₁, hcourse₁⟩ := hcourse₁ d hd
  obtain ⟨last₂, hcourse₂⟩ := hcourse₂ d (hscan.symm.trans hd)
  obtain ⟨scan, feed, rfl⟩ := exists_start_of_scan hd
  refine ⟨agree_of_courses (alike_start scan feed) hcourse₁ hcourse₂ hops, ?_⟩
  obtain ⟨w', hrest⟩ :=
    exists_session_of_course hcourse₁ (dataset?_run_open (hscan.symm.trans hd) key₂)
  exact ⟨w', ha ▸ .command (.run (by simp)) hrest⟩

/-- A torn workbook that has been looked at: its table is known. -/
def knownTornBook : Workbench := (tornBookBench.run (.createSchema "book")).1

/-- Its table as a whole. -/
def tornRequest : ScanRequest := ⟨"Data", none, none⟩

/-- Between two pulls another schema is made, the workbook is deleted, and another scan cannot be
opened any more. Without all that the same is pulled. -/
theorem independent_tornBook :
    let w := (knownTornBook.run (.open "a" tornRequest)).1
    let s₁ := (w.runAll [.dataset "a" .next, .createSchema "book", .replace .missing,
      .open "b" tornRequest, .dataset "a" .next, .dataset "b" .next]).1
    let s₂ := (w.runAll [.dataset "a" .next, .dataset "a" .next]).1
    (operations "a" s₁).map Prod.fst = [.next, .next] ∧
      (∃ d, knownTornBook.scan tornRequest = .ok d ∧
        d.Agree (operations "a" s₁) (operations "a" s₂)) ∧
      operations "a" s₁ = operations "a" s₂ := by
  intro w s₁ s₂
  have hsound : knownTornBook.Sound :=
    (performs_run (sound_start _ _ _) (.createSchema "book")).sound (sound_start _ _ _)
  have hops₁ : (operations "a" s₁).map Prod.fst = [.next, .next] := by decide +kernel
  have hops₂ : (operations "a" s₂).map Prod.fst = [.next, .next] := by decide +kernel
  have hopens : (match knownTornBook.scan tornRequest with
      | .ok _ => true
      | .error _ => false) = true := by
    decide +kernel
  have hsession₁ := session_cons_runAll hsound (.open "a" tornRequest) [.dataset "a" .next,
    .createSchema "book", .replace .missing, .open "b" tornRequest, .dataset "a" .next,
    .dataset "b" .next]
  have hsession₂ := session_cons_runAll hsound (.open "a" tornRequest) [.dataset "a" .next,
    .dataset "a" .next]
  have halike : knownTornBook.OpensAlike tornRequest knownTornBook tornRequest :=
    ⟨rfl, rfl, rfl, rfl, rfl, rfl, rfl⟩
  have hnext : ∀ op ∈ operations "a" s₁, op.1 ≠ .cancel ∧ op.1 ≠ .close := by
    intro op hop
    have hmem : op.1 ∈ (operations "a" s₁).map Prod.fst := List.mem_map_of_mem hop
    rw [hops₁] at hmem
    obtain hc : op.1 = .next := by simpa using hmem
    simp [hc]
  split at hopens
  next d hd =>
    obtain ⟨hagree, -⟩ :=
      (Session.independent halike hsession₁ hsession₂ (hops₁.trans hops₂.symm)).2 d hd
    obtain ⟨scan, feed, rfl⟩ := exists_start_of_scan hd
    have hsettled := hagree.settled _ [] (List.append_nil _).symm (not_closesEarly_start hnext)
    have hprefix := hagree.outcomes _ [] (List.append_nil _).symm hsettled
    have hlength := congrArg List.length (hops₁.trans hops₂.symm)
    rw [List.length_map, List.length_map] at hlength
    exact ⟨hops₁, ⟨_, hd, hagree⟩, hprefix.eq_of_length hlength⟩
  next => cases hopens

end Workbench

end WorkbookTables
