import WorkbookTables.Proofs.Scan.Likeness
import WorkbookTables.Workbench

/-!
# What a session sees of one dataset

In a session a dataset is known by its key, and what is done with it has answers. Here these answers
are told of one dataset alone, under every schedule of its publisher: a dataset and the operations
on it have a course, and what is kept under the key behind it is the dataset or nothing.

Two courses with the same operations have the same answers, whatever their schedules, with one
exception. How the reading has ended is told to a dataset that is closed early as far as its
publisher knows, and one publisher may know more than another. So two courses have the same outcomes
up to an early close, and apart from the outcomes they are the same throughout.

## Main definitions

* `Dataset.Operates`, `Dataset.Course` — operations with their answers, and one after another
* `Dataset.EndsEarly`, `Dataset.ClosesEarly` — an early close, and a course in which there is one
* `Dataset.Settled` — a course whose answers do not depend on the schedule
* `Dataset.Agree` — what two courses of a dataset have in common

## Main results

* `Dataset.Operates.alike` — an operation keeps datasets alike
* `Dataset.agree_of_courses` — two courses of a dataset with the same operations
* `Dataset.not_closesEarly_start` — when there is no early close
-/

namespace WorkbookTables

/-- An answer without what it says of the outcome. -/
def Answer.withoutOutcome : Answer → Answer
  | .drained items _ => .drained items none
  | .status _ asked => .status none asked
  | a => a

namespace Dataset

/-! ### Operations -/

/-- An operation on a dataset under some schedule, with the answer and what is kept then. -/
inductive Operates (d : Dataset) : DatasetCommand → Answer → Option Dataset → Prop where
  /-- Whether there is another item. -/
  | hasNext {d' : Dataset} (h : d.Fills d') :
      Operates d .hasNext (.hasNext d'.pending.isSome) (some d')
  /-- The next item. -/
  | next {d' : Dataset} (h : d.Fills d') :
      Operates d .next (.item d'.pending) (some { d' with pending := none })
  /-- Items are pulled until there is none. -/
  | drain {d' : Dataset} {items : List (Except Error Row)} (h : d.History (pulls items) d') :
      Operates d .drain (.drained (.ofItems items) d'.outcome) (some d')
  /-- The publisher is asked to stop. -/
  | cancel : Operates d .cancel (.cancelled d.cancel.isCancelled) (some d.cancel)
  /-- The scan is ended. -/
  | close {d' : Dataset} (h : d.Closes d') : Operates d .close .closed (some d')
  /-- How the dataset stands. -/
  | status : Operates d .status (.status d.outcome d.isCancelled) (some d)
  /-- The scan is ended and the dataset forgotten. -/
  | drop {d' : Dataset} (h : d.Closes d') : Operates d .drop .dropped none

/-- Operations on what is kept under a key, one after another with their answers, and steps of the
publisher between them. -/
inductive Course : Option Dataset → List (DatasetCommand × Answer) → Option Dataset → Prop where
  /-- Nothing has happened. -/
  | nil (kept : Option Dataset) : Course kept [] kept
  /-- An operation comes first. -/
  | operate {d : Dataset} {c : DatasetCommand} {a : Answer} {kept last : Option Dataset}
      {ops : List (DatasetCommand × Answer)} (h : d.Operates c a kept)
      (hrest : Course kept ops last) : Course (some d) ((c, a) :: ops) last
  /-- An operation comes first, and there is no dataset. -/
  | gone {c : DatasetCommand} {last : Option Dataset} {ops : List (DatasetCommand × Answer)}
      (hrest : Course none ops last) : Course none ((c, .noDataset) :: ops) last
  /-- A step of the publisher comes first. -/
  | work {d : Dataset} {b : Bridge} {last : Option Dataset}
      {ops : List (DatasetCommand × Answer)} (hstep : d.bridge.advance? = some b)
      (hrest : Course (some { d with bridge := b }) ops last) : Course (some d) ops last

variable {all given : List (Except Error Row)} {final : Option Ending}
  {d d' d₁ d₂ e₁ e₂ : Dataset} {c : DatasetCommand} {a a₁ a₂ : Answer}
  {kept kept₁ kept₂ last last₁ last₂ : Option Dataset}
  {ops ops₁ ops₂ : List (DatasetCommand × Answer)}

/-- A course may begin with any number of steps of the publisher. -/
theorem Course.reaches {b : Bridge} (hreach : d.bridge.Reaches b)
    (h : Course (some { d with bridge := b }) ops last) : Course (some d) ops last := by
  induction hreach with
  | refl => exact h
  | tail _ hstep ih => exact ih (.work hstep h)

/-- The first operation of a course on a dataset, behind some steps of the publisher. -/
theorem Course.of_cons (h : Course (some d) ((c, a) :: ops) last) :
    ∃ b kept, d.bridge.Reaches b ∧ ({ d with bridge := b } : Dataset).Operates c a kept ∧
      Course kept ops last := by
  generalize hfirst : some d = first at h
  generalize hall : (c, a) :: ops = all at h
  induction h generalizing d with
  | nil => cases hall
  | operate hop hrest =>
    cases hall
    cases hfirst
    exact ⟨_, _, .refl, hop, hrest⟩
  | gone => cases hfirst
  | work hstep _ ih =>
    cases hfirst
    obtain ⟨b, kept, hreach, hop, hrest⟩ := ih rfl hall
    exact ⟨b, kept, .head hstep hreach, hop, hrest⟩

theorem Course.of_cons_none (h : Course none ((c, a) :: ops) last) :
    a = .noDataset ∧ Course none ops last := by
  cases h with
  | gone hrest => exact ⟨rfl, hrest⟩

/-- Where there is no dataset, nothing else is answered. -/
theorem Course.eq_of_none (h : Course none ops last) :
    ops = (ops.map Prod.fst).map fun c => (c, .noDataset) := by
  induction ops with
  | nil => rfl
  | cons op ops ih =>
    obtain ⟨c, a⟩ := op
    obtain ⟨rfl, hrest⟩ := h.of_cons_none
    rw [List.map_cons, List.map_cons, ← ih hrest]

/-- A course can be cut behind any operation. -/
theorem Course.split (h : Course kept (ops₁ ++ ops₂) last) :
    ∃ between, Course kept ops₁ between ∧ Course between ops₂ last := by
  induction ops₁ generalizing kept with
  | nil => exact ⟨kept, .nil kept, h⟩
  | cons op ops₁ ih =>
    obtain ⟨c, a⟩ := op
    cases kept with
    | none =>
      obtain ⟨rfl, hrest⟩ := h.of_cons_none
      obtain ⟨between, hbefore, hafter⟩ := ih hrest
      exact ⟨between, .gone hbefore, hafter⟩
    | some d =>
      obtain ⟨b, kept, hreach, hop, hrest⟩ := h.of_cons
      obtain ⟨between, hbefore, hafter⟩ := ih hrest
      exact ⟨between, .reaches hreach (.operate hop hbefore), hafter⟩

/-! ### Operations on two datasets -/

/-- An early close: the dataset was open and is closed now, although it had been cancelled or is
closed by the consumer. -/
def EndsEarly (d : Dataset) (c : DatasetCommand) (d' : Dataset) : Prop :=
  d.closed = false ∧ (d.isCancelled = true ∨ c = .close) ∧ d'.closed = true

/-- What has been interrupted stays open without an early close. -/
theorem open_of_not_endsEarly (h : ¬d.EndsEarly c d') (hd : d.Interrupted) : d'.closed = false := by
  cases hclosed : d'.closed with
  | false => rfl
  | true => exact absurd ⟨hd.1, .inl hd.2, hclosed⟩ h

/-- **An operation keeps datasets alike and is answered alike.** If they know the same of the
outcome and it is no early close, it is answered the same, and they go on to know the same. -/
theorem Operates.alike (h : d₁.Alike d₂) (h₁ : d₁.Operates c a₁ kept₁)
    (h₂ : d₂.Operates c a₂ kept₂) :
    Option.Rel Alike kept₁ kept₂ ∧ a₁.withoutOutcome = a₂.withoutOutcome ∧
      (d₁.outcome = d₂.outcome → (∀ e ∈ kept₁, ¬d₁.EndsEarly c e) →
        a₁ = a₂ ∧ Option.Rel (fun e₁ e₂ => e₁.outcome = e₂.outcome) kept₁ kept₂) := by
  cases h₁ with
  | hasNext hf₁ =>
    cases h₂ with
    | hasNext hf₂ =>
      obtain ⟨hkept, houtcome⟩ := h.fills hf₁ hf₂
      refine ⟨.some hkept, by rw [hkept.pending],
        fun ho hearly => ⟨by rw [hkept.pending], .some ?_⟩⟩
      exact houtcome (open_of_not_endsEarly (hearly _ rfl)) ho
  | next hf₁ =>
    cases h₂ with
    | next hf₂ =>
      obtain ⟨hkept, houtcome⟩ := h.fills hf₁ hf₂
      refine ⟨.some hkept.taken, by rw [hkept.pending],
        fun ho hearly => ⟨by rw [hkept.pending], .some ?_⟩⟩
      have hopen := open_of_not_endsEarly (hearly _ rfl)
      exact houtcome hopen ho
  | drain hrun₁ =>
    cases h₂ with
    | drain hrun₂ =>
      obtain ⟨rfl, hkept, houtcome⟩ := h.pulls hrun₁ hrun₂
      refine ⟨.some hkept, rfl, fun ho hearly => ?_⟩
      have hno : ¬d₁.Interrupted := by
        intro hinterrupted
        have hopen := open_of_not_endsEarly (hearly _ rfl) hinterrupted
        cases hopen.symm.trans hrun₁.closed_of_pulls
      have hlast := houtcome hno ho
      exact ⟨by rw [hlast], .some hlast⟩
  | cancel =>
    cases h₂ with
    | cancel => exact ⟨.some h.cancel, rfl, fun ho _ => ⟨rfl, .some ho⟩⟩
  | close hclose₁ =>
    cases h₂ with
    | close hclose₂ =>
      obtain ⟨hkept, houtcome⟩ := h.closes hclose₁ hclose₂
      refine ⟨.some hkept, rfl, fun ho hearly => ⟨rfl, .some (houtcome ?_ ho)⟩⟩
      cases hopen : d₁.closed with
      | true => rfl
      | false => exact absurd ⟨hopen, .inr rfl, hclose₁.closed_eq⟩ (hearly _ rfl)
  | status =>
    cases h₂ with
    | status =>
      refine ⟨.some h, by rw [h.cancelled]; rfl, fun ho _ => ⟨by rw [ho, h.cancelled], .some ho⟩⟩
  | drop hclose₁ =>
    cases h₂ with
    | drop hclose₂ => exact ⟨.none, rfl, fun _ _ => ⟨rfl, .none⟩⟩

/-! ### Two courses of one dataset -/

/-- Holds of a course in which there is an early close: an operation finds the dataset open and
leaves it closed, although it had been cancelled or is closed by that very operation. -/
def ClosesEarly (kept : Option Dataset) (ops : List (DatasetCommand × Answer)) : Prop :=
  ∃ before c a after e e', ops = before ++ (c, a) :: after ∧ Course kept before (some e) ∧
    e.Operates c a (some e') ∧ e.EndsEarly c e'

/-- Holds of a course whose answers do not depend on how far the publisher has got: no other answers
may be given to its operations. -/
def Settled (d : Dataset) (ops : List (DatasetCommand × Answer)) : Prop :=
  ∀ ops' last, Course (some d) ops' last → ops'.map Prod.fst = ops.map Prod.fst → ops' = ops

/-- What two courses of a dataset have in common that have the same operations. -/
structure Agree (d : Dataset) (ops₁ ops₂ : List (DatasetCommand × Answer)) : Prop where
  /-- All answers are the same, apart from the outcomes in them. -/
  answers : ops₁.map (fun op => (op.1, op.2.withoutOutcome)) =
    ops₂.map fun op => (op.1, op.2.withoutOutcome)
  /-- Outcomes that do not depend on how far the publisher has got are the same as well. -/
  outcomes : ∀ first rest, ops₁ = first ++ rest → d.Settled first → first <+: ops₂
  /-- Nothing depends on that before an early close. -/
  settled : ∀ first rest, ops₁ = first ++ rest → ¬ClosesEarly (some d) first → d.Settled first

/-- An early close stays one with an operation before it. -/
theorem ClosesEarly.cons {b : Bridge} (h : ClosesEarly kept ops) (hreach : d.bridge.Reaches b)
    (hop : ({ d with bridge := b } : Dataset).Operates c a kept) :
    ClosesEarly (some d) ((c, a) :: ops) := by
  obtain ⟨before, c', a', after, e, e', rfl, hbefore, hearly⟩ := h
  exact ⟨(c, a) :: before, c', a', after, e, e', rfl, .reaches hreach (.operate hop hbefore),
    hearly⟩

theorem closesEarly_of_endsEarly {b : Bridge} (hreach : d.bridge.Reaches b)
    (hop : ({ d with bridge := b } : Dataset).Operates c a (some d'))
    (hearly : ({ d with bridge := b } : Dataset).EndsEarly c d') :
    ClosesEarly (some d) ((c, a) :: ops) :=
  ⟨[], c, a, ops, _, d', rfl, .reaches hreach (.nil _), hop, hearly⟩

/-- **Courses with the same operations are answered alike**, and the same as long as they know the
same of the outcome and there is no early close. -/
theorem alike_of_courses (hkept : Option.Rel Alike kept₁ kept₂) (h₁ : Course kept₁ ops₁ last₁)
    (h₂ : Course kept₂ ops₂ last₂) (hops : ops₁.map Prod.fst = ops₂.map Prod.fst) :
    (ops₁.map (fun op => (op.1, op.2.withoutOutcome)) =
        ops₂.map fun op => (op.1, op.2.withoutOutcome)) ∧
      (Option.Rel (fun d₁ d₂ => d₁.outcome = d₂.outcome) kept₁ kept₂ → ¬ClosesEarly kept₁ ops₁ →
        ops₁ = ops₂) := by
  induction ops₁ generalizing ops₂ kept₁ kept₂ with
  | nil =>
    obtain rfl : ops₂ = [] := List.map_eq_nil_iff.1 hops.symm
    exact ⟨rfl, fun _ _ => rfl⟩
  | cons op₁ ops₁ ih =>
    cases hkept with
    | none =>
      have hsame : op₁ :: ops₁ = ops₂ := by rw [h₁.eq_of_none, h₂.eq_of_none, hops]
      exact ⟨by rw [hsame], fun _ _ => hsame⟩
    | some hd =>
      cases ops₂ with
      | nil => cases hops
      | cons op₂ ops₂ =>
        obtain ⟨c, a₁⟩ := op₁
        obtain ⟨c', a₂⟩ := op₂
        obtain ⟨rfl, htail⟩ : c = c' ∧ ops₁.map Prod.fst = ops₂.map Prod.fst :=
          List.cons_eq_cons.1 hops
        obtain ⟨b₁, kept₁, hreach₁, hop₁, hrest₁⟩ := h₁.of_cons
        obtain ⟨b₂, kept₂, hreach₂, hop₂, hrest₂⟩ := h₂.of_cons
        obtain ⟨hkept, ha, hexact⟩ := hop₁.alike (hd.reaches_both hreach₁ hreach₂) hop₂
        obtain ⟨hanswers, hsame⟩ := ih hkept hrest₁ hrest₂ htail
        refine ⟨by rw [List.map_cons, List.map_cons, ha, hanswers], fun hout hno => ?_⟩
        cases hout with
        | some ho =>
          obtain ⟨rfl, hout'⟩ := hexact ho fun e he hearly =>
            hno (closesEarly_of_endsEarly hreach₁ (he ▸ hop₁) hearly)
          rw [hsame hout' fun hlater => hno (hlater.cons hreach₁ hop₁)]

/-- **Two courses of a dataset with the same operations**, whatever their schedules. -/
theorem agree_of_courses (hd : d.Alike d) (h₁ : Course (some d) ops₁ last₁)
    (h₂ : Course (some d) ops₂ last₂) (hops : ops₁.map Prod.fst = ops₂.map Prod.fst) :
    d.Agree ops₁ ops₂ where
  answers := (alike_of_courses (.some hd) h₁ h₂ hops).1
  outcomes := by
    rintro first rest rfl hsettled
    rw [← List.take_append_drop first.length ops₂] at h₂
    obtain ⟨between, hfirst, -⟩ := h₂.split
    have htake : (ops₂.take first.length).map Prod.fst = first.map Prod.fst := by
      rw [List.map_take, ← hops, ← List.map_take, List.take_left]
    rw [← hsettled _ between hfirst htake]
    exact List.take_prefix _ _
  settled := by
    rintro first rest rfl hno ops last h hsame
    obtain ⟨between, hfirst, -⟩ := h₁.split
    exact ((alike_of_courses (.some hd) hfirst h hsame.symm).2 (.some rfl) hno).symm

/-! ### Courses without an early close -/

theorem Operates.not_interrupted (hop : d.Operates c a kept) (hc : c ≠ .cancel)
    (hd : ¬d.Interrupted) : ∀ e ∈ kept, ¬e.Interrupted := by
  rintro e he ⟨hopen, hcancelled⟩
  cases hop with
  | hasNext hf =>
    obtain rfl := Option.some.inj he
    exact hf.not_interrupted hd ⟨hopen, hcancelled⟩
  | next hf =>
    obtain rfl := Option.some.inj he
    exact hf.not_interrupted hd ⟨hopen, hcancelled⟩
  | drain hrun =>
    obtain rfl := Option.some.inj he
    cases hopen.symm.trans hrun.closed_of_pulls
  | cancel => exact hc rfl
  | close hclose =>
    obtain rfl := Option.some.inj he
    cases hopen.symm.trans hclose.closed_eq
  | status =>
    obtain rfl := Option.some.inj he
    exact hd ⟨hopen, hcancelled⟩
  | drop hclose => cases he

theorem Course.not_interrupted (h : Course kept ops last) (hops : ∀ op ∈ ops, op.1 ≠ .cancel)
    (hd : ∀ d ∈ kept, ¬d.Interrupted) : ∀ e ∈ last, ¬e.Interrupted := by
  induction h with
  | nil => exact hd
  | operate hop _ ih =>
    obtain ⟨hc, hrest⟩ := List.forall_mem_cons.1 hops
    exact ih hrest (hop.not_interrupted hc (hd _ rfl))
  | gone _ ih => exact ih (List.forall_mem_cons.1 hops).2 hd
  | work hstep _ ih =>
    refine ih hops fun e he => ?_
    obtain rfl := Option.some.inj he
    rintro ⟨hopen, hcancelled⟩
    have hasked := (Bridge.step_of_advance? hstep).cancelled_eq.symm.trans hcancelled
    exact hd _ rfl ⟨hopen, hasked⟩

/-- **Who neither cancels a scan nor closes it does not close it early.** -/
theorem not_closesEarly_start {scan : Scan} {feed : Feed}
    (hops : ∀ op ∈ ops, op.1 ≠ .cancel ∧ op.1 ≠ .close) :
    ¬ClosesEarly (some (start scan feed)) ops := by
  rintro ⟨before, c, a, after, e, e', rfl, hbefore, -, hopen, hcause, -⟩
  obtain ⟨hkept, hlast⟩ := List.forall_mem_append.1 hops
  have hno : ¬e.Interrupted := by
    refine hbefore.not_interrupted (fun op hop => (hkept op hop).1) (fun d hd => ?_) e rfl
    obtain rfl := Option.some.inj hd
    exact not_interrupted_start scan feed
  obtain hcancelled | rfl := hcause
  · exact hno ⟨hopen, hcancelled⟩
  · exact (hlast _ List.mem_cons_self).2 rfl

/-! ### Soundness -/

/-- A drain pulls to the end, whether the scan has been stopped or not. -/
theorem Sound.history_drain (hd : d.Sound all given) :
    ∃ items, d.History (pulls items) d.drain.2 ∧ d.drain.1 = .ofItems items := by
  obtain ⟨final, hl⟩ | ⟨hs, -⟩ := hd
  · exact Dataset.history_drain (.inl hl)
  · -- What has been fetched is pulled, and then there is nothing.
    refine history_pull_of_bounded
      (fun bound d => d.Stopped ∧ bound = d.pending.toList.length) ?_ ⟨hs, rfl⟩ ?_
    · rintro _ d item ⟨hs, rfl⟩ hitem
      obtain ⟨hitems, hs'⟩ := (performs_perform d .next).of_stopped hs
      have hlength := congrArg List.length hitems
      simp only [perform, hitem, Reply.items_item, Option.toList_some, List.length_append,
        List.length_singleton] at hlength
      refine ⟨_, ?_, hs', rfl⟩
      show d.next.2.pending.toList.length < d.pending.toList.length
      omega
    · have hpending : d.pending.toList.length ≤ 1 := by cases d.pending <;> simp
      rw [itemBound]
      omega

/-- An operation keeps a dataset sound. -/
theorem Operates.sound (hop : d.Operates c a kept) (hd : d.Sound all given) :
    ∀ e ∈ kept, ∃ given, e.Sound all given := by
  rintro e he
  cases hop with
  | hasNext hf =>
    obtain rfl := Option.some.inj he
    exact ⟨_, hd.fills hf⟩
  | next hf =>
    obtain rfl := Option.some.inj he
    exact ⟨_, hd.performs (.next _ hf)⟩
  | drain hrun =>
    obtain rfl := Option.some.inj he
    exact ⟨_, hd.history hrun⟩
  | cancel =>
    obtain rfl := Option.some.inj he
    exact ⟨_, hd.performs .cancel⟩
  | close hclose =>
    obtain rfl := Option.some.inj he
    exact ⟨_, hd.performs (.close _ hclose)⟩
  | status =>
    obtain rfl := Option.some.inj he
    exact ⟨_, hd⟩
  | drop hclose => cases he

end Dataset

end WorkbookTables
