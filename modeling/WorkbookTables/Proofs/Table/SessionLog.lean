import Mathlib.Data.List.Pairwise
import WorkbookTables.Table.Naming

/-!
# What a strategy is told of its sessions

A session is told its start, then one request after another, then its close, and nothing else
happens in naming meanwhile. So the log of naming is made of whole sessions. It is balanced then: as
many sessions have been closed as have started, each of them once, and once a session has been
closed nothing is heard of it any more.

The end of a session does not have to be asked for. Who owns a session closes it when it is let go,
unless that has been done before; so a session that is closed at once and one that is only let go
are told the same.

## Main definitions

* `NamingLog.sessionEvents`, `NamingLog.afterSession` — a whole session, and the log behind it
* `NamingLog.Balanced` — every session has been closed once, and nothing happened in it later
* `SessionOwner` — who owns a session

## Main results

* `snd_nameColumns` — naming the columns of a table leaves a whole session in the log
* `NamingLog.Balanced.afterSession` — a whole session keeps the log balanced
* `SessionOwner.run_eq` — however an owner ends its session
-/

namespace WorkbookTables

/-- The session in which something happens. -/
def NamingEvent.session : NamingEvent → Nat
  | started session => session
  | named session _ _ => session
  | closed session => session

namespace NamingLog

/-! ### Whole sessions -/

/-- What happens in a session in which requests have been answered, in this order. -/
def sessionEvents (number : Nat) (answers : List (NameRequest × String)) : List NamingEvent :=
  .started number :: (answers.map (fun answer => .named number answer.1 answer.2) ++
    [.closed number])

/-- The log after a session in which requests have been answered. -/
def afterSession (log : NamingLog) (answers : List (NameRequest × String)) : NamingLog :=
  (sessionEvents log.started answers).reverse ++ log

variable {number : Nat} {answers : List (NameRequest × String)} {log : NamingLog}

/-- What happens in a session has its number. -/
theorem session_of_mem_sessionEvents {e : NamingEvent} (h : e ∈ sessionEvents number answers) :
    e.session = number := by
  simp only [sessionEvents, List.mem_cons, List.mem_append, List.mem_map, List.not_mem_nil,
    or_false] at h
  obtain rfl | ⟨answer, -, rfl⟩ | rfl := h <;> rfl

/-- The start of a session comes first, and its close last. -/
theorem pairwise_sessionEvents (number : Nat) (answers : List (NameRequest × String)) :
    (sessionEvents number answers).Pairwise fun earlier later =>
      (∀ k, later ≠ .started k) ∧ ∀ k, earlier ≠ .closed k := by
  refine List.pairwise_cons.2 ⟨?_, List.pairwise_append.2 ⟨?_, List.pairwise_singleton _ _, ?_⟩⟩
  · intro later hlater
    refine ⟨?_, nofun⟩
    rintro k rfl
    simp at hlater
  · exact List.pairwise_map.2 (List.pairwise_of_forall fun _ _ => ⟨nofun, nofun⟩)
  · intro earlier hearlier later hlater
    obtain ⟨answer, -, rfl⟩ := List.mem_map.1 hearlier
    obtain rfl := List.mem_singleton.1 hlater
    exact ⟨nofun, nofun⟩

/-- A session starts once and is closed once. -/
theorem count_sessionEvents (number : Nat) (answers : List (NameRequest × String)) {k : Nat}
    {e : NamingEvent} (he : e = .started k ∨ e = .closed k) :
    (sessionEvents number answers).count e = if number = k then 1 else 0 := by
  have hnone : (answers.map fun answer => NamingEvent.named number answer.1 answer.2).count e =
      0 := by
    refine List.count_eq_zero.2 fun hmem => ?_
    obtain ⟨answer, -, rfl⟩ := List.mem_map.1 hmem
    simp at he
  obtain rfl | rfl := he <;> simp [sessionEvents, List.count_cons, hnone]

theorem started_afterSession (log : NamingLog) (answers : List (NameRequest × String)) :
    (log.afterSession answers).started = log.started + 1 := by
  simp [afterSession, sessionEvents, started, List.countP_append]

theorem closed_afterSession (log : NamingLog) (answers : List (NameRequest × String)) :
    (log.afterSession answers).closed = log.closed + 1 := by
  simp [afterSession, sessionEvents, closed, List.countP_append]

/-! ### Balance -/

/-- Every session has been closed once, and nothing has happened in it before its start or after its
close. -/
structure Balanced (log : NamingLog) : Prop where
  /-- As many sessions have been closed as have started. -/
  closed_eq : log.closed = log.started
  /-- Each of them has started once and has been closed once. -/
  once : ∀ k < log.started, log.count (.started k) = 1 ∧ log.count (.closed k) = 1
  /-- Nothing happens in other sessions. -/
  session_lt : ∀ e ∈ log, e.session < log.started
  /-- Nothing happens in a session before its start. -/
  first : log.Pairwise fun later earlier => ∀ k, later = .started k → earlier.session ≠ k
  /-- Nothing happens in a session after its close. -/
  last : log.Pairwise fun later earlier => ∀ k, earlier = .closed k → later.session ≠ k

theorem balanced_nil : Balanced [] where
  closed_eq := rfl
  once := nofun
  session_lt := nofun
  first := .nil
  last := .nil

/-- Nothing has happened in the session that will start next. -/
theorem Balanced.count_eq_zero (h : log.Balanced) {e : NamingEvent}
    (he : e.session = log.started) : log.count e = 0 :=
  List.count_eq_zero.2 fun hmem => Nat.ne_of_lt (h.session_lt e hmem) he

/-- **A whole session keeps the log balanced.** -/
theorem Balanced.afterSession (h : log.Balanced) (answers : List (NameRequest × String)) :
    (log.afterSession answers).Balanced := by
  have hnew (e : NamingEvent) (he : e ∈ (sessionEvents log.started answers).reverse) :
      e.session = log.started :=
    session_of_mem_sessionEvents (List.mem_reverse.1 he)
  have hinside := List.pairwise_reverse.2 (pairwise_sessionEvents log.started answers)
  refine ⟨?_, ?_, ?_, ?_, ?_⟩
  · rw [closed_afterSession, started_afterSession, h.closed_eq]
  · intro k hk
    rw [started_afterSession, Nat.lt_succ_iff_lt_or_eq] at hk
    simp only [NamingLog.afterSession, List.count_append, List.count_reverse,
      count_sessionEvents log.started answers (.inl rfl),
      count_sessionEvents log.started answers (.inr rfl)]
    obtain hk | rfl := hk
    · obtain ⟨hstarted, hclosed⟩ := h.once k hk
      rw [if_neg (Nat.ne_of_gt hk), hstarted, hclosed]
      exact ⟨rfl, rfl⟩
    · rw [if_pos rfl, h.count_eq_zero rfl, h.count_eq_zero rfl]
      exact ⟨rfl, rfl⟩
  · intro e he
    rw [started_afterSession, Nat.lt_succ_iff_lt_or_eq]
    exact (List.mem_append.1 he).symm.imp (h.session_lt e) (hnew e)
  · refine List.pairwise_append.2 ⟨hinside.imp ?_, h.first, ?_⟩
    · intro later earlier hpair k hlater
      exact absurd hlater (hpair.1 k)
    · rintro later hlater earlier hearlier k rfl
      have hk : k = log.started := hnew _ hlater
      exact hk ▸ Nat.ne_of_lt (h.session_lt earlier hearlier)
  · refine List.pairwise_append.2 ⟨hinside.imp ?_, h.last, ?_⟩
    · intro later earlier hpair k hearlier
      exact absurd hearlier (hpair.2 k)
    · rintro later hlater earlier hearlier k rfl
      have hk : k < log.started := h.session_lt _ hearlier
      rw [hnew later hlater]
      exact Nat.ne_of_gt hk

end NamingLog

/-! ### Sessions of a table -/

variable {strategy : NamingStrategy}

namespace NamingSession

theorem number_next (s : NamingSession) (log : NamingLog) (r : NameRequest) :
    (s.next strategy log r).2.number = s.number := by
  cases strategy with
  | listed names =>
    rw [next]
    split <;> rfl
  | _ => rfl

theorem number_start (strategy : NamingStrategy) (number : Nat) :
    (start strategy number).number = number := by
  cases strategy <;> rfl

/-- Each request is told once, in turn, and nothing else. -/
theorem snd_nameAll (s : NamingSession) (log : NamingLog) (requests : List NameRequest) :
    (s.nameAll strategy log requests).2 =
      ((requests.zip (s.nameAll strategy log requests).1).map fun answer =>
        .named s.number answer.1 answer.2).reverse ++ log := by
  induction requests generalizing s log with
  | nil => rfl
  | cons r rest ih =>
    simp only [nameAll, List.zip_cons_cons, List.map_cons, List.reverse_cons, List.append_assoc,
      List.singleton_append]
    rw [ih, number_next]

end NamingSession

/-- **Naming the columns of a table** leaves a whole session in the log. -/
theorem snd_nameColumns (strategy : NamingStrategy) (log : NamingLog)
    (requests : List NameRequest) :
    (nameColumns strategy log requests).2 =
      log.afterSession (requests.zip (nameColumns strategy log requests).1) := by
  simp [nameColumns, NamingLog.afterSession, NamingLog.sessionEvents, NamingSession.snd_nameAll,
    NamingSession.number_start]

/-! ### Owners -/

/-- Who owns a session, as long as it has not been closed. -/
structure SessionOwner where
  /-- The session. -/
  session : Option NamingSession

namespace SessionOwner

/-- Starts a session and owns it. -/
def start (strategy : NamingStrategy) (log : NamingLog) : SessionOwner × NamingLog :=
  (⟨some (.start strategy log.started)⟩, .started log.started :: log)

/-- Asks the session for names, as long as it has not been closed. -/
def nameAll (strategy : NamingStrategy) (o : SessionOwner) (log : NamingLog) :
    List NameRequest → List String × SessionOwner × NamingLog
  | [] => ([], o, log)
  | r :: rest =>
    match o.session with
    | none => ([], o, log)
    | some s =>
      let (name, s) := s.next strategy log r
      let (names, o, log) := nameAll strategy ⟨some s⟩ (.named s.number r name :: log) rest
      (name :: names, o, log)

/-- Closes the session, if it has not been closed. -/
def release (o : SessionOwner) (log : NamingLog) : SessionOwner × NamingLog :=
  match o.session with
  | some s => (⟨none⟩, .closed s.number :: log)
  | none => (o, log)

/-- Names columns in a session of their own. It may be closed at the end, and is let go in any
case. -/
def run (closes : Bool) (strategy : NamingStrategy) (log : NamingLog)
    (requests : List NameRequest) : List String × NamingLog :=
  let (o, log) := start strategy log
  let (names, o, log) := o.nameAll strategy log requests
  let (o, log) := if closes then o.release log else (o, log)
  (names, (o.release log).2)

/-- An owner still has its session when all requests have been answered. -/
theorem nameAll_eq (strategy : NamingStrategy) (s : NamingSession) (log : NamingLog)
    (requests : List NameRequest) :
    ∃ s', s'.number = s.number ∧
      nameAll strategy ⟨some s⟩ log requests =
        ((s.nameAll strategy log requests).1, ⟨some s'⟩, (s.nameAll strategy log requests).2) := by
  induction requests generalizing s log with
  | nil => exact ⟨s, rfl, rfl⟩
  | cons r rest ih =>
    obtain ⟨s', hnumber, hrest⟩ := ih (s.next strategy log r).2
      (.named (s.next strategy log r).2.number r (s.next strategy log r).1 :: log)
    refine ⟨s', hnumber.trans (NamingSession.number_next s log r), ?_⟩
    simp only [nameAll, hrest, NamingSession.nameAll]

/-- **However an owner ends its session**, the strategy is told the same: whether it closes the
session or only lets it go, and after however many requests. -/
theorem run_eq (closes : Bool) (strategy : NamingStrategy) (log : NamingLog)
    (requests : List NameRequest) :
    run closes strategy log requests = nameColumns strategy log requests := by
  obtain ⟨s', hnumber, hnames⟩ := nameAll_eq strategy (.start strategy log.started)
    (.started log.started :: log) requests
  rw [NamingSession.number_start] at hnumber
  cases closes <;> simp [run, start, hnames, release, hnumber, nameColumns]

end SessionOwner

end WorkbookTables
