import Mathlib.Logic.Function.Basic
import WorkbookTables.Proofs.Table.Columns
import WorkbookTables.Proofs.Table.FreeNames

/-!
# Sessions that are open side by side

A strategy may have handed out several sessions, and requests may come to them in any order. A
built-in session knows the names that it has given and what is left of its list, and both are its
own. So what a session answers can be told from its own requests, and what has gone on in the others
makes no difference.

Of one session it is told request by request what is wanted and what is given. What is wanted
depends on the strategy, on how many requests there have been, and on the request. What is given
depends on that and on the names given before, in whatever order headers and positions come and
however often they repeat: a name made to avoid a collision may itself be the next header.

One position is out of the ordinary. The letters of a column are written for the number behind it,
and behind the last number of 64 bits counting starts again from 0, for which there are no letters:
what is wanted there is the empty text, and it is claimed like any other. Where counting is checked
this one request has no answer, because the session breaks off with it, and only if letters are
wanted.

## Main definitions

* `NameRequest.HeaderGives`, `NamingStrategy.Wants` — the candidate for a request
* `NamingSession.Follows` — a session after some names have been given
* `NamingSession.nameEach`, `NamingSession.nameEachChecked` — requests to sessions that are open
  side by side, and where counting is checked

## Main results

* `NamingSession.Follows.answer` — one request
* `NamingSession.Follows.answers` — the requests of a session
* `NamingSession.ofSession_nameEach` — sessions do not influence each other
* `NamingSession.nameEachChecked_eq_none_iff` — the request with which naming breaks off
* `NamingSession.answers_nameEach` — what a session answers among others
-/

namespace WorkbookTables

/-! ### Candidates -/

/-- The name that is wanted for a column because of its header. -/
inductive NameRequest.HeaderGives (r : NameRequest) : String → Prop where
  /-- The header has a text that is not blank, and the name is this text without blanks around
  it. -/
  | text {header : String} (h : r.header = some header)
      (hfilled : ∃ c ∈ header.toList, Text.isBlank c = false) : HeaderGives r (Text.trim header)
  /-- There is no such text, and the name is made of the position. -/
  | position (h : ∀ header, r.header = some header → ∀ c ∈ header.toList, Text.isBlank c = true) :
      HeaderGives r (positionalName r.ordinal)

/-- The name that a built-in strategy wants for the `i`th request of a session. -/
inductive NamingStrategy.Wants : NamingStrategy → Nat → NameRequest → String → Prop where
  /-- The header decides. -/
  | headers {i : Nat} {r : NameRequest} {name : String} (h : r.HeaderGives name) :
      Wants .headers i r name
  /-- The letters of the column decide. The last position of 64 bits has none. -/
  | letters {i : Nat} {r : NameRequest} : Wants .letters i r (Cell.columnLetters r.ordinal)
  /-- The list decides. -/
  | listed {names : List String} {i : Nat} {r : NameRequest} {name : String}
      (h : names[i]? = some name) : Wants (.listed names) i r name
  /-- The list has come to its end, and the header decides. -/
  | unlisted {names : List String} {i : Nat} {r : NameRequest} {name : String}
      (h : names.length ≤ i) (hheader : r.HeaderGives name) : Wants (.listed names) i r name

/-- The position that the answer to a request counts on from, if it does: letters are written for
the number behind it. -/
def NamingStrategy.countsFrom (strategy : NamingStrategy) (r : NameRequest) : Option Nat :=
  match strategy with
  | .letters => some r.ordinal
  | _ => none

theorem NamingStrategy.any_countsFrom_iff {strategy : NamingStrategy} {r : NameRequest} :
    (strategy.countsFrom r).any Numeral.overflows64 = true ↔
      strategy = .letters ∧ Nat.pow 2 64 ≤ r.ordinal + 1 := by
  cases strategy with
  | letters => simp [countsFrom, Numeral.overflows64]
  | _ => simp [countsFrom]

theorem headerGives_headerName (r : NameRequest) : r.HeaderGives (headerName r) := by
  rw [headerName]
  cases hheader : r.header with
  | none => exact .position fun header h => by simp [hheader] at h
  | some header =>
    dsimp only
    rw [Text.isEmpty_trim, Text.isAllBlank]
    split
    next hblank =>
      refine .position fun header' h => ?_
      obtain rfl := Option.some.inj (hheader.symm.trans h)
      exact List.all_eq_true.1 hblank
    next hblank => exact .text hheader (by simpa using hblank)

/-! ### One session -/

namespace NamingSession

variable {strategy : NamingStrategy} {s : NamingSession} {before : List String}

/-- A session of a strategy in which some names have been given. -/
structure Follows (strategy : NamingStrategy) (before : List String) (s : NamingSession) :
    Prop where
  /-- The list is used up by one name for each request. -/
  listed : ∀ names, strategy = .listed names → s.listed = names.drop before.length
  /-- What has been given is taken, and nothing else. -/
  taken : ∀ name, name ∈ s.taken ↔ name ∈ before

theorem follows_start (strategy : NamingStrategy) (number : Nat) :
    Follows strategy [] (start strategy number) where
  listed := by
    rintro names rfl
    rfl
  taken name := by
    cases strategy <;> simp [start]

/-- What is given is claimed for the candidate, and is taken then. -/
theorem Follows.give (h : Follows strategy before s) (r : NameRequest) (listed : List String)
    (candidate : String)
    (hlisted : ∀ names, strategy = .listed names → listed = names.drop (before.length + 1)) :
    Claims before candidate r.ordinal (next.give s r listed candidate).1 ∧
      Follows strategy (before ++ [(next.give s r listed candidate).1])
        (next.give s r listed candidate).2 := by
  have htaken : (· ∈ s.taken) = (· ∈ before) := funext fun name => propext (h.taken name)
  obtain ⟨probes, hsearch⟩ := search_claim s.taken candidate r.ordinal
  rw [htaken] at hsearch
  refine ⟨hsearch.claims, ?_, ?_⟩
  · intro names hnames
    rw [List.length_append, List.length_singleton]
    exact hlisted names hnames
  · intro name
    simp only [next.give, Std.TreeSet.mem_insert, Std.compare_eq_iff_eq, h.taken, List.mem_append,
      List.mem_singleton, eq_comm (a := name)]
    exact or_comm

/-- **One request**: the name is claimed for what the strategy wants, and the session goes on. -/
theorem Follows.answer (hbuiltIn : strategy.IsBuiltIn) (h : Follows strategy before s)
    (log : NamingLog) (r : NameRequest) :
    (∃ candidate, strategy.Wants before.length r candidate ∧
        Claims before candidate r.ordinal (s.next strategy log r).1) ∧
      Follows strategy (before ++ [(s.next strategy log r).1]) (s.next strategy log r).2 := by
  cases strategy with
  | caller answer => exact hbuiltIn.elim
  | headers =>
    obtain ⟨hclaims, hfollows⟩ := h.give r s.listed (headerName r) (by rintro _ ⟨⟩)
    exact ⟨⟨_, .headers (headerGives_headerName r), hclaims⟩, hfollows⟩
  | letters =>
    obtain ⟨hclaims, hfollows⟩ :=
      h.give r s.listed (Cell.columnLetters r.ordinal) (by rintro _ ⟨⟩)
    exact ⟨⟨_, .letters, hclaims⟩, hfollows⟩
  | listed names =>
    have hleft : s.listed = names.drop before.length := h.listed names rfl
    rw [next]
    split
    next name rest hnext =>
      rw [hnext] at hleft
      obtain ⟨hclaims, hfollows⟩ := h.give r rest name (by
        rintro _ ⟨⟩
        rw [← List.tail_drop, ← hleft, List.tail_cons])
      refine ⟨⟨name, .listed ?_, hclaims⟩, hfollows⟩
      rw [← List.head?_drop, ← hleft, List.head?_cons]
    next hnext =>
      rw [hnext] at hleft
      have hlength : names.length ≤ before.length := List.drop_eq_nil_iff.1 hleft.symm
      obtain ⟨hclaims, hfollows⟩ := h.give r [] (headerName r) (by
        rintro _ ⟨⟩
        exact (List.drop_eq_nil_iff.2 (Nat.le_succ_of_le hlength)).symm)
      exact ⟨⟨_, .unlisted hlength (headerGives_headerName r), hclaims⟩, hfollows⟩

/-- **The requests of a session**: every one is answered, and what it is given depends on what has
been given before it. -/
theorem Follows.answers (hbuiltIn : strategy.IsBuiltIn) (h : Follows strategy before s)
    (log : NamingLog) {requests : List NameRequest} {i : Nat} {r : NameRequest}
    (hr : requests[i]? = some r) :
    ∃ name candidate, (s.nameAll strategy log requests).1[i]? = some name ∧
      strategy.Wants (before.length + i) r candidate ∧
      Claims (before ++ (s.nameAll strategy log requests).1.take i) candidate r.ordinal name := by
  induction requests generalizing s before log i with
  | nil => cases hr
  | cons first rest ih =>
    obtain ⟨⟨candidate, hwants, hclaims⟩, hfollows⟩ := h.answer hbuiltIn log first
    rw [nameAll_cons]
    dsimp only
    cases i with
    | zero =>
      obtain rfl := Option.some.inj hr
      exact ⟨_, candidate, rfl, hwants, by simpa using hclaims⟩
    | succ i =>
      obtain ⟨name, candidate', hname, hwants', hclaims'⟩ := ih hfollows _ hr
      have hnumber : before.length + 1 + i = before.length + (i + 1) := by omega
      rw [List.length_append, List.length_singleton, hnumber] at hwants'
      rw [List.append_assoc, List.singleton_append] at hclaims'
      exact ⟨name, candidate', hname, hwants', hclaims'⟩

/-! ### Sessions side by side -/

/-- What belongs to one session. -/
def ofSession {α : Type} (k : Nat) (all : List (Nat × α)) : List α :=
  (all.filter (·.1 = k)).map (·.2)

theorem ofSession_cons_self {α : Type} (k : Nat) (a : α) (all : List (Nat × α)) :
    ofSession k ((k, a) :: all) = a :: ofSession k all := by
  simp [ofSession]

theorem ofSession_cons_of_ne {α : Type} {j k : Nat} (h : j ≠ k) (a : α) (all : List (Nat × α)) :
    ofSession k ((j, a) :: all) = ofSession k all := by
  simp [ofSession, h]

/-- Answers requests to sessions that are open side by side. Each request goes to the session whose
number stands in front of it. -/
def nameEach (strategy : NamingStrategy) (sessions : Nat → NamingSession) (log : NamingLog) :
    List (Nat × NameRequest) → List (Nat × String)
  | [] => []
  | (k, r) :: rest =>
    let (name, s) := (sessions k).next strategy log r
    (k, name) ::
      nameEach strategy (Function.update sessions k s) (.named k r name :: log) rest

/-- Answers requests where counting is checked. There are no answers if one of them counts on from
the last number of 64 bits. -/
def nameEachChecked (strategy : NamingStrategy) (sessions : Nat → NamingSession) (log : NamingLog) :
    List (Nat × NameRequest) → Option (List (Nat × String))
  | [] => some []
  | (k, r) :: rest =>
    if (strategy.countsFrom r).any Numeral.overflows64 then none
    else
      let (name, s) := (sessions k).next strategy log r
      (nameEachChecked strategy (Function.update sessions k s) (.named k r name :: log) rest).map
        ((k, name) :: ·)

/-- **Naming breaks off** just if letters are wanted for the last position of 64 bits. -/
theorem nameEachChecked_eq_none_iff {sessions : Nat → NamingSession} {log : NamingLog}
    {calls : List (Nat × NameRequest)} :
    nameEachChecked strategy sessions log calls = none ↔
      strategy = .letters ∧ ∃ call ∈ calls, Nat.pow 2 64 ≤ call.2.ordinal + 1 := by
  induction calls generalizing sessions log with
  | nil => simp [nameEachChecked]
  | cons call rest ih =>
    obtain ⟨k, r⟩ := call
    rw [nameEachChecked]
    split
    next hlast =>
      obtain ⟨hletters, hle⟩ := NamingStrategy.any_countsFrom_iff.1 hlast
      exact iff_of_true rfl ⟨hletters, (k, r), List.mem_cons_self, hle⟩
    next hlast =>
      rw [Option.map_eq_none_iff, ih, List.exists_mem_cons_iff]
      constructor
      · rintro ⟨hletters, hcall⟩
        exact ⟨hletters, .inr hcall⟩
      · rintro ⟨hletters, hle | hcall⟩
        · exact absurd (NamingStrategy.any_countsFrom_iff.2 ⟨hletters, hle⟩) hlast
        · exact ⟨hletters, hcall⟩

/-- If naming does not break off, it makes no difference that counting is checked. -/
theorem eq_nameEach_of_nameEachChecked {sessions : Nat → NamingSession} {log : NamingLog}
    {calls : List (Nat × NameRequest)} {answers : List (Nat × String)}
    (h : nameEachChecked strategy sessions log calls = some answers) :
    answers = nameEach strategy sessions log calls := by
  induction calls generalizing sessions log answers with
  | nil => exact (Option.some.inj h).symm
  | cons call rest ih =>
    rw [nameEachChecked] at h
    split at h
    next => cases h
    next =>
      rw [Option.map_eq_some_iff] at h
      obtain ⟨others, hothers, rfl⟩ := h
      rw [nameEach, ih hothers]

/-- One request does not depend on what has happened elsewhere. -/
theorem next_congr (hbuiltIn : strategy.IsBuiltIn) (s : NamingSession) (log log' : NamingLog)
    (r : NameRequest) : s.next strategy log' r = s.next strategy log r := by
  cases strategy with
  | caller answer => exact hbuiltIn.elim
  | _ => rfl

/-- **Sessions of a built-in strategy do not influence each other**: each answers as if it were
alone, whatever the log says. -/
theorem ofSession_nameEach (hbuiltIn : strategy.IsBuiltIn) (sessions : Nat → NamingSession)
    (log log' : NamingLog) (calls : List (Nat × NameRequest)) (k : Nat) :
    ofSession k (nameEach strategy sessions log calls) =
      ((sessions k).nameAll strategy log' (ofSession k calls)).1 := by
  induction calls generalizing sessions log log' with
  | nil => rfl
  | cons call rest ih =>
    obtain ⟨j, r⟩ := call
    rw [nameEach]
    dsimp only
    by_cases hj : j = k
    · subst hj
      rw [ofSession_cons_self, ofSession_cons_self, nameAll_cons, next_congr hbuiltIn _ log log' r]
      dsimp only
      rw [ih, Function.update_self]
    · rw [ofSession_cons_of_ne hj, ofSession_cons_of_ne hj, ih _ _ log',
        Function.update_of_ne (Ne.symm hj)]

/-- **What a session answers among others.** Sessions of a built-in strategy are open side by side,
and one of them is looked at: it answers each of its requests, never gives a name twice, and gives
every request what is claimed for the candidate after the names that it has given before. It gives
the same names if it is the only session, whatever has happened in naming until then.

Where counting is checked the answers are the same, unless letters are wanted for the last position
of 64 bits; naming breaks off there. -/
theorem answers_nameEach (hbuiltIn : strategy.IsBuiltIn) (log : NamingLog)
    (calls : List (Nat × NameRequest)) (k : Nat) :
    let requests := ofSession k calls
    let names := ofSession k (nameEach strategy (start strategy) log calls)
    names.length = requests.length ∧ names.Nodup ∧
      (∀ i r, requests[i]? = some r → ∃ name candidate, names[i]? = some name ∧
        strategy.Wants i r candidate ∧ Claims (names.take i) candidate r.ordinal name) ∧
      (∀ log', (nameColumns strategy log' requests).1 = names) ∧
      (nameEachChecked strategy (start strategy) log calls = none ↔
        strategy = .letters ∧ ∃ call ∈ calls, Nat.pow 2 64 ≤ call.2.ordinal + 1) ∧
      ∀ answers, nameEachChecked strategy (start strategy) log calls = some answers →
        ofSession k answers = names := by
  intro requests names
  have hnames (log' : NamingLog) : names = ((start strategy k).nameAll strategy log' requests).1 :=
    ofSession_nameEach hbuiltIn (start strategy) log log' calls k
  refine ⟨?_, ?_, ?_, ?_, nameEachChecked_eq_none_iff, ?_⟩
  · rw [hnames log, length_nameAll]
  · rw [hnames log]
    exact (nodup_nameAll hbuiltIn _ log requests).1
  · intro i r hr
    obtain ⟨name, candidate, hname, hwants, hclaims⟩ :=
      (follows_start strategy k).answers hbuiltIn log hr
    rw [← hnames log] at hname hclaims
    rw [List.length_nil, Nat.zero_add] at hwants
    exact ⟨name, candidate, hname, hwants, hclaims⟩
  · intro log'
    rw [hnames log']
    refine nameAll_congr hbuiltIn ?_ ?_ _ _ requests
    · cases strategy <;> rfl
    · cases strategy <;> rfl
  · intro answers hanswers
    rw [eq_nameEach_of_nameEachChecked hanswers]

/-- Two sessions of a list that names a column twice, and headers that collide with it. -/
theorem answers_nameEach_twice :
    let strategy := NamingStrategy.listed ["key", "key"]
    let third : NameRequest := ⟨"One", some " key ", 1⟩
    let calls := [(0, ⟨"One", some "id", 0⟩), (1, ⟨"Two", none, 0⟩), (0, ⟨"One", none, 1⟩),
      (0, third), (1, ⟨"Two", some "key_1", 0⟩)]
    let names := ofSession 0 (nameEach strategy (start strategy) [] calls)
    strategy.IsBuiltIn ∧ names = ["key", "key_1", "key_1_2"] ∧ names.Nodup ∧
      (ofSession 0 calls)[2]? = some third ∧
      (∃ name candidate, names[2]? = some name ∧ strategy.Wants 2 third candidate ∧
        Claims (names.take 2) candidate 1 name) ∧
      (nameColumns strategy [.started 0] (ofSession 0 calls)).1 = names ∧
      nameEachChecked strategy (start strategy) [] calls ≠ none := by
  intro strategy third calls names
  have hbuiltIn : strategy.IsBuiltIn := trivial
  have hletters : NamingStrategy.listed ["key", "key"] ≠ .letters := nofun
  obtain ⟨-, hnodup, hanswers, halone, hchecked, -⟩ := answers_nameEach hbuiltIn [] calls 0
  have hthird : (ofSession 0 calls)[2]? = some third := rfl
  exact ⟨hbuiltIn, by decide +kernel, hnodup, hthird, hanswers 2 third hthird,
    halone [.started 0], fun hnone => hletters (hchecked.1 hnone).1⟩

/-- Letters for the last position of 64 bits, which has none, and twice at that. -/
example :
    let last : NameRequest := ⟨"One", none, 18446744073709551615⟩
    (nameColumns .letters [] [last, last]).1 = ["", "_18446744073709551615"] ∧
      nameEachChecked .letters (start .letters) [] [(0, last)] = none := by
  decide +kernel

end NamingSession

end WorkbookTables
