import WorkbookTables.Cell.Reference
import WorkbookTables.Text.Blank
import Std.Data.TreeSet

/-!
# Naming the columns of a table

The columns of a table are named in a session of their own, one request after another. The names of
the built-in strategies come from the header texts, from the letters of the columns, or from a list
that is used up before header texts are. If a name has been given in the session already, the
position of the column is appended, and after that a counter that makes the name a new one.

A caller may bring a strategy of its own. It is told when a session starts and when it is closed,
so what it answers may depend on everything that has happened before: that is the log of naming.
What it answers is taken as it is.

## Main definitions

* `NameRequest`, `NamingEvent` — what a strategy is asked, and what it is told
* `NamingStrategy` — the strategies
* `NamingSession.next` — one request in a session of a built-in strategy
* `nameColumns` — a whole session, from its start to its close
-/

namespace WorkbookTables

/-- What a strategy is told of a column that wants a name. -/
structure NameRequest where
  /-- The table that the column belongs to. -/
  table : String
  /-- The text of its header, if there is one. -/
  header : Option String
  /-- The position of its cells in the rows. -/
  ordinal : Nat
  deriving DecidableEq, Repr

/-- What happens in naming. Sessions are numbered in the order in which they start. -/
inductive NamingEvent where
  /-- A session starts. -/
  | started (session : Nat)
  /-- A column is given a name. -/
  | named (session : Nat) (request : NameRequest) (name : String)
  /-- A session is closed. -/
  | closed (session : Nat)
  deriving DecidableEq, Repr

/-- Everything that has happened in naming, the latest event first. -/
abbrev NamingLog := List NamingEvent

namespace NamingLog

/-- How many sessions have started. -/
def started (log : NamingLog) : Nat :=
  log.countP fun
    | .started _ => true
    | _ => false

/-- How many sessions have been closed. -/
def closed (log : NamingLog) : Nat :=
  log.countP fun
    | .closed _ => true
    | _ => false

end NamingLog

/-- Where names of columns come from. -/
inductive NamingStrategy where
  /-- The header texts. -/
  | headers
  /-- The letters of the columns. -/
  | letters
  /-- A list, and the header texts after its end. -/
  | listed (names : List String)
  /-- The caller, who knows the log. -/
  | caller (answer : NamingLog → NameRequest → String)

/-! ## Free names -/

/-- The first name that is free of `stem_k`, `stem_(k+1)` and so on, `attempts` of which may turn
out to be taken. -/
def freeName (taken : Std.TreeSet String) (stem : String) (attempts k : Nat) : String :=
  let name := stem ++ "_" ++ String.ofList (Nat.toDigits 10 k)
  match attempts with
  | 0 => name
  | attempts + 1 => if taken.contains name then freeName taken stem attempts (k + 1) else name

/-- The candidate, or the first free name that is made from it. -/
def claim (taken : Std.TreeSet String) (candidate : String) (ordinal : Nat) : String :=
  if taken.contains candidate then
    let stem := candidate ++ "_" ++ String.ofList (Nat.toDigits 10 ordinal)
    if taken.contains stem then freeName taken stem taken.size 2 else stem
  else candidate

/-- The name of a column without header text. -/
def positionalName (ordinal : Nat) : String :=
  s!"column[{ordinal}]"

/-- The header text, or the positional name if it is missing or blank. -/
def headerName (r : NameRequest) : String :=
  match r.header with
  | some header =>
    let name := Text.trim header
    if name.isEmpty then positionalName r.ordinal else name
  | none => positionalName r.ordinal

/-! ## Sessions -/

/-- A session of a strategy. -/
structure NamingSession where
  /-- The number of the session. -/
  number : Nat
  /-- The names of the list that have not been used. -/
  listed : List String
  /-- The names that have been given. -/
  taken : Std.TreeSet String

namespace NamingSession

/-- A session in which nothing has been named. -/
def start (strategy : NamingStrategy) (number : Nat) : NamingSession :=
  match strategy with
  | .listed names => ⟨number, names, ∅⟩
  | _ => ⟨number, [], ∅⟩

/-- The name of the next column, and the session afterwards. -/
def next (s : NamingSession) (strategy : NamingStrategy) (log : NamingLog) (r : NameRequest) :
    String × NamingSession :=
  match strategy with
  | .caller answer => (answer log r, s)
  | .letters => give s.listed (Cell.columnLetters r.ordinal)
  | .headers => give s.listed (headerName r)
  | .listed _ =>
    match s.listed with
    | name :: rest => give rest name
    | [] => give [] (headerName r)
where
  /-- Gives the candidate, or a free name made from it. -/
  give (listed : List String) (candidate : String) : String × NamingSession :=
    let name := claim s.taken candidate r.ordinal
    (name, { s with listed, taken := s.taken.insert name })

/-- Names columns one after another. -/
def nameAll (strategy : NamingStrategy) (s : NamingSession) (log : NamingLog) :
    List NameRequest → List String × NamingLog
  | [] => ([], log)
  | r :: rest =>
    let (name, s) := s.next strategy log r
    let (names, log) := nameAll strategy s (.named s.number r name :: log) rest
    (name :: names, log)

end NamingSession

/-- Names the columns of a table in a session of their own, which is closed at the end. -/
def nameColumns (strategy : NamingStrategy) (log : NamingLog) (requests : List NameRequest) :
    List String × NamingLog :=
  let number := log.started
  let (names, log) :=
    (NamingSession.start strategy number).nameAll strategy (.started number :: log) requests
  (names, .closed number :: log)

end WorkbookTables
