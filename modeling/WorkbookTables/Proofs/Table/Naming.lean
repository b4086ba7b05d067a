import Mathlib.Data.List.Nodup
import Mathlib.Data.List.Perm.Subperm
import WorkbookTables.Table.Naming

/-!
# Names of columns are different

A name that is taken is given a number, and another number if that name is taken too. Different
numbers make different names, and so a search that looks at one name more than there are taken ones
must come upon a free one. Hence a session of a built-in strategy never gives a name twice, whatever
the headers of its columns are and whatever names it was told to use.

What a built-in strategy answers depends on its own session and on nothing that has happened before.
This is what separates the tables of a workbook from each other.

## Main definitions

* `NamingStrategy.IsBuiltIn` — the strategies that are not the caller's
* `numbered` — a stem with a number

## Main results

* `claim_not_mem` — the name that is given is free
* `nodup_nameColumns` — a session gives different names
* `nameColumns_congr` — they do not depend on what has happened before
-/

namespace WorkbookTables

/-! ### Free names -/

/-- The stem with a number behind it. -/
def numbered (stem : String) (k : Nat) : String :=
  stem ++ "_" ++ String.ofList (Nat.toDigits 10 k)

theorem numbered_injective (stem : String) : Function.Injective (numbered stem) := by
  intro j k h
  have hdigits : Nat.toDigits 10 j = Nat.toDigits 10 k := by
    simpa [numbered] using congrArg String.toList h
  rw [← Nat.ofDigitChars_ten_toDigits (n := j), hdigits, Nat.ofDigitChars_ten_toDigits]

variable {taken : Std.TreeSet String} {stem : String}

theorem freeName_succ_of_mem {k : Nat} (h : numbered stem k ∈ taken) (attempts : Nat) :
    freeName taken stem (attempts + 1) k = freeName taken stem attempts (k + 1) :=
  if_pos (Std.TreeSet.contains_iff_mem.2 h)

theorem freeName_succ_of_not_mem {k : Nat} (h : numbered stem k ∉ taken) (attempts : Nat) :
    freeName taken stem (attempts + 1) k = numbered stem k :=
  if_neg fun hmem => h (Std.TreeSet.contains_iff_mem.1 hmem)

/-- A search that ends with a name that is taken has come upon taken ones only. -/
theorem mem_of_freeName_mem {attempts k : Nat} (h : freeName taken stem attempts k ∈ taken) :
    ∀ i, i ≤ attempts → numbered stem (k + i) ∈ taken := by
  induction attempts generalizing k with
  | zero =>
    intro i hi
    obtain rfl : i = 0 := by omega
    exact h
  | succ attempts ih =>
    by_cases hname : numbered stem k ∈ taken
    · rw [freeName_succ_of_mem hname] at h
      intro i hi
      cases i with
      | zero => exact hname
      | succ i =>
        have hlater := ih h i (by omega)
        rwa [show k + 1 + i = k + (i + 1) by omega] at hlater
    · rw [freeName_succ_of_not_mem hname] at h
      exact absurd h hname

/-- So many names in a row are taken at most as there are taken ones, if the names are different. -/
theorem le_length_of_injective {names : Nat → String} (hnames : Function.Injective names)
    {given : List String} {i k : Nat} (h : ∀ j, j < k → names (i + j) ∈ given) :
    k ≤ given.length := by
  let seen := (List.range k).map fun j => names (i + j)
  have hnodup : seen.Nodup := by
    refine List.Nodup.map ?_ List.nodup_range
    intro j j' hj
    have hsum : i + j = i + j' := hnames hj
    omega
  have hsubset : seen ⊆ given := by
    intro name hname
    obtain ⟨j, hj, rfl⟩ := List.mem_map.1 hname
    exact h j (List.mem_range.1 hj)
  have hlength := (hnodup.subperm hsubset).length_le
  rwa [List.length_map, List.length_range] at hlength

/-- **A search finds a free name** if it may look at more names than there are taken ones. -/
theorem freeName_not_mem (taken : Std.TreeSet String) (stem : String) (k : Nat) :
    freeName taken stem taken.size k ∉ taken := by
  intro h
  have hmore : taken.size + 1 ≤ taken.toList.length := by
    refine le_length_of_injective (numbered_injective stem) (i := k) fun j hj => ?_
    exact Std.TreeSet.mem_toList.2 (mem_of_freeName_mem h j (by omega))
  rw [Std.TreeSet.length_toList] at hmore
  omega

/-- **The name that is given is free.** -/
theorem claim_not_mem (taken : Std.TreeSet String) (candidate : String) (ordinal : Nat) :
    claim taken candidate ordinal ∉ taken := by
  simp only [claim, Std.TreeSet.contains_iff_mem]
  split
  · split
    · exact freeName_not_mem taken _ 2
    · assumption
  · assumption

/-! ### Sessions -/

/-- Holds of the strategies that are not the caller's. -/
def NamingStrategy.IsBuiltIn : NamingStrategy → Prop
  | .caller _ => False
  | _ => True

namespace NamingSession

variable {strategy : NamingStrategy}

/-- A session of a built-in strategy gives a name that is free, which is taken then. -/
theorem next_of_isBuiltIn (h : strategy.IsBuiltIn) (s : NamingSession) (log : NamingLog)
    (r : NameRequest) :
    (s.next strategy log r).1 ∉ s.taken ∧
      (s.next strategy log r).2.taken = s.taken.insert (s.next strategy log r).1 := by
  have hgive (listed : List String) (candidate : String) :
      (next.give s r listed candidate).1 ∉ s.taken ∧
        (next.give s r listed candidate).2.taken =
          s.taken.insert (next.give s r listed candidate).1 :=
    ⟨claim_not_mem s.taken candidate r.ordinal, rfl⟩
  cases strategy with
  | caller answer => exact h.elim
  | letters => exact hgive _ _
  | headers => exact hgive _ _
  | listed names =>
    rw [next]
    split <;> exact hgive _ _

theorem nameAll_cons (s : NamingSession) (log : NamingLog) (r : NameRequest)
    (rest : List NameRequest) :
    (s.nameAll strategy log (r :: rest)).1 =
      let given := s.next strategy log r
      given.1 :: (given.2.nameAll strategy (.named given.2.number r given.1 :: log) rest).1 :=
  rfl

/-- The names of a session are different from each other and from those that were taken. -/
theorem nodup_nameAll (h : strategy.IsBuiltIn) (s : NamingSession) (log : NamingLog)
    (requests : List NameRequest) :
    (s.nameAll strategy log requests).1.Nodup ∧
      ∀ name ∈ (s.nameAll strategy log requests).1, name ∉ s.taken := by
  induction requests generalizing s log with
  | nil => exact ⟨List.nodup_nil, nofun⟩
  | cons r rest ih =>
    obtain ⟨hfree, htaken⟩ := next_of_isBuiltIn h s log r
    rw [nameAll_cons]
    dsimp only
    generalize s.next strategy log r = given at hfree htaken
    obtain ⟨hnodup, hrest⟩ := ih given.2 (.named given.2.number r given.1 :: log)
    rw [htaken] at hrest
    refine ⟨List.nodup_cons.2 ⟨?_, hnodup⟩, ?_⟩
    · intro hmem
      exact hrest _ hmem Std.TreeSet.mem_insert_self
    · intro name hmem
      obtain rfl | hmem := List.mem_cons.1 hmem
      · exact hfree
      · exact fun hname => hrest name hmem (Std.TreeSet.mem_insert.2 (.inr hname))

/-- The names of a session depend on the names that are left and taken, but neither on its number
nor on the log. -/
theorem nameAll_congr (h : strategy.IsBuiltIn) {s s' : NamingSession}
    (hlisted : s'.listed = s.listed) (htaken : s'.taken = s.taken) (log log' : NamingLog)
    (requests : List NameRequest) :
    (s'.nameAll strategy log' requests).1 = (s.nameAll strategy log requests).1 := by
  induction requests generalizing s s' log log' with
  | nil => rfl
  | cons r rest ih =>
    have hnext : (s'.next strategy log' r).1 = (s.next strategy log r).1 ∧
        (s'.next strategy log' r).2.listed = (s.next strategy log r).2.listed ∧
        (s'.next strategy log' r).2.taken = (s.next strategy log r).2.taken := by
      obtain ⟨number, listed, taken⟩ := s
      obtain ⟨number', listed', taken'⟩ := s'
      obtain rfl : listed' = listed := hlisted
      obtain rfl : taken' = taken := htaken
      cases strategy with
      | caller answer => exact h.elim
      | letters => exact ⟨rfl, rfl, rfl⟩
      | headers => exact ⟨rfl, rfl, rfl⟩
      | listed names => cases listed' <;> exact ⟨rfl, rfl, rfl⟩
    obtain ⟨hname, hlisted', htaken'⟩ := hnext
    exact List.cons_eq_cons.2 ⟨hname, ih hlisted' htaken' _ _⟩

end NamingSession

variable {strategy : NamingStrategy}

/-- **A session gives different names.** -/
theorem nodup_nameColumns (h : strategy.IsBuiltIn) (log : NamingLog) (requests : List NameRequest) :
    (nameColumns strategy log requests).1.Nodup :=
  (NamingSession.nodup_nameAll h _ _ requests).1

/-- **What a session gives does not depend on what has happened before.** -/
theorem nameColumns_congr (h : strategy.IsBuiltIn) (log log' : NamingLog)
    (requests : List NameRequest) :
    (nameColumns strategy log' requests).1 = (nameColumns strategy log requests).1 := by
  refine NamingSession.nameAll_congr h ?_ ?_ _ _ requests
  · cases strategy <;> rfl
  · cases strategy <;> rfl

end WorkbookTables
