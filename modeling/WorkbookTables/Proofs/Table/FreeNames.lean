import WorkbookTables.Proofs.Table.Naming

/-!
# The search for a free name

What is tried for a column is told here as one sequence: its candidate, the candidate with the
position of the column, and this with a counter from 2 on. A search goes through the sequence until
it comes upon a name that is free. It has no limit of its own, and it needs none. The names of the
sequence are all different, because each piece that is appended makes a name longer and different
counters are written differently, so each probe but the last has used up one of the names that are
taken.

The name that is claimed for a candidate is the one at which this search ends.

## Main definitions

* `trial` — the names that are tried
* `Search` — a search, with the number of its probes
* `Claims` — the name that is claimed for a candidate

## Main results

* `Search.le_length` — a search is over after one more probe than there are names taken
* `search_claim` — the name that is claimed is where the search ends
* `Search.claims` — which name that is
-/

namespace WorkbookTables

/-! ### What is tried -/

/-- The names that are tried for a candidate, one after another. -/
def trial (candidate : String) (ordinal : Nat) : Nat → String
  | 0 => candidate
  | 1 => numbered candidate ordinal
  | k + 2 => numbered (numbered candidate ordinal) (k + 2)

theorem length_lt_numbered (stem : String) (k : Nat) : stem.length < (numbered stem k).length := by
  have hmark : "_".length = 1 := rfl
  rw [numbered, String.length_append, String.length_append]
  omega

/-- **The names that are tried are different.** -/
theorem trial_injective (candidate : String) (ordinal : Nat) :
    Function.Injective (trial candidate ordinal) := by
  have hstem := length_lt_numbered candidate ordinal
  have hcounted := length_lt_numbered (numbered candidate ordinal)
  intro i j h
  match i, j with
  | 0, 0 => rfl
  | 1, 1 => rfl
  | i + 2, j + 2 => exact numbered_injective (numbered candidate ordinal) h
  | 0, 1 | 1, 0 =>
    have hlength := congrArg String.length h
    simp only [trial] at hlength
    omega
  | 0, k + 2 | 1, k + 2 | k + 2, 0 | k + 2, 1 =>
    have hlonger := hcounted (k + 2)
    have hlength := congrArg String.length h
    simp only [trial] at hlength
    omega

/-! ### Searches -/

/-- A search among names of which some are taken: from the `i`th name on it makes so many probes,
the last of which comes upon a free name. -/
inductive Search (taken : String → Prop) (names : Nat → String) : Nat → Nat → String → Prop where
  /-- The name is free. -/
  | found {i : Nat} (h : ¬taken (names i)) : Search taken names i 1 (names i)
  /-- The name is taken, and the next one is tried. -/
  | passed {i probes : Nat} {name : String} (h : taken (names i))
      (hrest : Search taken names (i + 1) probes name) : Search taken names i (probes + 1) name

namespace Search

variable {taken : String → Prop} {names : Nat → String} {i probes : Nat} {name : String}

/-- **Where a search ends**: every name before is taken, and this one is not. -/
theorem exists_last (h : Search taken names i probes name) :
    ∃ k, probes = k + 1 ∧ name = names (i + k) ∧ ¬taken (names (i + k)) ∧
      ∀ j, j < k → taken (names (i + j)) := by
  induction h with
  | found h => exact ⟨0, rfl, rfl, h, nofun⟩
  | @passed i probes name h _ ih =>
    obtain ⟨k, rfl, rfl, hfree, hbefore⟩ := ih
    have hshift (j : Nat) : i + 1 + j = i + (j + 1) := by omega
    simp only [hshift] at hfree hbefore
    refine ⟨k + 1, rfl, by rw [hshift], hfree, ?_⟩
    intro j hj
    cases j with
    | zero => exact h
    | succ j => exact hbefore j (by omega)

theorem not_taken (h : Search taken names i probes name) : ¬taken name := by
  obtain ⟨k, -, rfl, hfree, -⟩ := h.exists_last
  exact hfree

/-- **A search is over after one more probe than there are names taken**, if the names that are
tried are different. -/
theorem le_length {before : List String} (hnames : Function.Injective names)
    (h : Search (· ∈ before) names i probes name) : probes ≤ before.length + 1 := by
  obtain ⟨k, rfl, -, -, hbefore⟩ := h.exists_last
  exact Nat.succ_le_succ (le_length_of_injective hnames hbefore)

end Search

/-- The search behind a taken stem, which tries as many names as it is allowed if it has to. -/
theorem search_freeName {taken : Std.TreeSet String} {candidate : String} {ordinal attempts k : Nat}
    (h : freeName taken (numbered candidate ordinal) attempts (k + 2) ∉ taken) :
    ∃ probes, Search (· ∈ taken) (trial candidate ordinal) (k + 2) probes
      (freeName taken (numbered candidate ordinal) attempts (k + 2)) := by
  induction attempts generalizing k with
  | zero => exact ⟨1, .found h⟩
  | succ attempts ih =>
    by_cases hname : numbered (numbered candidate ordinal) (k + 2) ∈ taken
    · rw [freeName_succ_of_mem hname] at h ⊢
      obtain ⟨probes, hsearch⟩ := ih (k := k + 1) h
      exact ⟨probes + 1, .passed hname hsearch⟩
    · rw [freeName_succ_of_not_mem hname] at h ⊢
      exact ⟨1, .found hname⟩

/-- **The name that is claimed is where the search ends**, although the search is given a limit. -/
theorem search_claim (taken : Std.TreeSet String) (candidate : String) (ordinal : Nat) :
    ∃ probes, Search (· ∈ taken) (trial candidate ordinal) 0 probes
      (claim taken candidate ordinal) := by
  have hstem : candidate ++ "_" ++ String.ofList (Nat.toDigits 10 ordinal) =
      numbered candidate ordinal := rfl
  simp only [claim, Std.TreeSet.contains_iff_mem, hstem]
  split
  next hcandidate =>
    split
    next hnumbered =>
      obtain ⟨probes, hsearch⟩ := search_freeName (k := 0)
        (freeName_not_mem taken (numbered candidate ordinal) 2)
      exact ⟨probes + 1 + 1, .passed hcandidate (.passed hnumbered hsearch)⟩
    next hnumbered => exact ⟨2, .passed hcandidate (.found hnumbered)⟩
  next hcandidate => exact ⟨1, .found hcandidate⟩

/-! ### Which name it is -/

/-- The name that is claimed for a candidate after some names have been given. Besides how it is
found it is told which name it is. -/
structure Claims (before : List String) (candidate : String) (ordinal : Nat) (name : String) :
    Prop where
  /-- It is found by a search that is over after one more probe than there are names given. -/
  search : ∃ probes, probes ≤ before.length + 1 ∧
    Search (· ∈ before) (trial candidate ordinal) 0 probes name
  /-- It is the candidate just if this has not been given. -/
  own : name = candidate ↔ candidate ∉ before
  /-- Otherwise it has the position behind the candidate, and behind that the least counter that
  makes a name which has not been given, unless it does without a counter. -/
  other : candidate ∈ before →
    name = numbered candidate ordinal ∧ numbered candidate ordinal ∉ before ∨
      numbered candidate ordinal ∈ before ∧ ∃ k, 2 ≤ k ∧
        name = numbered (numbered candidate ordinal) k ∧ name ∉ before ∧
        ∀ j, 2 ≤ j → j < k → numbered (numbered candidate ordinal) j ∈ before

/-- **Where the search for a candidate ends.** -/
theorem Search.claims {before : List String} {candidate name : String} {ordinal probes : Nat}
    (h : Search (· ∈ before) (trial candidate ordinal) 0 probes name) :
    Claims before candidate ordinal name := by
  have hsearch : ∃ probes, probes ≤ before.length + 1 ∧
      Search (· ∈ before) (trial candidate ordinal) 0 probes name :=
    ⟨probes, h.le_length (trial_injective candidate ordinal), h⟩
  have hfree := h.not_taken
  obtain ⟨k, -, hname, -, hbefore⟩ := h.exists_last
  simp only [Nat.zero_add] at hname hbefore
  match k with
  | 0 =>
    obtain rfl : name = candidate := hname
    exact ⟨hsearch, iff_of_true rfl hfree, fun hgiven => absurd hgiven hfree⟩
  | 1 =>
    have hgiven : candidate ∈ before := hbefore 0 Nat.one_pos
    subst hname
    refine ⟨hsearch, iff_of_false ?_ (not_not_intro hgiven), fun _ => .inl ⟨rfl, hfree⟩⟩
    intro hown
    rw [hown] at hfree
    exact hfree hgiven
  | k + 2 =>
    have hgiven : candidate ∈ before := hbefore 0 (by omega)
    have hstem : numbered candidate ordinal ∈ before := hbefore 1 (by omega)
    refine ⟨hsearch, iff_of_false ?_ (not_not_intro hgiven), fun _ => .inr ⟨hstem, ?_⟩⟩
    · rintro rfl
      exact hfree hgiven
    · refine ⟨k + 2, by omega, hname, hfree, ?_⟩
      intro j hle hlt
      obtain ⟨j, rfl⟩ := Nat.exists_eq_add_of_le' hle
      exact hbefore (j + 2) hlt

end WorkbookTables
