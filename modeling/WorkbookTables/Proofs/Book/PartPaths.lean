import WorkbookTables.Proofs.Book.UsedPackages
import WorkbookTables.Proofs.Markup.Passing

/-!
# Where targets lead

A package is a tree of directories, and a target is a walk in it: one segment after the other is
entered, stays where one is, or goes up. What is particular about a package is its root. Whoever is
there and goes up stays there, so that every walk comes to a place, and no walk leaves the tree.

The path that a target resolves to is compared as a text with the names of an archive. So it matters
that there is one spelling for each place: the names on the way to it, with a slash between any two
of them and none at the ends. Such a path is also a walk, which only ever goes down. It comes to the
place that it names from the root of the package, and to the same place below any other directory in
which the package may stand.

## What is deliberately absent

A backslash is a letter like any other here. It counts as a slash only when a part is looked up,
after the path has been resolved, so two dots in front of one are not followed.

## Main definitions

* `PartPath.IsName` — the segments that name something
* `PartPath.steps`, `PartPath.IsCanonical` — the segments of a path, and paths of names alone
* `PartPath.Walk` — the place that segments lead to
* `PartPath.NamesPlace` — the path that a target names

## Main results

* `PartPath.walk_iff` — every walk comes to one place, where the fold over its segments ends
* `PartPath.walk_of_isName` — a walk along names goes down, from wherever it begins
* `PartPath.resolve_eq_self_iff` — the canonical paths are those that resolve to themselves
* `PartPath.namesPlace_iff` — what a target resolves to is the path that it names
* `Package.isCanonical_ofContainer` — a package wants its manifest and its worksheets under
  canonical paths
-/

namespace WorkbookTables

open Markup

namespace PartPath

/-! ### Segments -/

/-- A segment that names something: there is something in it, and it is neither of the two that
have a meaning of their own. -/
structure IsName (segment : List Char) : Prop where
  /-- It is not empty. -/
  ne_nil : segment ≠ []
  /-- It does not mean the directory itself. -/
  ne_dot : segment ≠ ['.']
  /-- It does not mean the directory above. -/
  ne_dots : segment ≠ ['.', '.']

/-- What a segment may mean. -/
theorem stays_or_leaves_or_isName (segment : List Char) :
    (segment = [] ∨ segment = ['.']) ∨ segment = ['.', '.'] ∨ IsName segment := by
  by_cases hstay : segment = [] ∨ segment = ['.']
  · exact .inl hstay
  · rw [not_or] at hstay
    by_cases hdots : segment = ['.', '.']
    · exact .inr (.inl hdots)
    · exact .inr (.inr ⟨hstay.1, hstay.2, hdots⟩)

theorem segments_eq_splitOn (path : List Char) : segments path = path.splitOn '/' := by
  induction path with
  | nil => rfl
  | cons c rest ih =>
    have hcons : (c :: rest).splitOn '/' =
        if c == '/' then [] :: rest.splitOn '/' else (rest.splitOn '/').modifyHead (c :: ·) :=
      List.splitOnP_cons_eq_if_modifyHead c rest
    rw [segments, ih, hcons]
    by_cases hc : c = '/'
    · rw [if_pos hc, if_pos (beq_iff_eq.2 hc)]
    · rw [if_neg hc, if_neg (fun h => hc (beq_iff_eq.1 h))]
      cases hrest : rest.splitOn '/' with
      | nil => exact absurd hrest (List.splitOn_ne_nil '/' rest)
      | cons first others => rfl

theorem joined_eq_intercalate (pieces : List (List Char)) :
    joined pieces = ['/'].intercalate pieces := by
  induction pieces with
  | nil => rfl
  | cons first rest ih =>
    cases rest with
    | nil => exact List.intercalate_singleton.symm
    | cons second others =>
      rw [joined, ih, List.intercalate_cons_cons, List.append_assoc]
      · rfl
      · exact List.cons_ne_nil _ _

/-- No piece between slashes has one in it. -/
theorem slash_notMem_of_mem_segments {path segment : List Char} (h : segment ∈ segments path) :
    '/' ∉ segment := by
  induction path generalizing segment with
  | nil =>
    rw [List.mem_singleton.1 h]
    exact List.not_mem_nil
  | cons c rest ih =>
    rw [segments] at h
    by_cases hc : c = '/'
    · rw [if_pos hc] at h
      obtain rfl | hrest := List.mem_cons.1 h
      · exact List.not_mem_nil
      · exact ih hrest
    · rw [if_neg hc] at h
      cases hrest : segments rest with
      | nil =>
        rw [hrest] at h
        rw [List.mem_singleton.1 h, List.mem_singleton]
        exact Ne.symm hc
      | cons first others =>
        rw [hrest] at h ih
        obtain rfl | hothers := List.mem_cons.1 h
        · rw [List.mem_cons, not_or]
          exact ⟨Ne.symm hc, ih List.mem_cons_self⟩
        · exact ih (List.mem_cons_of_mem _ hothers)

/-- The segments of a path. The empty path, which names the root, has none. -/
def steps (path : String) : List (List Char) :=
  if path = "" then [] else path.toList.splitOn '/'

/-- A path all of whose segments are names. -/
def IsCanonical (path : String) : Prop := ∀ segment ∈ steps path, IsName segment

/-- A path is told by its segments. -/
theorem ofList_intercalate_steps (path : String) :
    String.ofList (['/'].intercalate (steps path)) = path := by
  by_cases hpath : path = ""
  · rw [hpath]
    rfl
  · rw [steps, if_neg hpath, List.intercalate_splitOn, String.ofList_toList]

theorem steps_ofList_intercalate {pieces : List (List Char)}
    (h : ∀ piece ∈ pieces, piece ≠ [] ∧ '/' ∉ piece) :
    steps (String.ofList (['/'].intercalate pieces)) = pieces := by
  cases pieces with
  | nil => rfl
  | cons first rest =>
    have hsplit := List.splitOn_intercalate '/' (fun piece hpiece => (h piece hpiece).2)
      (List.cons_ne_nil first rest)
    have hne : String.ofList (['/'].intercalate (first :: rest)) ≠ "" := by
      intro hempty
      -- The empty text is one piece, which is empty.
      have hnil := congrArg String.toList hempty
      rw [String.toList_ofList] at hnil
      rw [hnil] at hsplit
      obtain ⟨rfl, -⟩ := List.cons.inj (hsplit : [[]] = first :: rest)
      exact (h [] List.mem_cons_self).1 rfl
    rw [steps, if_neg hne, String.toList_ofList, hsplit]

/-! ### Walks -/

/-- The place that one comes to from a place, going through segments. A place is told by the names
on the way to it from the root, and the root itself is the empty way. -/
inductive Walk : List (List Char) → List (List Char) → List (List Char) → Prop where
  /-- There is no further segment. -/
  | arrived (place : List (List Char)) : Walk place [] place
  /-- An empty segment and a single dot stay. -/
  | stay {place rest last : List (List Char)} {segment : List Char}
    (hsegment : segment = [] ∨ segment = ['.']) (h : Walk place rest last) :
    Walk place (segment :: rest) last
  /-- A name enters. -/
  | enter {place rest last : List (List Char)} {segment : List Char} (hsegment : IsName segment)
    (h : Walk (place ++ [segment]) rest last) : Walk place (segment :: rest) last
  /-- Two dots leave what was entered last. -/
  | leave {place rest last : List (List Char)} {entered : List Char} (h : Walk place rest last) :
    Walk (place ++ [entered]) (['.', '.'] :: rest) last
  /-- At the root there is nothing to leave. -/
  | atRoot {rest last : List (List Char)} (h : Walk [] rest last) :
    Walk [] (['.', '.'] :: rest) last

theorem visit_of_stay {kept : List (List Char)} {segment : List Char}
    (h : segment = [] ∨ segment = ['.']) : visit kept segment = kept := if_pos h

theorem visit_of_isName {kept : List (List Char)} {segment : List Char} (h : IsName segment) :
    visit kept segment = segment :: kept := by
  rw [visit, if_neg (not_or.2 ⟨h.ne_nil, h.ne_dot⟩), if_neg h.ne_dots]

theorem visit_dots (kept : List (List Char)) : visit kept ['.', '.'] = kept.tail := by
  rw [visit, if_neg (by decide), if_pos rfl]

/-- Every walk comes to a place. -/
theorem walk_foldl (segments kept : List (List Char)) :
    Walk kept.reverse segments (segments.foldl visit kept).reverse := by
  induction segments generalizing kept with
  | nil => exact .arrived _
  | cons segment rest ih =>
    rw [List.foldl_cons]
    obtain hstay | rfl | hname := stays_or_leaves_or_isName segment
    · rw [visit_of_stay hstay]
      exact .stay hstay (ih kept)
    · rw [visit_dots]
      cases kept with
      | nil => exact .atRoot (ih [])
      | cons entered others =>
        rw [List.reverse_cons]
        exact .leave (ih others)
    · rw [visit_of_isName hname]
      refine .enter hname ?_
      rw [← List.reverse_cons]
      exact ih (segment :: kept)

/-- **Every walk comes to one place**, where the fold over its segments ends. -/
theorem walk_iff {place segments last : List (List Char)} :
    Walk place segments last ↔ last = (segments.foldl visit place.reverse).reverse := by
  constructor
  · intro h
    induction h with
    | arrived place => exact (List.reverse_reverse place).symm
    | stay hsegment _ ih => rw [ih, List.foldl_cons, visit_of_stay hsegment]
    | enter hsegment _ ih => rw [ih, List.foldl_cons, visit_of_isName hsegment, List.reverse_concat]
    | leave _ ih => rw [ih, List.foldl_cons, visit_dots, List.reverse_concat, List.tail_cons]
    | atRoot _ ih => exact ih
  · rintro rfl
    have h := walk_foldl segments place.reverse
    rwa [List.reverse_reverse] at h

theorem foldl_visit_of_isName {segments : List (List Char)} (h : ∀ s ∈ segments, IsName s)
    (kept : List (List Char)) : segments.foldl visit kept = segments.reverse ++ kept := by
  induction segments generalizing kept with
  | nil => rfl
  | cons segment rest ih =>
    obtain ⟨hsegment, hrest⟩ := List.forall_mem_cons.1 h
    rw [List.foldl_cons, visit_of_isName hsegment, ih hrest, List.reverse_cons, List.append_assoc]
    rfl

/-- **A walk along names goes down**, from wherever it begins. -/
theorem walk_of_isName {segments : List (List Char)} (h : ∀ s ∈ segments, IsName s)
    (root place : List (List Char)) : Walk root segments place ↔ place = root ++ segments := by
  rw [walk_iff, foldl_visit_of_isName h, List.reverse_append, List.reverse_reverse,
    List.reverse_reverse]

/-- What is kept of segments are some of those that are names. -/
theorem mem_foldl_visit {segments kept : List (List Char)} {segment : List Char}
    (h : segment ∈ segments.foldl visit kept) :
    segment ∈ kept ∨ segment ∈ segments ∧ IsName segment := by
  induction segments generalizing kept with
  | nil => exact .inl h
  | cons first rest ih =>
    obtain hvisit | ⟨hrest, hname⟩ := ih h
    · obtain hstay | rfl | hfirst := stays_or_leaves_or_isName first
      · rw [visit_of_stay hstay] at hvisit
        exact .inl hvisit
      · rw [visit_dots] at hvisit
        exact .inl (List.mem_of_mem_tail hvisit)
      · rw [visit_of_isName hfirst] at hvisit
        obtain rfl | hkept := List.mem_cons.1 hvisit
        · exact .inr ⟨List.mem_cons_self, hfirst⟩
        · exact .inl hkept
    · exact .inr ⟨List.mem_cons_of_mem _ hrest, hname⟩

theorem isName_of_mem_follow {path segment : List Char} (h : segment ∈ follow path) :
    IsName segment ∧ '/' ∉ segment := by
  obtain hnil | ⟨hmem, hname⟩ := mem_foldl_visit h
  · exact absurd hnil List.not_mem_nil
  · exact ⟨hname, slash_notMem_of_mem_segments hmem⟩

/-- A walk from the root comes to the segments that are kept. -/
theorem walk_root_iff {path : List Char} {place : List (List Char)} :
    Walk [] (path.splitOn '/') place ↔ place = (follow path).reverse := by
  rw [walk_iff, follow, segments_eq_splitOn]
  rfl

/-! ### Canonical paths -/

theorem IsCanonical.nil_notMem {path : String} (h : IsCanonical path) : [] ∉ steps path := by
  intro hmem
  exact (h [] hmem).ne_nil rfl

/-- A canonical path does not begin with a slash. -/
theorem IsCanonical.head?_ne {path : String} (h : IsCanonical path) :
    path.toList.head? ≠ some '/' := by
  intro hhead
  obtain ⟨rest, hrest⟩ := List.head?_eq_some_iff.1 hhead
  have hne : path ≠ "" := by
    rintro rfl
    cases hhead
  refine h.nil_notMem ?_
  rw [steps, if_neg hne, hrest, ← segments_eq_splitOn, segments, if_pos rfl]
  exact List.mem_cons_self

/-- A canonical path does not end with a slash. -/
theorem IsCanonical.getLast?_ne {path : String} (h : IsCanonical path) :
    path.toList.getLast? ≠ some '/' := by
  intro hlast
  obtain ⟨front, hfront⟩ := List.getLast?_eq_some_iff.1 hlast
  have hne : path ≠ "" := by
    rintro rfl
    cases hlast
  refine h.nil_notMem ?_
  have hsplit : (front ++ ['/']).splitOn '/' = front.splitOn '/' ++ [[]] :=
    List.splitOnP_append_cons front [] (beq_self_eq_true '/')
  rw [steps, if_neg hne, hfront, hsplit]
  exact List.mem_append_right _ List.mem_cons_self

/-! ### Targets -/

/-- The text whose segments lead to what a target names. -/
def way (directory target : String) : List Char :=
  match target.toList with
  | '/' :: rest => rest
  | relative => directory.toList ++ relative

theorem way_of_head?_ne {target : String} (h : target.toList.head? ≠ some '/')
    (directory : String) : way directory target = (directory ++ target).toList := by
  rw [way, String.toList_append]
  split
  next rest hrest =>
    rw [hrest] at h
    exact absurd rfl h
  next => rfl

theorem way_slash (directory rest : String) : way directory ("/" ++ rest) = rest.toList := by
  rw [way, String.toList_append]
  rfl

theorem resolve_eq (directory target : String) :
    resolve directory target =
      String.ofList (['/'].intercalate (follow (way directory target)).reverse) := by
  rw [← joined_eq_intercalate]
  rfl

/-- The segments of the path that a target resolves to are those that the walk has kept. -/
theorem steps_resolve (directory target : String) :
    steps (resolve directory target) = (follow (way directory target)).reverse := by
  rw [resolve_eq]
  refine steps_ofList_intercalate fun piece hpiece => ?_
  obtain ⟨hname, hslash⟩ := isName_of_mem_follow (List.mem_reverse.1 hpiece)
  exact ⟨hname.ne_nil, hslash⟩

/-- **What a target resolves to is canonical.** -/
theorem isCanonical_resolve (directory target : String) :
    IsCanonical (resolve directory target) := by
  intro segment hsegment
  rw [steps_resolve] at hsegment
  exact (isName_of_mem_follow (List.mem_reverse.1 hsegment)).1

/-- **The canonical paths are those that resolve to themselves.** -/
theorem resolve_eq_self_iff {path : String} : resolve "" path = path ↔ IsCanonical path := by
  constructor
  · intro h
    rw [← h]
    exact isCanonical_resolve "" path
  · intro h
    have hwalk := (walk_of_isName h [] (steps path)).2 rfl
    have hway : way "" path = path.toList := by
      rw [way_of_head?_ne h.head?_ne, String.empty_append]
    have hsteps : steps path = (follow path.toList).reverse := by
      by_cases hpath : path = ""
      · rw [hpath]
        rfl
      · rw [steps, if_neg hpath] at hwalk ⊢
        exact walk_root_iff.1 hwalk
    rw [resolve_eq, hway, ← hsteps, ofList_intercalate_steps]

/-- The path that a target names, seen from a directory. -/
structure NamesPlace (directory target path : String) : Prop where
  /-- Its segments are names. -/
  canonical : IsCanonical path
  /-- There is no slash at its ends. -/
  unslashed : path.toList.head? ≠ some '/' ∧ path.toList.getLast? ≠ some '/'
  /-- It names itself, seen from the root. -/
  again : resolve "" path = path
  /-- A target that does not begin with a slash is a walk that goes on from the directory, and the
  path has the segments of the place to which that leads. -/
  relative : target.toList.head? ≠ some '/' → ∀ place,
    Walk [] ((directory ++ target).toList.splitOn '/') place ↔ place = steps path
  /-- A target that begins with a slash is a walk from the root, and names the same seen from every
  directory. -/
  absolute : ∀ rest, target = "/" ++ rest →
    (∀ place, Walk [] (rest.toList.splitOn '/') place ↔ place = steps path) ∧
      ∀ other, resolve other target = path
  /-- Wherever the root of the package stands, the path only goes down from there. -/
  below : ∀ root walked, walked <+: steps path → ∀ place,
    Walk root walked place ↔ place = root ++ walked

theorem namesPlace_resolve (directory target : String) :
    NamesPlace directory target (resolve directory target) where
  canonical := isCanonical_resolve directory target
  unslashed :=
    ⟨(isCanonical_resolve directory target).head?_ne,
      (isCanonical_resolve directory target).getLast?_ne⟩
  again := resolve_eq_self_iff.2 (isCanonical_resolve directory target)
  relative := by
    intro hrelative place
    rw [walk_root_iff, steps_resolve, way_of_head?_ne hrelative]
  absolute := by
    rintro rest rfl
    refine ⟨fun place => ?_, fun other => ?_⟩
    · rw [walk_root_iff, steps_resolve, way_slash]
    · rw [resolve_eq, resolve_eq, way_slash, way_slash]
  below := by
    intro root walked hwalked
    exact walk_of_isName (fun s hs => isCanonical_resolve directory target s (hwalked.subset hs))
      root

/-- A walk leads to one path at most. -/
theorem NamesPlace.unique {directory target path path' : String}
    (h : NamesPlace directory target path) (h' : NamesPlace directory target path') :
    path = path' := by
  have hsteps : steps path = steps path' := by
    by_cases hhead : target.toList.head? = some '/'
    · obtain ⟨rest, hrest⟩ := List.head?_eq_some_iff.1 hhead
      have htarget : target = "/" ++ String.ofList rest := String.toList_inj.1 (by simp [hrest])
      have hwalk := ((h.absolute _ htarget).1 (steps path)).2 rfl
      exact ((h'.absolute _ htarget).1 _).1 hwalk
    · have hwalk := (h.relative hhead (steps path)).2 rfl
      exact (h'.relative hhead _).1 hwalk
  rw [← ofList_intercalate_steps path, hsteps, ofList_intercalate_steps]

/-- **What a target resolves to is the path that it names.** Whatever mixture of empty segments,
dots and steps upwards there is in the directory and in the target, the path has one spelling, and
nothing above the root can be named. -/
theorem namesPlace_iff {directory target path : String} :
    NamesPlace directory target path ↔ resolve directory target = path := by
  constructor
  · intro h
    exact (namesPlace_resolve directory target).unique h
  · rintro rfl
    exact namesPlace_resolve directory target

/-- More steps upwards than there are directories, with empty segments and dots between them. -/
example : resolve "xl//./worksheets/" "../..//../..//.//sheet.xml/" = "sheet.xml" := by
  decide +kernel

end PartPath

/-! ### Packages -/

namespace Relationships

/-- What the root relationships name is named by a target. -/
theorem exists_target_of_finished {s s' : Unit} {e : Event} {result : Option String}
    (h : manifestReading.step s e = (s', .finished result)) :
    ∃ target, result = some (PartPath.resolve "" target) := by
  cases e with
  | opening tag =>
    simp only [manifestReading] at h
    split at h
    · split at h
      · cases h
      · split at h
        · split at h
          · cases h
          next target _ =>
            cases h
            exact ⟨target, rfl⟩
          · cases h
        · cases h
    · cases h
  | _ => cases h

/-- Holds if all paths of worksheets are canonical. -/
def AllCanonical (paths : Std.TreeMap String String) : Prop :=
  ∀ id path : String, paths[id]? = some path → PartPath.IsCanonical path

theorem AllCanonical.insert {paths : Std.TreeMap String String} (h : AllCanonical paths)
    (id directory target : String) :
    AllCanonical (paths.insert id (PartPath.resolve directory target)) := by
  intro other path hpath
  rw [Std.TreeMap.getElem?_insert] at hpath
  split at hpath
  · cases hpath
    exact PartPath.isCanonical_resolve directory target
  · exact h other path hpath

theorem AllCanonical.add {paths : Std.TreeMap String String} (h : AllCanonical paths)
    (directory : String) (id type target : Option String) :
    AllCanonical (add directory paths id type target) := by
  unfold Relationships.add
  split
  · cases id with
    | none => exact h
    | some id =>
      cases target with
      | none => exact h
      | some target => exact h.insert id directory target
  · exact h

theorem AllCanonical.step {paths : Std.TreeMap String String} (h : AllCanonical paths)
    (directory : String) (e : Event) : AllCanonical (step directory paths e).1 := by
  cases e with
  | opening tag =>
    rw [Relationships.step]
    split
    · split
      · exact h.add directory _ _ _
      all_goals exact h
    · exact h
  | _ => exact h

theorem allCanonical_worksheetPaths {directory : String} {d : Document}
    {paths : Std.TreeMap String String} (h : worksheetPaths directory d = .ok paths) :
    AllCanonical paths := by
  have hempty : AllCanonical ∅ := by
    intro id path hpath
    rw [Std.TreeMap.getElem?_emptyc] at hpath
    cases hpath
  have hstep : ∀ {before : List Event} {s : Std.TreeMap String String},
      (worksheetReading directory).Passes ∅ before s → AllCanonical s →
        ∀ e, AllCanonical ((worksheetReading directory).step s e).1 :=
    fun _ hs e => hs.step directory e
  obtain ⟨_, -, hall⟩ := Reading.run_invariant hstep d.fault d.events (.nil ∅) hempty
  cases hread : (worksheetReading directory).read ∅ d with
  | mk last outcome =>
    rw [worksheetPaths, hread] at h
    rw [Reading.read] at hread
    rw [hread] at hall
    cases outcome with
    | error e => cases h
    | ok _ =>
      cases h
      exact hall

end Relationships

namespace Package

/-- The manifest is wanted under a canonical path, whether the root relationships name it or not. -/
theorem isCanonical_findManifest {a : Archive} {path : String} (h : findManifest a = .ok path) :
    PartPath.IsCanonical path := by
  have hdefault : PartPath.IsCanonical defaultManifestPath :=
    PartPath.resolve_eq_self_iff.1 (by decide +kernel)
  rw [findManifest] at h
  split at h
  · cases h
    exact hdefault
  next d _ =>
    cases hread : (Relationships.manifestReading.read () d).2 with
    | error e =>
      rw [hread] at h
      cases h
    | ok named =>
      rw [hread] at h
      cases h
      obtain ⟨_, event, hstep⟩ | hend :=
        Reading.step_or_atEnd_of_run (r := Relationships.manifestReading) (Prod.ext rfl hread)
      · obtain ⟨target, rfl⟩ := Relationships.exists_target_of_finished hstep
        exact PartPath.isCanonical_resolve "" target
      · cases hend
        exact hdefault

/-- **A package wants its manifest and its worksheets under canonical paths.** -/
theorem isCanonical_ofContainer {name : String} {c : Container} {p : Package}
    (h : ofContainer name c = .ok p) :
    PartPath.IsCanonical p.manifestPath ∧ Relationships.AllCanonical p.worksheets := by
  obtain ⟨_, _, _, _, -, hmanifest, -, hworksheets, rfl⟩ := exists_of_ofContainer h
  exact ⟨isCanonical_findManifest hmanifest, Relationships.allCanonical_worksheetPaths hworksheets⟩

end Package

end WorkbookTables
