import Mathlib.Data.List.Perm.Lattice
import LazyLint.Batch
import LazyLint.Builtin
import LazyLint.Proofs.Distinct
import LazyLint.Proofs.Fallible
import LazyLint.Proofs.Linting

/-!
# A run over many files

One linter that goes from file to file and a linter for each file come to the same result. Both are
compared with `alone`, which reads a file and shows it to an empty linter: the serial run is `mapM` of
it (`serial_eq_mapM`), since a linter only grows and its failure list is cut where the file began; the
side-by-side run collects the outcomes by number in the order in which the tasks end, and reading them
back by number undoes that order (`find?_numbered`).
-/

namespace LazyLint.Batch

open Files (Tree)

/-! ## One file -/

/-- What becomes of a file that has a linter of its own. -/
def alone (e : Engine) (tree : Tree) (config : Config) (path : Text) : Except Linter.Fault Outcome :=
  match tree.read path with
  | .error _ => .ok { wasRead := false }
  | .ok bytes =>
    let r := ({ config } : Linter).lint e path (Lines.decode bytes)
    r.found.map fun found => { found, failures := r.linter.failures }

/-- Whether a file can be read. -/
def isReadable (tree : Tree) (path : Text) : Bool :=
  (tree.read path).isOk

theorem lintOne_outcome (e : Engine) (tree : Tree) (l : Linter) (path : Text) :
    (lintOne e tree l path).outcome = alone e tree l.config path := by
  unfold lintOne alone
  cases tree.read path with
  | error f => rfl
  | ok bytes =>
    dsimp only
    rw [Linter.lint_eq_extend]
    simp only [Linter.extend, List.drop_left]

theorem lintOne_config (e : Engine) (tree : Tree) (l : Linter) (path : Text) :
    (lintOne e tree l path).linter.config = l.config := by
  unfold lintOne
  cases tree.read path with
  | error f => rfl
  | ok bytes =>
    dsimp only
    rw [Linter.lint_eq_extend]
    rfl

/-- A file that comes to an outcome cannot be read, or it is read and linted without a fault. -/
theorem alone_eq_ok {e : Engine} {tree : Tree} {config : Config} {path : Text} {o : Outcome}
    (h : alone e tree config path = .ok o) :
    (∃ f, tree.read path = .error f ∧ o = { wasRead := false }) ∨
      ∃ bytes found, tree.read path = .ok bytes ∧
        (({ config } : Linter).lint e path (Lines.decode bytes)).found = .ok found ∧
        o = { found
              failures := (({ config } : Linter).lint e path (Lines.decode bytes)).linter.failures } := by
  unfold alone at h
  cases hread : tree.read path with
  | error f =>
    rw [hread] at h
    cases h
    exact .inl ⟨f, rfl, rfl⟩
  | ok bytes =>
    rw [hread] at h
    dsimp only at h
    cases hfound : (({ config } : Linter).lint e path (Lines.decode bytes)).found with
    | error f => simp [hfound, Except.map] at h
    | ok found =>
      rw [hfound] at h
      cases h
      exact .inr ⟨bytes, found, rfl, hfound, rfl⟩

theorem wasRead_of_alone {e : Engine} {tree : Tree} {config : Config} {path : Text} {o : Outcome}
    (h : alone e tree config path = .ok o) : o.wasRead = isReadable tree path := by
  obtain ⟨f, hread, rfl⟩ | ⟨bytes, found, hread, -, rfl⟩ := alone_eq_ok h
  · rw [isReadable, hread]
    rfl
  · rw [isReadable, hread]
    rfl

/-! ## One after another -/

theorem serial_eq_mapM (e : Engine) (tree : Tree) (l : Linter) (paths : List Text) :
    (serial e tree l paths).2 = paths.mapM (alone e tree l.config) := by
  induction paths generalizing l with
  | nil => rfl
  | cons path paths ih =>
    rw [serial, List.mapM_cons, lintOne_outcome]
    cases alone e tree l.config path with
    | error f => rfl
    | ok o =>
      dsimp only
      rw [ih, lintOne_config]
      cases paths.mapM (alone e tree l.config) <;> rfl

/-! ## Side by side -/

section Numbered

variable {α β : Type}

/-- The members of a list under some numbers, with their numbers. -/
def numbered (xs : List α) (order : List Nat) : List (Nat × α) :=
  order.filterMap fun i => xs[i]?.map fun x => (i, x)

theorem mem_numbered {xs : List α} {order : List Nat} {p : Nat × α} :
    p ∈ numbered xs order ↔ p.1 ∈ order ∧ xs[p.1]? = some p.2 := by
  obtain ⟨i, x⟩ := p
  simp only [numbered, List.mem_filterMap, Option.map_eq_some_iff, Prod.mk.injEq]
  constructor
  · rintro ⟨j, hj, y, hy, rfl, rfl⟩
    exact ⟨hj, hy⟩
  · rintro ⟨hi, hx⟩
    exact ⟨i, hi, x, hx, rfl, rfl⟩

theorem numbered_map (f : α → β) (xs : List α) (order : List Nat) :
    numbered (xs.map f) order = (numbered xs order).map fun p => (p.1, f p.2) := by
  rw [numbered, numbered, List.map_filterMap]
  simp only [List.getElem?_map, Option.map_map]
  rfl

/-- A member is found by its number wherever the number stands. -/
theorem find?_numbered {xs : List α} {order : List Nat} {i : Nat} {x : α}
    (hi : i ∈ order) (hx : xs[i]? = some x) :
    (numbered xs order).find? (·.1 = i) = some (i, x) := by
  induction order with
  | nil => cases hi
  | cons j order ih =>
    rw [numbered, List.filterMap_cons]
    by_cases hj : j = i
    · subst hj
      simp [hx]
    · have hmem : i ∈ order := by simpa [Ne.symm hj] using hi
      cases xs[j]? with
      | none => exact ih hmem
      | some p =>
        rw [Option.map_some, List.find?_cons_of_neg (by simpa using hj)]
        exact ih hmem

theorem filterMap_getElem?_range (xs : List α) :
    (List.range xs.length).filterMap (xs[·]?) = xs := by
  have h : (List.range xs.length).map (xs[·]?) = xs.map some := by
    refine List.ext_getElem (by simp) fun i hi hi' => ?_
    simp
  calc (List.range xs.length).filterMap (xs[·]?)
    _ = ((List.range xs.length).map (xs[·]?)).filterMap id := by rw [List.filterMap_map]; rfl
    _ = xs := by rw [h, List.filterMap_map]; exact List.filterMap_some

/-- Numbers in any order give back the list. -/
theorem filterMap_find?_numbered {xs : List α} {order : List Nat}
    (h : order.Perm (List.range xs.length)) :
    ((List.range xs.length).filterMap fun i =>
      ((numbered xs order).find? (·.1 = i)).map (·.2)) = xs := by
  have hback : ∀ i ∈ List.range xs.length,
      ((numbered xs order).find? (·.1 = i)).map (·.2) = xs[i]? := by
    intro i hi
    have hx := List.getElem?_eq_getElem (List.mem_range.1 hi)
    rw [hx, find?_numbered (h.mem_iff.2 hi) hx]
    rfl
  rw [List.filterMap_congr hback, filterMap_getElem?_range]

end Numbered

theorem gather_eq_mapM (tasks : List Task) (order : List Nat) :
    gather tasks order =
      (numbered (tasks.map (·.outcome)) order).mapM fun p => p.2.map fun o => (p.1, o) := by
  induction order with
  | nil => rfl
  | cons i order ih =>
    rw [gather, numbered, List.filterMap_cons, ← numbered, List.getElem?_map]
    cases tasks[i]? with
    | none => exact ih
    | some t =>
      dsimp only [Option.map_some]
      rw [List.mapM_cons, ih]
      cases t.outcome <;> rfl

section SideBySide

variable {e : Engine} {tree : Tree} {config : Config} {paths : List Text} {order : List Nat}

theorem map_outcome (e : Engine) (tree : Tree) (config : Config) (paths : List Text) :
    (paths.map (lintOne e tree { config })).map (·.outcome) = paths.map (alone e tree config) := by
  rw [List.map_map]
  exact List.map_congr_left fun path _ => lintOne_outcome e tree { config } path

/-- Whatever the order in which the tasks end, the outcomes come back in the order of the files. -/
theorem sideBySide_ok (hperm : order.Perm (List.range paths.length)) {os : List Outcome}
    (h : paths.mapM (alone e tree config) = .ok os) :
    (sideBySide e tree config order paths).2 = .ok os := by
  have hall := mapM_eq_ok_iff.1 h
  have hok : paths.map (alone e tree config) = os.map .ok := by
    rw [← List.forall₂_eq_eq_eq, List.forall₂_map_left_iff, List.forall₂_map_right_iff]
    exact hall
  have hgather : gather (paths.map (lintOne e tree { config })) order = .ok (numbered os order) := by
    rw [gather_eq_mapM, map_outcome, hok, numbered_map, mapM_eq_ok_iff, List.forall₂_map_left_iff,
      List.forall₂_same]
    exact fun p _ => rfl
  rw [hall.length_eq] at hperm
  rw [sideBySide, hgather]
  dsimp only [bind, Except.bind, pure, Except.pure]
  rw [hall.length_eq, filterMap_find?_numbered hperm]

/-- A fault of some task is a fault of the run, though not always the one that is met first. -/
theorem sideBySide_error (hperm : order.Perm (List.range paths.length)) {path : Text}
    {f : Linter.Fault} (hpath : path ∈ paths) (hf : alone e tree config path = .error f) :
    ∃ g, (sideBySide e tree config order paths).2 = .error g ∧
      ∃ p ∈ paths, alone e tree config p = .error g := by
  obtain ⟨i, hi⟩ := List.getElem?_of_mem hpath
  have hmem : (i, .error f) ∈ numbered (paths.map (alone e tree config)) order := by
    refine mem_numbered.2 ⟨hperm.mem_iff.2 ?_, ?_⟩
    · exact List.mem_range.2 (List.getElem?_eq_some_iff.1 hi).1
    · rw [List.getElem?_map, hi, Option.map_some, hf]
  obtain ⟨g, hg⟩ := mapM_error_of_mem hmem (f := fun p => p.2.map fun o => (p.1, o)) rfl
  obtain ⟨p, hp, hpg⟩ := exists_error_of_mapM hg
  have hrun : (sideBySide e tree config order paths).2 = .error g := by
    rw [sideBySide, gather_eq_mapM, map_outcome, hg]
    rfl
  have hout : p.2 = .error g := by
    cases hp2 : p.2 with
    | error e =>
      rw [hp2] at hpg
      cases hpg
      rfl
    | ok o =>
      rw [hp2] at hpg
      cases hpg
  obtain ⟨q, hq, hqp⟩ := List.mem_map.1 (List.mem_of_getElem? (mem_numbered.1 hp).2)
  exact ⟨g, hrun, q, hq, hqp.trans hout⟩

end SideBySide

/-! ## The result -/

/-- The result of files that each came to an outcome of its own. -/
def inOrder (tree : Tree) (o : Text → Outcome) (paths : List Text) : Result :=
  let files := paths.filter (isReadable tree)
  { diagnostics := files.flatMap fun path => (o path).found
    files
    parseFailures := files.flatMap fun path => (o path).failures
    readFailures := paths.filter fun path => ! isReadable tree path }

theorem foldl_add {tree : Tree} {o : Text → Outcome} {paths : List Text} (r : Result)
    (h : ∀ path ∈ paths, (o path).wasRead = isReadable tree path) :
    (paths.zip (paths.map o)).foldl (fun r (path, o) => r.add path o) r =
      { diagnostics := r.diagnostics ++ (inOrder tree o paths).diagnostics
        files := r.files ++ (inOrder tree o paths).files
        parseFailures := r.parseFailures ++ (inOrder tree o paths).parseFailures
        readFailures := r.readFailures ++ (inOrder tree o paths).readFailures } := by
  induction paths generalizing r with
  | nil => simp [inOrder]
  | cons path paths ih =>
    have hpath := h path (List.mem_cons_self ..)
    rw [List.map_cons, List.zip_cons_cons, List.foldl_cons,
      ih _ fun p hp => h p (List.mem_cons_of_mem _ hp)]
    cases hr : isReadable tree path <;> simp [Result.add, inOrder, hpath, hr]

theorem assemble_eq_inOrder {e : Engine} {tree : Tree} {config : Config} {o : Text → Outcome}
    {paths : List Text}
    (h : ∀ path ∈ paths, alone e tree config path = .ok (o path)) :
    assemble paths (paths.map o) = inOrder tree o paths := by
  rw [assemble, foldl_add {} fun path hp => wasRead_of_alone (h path hp)]
  simp

theorem lintPaths_snd {e : Engine} {tree : Tree} {targets paths : List Text} (config : Config)
    (s : Schedule)
    (hpaths : (Discovery.collect tree targets).2 = paths) :
    (lintPaths e tree targets config s).2 =
      (if s.width = 1 || paths.length ≤ 1 then serial e tree { config } paths
        else sideBySide e tree config (s.order paths.length) paths).2.map (assemble paths) := by
  subst hpaths
  unfold lintPaths
  dsimp only
  cases (if s.width = 1 || (Discovery.collect tree targets).2.length ≤ 1 then
    serial e tree { config } (Discovery.collect tree targets).2
    else sideBySide e tree config (s.order (Discovery.collect tree targets).2.length)
      (Discovery.collect tree targets).2).2 <;> rfl

theorem nodup_collect (tree : Tree) (targets : List Text) :
    (Discovery.collect tree targets).2.Nodup := by
  rw [Discovery.collect, Text.dedup_eq_eraseDups]
  exact nodup_eraseDups _

section Run

variable {e : Engine} {tree : Tree} {targets paths : List Text} {config : Config} {s : Schedule}

theorem lintPaths_of_ok (hpaths : (Discovery.collect tree targets).2 = paths)
    (horder : (s.order paths.length).Perm (List.range paths.length)) {o : Text → Outcome}
    (ho : ∀ path ∈ paths, alone e tree config path = .ok (o path)) :
    (lintPaths e tree targets config s).2 = .ok (inOrder tree o paths) := by
  have hall : paths.mapM (alone e tree config) = .ok (paths.map o) := by
    rw [mapM_eq_ok_iff, List.forall₂_map_right_iff, List.forall₂_same]
    exact ho
  rw [lintPaths_snd config s hpaths, ← assemble_eq_inOrder ho]
  split
  · rw [serial_eq_mapM, hall]
    rfl
  · rw [sideBySide_ok horder hall]
    rfl

/-- A fault in a file is a fault of the run. -/
theorem lintPaths_of_error (hpaths : (Discovery.collect tree targets).2 = paths)
    (horder : (s.order paths.length).Perm (List.range paths.length)) {path : Text}
    {f : Linter.Fault} (hpath : path ∈ paths) (hf : alone e tree config path = .error f) :
    ∃ g, (lintPaths e tree targets config s).2 = .error g ∧
      ∃ p ∈ paths, alone e tree config p = .error g := by
  rw [lintPaths_snd config s hpaths]
  split
  · obtain ⟨g, hg⟩ := mapM_error_of_mem hpath hf
    refine ⟨g, ?_, exists_error_of_mapM hg⟩
    rw [serial_eq_mapM, hg]
    rfl
  · obtain ⟨g, hg, hp⟩ := sideBySide_error horder hpath hf
    refine ⟨g, ?_, hp⟩
    rw [hg]
    rfl

/-- A run comes to the same however its work is spread. Files are linted as if each had a linter of
its own, and the results stand in the order in which the files were found: `files` and `readFailures`
part the files that were found, and the diagnostics and parse failures are those of the files, one
after another. A fault in one of the files is a fault of the run. -/
theorem lintPaths_eq_inOrder (hpaths : (Discovery.collect tree targets).2 = paths)
    (horder : (s.order paths.length).Perm (List.range paths.length)) :
    (∀ o : Text → Outcome, (∀ path ∈ paths, alone e tree config path = .ok (o path)) →
      ∃ r, (lintPaths e tree targets config s).2 = .ok r ∧ r = inOrder tree o paths ∧
        r.files.Sublist paths ∧ r.readFailures.Sublist paths ∧
        r.files.Disjoint r.readFailures ∧ (r.files ++ r.readFailures).Perm paths ∧ paths.Nodup) ∧
    (∀ path ∈ paths, ∀ f, alone e tree config path = .error f →
      ∃ g, (lintPaths e tree targets config s).2 = .error g ∧
        ∃ p ∈ paths, alone e tree config p = .error g) := by
  refine ⟨fun o ho => ⟨_, lintPaths_of_ok hpaths horder ho, rfl, List.filter_sublist,
    List.filter_sublist, ?_, List.filter_append_perm _ _, hpaths ▸ nodup_collect ..⟩, ?_⟩
  · intro path hf hr
    have hf := (List.mem_filter.1 hf).2
    have hr := (List.mem_filter.1 hr).2
    rw [hf] at hr
    cases hr
  · intro path hpath f hf
    exact lintPaths_of_error hpaths horder hpath hf

end Run

/-! ### A file that cannot be parsed, one with a finding and one that cannot be read -/

def broken : Text := Text.ofString "c.js"
def heavy : Text := Text.ofString "a.js"
def locked : Text := Text.ofString "b.js"

def mixedTree : Tree where
  top := [(broken, .file ")".toUTF8.toList), (heavy, .file "require('vue')".toUTF8.toList),
    (locked, .file [])]
  refused := [locked]

/-- Three tasks side by side that end in reverse. -/
theorem lintPaths_mixedTree :
    ∃ r, (lintPaths .builtin mixedTree [broken, heavy, locked] {}
        { jobs := 2, order := fun n => (List.range n).reverse }).2 = .ok r ∧
      r.files = [broken, heavy] ∧ r.readFailures = [locked] ∧
      r.diagnostics = Diagnostic.emit [Text.ofString "vue"] heavy .warning ∧
      r.parseFailures.map (·.file) = [broken] := by
  have hok : ∀ path ∈ [broken, heavy, locked],
      alone .builtin mixedTree {} path = .ok ((alone .builtin mixedTree {} path).toOption.getD {}) := by
    have hall : ∀ path ∈ [broken, heavy, locked], (alone .builtin mixedTree {} path).isOk = true := by
      decide +kernel
    intro path hpath
    have hpath := hall path hpath
    cases h : alone .builtin mixedTree {} path with
    | ok o => rfl
    | error f =>
      rw [h] at hpath
      cases hpath
  have hpaths : (Discovery.collect mixedTree [broken, heavy, locked]).2 = [broken, heavy, locked] := by
    decide +kernel
  obtain ⟨r, hr, rfl, -⟩ := (lintPaths_eq_inOrder (s := { jobs := 2, order := fun n =>
    (List.range n).reverse }) hpaths (List.reverse_perm _)).1 _ hok
  refine ⟨_, hr, ?_⟩
  decide +kernel

end LazyLint.Batch
