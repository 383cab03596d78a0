import LazyLint.Proofs.Batches
import LazyLint.Proofs.Scripts

/-!
# Collecting the script files of several targets

Targets may overlap: a file and the directory that it lies in, or one directory under two paths. What they
stand for is put one after the other and loses its repetitions (`collect_eq`).

A path that was found is the path of a script file, whatever links it leads through, so that it stands for
itself when it is given as a target (`find_found`). Collecting what was collected therefore changes
nothing, and `collect_laws` draws this together.
-/

namespace LazyLint.Discovery

open Files (Tree Directory Entry below)

section Collect

variable {tree : Tree}

theorem isScript_below {name : Text} (path : Text) (h : isScript name = true) :
    isScript (below path name) = true := by
  have hname : name <:+ below path name := by
    unfold below
    split
    · exact List.suffix_append path name
    · exact List.suffix_append (path ++ [Files.slash]) name
  rw [isScript_iff] at h ⊢
  exact h.imp (·.trans hname) (·.trans hname)

/-- What is found in a directory is a file and has the name of a script. -/
theorem of_mem_scripts {path p : Text} {d : Directory} (h : p ∈ scripts tree path (.directory d)) :
    tree.isFile p = true ∧ isScript p = true := by
  rcases mem_scripts_iff.1 h with h | ⟨name, e, hmem, -, -, h⟩
  · obtain ⟨name, e, -, hscript, rfl, hfile⟩ := mem_own.1 h
    exact ⟨hfile, isScript_below path hscript⟩
  · exact of_mem_scripts h
termination_by sizeOf d
decreasing_by
  have hlt := List.sizeOf_lt_of_mem hmem
  simp only [Prod.mk.sizeOf_spec, Entry.directory.sizeOf_spec] at hlt
  omega

theorem of_mem_find {t p : Text} (h : p ∈ (find tree t).2) :
    tree.isFile p = true ∧ isScript p = true := by
  unfold find at h
  split at h
  · rename_i hfile
    split at h
    · rename_i hscript
      obtain rfl := List.mem_singleton.1 h
      exact ⟨hfile, hscript⟩
    · cases h
  · split at h
    · cases h
    · dsimp only at h
      split at h
      · exact of_mem_scripts h
      · cases h

/-- A path that was found stands for itself. -/
theorem find_found {t p : Text} (h : p ∈ (find tree t).2) : (find tree p).2 = [p] := by
  obtain ⟨hfile, hscript⟩ := of_mem_find h
  rw [find, if_pos hfile, if_pos hscript]

/-- All that targets stand for, one target after the other. -/
def allFound (tree : Tree) (ts : List Text) : List Text :=
  ts.flatMap fun t => (find tree t).2

theorem allFound_append (ts us : List Text) :
    allFound tree (ts ++ us) = allFound tree ts ++ allFound tree us :=
  List.flatMap_append

theorem collect_eq (ts : List Text) : (collect tree ts).2 = (allFound tree ts).eraseDups := by
  rw [collect, Text.dedup_eq_eraseDups, allFound]
  dsimp only
  rw [List.flatMap_map]

theorem mem_collect {ts : List Text} {p : Text} :
    p ∈ (collect tree ts).2 ↔ ∃ t ∈ ts, p ∈ (find tree t).2 := by
  rw [collect_eq, List.mem_eraseDups, allFound, List.mem_flatMap]

theorem allFound_collect (ts : List Text) :
    allFound tree (collect tree ts).2 = (collect tree ts).2 := by
  have hself : ∀ p ∈ (collect tree ts).2, (find tree p).2 = [p] := by
    intro p hp
    obtain ⟨t, -, hp⟩ := mem_collect.1 hp
    exact find_found hp
  rw [allFound, List.flatMap_congr hself, List.flatMap_singleton']

theorem collect_collect (ts : List Text) :
    (collect tree (collect tree ts).2).2 = (collect tree ts).2 := by
  rw [collect_eq, allFound_collect, collect_eq, eraseDups_eraseDups]

theorem collect_append (ts us : List Text) : (collect tree (ts ++ us)).2 =
    (collect tree ((collect tree ts).2 ++ (collect tree us).2)).2 := by
  calc (collect tree (ts ++ us)).2
    _ = (allFound tree ts ++ allFound tree us).eraseDups := by rw [collect_eq, allFound_append]
    _ = ((collect tree ts).2 ++ (collect tree us).2).eraseDups := by
        rw [collect_eq, collect_eq, eraseDups_append_right, eraseDups_append_left]
    _ = (allFound tree ((collect tree ts).2 ++ (collect tree us).2)).eraseDups := by
        rw [allFound_append, allFound_collect, allFound_collect]
    _ = (collect tree ((collect tree ts).2 ++ (collect tree us).2)).2 := (collect_eq _).symm

end Collect

/-- Targets stand for the paths that one of them or another stands for, each once and in the order in which
they are first met. Collected paths are targets that stand for themselves; some targets may be collected
before others are added; and linting what targets stand for comes to the same as linting the targets. -/
theorem collect_laws (tree : Tree) (ts us : List Text) :
    (collect tree ts).2.Nodup ∧
    (∀ p, p ∈ (collect tree ts).2 ↔ ∃ t ∈ ts, p ∈ (find tree t).2) ∧
    (collect tree ts).2.Pairwise (fun p q =>
      (ts.flatMap fun t => (find tree t).2).idxOf p < (ts.flatMap fun t => (find tree t).2).idxOf q) ∧
    (collect tree (collect tree ts).2).2 = (collect tree ts).2 ∧
    (collect tree (ts ++ us)).2 = (collect tree ((collect tree ts).2 ++ (collect tree us).2)).2 ∧
    ∀ e config s, (Batch.lintPaths e tree (collect tree ts).2 config s).2 =
      (Batch.lintPaths e tree ts config s).2 := by
  refine ⟨Batch.nodup_collect tree ts, fun p => mem_collect, ?_, collect_collect ts,
    collect_append ts us, fun e config s => ?_⟩
  · rw [collect_eq]
    exact pairwise_idxOf_eraseDups (allFound tree ts)
  · rw [Batch.lintPaths_snd config s (collect_collect ts), Batch.lintPaths_snd config s rfl]

/-! ### A directory, and a file in it -/

def folder : Text := Text.ofString "d"
def first : Text := Text.ofString "d/a.js"
def second : Text := Text.ofString "d/b.js"

def folderEntries : Directory :=
  [(Text.ofString "a.js", .file []), (Text.ofString "b.js", .file []), (Text.ofString "c.md", .file [])]

def folderTree : Tree where
  top := [(folder, .directory folderEntries)]

theorem find_folder : (find folderTree folder).2 = [first, second] := by
  have hown : own folderTree folder folderEntries = [first, second] := by
    rw [own, List.mergeSort_of_pairwise (by decide)]
    decide +kernel
  have hbelow : scriptsBelow folderTree folder folderEntries = [] := rfl
  have hfind : (find folderTree folder).2 = scripts folderTree folder (.directory folderEntries) := by
    rfl
  rw [hfind, scripts, hown, hbelow, List.mergeSort_nil, List.flatMap_nil, List.append_nil]

/-- The file is linted once, where the directory has it. -/
theorem collect_folderTree : (collect folderTree [second, folder, first]).2 = [second, first] ∧
    (collect folderTree [folder, first]).2 = [first, second] ∧
    ∀ e config s, (Batch.lintPaths e folderTree [first, second] config s).2 =
      (Batch.lintPaths e folderTree [folder, first] config s).2 := by
  have hsecond : (find folderTree second).2 = [second] := by decide +kernel
  have hfirst : (find folderTree first).2 = [first] := by decide +kernel
  have hlater : (collect folderTree [second, folder, first]).2 = [second, first] := by
    rw [collect_eq, allFound]
    simp only [List.flatMap_cons, List.flatMap_nil, find_folder, hfirst, hsecond]
    decide
  have hcollect : (collect folderTree [folder, first]).2 = [first, second] := by
    rw [collect_eq, allFound]
    simp only [List.flatMap_cons, List.flatMap_nil, find_folder, hfirst]
    decide
  obtain ⟨-, -, -, -, -, hlint⟩ := collect_laws folderTree [folder, first] []
  rw [hcollect] at hlint
  exact ⟨hlater, hcollect, hlint⟩

end LazyLint.Discovery
