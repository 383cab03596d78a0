import LazyLint.Proofs.ExitCode

/-!
# The order of the report for readers

A report lists diagnostics under their files. Here they are put there one after another, as they come:
`put` adds a diagnostic at the end of what stands under its file, and a file that is new at the end of the
files. Nothing is lost, doubled or turned round in this (`grouped_eq`, `filter_printed`), and where the
diagnostics of a file already stand together the order does not change at all (`Contiguous.printed_eq`).
Those of a run do, since no file is linted twice (`contiguous_diagnostics`).
-/

namespace LazyLint.Report

/-! ## Groups -/

/-- A file with the diagnostics that are printed under it. -/
structure Group where
  file : Text
  members : List Diagnostic

/-- The heading, a line for each diagnostic with its severity, its message and its rule, and an empty
line. -/
def Group.lines (g : Group) : List Text :=
  (g.file ++ ":") :: g.members.map (fun d =>
    "  " ++ Text.ofString d.severity.name ++ ": " ++ d.message ++ " [" ++ d.rule ++ "]") ++ [[]]

/-- Put a diagnostic under its file. -/
def put (d : Diagnostic) : List Group → List Group
  | [] => [⟨d.file, [d]⟩]
  | g :: gs =>
    if g.file = d.file then { g with members := g.members ++ [d] } :: gs else g :: put d gs

/-- Diagnostics put under their files one after another. -/
def grouped (ds : List Diagnostic) : List Group :=
  ds.foldl (fun gs d => put d gs) []

/-- The diagnostics in the order in which they are printed. -/
def printed (gs : List Group) : List Diagnostic :=
  gs.flatMap (·.members)

/-- The diagnostics on a file as a group. -/
def groupOn (ds : List Diagnostic) (file : Text) : Group :=
  ⟨file, ds.filter (·.file = file)⟩

section Groups

variable {ds : List Diagnostic} {d : Diagnostic} {file : Text}

theorem put_append {gs : List Group} (h : ∀ g ∈ gs, g.file ≠ d.file) (hs : List Group) :
    put d (gs ++ hs) = gs ++ put d hs := by
  induction gs with
  | nil => rfl
  | cons g gs ih =>
    obtain ⟨hg, hgs⟩ := List.forall_mem_cons.1 h
    rw [List.cons_append, put, if_neg hg, ih hgs, List.cons_append]

theorem put_new {gs : List Group} (h : ∀ g ∈ gs, g.file ≠ d.file) :
    put d gs = gs ++ [⟨d.file, [d]⟩] := by
  have hput := put_append h []
  rw [List.append_nil] at hput
  exact hput

theorem grouped_concat (ds : List Diagnostic) (d : Diagnostic) :
    grouped (ds ++ [d]) = put d (grouped ds) := by
  rw [grouped, List.foldl_append]
  rfl

theorem groupOn_concat_of_ne (h : file ≠ d.file) : groupOn (ds ++ [d]) file = groupOn ds file := by
  have hlast : [d].filter (·.file = file) = [] := by
    rw [List.filter_eq_nil_iff]
    intro e he
    rw [List.mem_singleton.1 he]
    simpa using h.symm
  rw [groupOn, groupOn, List.filter_append, hlast, List.append_nil]

theorem groupOn_concat_self (ds : List Diagnostic) (d : Diagnostic) :
    groupOn (ds ++ [d]) d.file = ⟨d.file, (groupOn ds d.file).members ++ [d]⟩ := by
  rw [groupOn, groupOn, List.filter_append, List.filter_singleton, decide_eq_true rfl]
  rfl

/-- A diagnostic put under a file that is there already stands behind the others on it. -/
theorem put_map_groupOn {before after : List Text} (h : (before ++ d.file :: after).Nodup) :
    put d ((before ++ d.file :: after).map (groupOn ds)) =
      (before ++ d.file :: after).map (groupOn (ds ++ [d])) := by
  obtain ⟨-, hrest, hbefore⟩ := List.nodup_append.1 h
  have hne : ∀ f ∈ before, f ≠ d.file := fun f hf => hbefore f hf d.file (List.mem_cons_self ..)
  have hfirst : before.map (groupOn (ds ++ [d])) = before.map (groupOn ds) :=
    List.map_congr_left fun f hf => groupOn_concat_of_ne (hne f hf)
  have hlater : after.map (groupOn (ds ++ [d])) = after.map (groupOn ds) := by
    refine List.map_congr_left fun f hf => groupOn_concat_of_ne ?_
    rintro rfl
    exact (List.nodup_cons.1 hrest).1 hf
  have hsame : (groupOn ds d.file).file = d.file := rfl
  rw [List.map_append, List.map_append, put_append, List.map_cons, List.map_cons, put, if_pos hsame,
    hfirst, hlater, groupOn_concat_self]
  · rfl
  · intro g hg
    obtain ⟨f, hf, rfl⟩ := List.mem_map.1 hg
    exact hne f hf

/-- There is a group for each file, in the order of first appearance, and it holds the diagnostics on
the file in their order. -/
theorem grouped_eq (ds : List Diagnostic) :
    grouped ds = (ds.map (·.file)).eraseDups.map (groupOn ds) := by
  induction ds using List.reverseRecOn with
  | nil => rfl
  | append_singleton ds d ih =>
    rw [grouped_concat, ih, List.map_append, List.map_cons, List.map_nil, eraseDups_concat]
    by_cases hmem : d.file ∈ ds.map (·.file)
    · rw [if_pos (List.contains_iff_mem.2 hmem)]
      have hfiles := nodup_eraseDups (ds.map (·.file))
      rw [← List.mem_eraseDups] at hmem
      obtain ⟨before, after, hsplit⟩ := List.append_of_mem hmem
      rw [hsplit] at hfiles ⊢
      exact put_map_groupOn hfiles
    · rw [if_neg fun h => hmem (List.contains_iff_mem.1 h)]
      have hne : ∀ f ∈ (ds.map (·.file)).eraseDups, f ≠ d.file := by
        rintro f hf rfl
        exact hmem (List.mem_eraseDups.1 hf)
      have hnone : (groupOn ds d.file).members = [] := by
        rw [groupOn, List.filter_eq_nil_iff]
        intro e he heq
        exact hmem (List.mem_map.2 ⟨e, he, by simpa using heq⟩)
      have hold : (ds.map (·.file)).eraseDups.map (groupOn (ds ++ [d])) =
          (ds.map (·.file)).eraseDups.map (groupOn ds) :=
        List.map_congr_left fun f hf => groupOn_concat_of_ne (hne f hf)
      have hothers : ∀ g ∈ (ds.map (·.file)).eraseDups.map (groupOn ds), g.file ≠ d.file := by
        simpa [groupOn] using hne
      rw [put_new hothers, List.map_append, hold, List.map_cons, List.map_nil, groupOn_concat_self, hnone]
      rfl

theorem map_file_grouped (ds : List Diagnostic) :
    (grouped ds).map (·.file) = (ds.map (·.file)).eraseDups := by
  rw [grouped_eq, List.map_map]
  exact List.map_id _

theorem eq_groupOn_of_mem {g : Group} (h : g ∈ grouped ds) : g = groupOn ds g.file := by
  rw [grouped_eq] at h
  obtain ⟨f, -, rfl⟩ := List.mem_map.1 h
  rfl

theorem members_ne_nil {g : Group} (h : g ∈ grouped ds) : g.members ≠ [] := by
  have hfile : g.file ∈ ds.map (·.file) := by
    rw [← List.mem_eraseDups, ← map_file_grouped]
    exact List.mem_map_of_mem h
  obtain ⟨d, hd, hdfile⟩ := List.mem_map.1 hfile
  rw [eq_groupOn_of_mem h]
  exact List.ne_nil_of_mem (List.mem_filter.2 ⟨hd, by simpa using hdfile⟩)

end Groups

/-! ## The printed order -/

section Order

variable {ds : List Diagnostic} {d : Diagnostic}

theorem printed_grouped (ds : List Diagnostic) :
    printed (grouped ds) = (ds.map (·.file)).eraseDups.flatMap fun f => ds.filter (·.file = f) := by
  rw [printed, grouped_eq, List.flatMap_map]
  rfl

theorem flatMap_filter_of_nodup {files : List Text} (h : files.Nodup) (ds : List Diagnostic)
    (file : Text) :
    (files.flatMap fun f => ds.filter (·.file = f)).filter (·.file = file) =
      if file ∈ files then ds.filter (·.file = file) else [] := by
  induction files with
  | nil => rfl
  | cons f files ih =>
    obtain ⟨hf, hfiles⟩ := List.nodup_cons.1 h
    rw [List.flatMap_cons, List.filter_append, ih hfiles, List.filter_filter]
    by_cases hfile : file = f
    · subst hfile
      simp [hf]
    · have hnone : ds.filter (fun d => decide (d.file = file) && decide (d.file = f)) = [] := by
        rw [List.filter_eq_nil_iff]
        intro d _ hd
        simp only [Bool.and_eq_true, decide_eq_true_iff] at hd
        exact hfile (hd.1.symm.trans hd.2)
      simp [hnone, hfile]

/-- The diagnostics on a file are printed in the order in which they come. -/
theorem filter_printed (ds : List Diagnostic) (file : Text) :
    (printed (grouped ds)).filter (·.file = file) = ds.filter (·.file = file) := by
  rw [printed_grouped, flatMap_filter_of_nodup (nodup_eraseDups _)]
  by_cases hmem : file ∈ (ds.map (·.file)).eraseDups
  · rw [if_pos hmem]
  · rw [if_neg hmem, eq_comm, List.filter_eq_nil_iff]
    intro d hd hfile
    exact hmem (List.mem_eraseDups.2 (List.mem_map.2 ⟨d, hd, by simpa using hfile⟩))

/-- Every diagnostic is printed as often as it comes. -/
theorem perm_printed (ds : List Diagnostic) : (printed (grouped ds)).Perm ds := by
  rw [List.perm_iff_count]
  intro d
  have hcount : ∀ es : List Diagnostic, (es.filter (·.file = d.file)).count d = es.count d :=
    fun es => List.count_filter (by simp)
  rw [← hcount (printed (grouped ds)), filter_printed, hcount]

/-- Between two diagnostics on a file stand only others on it. -/
def Contiguous (ds : List Diagnostic) : Prop :=
  ∀ a b c, [a, b, c].Sublist ds → a.file = c.file → b.file = a.file

theorem printed_put_new {gs : List Group} (h : ∀ g ∈ gs, g.file ≠ d.file) :
    printed (put d gs) = printed gs ++ [d] := by
  rw [put_new h, printed, List.flatMap_append]
  rfl

theorem printed_put_last {gs : List Group} (h : ∀ g ∈ gs, g.file ≠ d.file) (g : Group)
    (hg : g.file = d.file) : printed (put d (gs ++ [g])) = printed (gs ++ [g]) ++ [d] := by
  rw [put_append h, put, if_pos hg]
  simp [printed]

/-- In the groups of diagnostics of which those on a file stand together, the last one is the only one
that the next diagnostic can belong to. -/
theorem Contiguous.eq_last (h : Contiguous (ds ++ [d])) (hds : printed (grouped ds) = ds)
    {before after : List Text} (hsplit : (ds.map (·.file)).eraseDups = before ++ d.file :: after) :
    after = [] := by
  have hfiles := nodup_eraseDups (ds.map (·.file))
  rw [hsplit] at hfiles
  have hgroups := printed_grouped ds
  rw [hds, hsplit, List.flatMap_append, List.flatMap_cons] at hgroups
  have hheld : ∀ f ∈ before ++ d.file :: after, ∃ e ∈ ds, e.file = f := by
    intro f hf
    rw [← hsplit, List.mem_eraseDups] at hf
    exact List.mem_map.1 hf
  cases after with
  | nil => rfl
  | cons f after =>
    obtain ⟨a, ha, hafile⟩ := hheld d.file (by simp)
    obtain ⟨b, hb, hbfile⟩ := hheld f (by simp)
    have hafter : [a].Sublist (ds.filter (·.file = d.file)) :=
      List.singleton_sublist.2 (List.mem_filter.2 ⟨ha, by simpa using hafile⟩)
    have hbafter : [b].Sublist ((f :: after).flatMap fun f => ds.filter (·.file = f)) :=
      List.singleton_sublist.2 (List.mem_flatMap.2
        ⟨f, List.mem_cons_self .., List.mem_filter.2 ⟨hb, by simpa using hbfile⟩⟩)
    have hpair : [a, b].Sublist ds := by
      rw [hgroups]
      exact (hafter.append hbafter).trans (List.sublist_append_right ..)
    have hsame := h a b d (hpair.append (.refl [d])) hafile
    rw [hbfile, hafile] at hsame
    subst hsame
    simp [List.nodup_append] at hfiles

/-- Where the diagnostics on each file stand together they are printed as they come. -/
theorem Contiguous.printed_eq (h : Contiguous ds) : printed (grouped ds) = ds := by
  induction ds using List.reverseRecOn with
  | nil => rfl
  | append_singleton ds d ih =>
    have hds : printed (grouped ds) = ds :=
      ih fun a b c hsub => h a b c (hsub.trans (List.sublist_append_left ds [d]))
    have hfiles := nodup_eraseDups (ds.map (·.file))
    rw [grouped_concat]
    by_cases hmem : d.file ∈ (ds.map (·.file)).eraseDups
    · obtain ⟨before, after, hsplit⟩ := List.append_of_mem hmem
      obtain rfl := h.eq_last hds hsplit
      rw [hsplit] at hfiles
      have hlast : grouped ds = before.map (groupOn ds) ++ [groupOn ds d.file] := by
        rw [grouped_eq, hsplit, List.map_append, List.map_cons, List.map_nil]
      rw [hlast, printed_put_last _ _ rfl, ← hlast, hds]
      intro g hg
      obtain ⟨f, hf, rfl⟩ := List.mem_map.1 hg
      exact (List.nodup_append.1 hfiles).2.2 f hf d.file (List.mem_singleton_self _)
    · rw [printed_put_new, hds]
      intro g hg hfile
      refine hmem ?_
      rw [← map_file_grouped, ← hfile]
      exact List.mem_map_of_mem hg

end Order

/-! ## Runs -/

/-- Diagnostics of one file after another stand together. -/
theorem contiguous_flatMap {files : List Text} {found : Text → List Diagnostic} (hfiles : files.Nodup)
    (hfound : ∀ f ∈ files, ∀ d ∈ found f, d.file = f) : Contiguous (files.flatMap found) := by
  induction files with
  | nil =>
    intro a b c hsub
    cases hsub
  | cons f files ih =>
    obtain ⟨hf, hfiles⟩ := List.nodup_cons.1 hfiles
    obtain ⟨hhead, htail⟩ := List.forall_mem_cons.1 hfound
    have hrest : ∀ d ∈ files.flatMap found, d.file ≠ f := by
      intro d hd hfile
      obtain ⟨g, hg, hd⟩ := List.mem_flatMap.1 hd
      rw [← hfile, htail g hg d hd] at hf
      exact hf hg
    intro a b c hsub hac
    rw [List.flatMap_cons, List.sublist_append_iff] at hsub
    obtain ⟨first, rest, hsplit, hfirst, hrest'⟩ := hsub
    -- where the first list ends among the three
    cases first with
    | nil =>
      rw [List.nil_append] at hsplit
      rw [← hsplit] at hrest'
      exact ih hfiles htail a b c hrest' hac
    | cons x first =>
      rw [List.cons_append] at hsplit
      obtain ⟨rfl, hlater⟩ := List.cons.inj hsplit
      have ha : a.file = f := hhead a (hfirst.subset (List.mem_cons_self ..))
      cases first with
      | nil =>
        obtain rfl : [b, c] = rest := hlater
        have hc : c ∈ files.flatMap found := hrest'.subset (by simp)
        exact absurd (hac.symm.trans ha) (hrest c hc)
      | cons y first =>
        rw [List.cons_append] at hlater
        obtain ⟨rfl, -⟩ := List.cons.inj hlater
        exact (hhead b (hfirst.subset (by simp))).trans ha.symm

theorem contiguous_diagnostics {e : Engine} {tree : Files.Tree} {targets : List Text} {config : Config}
    {s : Batch.Schedule} {r : Batch.Result} (horder : ∀ n, (s.order n).Perm (List.range n))
    (h : (Batch.lintPaths e tree targets config s).2 = .ok r) : Contiguous r.diagnostics := by
  have hfiles : r.files.Nodup := by
    obtain ⟨rfl, -⟩ := Batch.result_eq horder h
    exact (Batch.nodup_collect tree targets).filter _
  rw [Batch.diagnostics_eq horder h]
  refine contiguous_flatMap hfiles fun f _ d hd => ?_
  obtain ⟨_, -, rfl⟩ := List.mem_map.1 hd
  rfl

/-! ## The report -/

theorem lines_eq (ds : List Diagnostic) :
    lines ds = ["", "Dusty Efficiency Linter Results:", "================================="].map
        Text.ofString ++
      (grouped ds).flatMap Group.lines ++
      ["Found " ++ Text.ofNat (printed (grouped ds)).length ++ " efficiency issues."] := by
  rw [lines, filesOf, Text.dedup_eq_eraseDups, (perm_printed ds).length_eq, grouped_eq, List.flatMap_map]
  rfl

/-- A report on diagnostics is a head of three lines, then a block for each file in the order of first
appearance, and the number of the lines on diagnostics. A block is the heading, the diagnostics on its file
in their order, and an empty line, so each diagnostic is printed once and under its file, and those on a
file keep their order. Where the diagnostics on each file stand together the printed order is that in which
they come, and the results of the report for tools are in the same order. Those of a run stand together. -/
theorem text_by_file {ds : List Diagnostic} (hne : ds ≠ []) :
    text ds = Text.join "\n"
      (["", "Dusty Efficiency Linter Results:", "================================="].map Text.ofString ++
        (grouped ds).flatMap (fun g => ([g.file ++ ":"] : List Text) ++ g.members.map (fun d =>
          "  " ++ Text.ofString d.severity.name ++ ": " ++ d.message ++ " [" ++ d.rule ++ "]") ++ [[]]) ++
        ["Found " ++ Text.ofNat (printed (grouped ds)).length ++ " efficiency issues."]) ∧
    (grouped ds).map (·.file) = (ds.map (·.file)).eraseDups ∧
    (((grouped ds).map (·.file)).Pairwise fun f g =>
      (ds.map (·.file)).idxOf f < (ds.map (·.file)).idxOf g) ∧
    (∀ g ∈ grouped ds, g.members ≠ [] ∧ g.members = ds.filter (·.file = g.file)) ∧
    (printed (grouped ds)).Perm ds ∧
    (∀ file, (printed (grouped ds)).filter (·.file = file) = ds.filter (·.file = file)) ∧
    (Contiguous ds → printed (grouped ds) = ds ∧
      Sarif.results? (Sarif.log ds) = some ((printed (grouped ds)).map fun d => .object
        [("ruleId", .text d.rule),
         ("level", .text (Text.ofString d.severity.name)),
         ("message", .object [("text", .text d.message)]),
         ("locations", .list [.object [("physicalLocation", .object
           [("artifactLocation", .object [("uri", .text (Sarif.uri d.file))])])]])])) ∧
    ∀ e tree targets config s r, (∀ n, (s.order n).Perm (List.range n)) →
      (Batch.lintPaths e tree targets config s).2 = .ok r → Contiguous r.diagnostics := by
  refine ⟨?_, map_file_grouped ds, ?_, fun g hg => ⟨members_ne_nil hg, ?_⟩, perm_printed ds,
    filter_printed ds, fun h => ⟨h.printed_eq, ?_⟩, fun _ _ _ _ _ _ => contiguous_diagnostics⟩
  · rw [text, if_neg (by simpa using hne), lines_eq]
    rfl
  · rw [map_file_grouped]
    exact pairwise_idxOf_eraseDups _
  · rw [eq_groupOn_of_mem hg]
    rfl
  · rw [h.printed_eq, Sarif.results?_log]
    rfl

/-! ### Two findings in a file with another file between them -/

/-- A finding in a file. -/
def finding (file message : String) (severity : Severity) : Diagnostic where
  file := Text.ofString file
  rule := Text.ofString ruleName
  message := Text.ofString message
  severity := severity

def interleaved : List Diagnostic :=
  [finding "a.js" "vue" .warning, finding "b.js" "react" .error, finding "a.js" "jest" .error]

def interleavedLines : List String :=
  ["", "Dusty Efficiency Linter Results:", "=================================",
    "a.js:", "  warning: vue [lazy-import-heavy-js-deps]", "  error: jest [lazy-import-heavy-js-deps]", "",
    "b.js:", "  error: react [lazy-import-heavy-js-deps]", "",
    "Found 3 efficiency issues."]

theorem text_by_file_interleaved :
    text interleaved = Text.join "\n" (interleavedLines.map Text.ofString) ∧
    (grouped interleaved).map (·.file) = [Text.ofString "a.js", Text.ofString "b.js"] ∧
    (printed (grouped interleaved)).Perm interleaved := by
  obtain ⟨htext, hfiles, -, -, hperm, -⟩ := text_by_file (List.cons_ne_nil _ _ : interleaved ≠ [])
  refine ⟨htext.trans ?_, hfiles.trans ?_, hperm⟩
  · decide +kernel
  · decide +kernel

end LazyLint.Report
