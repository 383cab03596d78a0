import LazyLint.Discovery
import LazyLint.Proofs.Lookup

/-!
# The script files below a directory

A walk goes through the value of a directory and hands paths down. What it finds is said here by the paths
alone: a `Route` from a target is a list of names, each of which is looked up below the path of those
before it, and `find_directory` says that a walk lists the paths of the routes that lead to script files,
each once and in the order of the routes.

That the walk and the paths agree is `directory?_below`: a directory of a directory is found below its
path. One such step on the side of routes is `isListed_under`; membership (`mem_scripts`) and order
(`pairwise_scripts`) are inductions on the soundness of the directory that add it up.
-/

namespace LazyLint

namespace Files.Tree

/-- What the directory with a path has under a name. -/
def named? (t : Tree) (path name : Text) : Option Entry :=
  (t.directory? path).bind (·.get? name)

end Files.Tree

namespace Discovery

open Files (Tree Directory Entry IsProper below joined joined_nil)

/-! ## Routes -/

/-- Names of directories, one below the other, and the name of a file in the last of them. -/
structure Route where
  dirs : List Text
  name : Text

namespace Route

def names (r : Route) : List Text := r.dirs ++ [r.name]

def path (target : Text) (r : Route) : Text := joined target r.names

/-- The route with a directory before it. -/
def under (dir : Text) (r : Route) : Route := ⟨dir :: r.dirs, r.name⟩

@[simp] theorem path_own (target name : Text) : path target ⟨[], name⟩ = below target name := rfl

@[simp] theorem path_under (target dir : Text) (r : Route) :
    (r.under dir).path target = r.path (below target dir) := rfl

/-- The files of a directory come before its subdirectories, either of them by code points. -/
inductive Precedes : Route → Route → Prop
  | own {a b : Text} (h : a < b) : Precedes ⟨[], a⟩ ⟨[], b⟩
  | ownFirst (a dir : Text) (r : Route) : Precedes ⟨[], a⟩ (r.under dir)
  | sub {dir dir' : Text} (h : dir < dir') (r s : Route) : Precedes (r.under dir) (s.under dir')
  | within (dir : Text) {r s : Route} (h : Precedes r s) : Precedes (r.under dir) (s.under dir)

theorem Precedes.ne {r s : Route} (h : r.Precedes s) : r ≠ s := by
  induction h with
  | own h =>
    intro heq
    rw [(Route.mk.inj heq).2] at h
    exact List.lt_irrefl _ h
  | ownFirst a dir r =>
    intro heq
    cases (Route.mk.inj heq).1
  | sub h r s =>
    intro heq
    rw [(List.cons.inj (Route.mk.inj heq).1).1] at h
    exact List.lt_irrefl _ h
  | within dir _ ih =>
    intro heq
    obtain ⟨hdirs, hname⟩ := Route.mk.inj heq
    apply ih
    rw [Route.mk.injEq]
    exact ⟨(List.cons.inj hdirs).2, hname⟩

end Route

def IsScriptName (name : Text) : Prop :=
  Text.ofString ".js" <:+ name ∨ Text.ofString ".mjs" <:+ name

/-- A name of the directory with a path is that of a directory to enter: a real one and no link, which may
be listed, is not hidden and does not hold installed packages. -/
structure Enters (tree : Tree) (path name : Text) : Prop where
  real : ∃ d, tree.named? path name = some (.directory d)
  visible : name.head? ≠ some 0x2E
  ne_packages : name ≠ Text.ofString "node_modules"
  isOpen : tree.isOpen (below path name) = true

/-- A route from a target leads to a script file through directories to enter. The target itself is only
asked to be one that may be listed. -/
structure Route.IsListed (tree : Tree) (target : Text) (r : Route) : Prop where
  isOpen : tree.isOpen target = true
  enters : ∀ above dir, above ++ [dir] <+: r.dirs → Enters tree (joined target above) dir
  entry : ∃ e, tree.named? (joined target r.dirs) r.name = some e
  script : IsScriptName r.name
  isFile : tree.isFile (r.path target) = true

section Listed

variable {tree : Tree} {target name dir : Text} {r : Route}

theorem isListed_own : Route.IsListed tree target ⟨[], name⟩ ↔ tree.isOpen target = true ∧
    (∃ e, tree.named? target name = some e) ∧ IsScriptName name ∧
      tree.isFile (below target name) = true := by
  constructor
  · intro h
    exact ⟨h.isOpen, h.entry, h.script, h.isFile⟩
  · rintro ⟨hopen, hentry, hscript, hfile⟩
    refine ⟨hopen, fun above dir hdirs => ?_, hentry, hscript, hfile⟩
    exact absurd (List.prefix_nil.1 hdirs) (by simp)

theorem isListed_under : (r.under dir).IsListed tree target ↔ tree.isOpen target = true ∧
    Enters tree target dir ∧ r.IsListed tree (below target dir) := by
  constructor
  · intro h
    have hdir : Enters tree target dir := h.enters [] dir (by simp [Route.under])
    refine ⟨h.isOpen, hdir, hdir.isOpen, fun above next hnext => ?_, h.entry, h.script, h.isFile⟩
    have hcons : (dir :: above) ++ [next] <+: (r.under dir).dirs := by
      rw [List.cons_append]
      exact (List.prefix_cons_inj dir).2 hnext
    exact h.enters (dir :: above) next hcons
  · rintro ⟨hopen, hdir, h⟩
    refine ⟨hopen, fun above next hnext => ?_, h.entry, h.script, h.isFile⟩
    cases above with
    | nil =>
      obtain rfl : next = dir := by simpa [Route.under] using hnext
      exact hdir
    | cons first above =>
      rw [List.cons_append, Route.under, List.cons_prefix_cons] at hnext
      obtain ⟨rfl, hnext⟩ := hnext
      exact h.enters above next hnext

end Listed

/-! ## What a walk finds -/

theorem isScript_iff {name : Text} : isScript name = true ↔ IsScriptName name := by
  simp [isScript, extensions, IsScriptName, List.isSuffixOf_iff_suffix]

theorem isEntered_iff {name : Text} :
    isEntered name = true ↔ name.head? ≠ some 0x2E ∧ name ≠ Text.ofString "node_modules" := by
  rw [isEntered, skipped, List.map_singleton, Bool.and_eq_true, decide_eq_true_eq, Bool.not_eq_true',
    ← Bool.not_eq_true, List.contains_iff_mem, List.mem_singleton]

section Walk

variable {tree : Tree} {path name : Text} {d : Directory}

theorem mem_own {p : Text} : p ∈ own tree path d ↔
    ∃ name e, (name, e) ∈ d ∧ isScript name = true ∧ p = below path name ∧ tree.isFile p = true := by
  simp only [own, List.mem_filter, List.mem_map, List.mem_mergeSort]
  constructor
  · rintro ⟨⟨⟨name, e⟩, ⟨hmem, hscript⟩, rfl⟩, hfile⟩
    exact ⟨name, e, hmem, hscript, rfl, hfile⟩
  · rintro ⟨name, e, hmem, hscript, rfl, hfile⟩
    exact ⟨⟨(name, e), ⟨hmem, hscript⟩, rfl⟩, hfile⟩

theorem mem_scriptsBelow {x : Text × List Text} : x ∈ scriptsBelow tree path d ↔
    ∃ e, (x.1, e) ∈ d ∧ isEntered x.1 = true ∧ tree.isOpen (below path x.1) = true ∧
      x.2 = scripts tree (below path x.1) e := by
  induction d with
  | nil => simp [scriptsBelow]
  | cons entry d ih =>
    obtain ⟨n, e⟩ := entry
    rw [scriptsBelow]
    simp only [List.mem_cons, Prod.mk.injEq]
    split
    · rename_i hentered
      rw [Bool.and_eq_true] at hentered
      rw [List.mem_cons, ih]
      constructor
      · rintro (rfl | ⟨e', hmem, h⟩)
        · exact ⟨e, .inl ⟨rfl, rfl⟩, hentered.1, hentered.2, rfl⟩
        · exact ⟨e', .inr hmem, h⟩
      · rintro ⟨e', ⟨hn, rfl⟩ | hmem, h⟩
        · subst hn
          exact .inl (Prod.ext rfl h.2.2)
        · exact .inr ⟨e', hmem, h⟩
    · rename_i hentered
      rw [Bool.and_eq_true] at hentered
      rw [ih]
      constructor
      · rintro ⟨e', hmem, h⟩
        exact ⟨e', .inr hmem, h⟩
      · rintro ⟨e', ⟨hn, rfl⟩ | hmem, h⟩
        · subst hn
          exact absurd ⟨h.1, h.2.1⟩ hentered
        · exact ⟨e', hmem, h⟩

theorem map_scriptsBelow_sublist :
    ((scriptsBelow tree path d).map (·.1)).Sublist (d.map (·.1)) := by
  induction d with
  | nil => exact .slnil
  | cons entry d ih =>
    rw [scriptsBelow]
    split
    · exact ih.cons_cons _
    · exact ih.cons _

theorem mem_scripts_iff {p : Text} : p ∈ scripts tree path (.directory d) ↔ p ∈ own tree path d ∨
    ∃ name e, (name, Entry.directory e) ∈ d ∧ isEntered name = true ∧
      tree.isOpen (below path name) = true ∧ p ∈ scripts tree (below path name) (.directory e) := by
  rw [scripts, List.mem_append]
  refine or_congr_right ?_
  simp only [List.mem_flatMap, List.mem_mergeSort, mem_scriptsBelow]
  constructor
  · rintro ⟨⟨name, l⟩, ⟨e, hmem, hentered, hopen, hl⟩, hp⟩
    rw [hl] at hp
    cases e with
    | directory e => exact ⟨name, e, hmem, hentered, hopen, hp⟩
    | file bytes => cases hp
    | link target => cases hp
  · rintro ⟨name, e, hmem, hentered, hopen, hp⟩
    exact ⟨(name, _), ⟨_, hmem, hentered, hopen, rfl⟩, hp⟩

/-- A directory with a path that may be listed. -/
structure IsWalked (tree : Tree) (path : Text) (d : Directory) : Prop where
  sound : d.IsSound
  found : tree.directory? path = some d
  isOpen : tree.isOpen path = true

theorem IsWalked.named? (h : IsWalked tree path d) : tree.named? path name = d.get? name := by
  rw [Tree.named?, h.found, Option.bind_some]

theorem IsWalked.sub {e : Directory} (h : IsWalked tree path d) (hmem : (name, Entry.directory e) ∈ d)
    (hopen : tree.isOpen (below path name) = true) : IsWalked tree (below path name) e where
  sound := h.sound.sub hmem
  found := Tree.directory?_below h.found (h.sound.proper hmem) (h.sound.get? hmem)
  isOpen := hopen

theorem IsWalked.enters_iff (h : IsWalked tree path d) : Enters tree path name ↔
    ∃ e, (name, Entry.directory e) ∈ d ∧ isEntered name = true ∧
      tree.isOpen (below path name) = true := by
  rw [isEntered_iff]
  constructor
  · intro hdir
    obtain ⟨e, he⟩ := hdir.real
    rw [h.named?] at he
    exact ⟨e, Directory.mem_of_get? he, ⟨hdir.visible, hdir.ne_packages⟩, hdir.isOpen⟩
  · rintro ⟨e, hmem, hname, hopen⟩
    exact ⟨⟨e, h.named?.trans (h.sound.get? hmem)⟩, hname.1, hname.2, hopen⟩

theorem IsWalked.isListed_own (h : IsWalked tree path d) {e : Entry} (hmem : (name, e) ∈ d)
    (hscript : isScript name = true) (hfile : tree.isFile (below path name) = true) :
    Route.IsListed tree path ⟨[], name⟩ := by
  refine Discovery.isListed_own.2 ⟨h.isOpen, ⟨e, ?_⟩, isScript_iff.1 hscript, hfile⟩
  rw [h.named?, h.sound.get? hmem]

theorem IsWalked.mem_own_iff (h : IsWalked tree path d) {p : Text} :
    p ∈ own tree path d ↔
      ∃ name, Route.IsListed tree path ⟨[], name⟩ ∧ p = below path name := by
  rw [mem_own]
  constructor
  · rintro ⟨name, e, hmem, hscript, rfl, hfile⟩
    exact ⟨name, h.isListed_own hmem hscript hfile, rfl⟩
  · rintro ⟨name, hlisted, rfl⟩
    obtain ⟨-, ⟨e, he⟩, hscript, hfile⟩ := Discovery.isListed_own.1 hlisted
    rw [h.named?] at he
    exact ⟨name, e, Directory.mem_of_get? he, isScript_iff.2 hscript, rfl, hfile⟩

/-- The files that are found are those that routes lead to. -/
theorem mem_scripts (h : IsWalked tree path d) {p : Text} :
    p ∈ scripts tree path (.directory d) ↔
      ∃ r : Route, r.IsListed tree path ∧ p = r.path path := by
  obtain ⟨hsound, hfound, hopen⟩ := h
  induction hsound generalizing path p with
  | @mk d hnodup hproper hsub ih =>
    have h : IsWalked tree path d := ⟨.mk hnodup hproper hsub, hfound, hopen⟩
    rw [mem_scripts_iff, h.mem_own_iff]
    constructor
    · rintro (⟨name, hlisted, rfl⟩ | ⟨name, e, hmem, hentered, hdir, hp⟩)
      · exact ⟨⟨[], name⟩, hlisted, rfl⟩
      · have he := h.sub hmem hdir
        obtain ⟨r, hr, rfl⟩ := (ih name e hmem he.found he.isOpen).1 hp
        exact ⟨r.under name, isListed_under.2 ⟨hopen, h.enters_iff.2 ⟨e, hmem, hentered, hdir⟩, hr⟩, rfl⟩
    · rintro ⟨⟨dirs, name⟩, hr, rfl⟩
      cases dirs with
      | nil => exact .inl ⟨name, hr, rfl⟩
      | cons dir dirs =>
        obtain ⟨-, hdir, hr⟩ := isListed_under (r := ⟨dirs, name⟩).1 hr
        obtain ⟨e, hmem, hentered, hdir⟩ := h.enters_iff.1 hdir
        have he := h.sub hmem hdir
        exact .inr ⟨dir, e, hmem, hentered, hdir, (ih dir e hmem he.found he.isOpen).2 ⟨_, hr, rfl⟩⟩

/-! ## Order -/

/-- Two paths are those of routes of which one comes before the other. -/
def Before (tree : Tree) (target p q : Text) : Prop :=
  ∃ r s : Route, r.IsListed tree target ∧ s.IsListed tree target ∧ p = r.path target ∧
    q = s.path target ∧ r.Precedes s

theorem byName_iff {α : Type} {x y : Text × α} : byName x y = true ↔ ¬ y.1 < x.1 := by
  rw [byName, Bool.not_eq_true', decide_eq_false_iff_not]

theorem pairwise_byName {α : Type} {l : List (Text × α)} (h : (l.map (·.1)).Nodup) :
    (l.mergeSort byName).Pairwise fun x y => x.1 < y.1 := by
  have hsorted : (l.mergeSort byName).Pairwise fun x y => byName x y = true := by
    apply List.pairwise_mergeSort
    · intro a b c hab hbc
      rw [byName_iff, List.not_lt] at hab hbc ⊢
      exact List.le_trans hab hbc
    · intro a b
      rw [Bool.or_eq_true, byName_iff, byName_iff, List.not_lt, List.not_lt]
      exact List.le_total a.1 b.1
  have hnodup : (l.mergeSort byName).Pairwise fun x y => x.1 ≠ y.1 := by
    rw [← List.pairwise_map]
    exact ((List.mergeSort_perm l byName).map (·.1)).nodup_iff.2 h
  refine (hsorted.and hnodup).imp fun {x y} hxy => ?_
  obtain ⟨hle, hne⟩ := hxy
  rw [byName_iff, List.not_lt] at hle
  exact (List.le_iff_lt_or_eq.1 hle).resolve_right hne

theorem IsWalked.pairwise_own (h : IsWalked tree path d) :
    (own tree path d).Pairwise (Before tree path) := by
  unfold own
  rw [List.filter_map, List.pairwise_map]
  refine (((pairwise_byName h.sound.nodup).filter _).filter _).imp_of_mem fun {x y} hx hy hxy => ?_
  have hlisted : ∀ z ∈ ((d.mergeSort byName).filter fun e => isScript e.1).filter
      (tree.isFile ∘ fun e => below path e.1), Route.IsListed tree path ⟨[], z.1⟩ := by
    intro z hz
    obtain ⟨hz, hfile⟩ := List.mem_filter.1 hz
    obtain ⟨hz, hscript⟩ := List.mem_filter.1 hz
    exact h.isListed_own (List.mem_mergeSort.1 hz) hscript hfile
  exact ⟨_, _, hlisted x hx, hlisted y hy, rfl, rfl, .own hxy⟩

/-- What is found stands in the order of the routes. -/
theorem pairwise_scripts (h : IsWalked tree path d) :
    (scripts tree path (.directory d)).Pairwise (Before tree path) := by
  obtain ⟨hsound, hfound, hopen⟩ := h
  induction hsound generalizing path with
  | @mk d hnodup hproper hsub ih =>
    have h : IsWalked tree path d := ⟨.mk hnodup hproper hsub, hfound, hopen⟩
    -- What is found below a directory of this one stands in order, and routes through it lead there.
    have hlist : ∀ x ∈ scriptsBelow tree path d, x.2.Pairwise (Before tree path) ∧
        ∀ p ∈ x.2, ∃ r : Route, (r.under x.1).IsListed tree path ∧ p = (r.under x.1).path path := by
      rintro ⟨name, l⟩ hx
      obtain ⟨e, hmem, hentered, hdir, hl⟩ := mem_scriptsBelow.1 hx
      rw [hl]
      cases e with
      | file bytes => exact ⟨.nil, fun p hp => nomatch hp⟩
      | link target => exact ⟨.nil, fun p hp => nomatch hp⟩
      | directory e =>
        have he := h.sub hmem hdir
        have henters := h.enters_iff.2 ⟨e, hmem, hentered, hdir⟩
        have hunder : ∀ r : Route, r.IsListed tree (below path name) →
            (r.under name).IsListed tree path :=
          fun r hr => isListed_under.2 ⟨hopen, henters, hr⟩
        constructor
        · refine (ih name e hmem he.found he.isOpen).imp fun {p q} hpq => ?_
          obtain ⟨r, s, hr, hs, rfl, rfl, hrs⟩ := hpq
          exact ⟨_, _, hunder r hr, hunder s hs, rfl, rfl, .within name hrs⟩
        · intro p hp
          obtain ⟨r, hr, rfl⟩ := (mem_scripts he).1 hp
          exact ⟨r, hunder r hr, rfl⟩
    have hnames : ((scriptsBelow tree path d).mergeSort byName).Pairwise fun x y => x.1 < y.1 :=
      pairwise_byName (hnodup.sublist map_scriptsBelow_sublist)
    rw [scripts, List.pairwise_append, List.pairwise_flatMap]
    refine ⟨h.pairwise_own, ⟨fun x hx => (hlist x (List.mem_mergeSort.1 hx)).1,
      hnames.imp_of_mem fun {x y} hx hy hxy p hp q hq => ?_⟩, fun p hp q hq => ?_⟩
    · -- below one directory and below a later one
      obtain ⟨r, hr, rfl⟩ := (hlist x (List.mem_mergeSort.1 hx)).2 p hp
      obtain ⟨s, hs, rfl⟩ := (hlist y (List.mem_mergeSort.1 hy)).2 q hq
      exact ⟨_, _, hr, hs, rfl, rfl, .sub hxy r s⟩
    · -- in the directory itself and below one of its directories
      obtain ⟨name, hname, rfl⟩ := h.mem_own_iff.1 hp
      obtain ⟨x, hx, hq⟩ := List.mem_flatMap.1 hq
      obtain ⟨s, hs, rfl⟩ := (hlist x (List.mem_mergeSort.1 hx)).2 q hq
      exact ⟨_, _, hname, hs, rfl, rfl, .ownFirst name x.1 s⟩

theorem Route.IsListed.proper {r : Route} (h : IsWalked tree path d) (hr : r.IsListed tree path) :
    ∀ name ∈ r.names, IsProper name := by
  obtain ⟨dirs, last⟩ := r
  induction dirs generalizing path d with
  | nil =>
    intro name hname
    obtain rfl : name = last := List.mem_singleton.1 hname
    obtain ⟨e, he⟩ := hr.entry
    rw [joined_nil, h.named?] at he
    exact h.sound.proper (Directory.mem_of_get? he)
  | cons dir dirs ih =>
    obtain ⟨-, hdir, hr⟩ := isListed_under (r := ⟨dirs, last⟩).1 hr
    obtain ⟨e, hmem, -, hopen⟩ := h.enters_iff.1 hdir
    intro name hname
    rcases List.mem_cons.1 hname with rfl | hname
    · exact h.sound.proper hmem
    · exact ih (h.sub hmem hopen) hr name hname

/-- Different routes lead to different files. -/
theorem Before.ne (h : IsWalked tree path d) {p q : Text} (hpq : Before tree path p q) : p ≠ q := by
  obtain ⟨r, s, hr, hs, rfl, rfl, hrs⟩ := hpq
  intro heq
  have hpath : path ≠ [] := by
    obtain ⟨place, hplace, -⟩ := Tree.find_of_directory? h.found
    exact Tree.ne_nil_of_find hplace
  have hnames : r.names = s.names :=
    Files.joined_inj hpath (by simp [Route.names]) (by simp [Route.names]) (hr.proper h)
      (hs.proper h) heq
  obtain ⟨hdirs, hname⟩ := List.append_inj' hnames rfl
  apply hrs.ne
  rw [Route.mk.injEq]
  exact ⟨hdirs, (List.cons.inj hname).1⟩

end Walk

section Find

variable {tree : Tree} {target : Text}

theorem find_of_directory {d : Directory} (hd : tree.directory? target = some d) :
    (find tree target).2 =
      if tree.isOpen target then scripts tree target (.directory d) else [] := by
  rw [find, if_neg (by simp [Tree.isFile_eq_false hd]), hd]

/-- A directory that is a target stands for the script files in it and below it, as far as directories are
entered: each of them once, by the path that leads to it from the target, in each directory first its own
files and then those below its subdirectories, by the code points of names. -/
theorem find_directory (htree : tree.top.IsSound) (hdir : tree.isDirectory target = true) :
    (∀ path, path ∈ (find tree target).2 ↔
      ∃ r : Route, r.IsListed tree target ∧ path = r.path target) ∧
    (find tree target).2.Nodup ∧
    (find tree target).2.Pairwise (Before tree target) := by
  obtain ⟨d, hd⟩ := Option.isSome_iff_exists.1 hdir
  rw [find_of_directory hd]
  split
  · rename_i hopen
    have h : IsWalked tree target d := ⟨Tree.isSound_of_directory? htree hd, hd, hopen⟩
    refine ⟨fun path => mem_scripts h, ?_, pairwise_scripts h⟩
    exact (pairwise_scripts h).imp fun hpq => hpq.ne h
  · rename_i hclosed
    refine ⟨fun path => ?_, .nil, .nil⟩
    constructor
    · intro hp
      cases hp
    · rintro ⟨r, hr, -⟩
      exact absurd hr.isOpen hclosed

end Find

/-! ### A target that is a link, with a directory that has the name of a script -/

def site : Tree where
  top :=
    [("s", .link "src"),
     ("src", .directory
       [("b.js", .file []), ("a.mjs", .link "b.js"), ("gone.js", .link "nowhere"),
        ("x.js", .directory [("c.js", .file []), ("up.js", .link "..")]), ("l", .link "x.js"),
        (".h", .directory [("d.js", .file [])]), ("node_modules", .directory [("e.js", .file [])]),
        ("shut", .directory [("f.js", .file [])]), ("readme", .file [])])]
  closed := [["src", "shut"]]

def siteTarget : Text := Text.ofString "s"

def siteRoute : Route := ⟨[Text.ofString "x.js"], Text.ofString "c.js"⟩

instance (name : Text) : Decidable (IsProper name) :=
  decidable_of_iff (name ≠ [] ∧ Files.slash ∉ name ∧ name ≠ Files.here ∧ name ≠ Files.above)
    ⟨fun h => ⟨h.1, h.2.1, h.2.2.1, h.2.2.2⟩, fun h => ⟨h.ne_nil, h.slash, h.ne_here, h.ne_above⟩⟩

theorem isSound_site : site.top.IsSound := by
  have hflat : ∀ d : Directory, (d.map (·.1)).Nodup → (∀ x ∈ d, IsProper x.1) →
      (∀ name e, (name, Entry.directory e) ∉ d) → d.IsSound :=
    fun d hnodup hproper hsub => .mk hnodup hproper fun name e he => absurd he (hsub name e)
  refine .mk (by decide) (by decide) fun name e he => ?_
  obtain ⟨-, rfl⟩ : name = Text.ofString "src" ∧ e = _ := by simpa [site] using he
  refine .mk (by decide) (by decide) fun name e he => ?_
  simp only [List.mem_cons, Prod.mk.injEq, reduceCtorEq, Entry.directory.injEq, and_false,
    List.not_mem_nil, or_false, false_or] at he
  rcases he with ⟨-, rfl⟩ | ⟨-, rfl⟩ | ⟨-, rfl⟩ | ⟨-, rfl⟩
  all_goals exact hflat _ (by decide) (by decide) (by simp)

theorem isListed_siteRoute : siteRoute.IsListed site siteTarget := by
  have henters : Enters site siteTarget (Text.ofString "x.js") :=
    ⟨⟨_, rfl⟩, by decide, by decide, by decide +kernel⟩
  refine isListed_under (r := ⟨[], Text.ofString "c.js"⟩).2 ⟨by decide +kernel, henters, ?_⟩
  exact isListed_own.2 ⟨by decide +kernel, ⟨_, rfl⟩, .inl (by decide), by decide +kernel⟩

theorem find_site : site.top.IsSound ∧ site.isDirectory siteTarget = true ∧
    siteRoute.IsListed site siteTarget ∧
    Text.ofString "s/x.js/c.js" ∈ (find site siteTarget).2 ∧ (find site siteTarget).2.Nodup ∧
    (find site siteTarget).2.Pairwise (Before site siteTarget) := by
  have hdir : site.isDirectory siteTarget = true := by decide +kernel
  obtain ⟨hmem, hnodup, hpairwise⟩ := find_directory isSound_site hdir
  exact ⟨isSound_site, hdir, isListed_siteRoute, (hmem _).2 ⟨siteRoute, isListed_siteRoute, rfl⟩,
    hnodup, hpairwise⟩

end Discovery

end LazyLint
