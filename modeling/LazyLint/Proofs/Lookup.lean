import LazyLint.Proofs.Names
import LazyLint.Proofs.Writing

/-!
# Looking up a name below a path

A path that leads to a directory, with a name of that directory after it, leads to what the directory has
under the name (`find_below`). The way to the directory is gone again, with the links that it takes, and
the name is looked up from there with the links that are left: this is `followWithin_append`, and
`Next` is the one case analysis behind it.

Names are those that a file system allows, and each stands once in its directory. This is `IsSound`, and a
directory that a path leads to is sound if the tree is (`isSound_of_directory?`).
-/

namespace LazyLint.Files

/-! ## Trees as file systems have them -/

/-- A name that can stand in a directory. -/
structure IsProper (name : Text) : Prop where
  ne_nil : name ≠ []
  slash : slash ∉ name
  ne_here : name ≠ here
  ne_above : name ≠ above

/-- No directory has a name twice, or one that paths could not spell. -/
inductive Directory.IsSound : Directory → Prop
  | mk {d : Directory} (nodup : (d.map (·.1)).Nodup) (proper : ∀ x ∈ d, IsProper x.1)
      (sub : ∀ name e, (name, Entry.directory e) ∈ d → IsSound e) : IsSound d

namespace Directory

variable {d e : Directory} {name : Text} {entry : Entry}

theorem mem_of_get? (h : d.get? name = some entry) : (name, entry) ∈ d := by
  obtain ⟨x, hx, rfl⟩ := Option.map_eq_some_iff.1 h
  have hname := List.find?_some hx
  have hmem := List.mem_of_find?_eq_some hx
  rw [beq_iff_eq] at hname
  rwa [← hname]

theorem get?_of_mem (hnodup : (d.map (·.1)).Nodup) (h : (name, entry) ∈ d) :
    d.get? name = some entry := by
  induction d with
  | nil => cases h
  | cons x d ih =>
    obtain ⟨n, e⟩ := x
    rw [List.map_cons, List.nodup_cons] at hnodup
    rw [get?_cons]
    rcases List.mem_cons.1 h with heq | h
    · cases heq
      rw [if_pos rfl]
    · have hne : n ≠ name := by
        rintro rfl
        exact hnodup.1 (List.mem_map.2 ⟨_, h, rfl⟩)
      rw [if_neg hne]
      exact ih hnodup.2 h

theorem IsSound.nodup (h : d.IsSound) : (d.map (·.1)).Nodup := by
  cases h
  assumption

theorem IsSound.proper (h : d.IsSound) (hmem : (name, entry) ∈ d) : IsProper name := by
  cases h with
  | mk _ hproper _ => exact hproper _ hmem

theorem IsSound.get? (h : d.IsSound) (hmem : (name, entry) ∈ d) : d.get? name = some entry :=
  get?_of_mem h.nodup hmem

theorem IsSound.sub (h : d.IsSound) (hmem : (name, Entry.directory e) ∈ d) : e.IsSound := by
  cases h with
  | mk _ _ hsub => exact hsub _ _ hmem

theorem IsSound.at? {names : List Text} (h : d.IsSound) (he : d.at? names = some e) :
    e.IsSound := by
  induction names generalizing d with
  | nil =>
    cases he
    exact h
  | cons name names ih =>
    obtain ⟨b, hb, he⟩ := at?_cons.1 he
    exact ih (h.sub (mem_of_get? hb)) he

end Directory

/-! ## Ways that end in a directory -/

/-- A place next to another one: itself, the one above it, or one below it. -/
inductive Next (p : Place) : Place → Prop
  | stay : Next p p
  | up {name : Text} {dir : Directory} {around : List (Text × Directory)}
      (h : p.around = (name, dir) :: around) : Next p ⟨dir, around⟩
  | down {name : Text} {dir : Directory} (h : p.dir.get? name = some (.directory dir)) :
      Next p ⟨dir, (name, p.dir) :: p.around⟩

theorem Next.beside {top : Directory} {p q : Place} (h : Next p q) (hp : Beside top top p p) :
    Beside top top q q := by
  cases h with
  | stay => exact hp
  | up h => exact hp.up h h
  | down h => exact .down hp h h

section Way

variable {top : Directory} {follow : Place → List Text → Found} {p q : Place} {part : Text}
  {ps qs rest : List Text}

/-- A way to a directory takes its first part to a place nearby or along a link, whatever follows. -/
theorem followParts_cons (h : followParts top follow p (part :: rest) = .directory q) :
    (∃ p', Next p p' ∧
      ∀ qs, followParts top follow p (part :: qs) = followParts top follow p' qs) ∨
    ∃ target, ∀ qs, followParts top follow p (part :: qs) =
      follow (if isAbsolute target then ⟨top, []⟩ else p) (parts target ++ qs) := by
  rw [followParts] at h
  split at h
  · rename_i hstay
    refine .inl ⟨p, .stay, fun qs => ?_⟩
    rw [followParts, if_pos hstay]
  rename_i hstay
  split at h
  · rename_i habove
    cases haround : p.around with
    | nil =>
      refine .inl ⟨p, .stay, fun qs => ?_⟩
      rw [followParts, if_neg hstay, if_pos habove, haround]
    | cons x around =>
      refine .inl ⟨_, .up haround, fun qs => ?_⟩
      rw [followParts, if_neg hstay, if_pos habove, haround]
  rename_i habove
  split at h
  · split at h
    · cases h
    · split at h <;> cases h
  · split at h <;> cases h
  · rename_i hdir
    refine .inl ⟨_, .down hdir, fun qs => ?_⟩
    rw [followParts, if_neg hstay, if_neg habove, hdir]
  · rename_i target hlink
    refine .inr ⟨target, fun qs => ?_⟩
    rw [followParts, if_neg hstay, if_neg habove, hlink]

/-- Parts after a way to a directory are followed from there, with the links that are left. -/
theorem followWithin_append {links : Nat} (hp : Beside top top p p)
    (h : followWithin top links p ps = .directory q) :
    Beside top top q q ∧
      ∃ left, ∀ qs, followWithin top links p (ps ++ qs) = followWithin top (left + 1) q qs := by
  -- on the links, and for as many links on the parts: a link is followed with one link less
  induction links generalizing p ps with
  | zero => cases h
  | succ links ih =>
    induction ps generalizing p with
    | nil =>
      cases h
      exact ⟨hp, links, fun qs => rfl⟩
    | cons part ps ihps =>
      obtain ⟨p', hnext, hway⟩ | ⟨target, hway⟩ := followParts_cons h
      · obtain ⟨hq, left, hleft⟩ := ihps (hnext.beside hp) ((hway ps).symm.trans h)
        exact ⟨hq, left, fun qs => (hway (ps ++ qs)).trans (hleft qs)⟩
      · obtain ⟨hq, left, hleft⟩ := ih (hp.start _) ((hway ps).symm.trans h)
        refine ⟨hq, left, fun qs => ?_⟩
        have hqs := hway (ps ++ qs)
        rw [← List.append_assoc] at hqs
        exact hqs.trans (hleft qs)

theorem followWithin_empty {links : Nat} (hne : qs ≠ []) :
    followWithin top links p (ps ++ [] :: qs) = followWithin top links p (ps ++ qs) := by
  induction links generalizing p ps with
  | zero => rfl
  | succ links ih =>
    change followParts top _ p (ps ++ [] :: qs) = followParts top _ p (ps ++ qs)
    induction ps generalizing p with
    | nil => rw [List.nil_append, followParts, if_pos (by simp), List.nil_append]
    | cons part ps ihps =>
      rw [List.cons_append, List.cons_append, followParts, followParts]
      have hempty : (ps ++ [] :: qs).isEmpty = (ps ++ qs).isEmpty := by
        rw [List.isEmpty_eq_false_iff.2 (List.append_ne_nil_of_right_ne_nil _ (List.cons_ne_nil _ _)),
          List.isEmpty_eq_false_iff.2 (List.append_ne_nil_of_right_ne_nil _ hne)]
      have hall : (ps ++ [] :: qs).all List.isEmpty = (ps ++ qs).all List.isEmpty := by
        rw [List.all_append, List.all_append, List.all_cons, List.isEmpty_nil, Bool.true_and]
      rw [hempty, hall]
      simp only [ihps, ← List.append_assoc, ih]

end Way

/-! ## A name after a path -/

section Below

variable {path name : Text}

theorem parts_cut (t u : Text) : parts (t ++ slash :: u) = parts t ++ parts u := by
  induction t with
  | nil => rfl
  | cons c t ih =>
    unfold parts at ih ⊢
    rw [List.cons_append, Text.splitAt, Text.splitAt, ih]
    by_cases hc : c = slash
    · rw [if_pos hc, if_pos hc, List.cons_append]
    · rw [if_neg hc, if_neg hc]
      cases ht : Text.splitAt slash t with
      | nil =>
        rw [Text.splitAt_eq_splitOn] at ht
        exact absurd ht (List.splitOn_ne_nil slash t)
      | cons piece pieces => rfl

theorem parts_proper (hname : slash ∉ name) : parts name = [name] := by
  rw [parts, Text.splitAt_eq_splitOn, List.splitOn_eq_singleton hname]

/-- The parts of a path before a name that is put below it: an empty part behind a last slash gives way
to the name. -/
def stem (path : Text) : List Text :=
  if path.getLast? = some slash then (parts path).dropLast else parts path

theorem parts_eq_stem (path : Text) : parts path = stem path ∨ parts path = stem path ++ [[]] := by
  unfold stem
  split
  · rename_i hslash
    right
    obtain ⟨t, rfl⟩ := List.getLast?_eq_some_iff.1 hslash
    rw [parts_cut, parts_proper List.not_mem_nil, List.dropLast_concat]
  · exact .inl rfl

theorem parts_below (hpath : path ≠ []) (hname : slash ∉ name) :
    parts (below path name) = stem path ++ [name] := by
  by_cases hslash : path.getLast? = some slash
  · obtain ⟨t, rfl⟩ := List.getLast?_eq_some_iff.1 hslash
    rw [below, if_pos (by simp [hslash]), stem, if_pos hslash, List.append_assoc,
      List.singleton_append, parts_cut, parts_proper hname, parts_cut,
      parts_proper List.not_mem_nil, List.dropLast_concat]
  · rw [below, if_neg (by simp [hslash, hpath]), stem, if_neg hslash, List.append_assoc,
      List.singleton_append, parts_cut, parts_proper hname]

theorem stem_below (hname : IsProper name) : stem (below path name) = parts (below path name) := by
  obtain ⟨t, ht⟩ : ∃ t, below path name = t ++ name := by
    unfold below
    split
    · exact ⟨_, rfl⟩
    · exact ⟨_, rfl⟩
  have hlast : (below path name).getLast? ≠ some slash := by
    rw [ht, List.getLast?_append_of_ne_nil _ hname.ne_nil]
    intro h
    obtain ⟨u, hu⟩ := List.getLast?_eq_some_iff.1 h
    exact hname.slash (hu ▸ List.mem_append_right u (List.mem_singleton.2 rfl))
  rw [stem, if_neg hlast]

theorem below_ne_nil (hname : name ≠ []) : below path name ≠ [] := by
  unfold below
  split <;> simp [hname]

theorem isAbsolute_below (hpath : path ≠ []) : isAbsolute (below path name) = isAbsolute path := by
  obtain ⟨c, t, rfl⟩ := List.exists_cons_of_ne_nil hpath
  unfold below isAbsolute
  split <;> rfl

/-! ### Several names -/

/-- A path with names below it, one below the other. -/
def joined (path : Text) (names : List Text) : Text :=
  names.foldl below path

@[simp] theorem joined_nil : joined path [] = path := rfl

@[simp] theorem joined_cons {names : List Text} :
    joined path (name :: names) = joined (below path name) names := rfl

theorem parts_joined {names : List Text} (hpath : path ≠ []) (hne : names ≠ [])
    (hnames : ∀ name ∈ names, IsProper name) : parts (joined path names) = stem path ++ names := by
  induction names generalizing path with
  | nil => exact absurd rfl hne
  | cons name names ih =>
    have hname := hnames name (List.mem_cons_self ..)
    cases names with
    | nil => exact parts_below hpath hname.slash
    | cons next names =>
      rw [joined_cons, ih (below_ne_nil hname.ne_nil) (List.cons_ne_nil _ _)
        fun n hn => hnames n (List.mem_cons_of_mem _ hn), stem_below hname,
        parts_below hpath hname.slash, List.append_assoc, List.singleton_append]

/-- Names are known from the path to which they lead. -/
theorem joined_inj {ms ns : List Text} (hpath : path ≠ []) (hm : ms ≠ []) (hn : ns ≠ [])
    (hms : ∀ name ∈ ms, IsProper name) (hns : ∀ name ∈ ns, IsProper name)
    (h : joined path ms = joined path ns) : ms = ns := by
  have hparts := congrArg parts h
  rw [parts_joined hpath hm hms, parts_joined hpath hn hns] at hparts
  exact List.append_cancel_left hparts

end Below

namespace Tree

variable {t : Tree} {path name : Text} {p : Place} {d e : Directory}

/-- Where a path starts. -/
def start (t : Tree) (path : Text) : Place :=
  if isAbsolute path then ⟨t.top, []⟩ else descend ⟨t.top, []⟩ t.home

theorem find_eq (hpath : path ≠ []) :
    t.find path = followWithin t.top (linkLimit + 1) (t.start path) (parts path) := by
  rw [find, if_neg (by simpa using hpath)]
  rfl

theorem beside_start : Beside t.top t.top (t.start path) (t.start path) := by
  unfold start
  split
  · exact .top
  · refine descend_beside t.home (fun p p' n hp => ?_) .top
    obtain ⟨hat, hat'⟩ := hp.at?_path
    rw [Option.some.inj (hat.symm.trans hat')]

theorem ne_nil_of_find (h : t.find path = .directory p) : path ≠ [] := by
  rintro rfl
  cases h

theorem beside_of_find (h : t.find path = .directory p) : Beside t.top t.top p p := by
  rw [find_eq (ne_nil_of_find h)] at h
  exact (followWithin_append beside_start h).1

/-- What a directory has under a name is what is found below its path. -/
theorem find_below (h : t.find path = .directory p) (hname : IsProper name) :
    ∃ links, t.find (below path name) =
      followParts t.top (followWithin t.top links) p [name] := by
  have hpath := ne_nil_of_find h
  rw [find_eq hpath] at h
  obtain ⟨-, left, hleft⟩ := followWithin_append beside_start h
  refine ⟨left, ?_⟩
  have hway : t.find (below path name) =
      followWithin t.top (linkLimit + 1) (t.start path) (parts path ++ [name]) := by
    have hstart : t.start (below path name) = t.start path := by
      unfold start
      rw [isAbsolute_below hpath]
    rw [find_eq (below_ne_nil hname.ne_nil), hstart]
    rw [parts_below hpath hname.slash]
    rcases parts_eq_stem path with hstem | hstem
    · rw [hstem]
    · rw [hstem, List.append_assoc, List.singleton_append,
        followWithin_empty (List.cons_ne_nil name [])]
  rw [hway, hleft]
  rfl

theorem find_of_directory? (h : t.directory? path = some d) :
    ∃ p, t.find path = .directory p ∧ p.dir = d := by
  unfold directory? at h
  split at h
  · rename_i p hp
    exact ⟨p, hp, Option.some.inj h⟩
  · cases h

theorem directory?_of_find (h : t.find path = .directory p) : t.directory? path = some p.dir := by
  rw [directory?, h]

/-- A directory of a directory is found below the path of that. -/
theorem directory?_below (hd : t.directory? path = some d) (hname : IsProper name)
    (he : d.get? name = some (.directory e)) : t.directory? (below path name) = some e := by
  obtain ⟨p, hp, rfl⟩ := find_of_directory? hd
  obtain ⟨links, hfind⟩ := find_below hp hname
  have hstay : ¬ (name.isEmpty = true ∨ name = here) := by
    simp [hname.ne_nil, hname.ne_here]
  rw [followParts, if_neg (by simpa using hstay), if_neg hname.ne_above, he] at hfind
  rw [directory?_of_find hfind]

theorem isSound_of_directory? (ht : t.top.IsSound) (h : t.directory? path = some d) :
    d.IsSound := by
  obtain ⟨p, hp, rfl⟩ := find_of_directory? h
  exact ht.at? (beside_of_find hp).at?_path.1

theorem isFile_eq_false (h : t.directory? path = some d) : t.isFile path = false := by
  obtain ⟨p, hp, -⟩ := find_of_directory? h
  rw [isFile, file?, hp]
  rfl

end Tree

end LazyLint.Files
