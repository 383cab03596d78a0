import LazyLint.Proofs.Segments

/-!
# Which lists are lists of names

A heavy dependency is a text whose segments are those of a package: one segment that is no scope, or a
scope and a name. A list of values passes if all of them are such texts, and else fails as the first that
is not (`normalize_eq_error_iff`). What passes comes out with each name once, so that a list may be
normalized before another one is added to it, with the same outcome (`normalize_append`).
-/

namespace LazyLint.Dependency

/-! ## The segments of a name -/

/-- The segments of a package: a name that does not look like a scope, or a scope and a name in it. -/
inductive Segments : List Text → Prop
  | plain {name : Text} (hat : name.head? ≠ some at_) : Segments [name]
  | inScope {scope name : Text} (hscope : scope ≠ []) (hname : name ≠ []) :
      Segments [at_ :: scope, name]

theorem isPackage_iff {t : Text} : IsPackage t ↔ Segments (t.splitOn slash) := by
  constructor
  · intro h
    cases h with
    | plain hslash hat =>
      rw [List.splitOn_eq_singleton hslash]
      exact .plain hat
    | @inScope scope name hscope hname hscopeSlash hnameSlash =>
      have hat : slash ∉ at_ :: scope :=
        List.not_mem_cons_of_ne_of_not_mem at_ne_slash.symm hscopeSlash
      rw [← List.cons_append, List.splitOn_append_cons_self_of_not_mem hat,
        List.splitOn_eq_singleton hnameSlash]
      exact .inScope hscope hname
  · intro h
    generalize hsegments : t.splitOn slash = segments at h
    cases h with
    | plain hat =>
      obtain ⟨rfl, hslash⟩ := Text.splitOn_eq_singleton_iff.1 hsegments
      exact .plain hslash hat
    | inScope hscope hname =>
      rw [← Text.splitAt_eq_splitOn, Text.splitAt_eq_pair_iff] at hsegments
      obtain ⟨rfl, hscopeSlash, hnameSlash⟩ := hsegments
      exact .inScope hscope hname (fun h => hscopeSlash (List.mem_cons_of_mem _ h)) hnameSlash

/-- A value that is accepted as a name: a text that is not all blank and has the segments of a package. -/
def IsAccepted (v : Value) : Prop :=
  ∃ t, v = .text t ∧ t.isAllBlank = false ∧ Segments (t.splitOn slash)

/-- A value that is not accepted, with the fault that says why. -/
inductive Offends : Value → NameFault → Prop
  | other {v : Value} (h : ∀ t, v ≠ .text t) : Offends v (.blank v)
  | blank {t : Text} (h : t.isAllBlank = true) : Offends (.text t) (.blank (.text t))
  | path {t : Text} (hblank : t.isAllBlank = false) (h : ¬ Segments (t.splitOn slash)) :
      Offends (.text t) (.path t)

theorem exists_ofValue_iff {v : Value} : (∃ name, ofValue v = .ok name) ↔ IsAccepted v := by
  simp only [ofValue_eq_ok_iff]
  constructor
  · rintro ⟨t, rfl, hname⟩
    exact ⟨t, rfl, hname.notBlank, isPackage_iff.1 hname.package⟩
  · rintro ⟨t, rfl, hblank, hsegments⟩
    exact ⟨t, rfl, hblank, isPackage_iff.2 hsegments⟩

theorem ofValue_eq_error_iff {v : Value} {f : NameFault} : ofValue v = .error f ↔ Offends v f := by
  cases v with
  | text t =>
    have hbare : isBare t = true ↔ Segments (t.splitOn slash) := isBare_iff.trans isPackage_iff
    rw [ofValue]
    constructor
    · intro h
      split at h
      · rename_i hblank
        cases h
        exact .blank hblank
      · rename_i hblank
        split at h
        · cases h
        · rename_i hpath
          cases h
          exact .path (Bool.eq_false_iff.2 hblank) fun hsegments => hpath (hbare.2 hsegments)
    · intro h
      cases h with
      | other h => exact absurd rfl (h t)
      | blank h => rw [if_pos h]
      | path hblank h => rw [if_neg (Bool.eq_false_iff.1 hblank), if_neg fun hb => h (hbare.1 hb)]
  | _ =>
    constructor
    · intro h
      cases h
      exact .other fun t ht => nomatch ht
    · intro h
      cases h
      rfl

/-! ## Lists -/

section Lists

variable {vs ws : List Value} {names : List Text} {f : NameFault}

theorem normalize_eq_error_iff : normalize vs = .error f ↔
    ∃ before v after, vs = before ++ v :: after ∧ (∀ u ∈ before, IsAccepted u) ∧ Offends v f := by
  rw [← fault?_eq_some_iff, normalize_eq, fault?_map, fault?_eq_some_iff, mapM_eq_error_iff]
  simp only [exists_ofValue_iff, ofValue_eq_error_iff]

theorem exists_normalize_iff : (∃ names, normalize vs = .ok names) ↔ ∀ v ∈ vs, IsAccepted v := by
  rw [← fault?_eq_none_iff, normalize_eq, fault?_map, fault?_mapM, List.findSome?_eq_none_iff]
  simp only [fault?_eq_none_iff, exists_ofValue_iff]

theorem exists_texts_of_normalize (h : normalize vs = .ok names) :
    ∃ ts : List Text, vs = ts.map .text ∧ (∀ t ∈ ts, IsName t) ∧ names = ts.eraseDups := by
  obtain ⟨ts, hts⟩ : ∃ ts, vs.mapM ofValue = .ok ts := by
    rw [← fault?_eq_none_iff, ← fault?_map List.eraseDups, ← normalize_eq, h, fault?_ok]
  have hall := mapM_eq_ok_iff.1 hts
  obtain rfl : vs = ts.map .text := by
    rw [← List.forall₂_eq_eq_eq, List.forall₂_map_right_iff]
    exact hall.imp fun v t hv => (ofValue_eq_ok_iff.1 hv).1
  obtain ⟨hnames, rfl⟩ := normalize_texts_eq_ok_iff.1 h
  exact ⟨ts, rfl, hnames, rfl⟩

/-- A list may be normalized before another one is added to it. -/
theorem normalize_append (h : normalize vs = .ok names) (ws : List Value) :
    normalize (vs ++ ws) = normalize (names.map .text ++ ws) := by
  obtain ⟨ts, rfl, hts, rfl⟩ := exists_texts_of_normalize h
  have hnames : ∀ t ∈ ts.eraseDups, IsName t := fun t ht => hts t (List.mem_eraseDups.1 ht)
  rw [normalize_eq, normalize_eq, List.mapM_append, List.mapM_append,
    mapM_ofValue_texts.2 ⟨rfl, hts⟩, mapM_ofValue_texts.2 ⟨rfl, hnames⟩]
  cases ws.mapM ofValue with
  | error f => rfl
  | ok us => exact congrArg Except.ok (eraseDups_append_left ts us).symm

theorem normalize_again (h : normalize vs = .ok names) : normalize (names.map .text) = .ok names := by
  have hnil := normalize_append h []
  rw [List.append_nil, List.append_nil, h] at hnil
  exact hnil.symm

end Lists

/-- A list of values is one of names if and only if each of its members is a text that is not all blank and
has the segments of a package; else the fault is that of the first member which is not. What comes out has
no repetitions, has the members of the list and stands in the order in which they are first met there. To
normalize a part of a list first, or the whole of it twice, changes nothing, faults included. -/
theorem normalize_laws :
    (∀ vs, (∃ names, normalize vs = .ok names) ↔ ∀ v ∈ vs, IsAccepted v) ∧
    (∀ vs f, normalize vs = .error f ↔ ∃ before v after, vs = before ++ v :: after ∧
      (∀ u ∈ before, IsAccepted u) ∧ Offends v f) ∧
    ∀ vs names, normalize vs = .ok names →
      names.Nodup ∧
      (∃ ts : List Text, vs = ts.map .text ∧ (∀ t, t ∈ names ↔ t ∈ ts) ∧
        names.Pairwise fun s t => ts.idxOf s < ts.idxOf t) ∧
      normalize (names.map .text) = .ok names ∧
      ∀ ws, normalize (vs ++ ws) = normalize (names.map .text ++ ws) := by
  refine ⟨fun vs => exists_normalize_iff, fun vs f => normalize_eq_error_iff, fun vs names h => ?_⟩
  refine ⟨?_, ?_, normalize_again h, normalize_append h⟩
  · obtain ⟨ts, -, -, rfl⟩ := exists_texts_of_normalize h
    exact nodup_eraseDups ts
  · obtain ⟨ts, rfl, -, rfl⟩ := exists_texts_of_normalize h
    exact ⟨ts, rfl, fun t => List.mem_eraseDups, pairwise_idxOf_eraseDups ts⟩

/-- Two names, one of them twice. -/
def twice : List Text :=
  ["vue", "@babel/core", "vue"].map Text.ofString

/-- A scope alone after them. -/
theorem normalize_twice : normalize (twice.map Value.text) =
      .ok [Text.ofString "vue", Text.ofString "@babel/core"] ∧
    normalize (twice.map Value.text ++ [.text (Text.ofString "@/x"), .null]) =
      normalize ([Text.ofString "vue", Text.ofString "@babel/core"].map Value.text ++
        [.text (Text.ofString "@/x"), .null]) ∧
    normalize (twice.map Value.text ++ [.text (Text.ofString "@/x"), .null]) =
      .error (.path (Text.ofString "@/x")) := by
  have h : normalize (twice.map Value.text) =
    .ok [Text.ofString "vue", Text.ofString "@babel/core"] := rfl
  obtain ⟨-, hfault, hlaws⟩ := normalize_laws
  obtain ⟨-, -, -, happend⟩ := hlaws _ _ h
  refine ⟨h, happend _, (hfault _ _).2 ⟨twice.map Value.text, _, [.null], rfl, ?_, ?_⟩⟩
  · exact exists_normalize_iff.1 ⟨_, h⟩
  · have hcut : (Text.ofString "@/x").splitOn slash = [[at_], Text.ofString "x"] := by decide
    refine .path (by decide) fun hsegments => ?_
    rw [hcut] at hsegments
    cases hsegments with
    | inScope hscope _ => exact hscope rfl

end LazyLint.Dependency
