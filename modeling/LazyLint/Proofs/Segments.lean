import LazyLint.Proofs.Names

/-!
# Matching by whole segments

`Dependency.isHeavy` compares texts: a specifier is equal to a name, or starts with the name and a slash,
or with an at sign, the name and a slash, or has the name behind a scope. Here the specifier is cut at
its slashes first, and `Targets` says of the segments what makes the specifier one for a dependency. The
two agree on names that pass the check of `normalize` (`eq_or_reaches_iff`): such a name has no slash, or
one behind a scope, so it ends where a segment ends.

All of `Targets` is about the first two segments, which is why a path to a file never is one for a
package.
-/

namespace LazyLint

namespace Text

variable {sep : CodePoint} {t a b : Text} {rest : List Text}

/-- A text of two segments or more is its first segment, a separator, and what the others are cut
from. -/
theorem splitOn_eq_cons_cons_iff : t.splitOn sep = a :: b :: rest ↔
    ∃ u, t = a ++ sep :: u ∧ sep ∉ a ∧ u.splitOn sep = b :: rest := by
  constructor
  · intro h
    have ha : sep ∉ a := by
      apply not_mem_of_mem_splitAt (t := t)
      rw [splitAt_eq_splitOn, h]
      exact List.mem_cons_self ..
    have hjoin : [sep].intercalate (t.splitOn sep) = t := List.intercalate_splitOn sep
    rw [h, List.intercalate_cons_cons, List.append_assoc, List.singleton_append] at hjoin
    have hcut := h
    rw [← hjoin, List.splitOn_append_cons_self_of_not_mem ha] at hcut
    exact ⟨_, hjoin.symm, ha, (List.cons.inj hcut).2⟩
  · rintro ⟨u, rfl, ha, hu⟩
    rw [List.splitOn_append_cons_self_of_not_mem ha, hu]

theorem splitOn_eq_singleton_iff : t.splitOn sep = [a] ↔ t = a ∧ sep ∉ a := by
  constructor
  · intro h
    have hjoin : [sep].intercalate (t.splitOn sep) = t := List.intercalate_splitOn sep
    rw [h, List.intercalate_singleton] at hjoin
    refine ⟨hjoin.symm, not_mem_of_mem_splitAt (t := t) ?_⟩
    rw [splitAt_eq_splitOn, h]
    exact List.mem_singleton.2 rfl
  · rintro ⟨rfl, ha⟩
    exact List.splitOn_eq_singleton ha

/-- A text starts with a segment and a separator where it has a second segment. -/
theorem prefix_iff_splitOn (ha : sep ∉ a) :
    a ++ [sep] <+: t ↔ ∃ b rest, t.splitOn sep = a :: b :: rest := by
  constructor
  · rintro ⟨u, rfl⟩
    obtain ⟨b, rest, hu⟩ := List.exists_cons_of_ne_nil (List.splitOn_ne_nil sep u)
    refine ⟨b, rest, splitOn_eq_cons_cons_iff.2 ⟨u, ?_, ha, hu⟩⟩
    rw [List.append_assoc, List.singleton_append]
  · rintro ⟨b, rest, h⟩
    obtain ⟨u, rfl, -, -⟩ := splitOn_eq_cons_cons_iff.1 h
    exact ⟨u, by rw [List.append_assoc, List.singleton_append]⟩

theorem eq_or_prefix_iff_splitOn (ha : sep ∉ a) :
    t = a ∨ a ++ [sep] <+: t ↔ ∃ rest, t.splitOn sep = a :: rest := by
  rw [prefix_iff_splitOn ha]
  constructor
  · rintro (rfl | ⟨b, rest, h⟩)
    · exact ⟨[], List.splitOn_eq_singleton ha⟩
    · exact ⟨b :: rest, h⟩
  · rintro ⟨rest, h⟩
    cases rest with
    | nil => exact .inl (splitOn_eq_singleton_iff.1 h).1
    | cons b rest => exact .inr ⟨b, rest, h⟩

/-- What stands before the first separator and what stands behind it are known from the text. -/
theorem append_sep_inj {a' b' : Text} (ha : sep ∉ a) (ha' : sep ∉ a')
    (h : a ++ sep :: b = a' ++ sep :: b') : a = a' ∧ b = b' := by
  have hcut := congrArg (List.splitOn sep) h
  rw [List.splitOn_append_cons_self_of_not_mem ha, List.splitOn_append_cons_self_of_not_mem ha'] at hcut
  obtain rfl := (List.cons.inj hcut).1
  exact ⟨rfl, (List.cons.inj (List.append_cancel_left h)).2⟩

end Text

namespace Dependency

/-! ## Segments that target a dependency -/

/-- What the segments of a specifier are if it is one for a dependency. -/
inductive Targets : Text → List Text → Prop
  /-- The package, or a path below it. -/
  | name {dep : Text} {rest : List Text} (hdep : dep.head? ≠ some at_) : Targets dep (dep :: rest)
  /-- A package in the scope of that name. -/
  | asScope {dep second : Text} {rest : List Text} (hdep : dep.head? ≠ some at_) :
      Targets dep ((at_ :: dep) :: second :: rest)
  /-- The package in some scope. -/
  | fork {dep org : Text} {rest : List Text} (hdep : dep.head? ≠ some at_) (horg : org ≠ []) :
      Targets dep ((at_ :: org) :: dep :: rest)
  /-- The package in the scope that the dependency has itself. -/
  | inScope {org name : Text} {rest : List Text} (horg : slash ∉ org) :
      Targets (at_ :: (org ++ slash :: name)) ((at_ :: org) :: name :: rest)

section Targets

variable {dep first : Text} {segments rest : List Text}

theorem Targets.append (h : Targets dep segments) (more : List Text) :
    Targets dep (segments ++ more) := by
  cases h with
  | name hdep => exact .name hdep
  | asScope hdep => exact .asScope hdep
  | fork hdep horg => exact .fork hdep horg
  | inScope horg => exact .inScope horg

/-- Only the first two segments count. -/
theorem targets_take_iff : Targets dep (segments.take 2) ↔ Targets dep segments := by
  constructor
  · intro h
    have hmore := h.append (segments.drop 2)
    rwa [List.take_append_drop] at hmore
  · intro h
    cases h with
    | name hdep => exact .name hdep
    | asScope hdep => exact .asScope hdep
    | fork hdep horg => exact .fork hdep horg
    | inScope horg => exact .inScope horg

/-- Where the first segment is no scope, it is the dependency. -/
theorem targets_of_unscoped (hfirst : first.head? ≠ some at_) :
    Targets dep (first :: rest) ↔ dep = first := by
  constructor
  · intro h
    cases h with
    | name _ => rfl
    | asScope _ => exact absurd rfl hfirst
    | fork _ _ => exact absurd rfl hfirst
    | inScope _ => exact absurd rfl hfirst
  · rintro rfl
    exact .name hfirst

end Targets

/-! ## The comparison of texts -/

variable {s dep : Text}

theorem at_ne_slash : at_ ≠ slash := by decide

theorem isFork_iff : isFork s dep = true ↔
    ∃ org rest, org ≠ [] ∧ s.splitOn slash = (at_ :: org) :: dep :: rest := by
  constructor
  · intro h
    unfold isFork at h
    split at h
    · rename_i c u
      simp only [Bool.and_eq_true, decide_eq_true_eq] at h
      obtain ⟨rfl, h⟩ := h
      split at h
      · rename_i org pkg rest hsplit
        simp only [Bool.and_eq_true, Bool.not_eq_true', List.isEmpty_eq_false_iff, beq_iff_eq] at h
        obtain ⟨horg, rfl⟩ := h
        rw [Text.splitAt_eq_splitOn, Text.splitOn_eq_cons_cons_iff] at hsplit
        obtain ⟨v, rfl, hslash, hv⟩ := hsplit
        refine ⟨org, rest, horg, Text.splitOn_eq_cons_cons_iff.2 ⟨v, rfl, ?_, hv⟩⟩
        exact List.not_mem_cons_of_ne_of_not_mem at_ne_slash.symm hslash
      · cases h
    · cases h
  · rintro ⟨org, rest, horg, h⟩
    obtain ⟨v, rfl, hslash, hv⟩ := Text.splitOn_eq_cons_cons_iff.1 h
    have horgSlash : slash ∉ org := fun hmem => hslash (List.mem_cons_of_mem _ hmem)
    have hsplit : Text.splitAt slash (org ++ slash :: v) = org :: dep :: rest := by
      rw [Text.splitAt_eq_splitOn]
      exact Text.splitOn_eq_cons_cons_iff.2 ⟨v, rfl, horgSlash, hv⟩
    simp [isFork, hsplit, horg]

/-- A name without a scope is compared with the first segment and, behind a scope, with the second. -/
theorem eq_or_reaches_plain (hslash : slash ∉ dep) (hat : dep.head? ≠ some at_) :
    s = dep ∨ reaches s dep = true ↔ Targets dep (s.splitOn slash) := by
  have hscope : slash ∉ at_ :: dep := List.not_mem_cons_of_ne_of_not_mem at_ne_slash.symm hslash
  have hreaches : reaches s dep = true ↔ dep ++ [slash] <+: s ∨
      (at_ :: dep) ++ [slash] <+: s ∨ isFork s dep = true := by
    simp [reaches, hat, List.isPrefixOf_iff_prefix]
  rw [hreaches, ← or_assoc, Text.eq_or_prefix_iff_splitOn hslash, Text.prefix_iff_splitOn hscope,
    isFork_iff]
  constructor
  · rintro (⟨rest, h⟩ | ⟨second, rest, h⟩ | ⟨org, rest, horg, h⟩)
    · rw [h]
      exact .name hat
    · rw [h]
      exact .asScope hat
    · rw [h]
      exact .fork hat horg
  · intro h
    generalize s.splitOn slash = segments at h
    cases h with
    | name _ => exact .inl ⟨_, rfl⟩
    | asScope _ => exact .inr (.inl ⟨_, _, rfl⟩)
    | fork _ horg => exact .inr (.inr ⟨_, _, horg, rfl⟩)
    | inScope _ => exact absurd rfl hat

/-- A name with a scope is compared with the first two segments. -/
theorem eq_or_reaches_scoped {org name : Text} (horg : slash ∉ org) (hname : slash ∉ name) :
    s = at_ :: (org ++ slash :: name) ∨ reaches s (at_ :: (org ++ slash :: name)) = true ↔
      Targets (at_ :: (org ++ slash :: name)) (s.splitOn slash) := by
  have hscope : slash ∉ at_ :: org := List.not_mem_cons_of_ne_of_not_mem at_ne_slash.symm horg
  have hreaches : reaches s (at_ :: (org ++ slash :: name)) = true ↔
      at_ :: (org ++ slash :: name) ++ [slash] <+: s := by
    simp [reaches, List.isPrefixOf_iff_prefix]
  rw [hreaches]
  constructor
  · -- What stands behind the scope is the name, or starts with the name and a slash.
    intro h
    obtain ⟨u, rfl, hu⟩ : ∃ u, s = (at_ :: org) ++ slash :: u ∧ (u = name ∨ name ++ [slash] <+: u) := by
      rcases h with rfl | ⟨v, rfl⟩
      · exact ⟨name, rfl, .inl rfl⟩
      · exact ⟨name ++ slash :: v, by simp, .inr ⟨v, by simp⟩⟩
    obtain ⟨rest, hrest⟩ := (Text.eq_or_prefix_iff_splitOn hname).1 hu
    rw [Text.splitOn_eq_cons_cons_iff.2 ⟨u, rfl, hscope, hrest⟩]
    exact .inScope horg
  · intro h
    obtain ⟨rest, hrest⟩ : ∃ rest, s.splitOn slash = (at_ :: org) :: name :: rest := by
      generalize s.splitOn slash = segments at h
      generalize hdep : at_ :: (org ++ slash :: name) = dep at h
      have hat : dep.head? = some at_ := by rw [← hdep, List.head?_cons]
      cases h with
      | name hne => exact absurd hat hne
      | asScope hne => exact absurd hat hne
      | fork hne _ => exact absurd hat hne
      | inScope horg' =>
        obtain ⟨rfl, rfl⟩ := Text.append_sep_inj horg horg' (List.cons.inj hdep).2
        exact ⟨_, rfl⟩
    obtain ⟨u, rfl, -, hu⟩ := Text.splitOn_eq_cons_cons_iff.1 hrest
    rcases (Text.eq_or_prefix_iff_splitOn hname).2 ⟨rest, hu⟩ with rfl | ⟨v, rfl⟩
    · exact .inl rfl
    · exact .inr ⟨v, by simp⟩

theorem eq_or_reaches_iff (h : IsName dep) :
    s = dep ∨ reaches s dep = true ↔ Targets dep (s.splitOn slash) := by
  cases h.package with
  | plain hslash hat => exact eq_or_reaches_plain hslash hat
  | inScope _ _ horg hname => exact eq_or_reaches_scoped horg hname

theorem isHeavy_iff {deps : List Text} :
    isHeavy deps s = true ↔ ∃ dep ∈ deps, s = dep ∨ reaches s dep = true := by
  rw [isHeavy, Bool.or_eq_true, List.contains_iff_mem, List.any_eq_true]
  constructor
  · rintro (hs | ⟨dep, hdep, hreaches⟩)
    · exact ⟨s, hs, .inl rfl⟩
    · exact ⟨dep, hdep, .inr hreaches⟩
  · rintro ⟨dep, hdep, rfl | hreaches⟩
    · exact .inl hdep
    · exact .inr ⟨dep, hdep, hreaches⟩

section Accepted

variable {deps names : List Text} (h : normalize (deps.map Value.text) = .ok names)
include h

theorem isName_of_accepted {dep : Text} (hdep : dep ∈ deps) : IsName dep :=
  (normalize_texts_eq_ok_iff.1 h).1 dep hdep

theorem isHeavy_iff_of_accepted :
    isHeavy deps s = true ↔ ∃ dep ∈ deps, Targets dep (s.splitOn slash) := by
  rw [isHeavy_iff]
  constructor
  · rintro ⟨dep, hdep, hs⟩
    exact ⟨dep, hdep, (eq_or_reaches_iff (isName_of_accepted h hdep)).1 hs⟩
  · rintro ⟨dep, hdep, hs⟩
    exact ⟨dep, hdep, (eq_or_reaches_iff (isName_of_accepted h hdep)).2 hs⟩

/-- Where the first segment is no scope, it must be one of the names. -/
theorem isHeavy_iff_of_unscoped {first : Text} {rest : List Text}
    (hs : s.splitOn slash = first :: rest) (hfirst : first.head? ≠ some at_) :
    isHeavy deps s = true ↔ first ∈ deps := by
  rw [isHeavy_iff_of_accepted h, hs]
  simp only [targets_of_unscoped hfirst]
  constructor
  · rintro ⟨dep, hdep, rfl⟩
    exact hdep
  · intro hmem
    exact ⟨first, hmem, rfl⟩

theorem isHeavy_slash : isHeavy deps (slash :: s) = false := by
  have hcut : (slash :: s).splitOn slash = [] :: s.splitOn slash :=
    List.splitOn_append_cons_self_of_not_mem List.not_mem_nil s
  rw [Bool.eq_false_iff]
  intro hheavy
  have hmem := (isHeavy_iff_of_unscoped h hcut (by simp)).1 hheavy
  have hblank := (isName_of_accepted h hmem).notBlank
  cases hblank

/-- Whether a specifier is heavy is decided by whole segments. Of names that are accepted, one must be its
first segment, or, where there is a second one, the scope that the first is or the second behind a scope;
a name that has a scope must be the first two. So nothing behind the second segment counts, a path from
the root of the file system is never heavy, and one from a directory is only if one dot or two are among
the names. -/
theorem isHeavy_iff_targets :
    (∀ s, isHeavy deps s = true ↔ ∃ dep ∈ deps, Targets dep (s.splitOn slash)) ∧
    (∀ s t, (s.splitOn slash).take 2 = (t.splitOn slash).take 2 → isHeavy deps s = isHeavy deps t) ∧
    (∀ s, isHeavy deps (slash :: s) = false) ∧
    (∀ s first rest, s.splitOn slash = first :: rest →
      first = Text.ofString "." ∨ first = Text.ofString ".." →
        (isHeavy deps s = true ↔ first ∈ deps)) := by
  refine ⟨fun s => isHeavy_iff_of_accepted h, fun s t hst => ?_, fun s => isHeavy_slash h, ?_⟩
  · have hsame : ∀ dep, Targets dep (s.splitOn slash) ↔ Targets dep (t.splitOn slash) := by
      intro dep
      rw [← targets_take_iff, hst, targets_take_iff]
    rw [Bool.eq_iff_iff, isHeavy_iff_of_accepted h, isHeavy_iff_of_accepted h]
    simp only [hsame]
  · intro s first rest hs hdots
    apply isHeavy_iff_of_unscoped h hs
    rcases hdots with rfl | rfl
    · decide
    · decide

end Accepted

/-- A name, a name in a scope, and one that stands for a directory. -/
def mixedNames : List Text :=
  ["vue", "@babel/core", "."].map Text.ofString

theorem isHeavy_mixedNames :
    normalize (mixedNames.map Value.text) = .ok mixedNames ∧
    (∃ dep ∈ mixedNames, Targets dep ((Text.ofString "@org/vue/dist").splitOn slash)) ∧
    isHeavy mixedNames (Text.ofString "@babel/core/a/b") =
      isHeavy mixedNames (Text.ofString "@babel/core") ∧
    isHeavy mixedNames (Text.ofString "/vue") = false ∧
    isHeavy mixedNames (Text.ofString "./vue") = true := by
  have h : normalize (mixedNames.map Value.text) = .ok mixedNames := rfl
  obtain ⟨htargets, htwo, hroot, hdots⟩ := isHeavy_iff_targets h
  refine ⟨h, (htargets _).1 (by decide), htwo _ _ (by decide), hroot _, ?_⟩
  refine (hdots _ (Text.ofString ".") [Text.ofString "vue"] (by decide) (.inl rfl)).2 ?_
  decide

end Dependency

end LazyLint
