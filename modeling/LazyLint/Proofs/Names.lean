import Mathlib.Data.List.TakeWhile
import LazyLint.Proofs.Distinct
import LazyLint.Proofs.Fallible

/-!
# Names of packages

`Dependency.normalize` goes through a list of values, checks one after another and keeps the first
of each. Here it is two steps that know nothing of each other: every value is checked on its own, and
the names that come out lose their repetitions (`normalize_eq`). So a list of texts passes if and only if
each of them is a name (`normalize_texts_eq_ok_iff`), and lists can be put together before or after they
are normalized.

What a name is, `isBare` decides by looking at the first code point and cutting the text at slashes.
`IsName` says it by the two forms that a name can have.
-/

namespace LazyLint

/-! ## Cutting a text -/

namespace Text

variable {sep : CodePoint} {t : Text}

theorem splitAt_eq_splitOn (sep : CodePoint) (t : Text) : splitAt sep t = t.splitOn sep := by
  induction t with
  | nil => rfl
  | cons c t ih =>
    rw [splitAt, List.splitOn_cons_eq_if_modifyHead, ih]
    by_cases hc : c = sep
    · simp [hc]
    · simp only [hc, if_false, beq_iff_eq]
      cases hs : t.splitOn sep with
      | nil => exact absurd hs (List.splitOn_ne_nil sep t)
      | cons piece pieces => rfl

theorem not_mem_of_mem_splitAt {piece : Text} (h : piece ∈ splitAt sep t) : sep ∉ piece := by
  induction t generalizing piece with
  | nil =>
    obtain rfl := List.mem_singleton.1 h
    exact List.not_mem_nil
  | cons c t ih =>
    rw [splitAt] at h
    split at h
    · rcases List.mem_cons.1 h with rfl | h
      · exact List.not_mem_nil
      · exact ih h
    · rename_i hc
      split at h
      · obtain rfl := List.mem_singleton.1 h
        simpa using Ne.symm hc
      · rename_i first rest hs
        rw [hs] at ih
        rcases List.mem_cons.1 h with rfl | h
        · have hfirst := ih (List.mem_cons_self ..)
          simpa [Ne.symm hc] using hfirst
        · exact ih (List.mem_cons_of_mem _ h)

/-- A text is cut into two pieces where it has the separator once. -/
theorem splitAt_eq_pair_iff {a b : Text} :
    splitAt sep t = [a, b] ↔ t = a ++ sep :: b ∧ sep ∉ a ∧ sep ∉ b := by
  constructor
  · intro h
    have hpieces : ∀ piece ∈ [a, b], sep ∉ piece := fun piece hpiece =>
      not_mem_of_mem_splitAt (h ▸ hpiece)
    have hjoin : [sep].intercalate (t.splitOn sep) = t := List.intercalate_splitOn sep
    rw [← splitAt_eq_splitOn, h] at hjoin
    refine ⟨?_, hpieces a (by simp), hpieces b (by simp)⟩
    simpa [List.intercalate] using hjoin.symm
  · rintro ⟨rfl, ha, hb⟩
    rw [splitAt_eq_splitOn, List.splitOn_append_cons_self_of_not_mem ha,
      List.splitOn_eq_singleton hb]

/-- Stripping leaves nothing of blanks, and something of everything else. -/
theorem strip_eq_nil_iff : t.strip = [] ↔ t.isAllBlank = true := by
  rw [strip, stripLeft, isAllBlank, List.reverse_eq_nil_iff, List.dropWhile_eq_nil_iff]
  simp only [List.mem_reverse]
  constructor
  · intro h
    cases hd : t.dropWhile CodePoint.isBlank with
    | nil =>
      rw [List.dropWhile_eq_nil_iff] at hd
      exact List.all_eq_true.2 hd
    | cons c rest =>
      have hc := List.head_dropWhile_not CodePoint.isBlank (l := t) (by simp [hd])
      simp only [hd, List.head_cons] at hc
      rw [h c (by simp [hd])] at hc
      cases hc
  · intro h c hc
    exact List.all_eq_true.1 h c ((List.dropWhile_sublist _).subset hc)

end Text

namespace Dependency

/-! ## One name -/

/-- A text that names a package and not a path below one. -/
inductive IsPackage : Text → Prop
  /-- Without a scope, a name has no slash and does not look like a scope. -/
  | plain {name : Text} (hslash : slash ∉ name) (hat : name.head? ≠ some at_) : IsPackage name
  /-- A scope and a name in it, with one slash between them. -/
  | inScope {scope name : Text} (hscope : scope ≠ []) (hname : name ≠ []) (hscopeSlash : slash ∉ scope)
    (hnameSlash : slash ∉ name) : IsPackage (at_ :: (scope ++ slash :: name))

/-- A text that is accepted as a heavy dependency. -/
structure IsName (t : Text) : Prop where
  notBlank : t.isAllBlank = false
  package : IsPackage t

theorem isBare_iff {t : Text} : isBare t = true ↔ IsPackage t := by
  cases t with
  | nil => exact ⟨fun _ => .plain (by simp) (by simp), fun _ => rfl⟩
  | cons c rest =>
    by_cases hc : c = at_
    · subst hc
      rw [isBare, if_pos rfl]
      constructor
      · intro h
        split at h
        · rename_i scope name hsplit
          obtain ⟨rfl, hscope, hname⟩ := Text.splitAt_eq_pair_iff.1 hsplit
          simp only [Bool.and_eq_true, Bool.not_eq_true', List.isEmpty_eq_false_iff] at h
          exact .inScope h.1 h.2 hscope hname
        · cases h
      · intro h
        cases h with
        | plain _ hat => exact absurd rfl hat
        | inScope hscope hname hscopeSlash hnameSlash =>
          rw [Text.splitAt_eq_pair_iff.2 ⟨rfl, hscopeSlash, hnameSlash⟩]
          simp [hscope, hname]
    · rw [isBare, if_neg hc]
      constructor
      · intro h
        exact .plain (by simpa using h) (by simpa using hc)
      · intro h
        cases h with
        | plain hslash _ => simpa using hslash
        | inScope => exact absurd rfl hc

theorem ofValue_eq_ok_iff {v : Value} {name : Text} :
    ofValue v = .ok name ↔ v = .text name ∧ IsName name := by
  unfold ofValue
  split
  · rename_i t
    by_cases hblank : t.isAllBlank = true
    · simp only [hblank, if_true, Value.text.injEq, reduceCtorEq, false_iff]
      rintro ⟨rfl, h⟩
      simp [h.notBlank] at hblank
    · by_cases hbare : isBare t = true
      · simp only [hblank, hbare, if_true, Except.ok.injEq, Value.text.injEq, Bool.false_eq_true,
          if_false]
        constructor
        · rintro rfl
          exact ⟨rfl, by simpa using hblank, isBare_iff.1 hbare⟩
        · exact fun h => h.1
      · simp only [hblank, hbare, Value.text.injEq, reduceCtorEq, Bool.false_eq_true, if_false,
          false_iff]
        rintro ⟨rfl, h⟩
        exact hbare (isBare_iff.2 h.package)
  · rename_i hv
    simp only [reduceCtorEq, false_iff]
    rintro ⟨rfl, -⟩
    exact hv name rfl

/-! ## Lists of names -/

/-- The names seen so far are kept without repetitions. -/
theorem normalizeFrom_eq (seen : List Text) (vs : List Value) :
    normalizeFrom seen.eraseDups vs =
      (vs.mapM ofValue).map fun names => (seen ++ names).eraseDups := by
  induction vs generalizing seen with
  | nil =>
    change Except.ok seen.eraseDups = _
    simp [pure, Except.pure, Except.map]
  | cons v vs ih =>
    change (ofValue v >>= fun name => normalizeFrom
      (if name ∈ seen.eraseDups then seen.eraseDups else seen.eraseDups ++ [name]) vs) = _
    rw [List.mapM_cons]
    cases ofValue v with
    | error f => rfl
    | ok name =>
      have hseen : (if name ∈ seen.eraseDups then seen.eraseDups else seen.eraseDups ++ [name]) =
          (seen ++ [name]).eraseDups := by
        rw [eraseDups_concat]
        simp only [List.mem_eraseDups, List.contains_iff_mem]
      dsimp only [bind, Except.bind]
      rw [hseen, ih]
      cases vs.mapM ofValue with
      | error f => rfl
      | ok names => simp [Except.map, pure, Except.pure]

/-- Values are checked one after another, and then lose their repetitions. -/
theorem normalize_eq (vs : List Value) : normalize vs = (vs.mapM ofValue).map List.eraseDups := by
  have h := normalizeFrom_eq [] vs
  rw [List.eraseDups_nil] at h
  simpa only [normalize, List.nil_append] using h

theorem mapM_ofValue_texts {names ts : List Text} :
    (names.map Value.text).mapM ofValue = .ok ts ↔ ts = names ∧ ∀ name ∈ names, IsName name := by
  rw [mapM_eq_ok_iff, List.forall₂_map_left_iff]
  simp only [ofValue_eq_ok_iff, Value.text.injEq]
  constructor
  · intro h
    induction h with
    | nil => simp
    | cons hname _ ih =>
      obtain ⟨rfl, hname⟩ := hname
      obtain ⟨rfl, hnames⟩ := ih
      exact ⟨rfl, List.forall_mem_cons.2 ⟨hname, hnames⟩⟩
  · rintro ⟨rfl, h⟩
    exact List.forall₂_same.2 fun name hname => ⟨rfl, h name hname⟩

theorem normalize_texts_eq_ok_iff {names ts : List Text} :
    normalize (names.map Value.text) = .ok ts ↔
      (∀ name ∈ names, IsName name) ∧ ts = names.eraseDups := by
  rw [normalize_eq]
  constructor
  · intro h
    cases hm : (names.map Value.text).mapM ofValue with
    | error f =>
      rw [hm] at h
      cases h
    | ok us =>
      rw [hm] at h
      cases h
      obtain ⟨rfl, hnames⟩ := mapM_ofValue_texts.1 hm
      exact ⟨hnames, rfl⟩
  · rintro ⟨hnames, rfl⟩
    rw [mapM_ofValue_texts.2 ⟨rfl, hnames⟩]
    rfl

end Dependency

end LazyLint
