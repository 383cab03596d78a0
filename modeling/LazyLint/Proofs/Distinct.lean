import Mathlib.Data.List.Basic
import Mathlib.Data.List.Induction
import LazyLint.Import

/-!
# Lists without repetitions

Lists of texts are kept free of repetitions in two places, by `Text.dedup` and by
`Import.remember`, both by adding one member after another to what is already there. Here both are
`List.eraseDups`, which keeps the first occurrence of each member.
-/

namespace LazyLint

section EraseDups

variable {α : Type} [BEq α] [LawfulBEq α]

theorem eraseDups_concat (as : List α) (a : α) :
    (as ++ [a]).eraseDups = if as.contains a then as.eraseDups else as.eraseDups ++ [a] := by
  have hrest : [a].removeAll as = if as.contains a then [] else [a] := by
    rw [List.removeAll, List.filter_cons, List.filter_nil, List.contains]
    cases as.elem a <;> rfl
  rw [List.eraseDups_append, hrest]
  split
  · rw [List.eraseDups_nil, List.append_nil]
  · rfl

theorem nodup_eraseDups (as : List α) : as.eraseDups.Nodup := by
  induction as using List.reverseRecOn with
  | nil => exact .nil
  | append_singleton as a ih =>
    rw [eraseDups_concat]
    split
    · exact ih
    · rename_i h
      rw [List.contains_iff_mem, ← List.mem_eraseDups] at h
      exact List.nodup_append.2 ⟨ih, List.pairwise_singleton .., by
        rintro b hb c hc rfl
        exact h (List.mem_singleton.1 hc ▸ hb)⟩

/-- What is there already is not added again. -/
theorem eraseDups_append_of_subset {as bs : List α} (h : bs ⊆ as) :
    (as ++ bs).eraseDups = as.eraseDups := by
  have hrest : bs.removeAll as = [] := by
    rw [List.removeAll, List.filter_eq_nil_iff]
    intro b hb
    simpa using h hb
  rw [List.eraseDups_append, hrest, List.eraseDups_nil, List.append_nil]

theorem contains_eraseDups (as : List α) (a : α) : as.eraseDups.contains a = as.contains a := by
  rw [Bool.eq_iff_iff, List.contains_iff_mem, List.contains_iff_mem, List.mem_eraseDups]

theorem eraseDups_eraseDups (as : List α) : as.eraseDups.eraseDups = as.eraseDups := by
  induction as using List.reverseRecOn with
  | nil => rfl
  | append_singleton as a ih =>
    rw [eraseDups_concat]
    split
    · exact ih
    · rename_i h
      rw [eraseDups_concat, contains_eraseDups, if_neg h, ih]

/-- A list may lose its repetitions before another one is added to it. -/
theorem eraseDups_append_left (as bs : List α) :
    (as.eraseDups ++ bs).eraseDups = (as ++ bs).eraseDups := by
  induction bs using List.reverseRecOn with
  | nil => rw [List.append_nil, List.append_nil, eraseDups_eraseDups]
  | append_singleton bs b ih =>
    have hcontains : (as.eraseDups ++ bs).contains b = (as ++ bs).contains b := by
      rw [List.contains_append, List.contains_append, contains_eraseDups]
    rw [← List.append_assoc, ← List.append_assoc, eraseDups_concat, eraseDups_concat, hcontains, ih]

/-- So may the one that is added. -/
theorem eraseDups_append_right (as bs : List α) :
    (as ++ bs.eraseDups).eraseDups = (as ++ bs).eraseDups := by
  induction bs using List.reverseRecOn with
  | nil => rw [List.eraseDups_nil]
  | append_singleton bs b ih =>
    have hcontains : (as ++ bs.eraseDups).contains b = (as ++ bs).contains b := by
      rw [List.contains_append, List.contains_append, contains_eraseDups]
    rw [eraseDups_concat, ← List.append_assoc, eraseDups_concat]
    split
    · rename_i hb
      rw [ih, if_pos]
      rw [List.contains_append, hb, Bool.or_true]
    · rw [← List.append_assoc, eraseDups_concat, hcontains, ih]

/-- Members stand in the order in which they are first met. -/
theorem pairwise_idxOf_eraseDups (as : List α) :
    as.eraseDups.Pairwise fun a b => as.idxOf a < as.idxOf b := by
  induction as using List.reverseRecOn with
  | nil => exact .nil
  | append_singleton as a ih =>
    have hkept : as.eraseDups.Pairwise fun b c => (as ++ [a]).idxOf b < (as ++ [a]).idxOf c := by
      refine ih.imp_of_mem fun {b c} hb hc hbc => ?_
      rw [List.mem_eraseDups] at hb hc
      rwa [List.idxOf_append_of_mem hb, List.idxOf_append_of_mem hc]
    rw [eraseDups_concat]
    split
    · exact hkept
    · rename_i ha
      rw [List.contains_iff_mem] at ha
      refine List.pairwise_append.2 ⟨hkept, List.pairwise_singleton .., fun b hb c hc => ?_⟩
      obtain rfl := List.mem_singleton.1 hc
      rw [List.mem_eraseDups] at hb
      rw [List.idxOf_append_of_mem hb, List.idxOf_append_of_notMem ha]
      have hlt := List.idxOf_lt_length_of_mem hb
      omega

end EraseDups

theorem Import.remember_eraseDups (ts : List Text) (t : Text) :
    remember ts.eraseDups t = (ts ++ [t]).eraseDups := by
  rw [remember, eraseDups_concat, contains_eraseDups]

theorem Text.dedup_eq_eraseDups (ts : List Text) : dedup ts = ts.eraseDups := by
  induction ts using List.reverseRecOn with
  | nil => rfl
  | append_singleton ts t ih =>
    unfold dedup at ih ⊢
    rw [List.foldl_append, ih, eraseDups_concat, List.foldl_cons, List.foldl_nil]
    simp only [List.mem_eraseDups, List.contains_iff_mem]

end LazyLint
