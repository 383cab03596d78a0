import Mathlib.Data.List.TakeWhile
import LazyLint.Cli.Run
import LazyLint.Proofs.Distinct
import LazyLint.Proofs.Utf8

/-!
# Reports that have bytes

A text has bytes if no surrogate is in it, and the bytes say what the text is (`encode_of_hasBytes`).
A report puts texts of its own around those of the diagnostics and writes some of their characters in
another way, but never a surrogate: so in either format it has bytes just if the file, the rule and
the message of every diagnostic have (`hasBytes_report`).
-/

namespace LazyLint

/-! ## Code points -/

namespace CodePoint

theorem isSurrogate_eq_false_iff {c : CodePoint} :
    c.isSurrogate = false ↔ c.val < 0xD800 ∨ 0xDFFF < c.val := by
  rw [← Bool.not_eq_true, isSurrogate, Bool.and_eq_true, decide_eq_true_iff, decide_eq_true_iff]
  omega

/-- A character is no surrogate. -/
theorem isSurrogate_ofChar (c : Char) : (ofChar c).isSurrogate = false := by
  have hvalid : c.toNat < 0xD800 ∨ 0xDFFF < c.toNat ∧ c.toNat < 0x110000 := c.valid
  rw [isSurrogate_eq_false_iff]
  exact hvalid.imp_right And.left

theorem ofChar_toChar {c : CodePoint} (h : c.isSurrogate = false) : ofChar c.toChar = c := by
  have hvalid : c.val.isValidChar := by
    have hrange := isSurrogate_eq_false_iff.1 h
    have hlast := c.isLt
    rw [Nat.isValidChar]
    omega
  refine Fin.ext ?_
  rw [toChar, h, if_neg Bool.false_ne_true, Char.ofNat, dif_pos hvalid]
  rfl

end CodePoint

/-! ## Texts -/

namespace Text

/-- No surrogate is in the text. -/
def HasBytes (t : Text) : Prop :=
  ∀ c ∈ t, c.isSurrogate = false

instance (t : Text) : Decidable t.HasBytes :=
  List.decidableBAll (fun c : CodePoint => c.isSurrogate = false) t

@[simp] theorem hasBytes_nil : HasBytes [] :=
  fun _ h => nomatch h

@[simp] theorem hasBytes_cons (c : CodePoint) (t : Text) :
    HasBytes (c :: t) ↔ c.isSurrogate = false ∧ HasBytes t :=
  List.forall_mem_cons

@[simp] theorem hasBytes_append (t u : Text) : HasBytes (t ++ u) ↔ HasBytes t ∧ HasBytes u :=
  List.forall_mem_append

theorem hasBytes_flatMap {α : Type} (f : α → Text) (as : List α) :
    HasBytes (as.flatMap f) ↔ ∀ a ∈ as, HasBytes (f a) :=
  List.forall_mem_flatMap

@[simp] theorem hasBytes_ofChars (cs : List Char) : HasBytes (ofChars cs) := by
  intro c hc
  obtain ⟨d, -, rfl⟩ := List.mem_map.1 hc
  exact CodePoint.isSurrogate_ofChar d

@[simp] theorem hasBytes_ofString (s : String) : HasBytes (ofString s) :=
  hasBytes_ofChars s.toList

theorem hasBytes_join {sep : Text} (hsep : HasBytes sep) (ts : List Text) :
    HasBytes (join sep ts) ↔ ∀ t ∈ ts, HasBytes t := by
  induction ts with
  | nil => simp [join]
  | cons t ts ih =>
    cases ts with
    | nil => simp [join]
    | cons u us => simp [join, hsep, ih]

theorem ofChars_toChars {t : Text} (h : t.HasBytes) : ofChars t.toChars = t := by
  rw [ofChars, toChars, List.map_map]
  exact (List.map_congr_left fun c hc => CodePoint.ofChar_toChar (h c hc)).trans (List.map_id t)

theorem encodeFault?_eq_none_iff {t : Text} : t.encodeFault? = none ↔ t.HasBytes := by
  have hrest : t.drop (t.takeWhile fun c => ! c.isSurrogate).length = [] ↔ t.HasBytes := by
    have hall : (t.takeWhile fun c => ! c.isSurrogate) = t ↔ t.HasBytes := by
      simp [HasBytes, List.takeWhile_eq_self_iff]
    rw [List.drop_eq_nil_iff, ← hall]
    exact ⟨(List.takeWhile_prefix _).eq_of_length_le, fun h => h.symm ▸ Nat.le_refl _⟩
  rw [← hrest, encodeFault?]
  split <;> simp [*]

/-- The bytes of a text say what the text is. -/
theorem encode_of_hasBytes {t : Text} (h : t.HasBytes) :
    ∃ bytes, t.encode = .ok bytes ∧ ofChars (Utf8.decode bytes) = t := by
  refine ⟨Utf8.encode t.toChars, ?_, ?_⟩
  · rw [encode, encodeFault?_eq_none_iff.2 h]
  · rw [Utf8.decode_encode, ofChars_toChars h]

theorem exists_encodeFault {t : Text} (h : ¬ t.HasBytes) : ∃ f, t.encodeFault? = some f :=
  Option.ne_none_iff_exists'.1 (h ∘ encodeFault?_eq_none_iff.1)

end Text

/-! ## JSON -/

namespace Json

open Text

/-- A character that is written in another way is no surrogate. -/
theorem hasBytes_escaped (c : CodePoint) : HasBytes (escaped c) ↔ c.isSurrogate = false := by
  by_cases hc : c.val < 0xD800
  · have hplain : c.isSurrogate = false := CodePoint.isSurrogate_eq_false_iff.2 (.inl hc)
    refine iff_of_true ?_ hplain
    unfold escaped
    split_ifs <;> simp [hexDigits, hplain]
  · -- from the surrogates on every character is written as it is
    have hne : ∀ d : CodePoint, d.val < 0xD800 → c ≠ d := fun d hd h => hc (h ▸ hd)
    have hcontrol : ¬ c.val < 0x20 := by omega
    have hself : escaped c = [c] := by
      simp (disch := decide) only [escaped, hne, hcontrol, if_false]
    simp [hself]

@[simp] theorem hasBytes_quoted (t : Text) : HasBytes (quoted t) ↔ HasBytes t := by
  simp only [quoted, hasBytes_append, hasBytes_ofString, hasBytes_flatMap, hasBytes_escaped, true_and,
    and_true]
  rfl

theorem hasBytes_bracketed (left right : Char) (level : Nat) (parts : List Text) :
    HasBytes (bracketed left right level parts) ↔ ∀ t ∈ parts, HasBytes t := by
  cases parts with
  | nil => simp [bracketed]
  | cons t ts =>
    have hsep : HasBytes ("," ++ newline (level + 1)) := by simp [newline]
    simp [bracketed, newline, hasBytes_join]

mutual

/-- The texts of a value. -/
def texts : Json → List Text
  | .text t => [t]
  | .list items => itemTexts items
  | .object members => memberTexts members

/-- The texts of items. -/
def itemTexts : List Json → List Text
  | [] => []
  | v :: vs => texts v ++ itemTexts vs

/-- The texts of members. -/
def memberTexts : List (String × Json) → List Text
  | [] => []
  | (_, v) :: ms => texts v ++ memberTexts ms

end

mutual

theorem hasBytes_renderAt (level : Nat) : (v : Json) →
    (HasBytes (renderAt level v) ↔ ∀ t ∈ v.texts, HasBytes t)
  | .text t => by simp [renderAt, texts]
  | .list items => by
    rw [renderAt, hasBytes_bracketed, texts]
    exact hasBytes_renderItems (level + 1) items
  | .object members => by
    rw [renderAt, hasBytes_bracketed, texts]
    exact hasBytes_renderMembers (level + 1) members

theorem hasBytes_renderItems (level : Nat) : (items : List Json) →
    ((∀ t ∈ renderItems level items, HasBytes t) ↔ ∀ t ∈ itemTexts items, HasBytes t)
  | [] => by simp [renderItems, itemTexts]
  | v :: vs => by
    rw [renderItems, itemTexts, List.forall_mem_cons, List.forall_mem_append, hasBytes_renderAt level v,
      hasBytes_renderItems level vs]

theorem hasBytes_renderMembers (level : Nat) : (members : List (String × Json)) →
    ((∀ t ∈ renderMembers level members, HasBytes t) ↔ ∀ t ∈ memberTexts members, HasBytes t)
  | [] => by simp [renderMembers, memberTexts]
  | (k, v) :: ms => by
    rw [renderMembers, memberTexts, List.forall_mem_cons, List.forall_mem_append,
      hasBytes_renderMembers level ms, hasBytes_append, hasBytes_renderAt level v]
    simp

end

theorem itemTexts_eq_flatMap (items : List Json) : itemTexts items = items.flatMap texts := by
  induction items with
  | nil => rfl
  | cons v vs ih => rw [itemTexts, ih, List.flatMap_cons]

end Json

/-! ## Reports -/

/-- The texts that a diagnostic brings into a report have bytes. -/
structure Diagnostic.HasBytes (d : Diagnostic) : Prop where
  file : d.file.HasBytes
  rule : d.rule.HasBytes
  message : d.message.HasBytes

namespace Report

open Text

theorem hasBytes_line (d : Diagnostic) :
    HasBytes (line d) ↔ d.message.HasBytes ∧ d.rule.HasBytes := by
  simp [line]

theorem hasBytes_block (ds : List Diagnostic) (file : Text) :
    (∀ t ∈ block ds file, HasBytes t) ↔
      HasBytes file ∧ ∀ d ∈ ds, d.file = file → d.message.HasBytes ∧ d.rule.HasBytes := by
  simp only [block, List.forall_mem_append, List.forall_mem_cons, List.forall_mem_map, List.mem_filter,
    hasBytes_append, hasBytes_line]
  simp

theorem mem_filesOf {ds : List Diagnostic} {file : Text} :
    file ∈ filesOf ds ↔ ∃ d ∈ ds, d.file = file := by
  rw [filesOf, dedup_eq_eraseDups, List.mem_eraseDups, List.mem_map]

theorem hasBytes_lines (ds : List Diagnostic) :
    (∀ t ∈ lines ds, HasBytes t) ↔ ∀ d ∈ ds, d.HasBytes := by
  have hheader : ∀ t ∈ header, HasBytes t := by simp [header]
  simp only [lines, List.forall_mem_append, List.forall_mem_flatMap, hasBytes_block, mem_filesOf]
  constructor
  · intro h d hd
    obtain ⟨hfile, hrest⟩ := h.1.2 d.file ⟨d, hd, rfl⟩
    obtain ⟨hmessage, hrule⟩ := hrest d hd rfl
    exact ⟨hfile, hrule, hmessage⟩
  · intro h
    refine ⟨⟨hheader, ?_⟩, by simp [ofNat]⟩
    rintro file ⟨d, hd, rfl⟩
    exact ⟨(h d hd).file, fun e he _ => ⟨(h e he).message, (h e he).rule⟩⟩

theorem hasBytes_text (ds : List Diagnostic) : HasBytes (text ds) ↔ ∀ d ∈ ds, d.HasBytes := by
  rw [text]
  split
  · rename_i hnone
    rw [List.isEmpty_iff.1 hnone]
    simp
  · rw [hasBytes_join (hasBytes_ofString _), hasBytes_lines]

namespace Sarif

/-- Neither a slash nor a backslash is a surrogate. -/
theorem hasBytes_uri (file : Text) : HasBytes (uri file) ↔ HasBytes file := by
  rw [uri, HasBytes, List.forall_mem_map]
  refine forall₂_congr fun c _ => ?_
  split
  · rename_i hc
    rw [hc]
    decide
  · rfl

theorem texts_result (d : Diagnostic) :
    (result d).texts = [d.rule, Text.ofString d.severity.name, d.message, uri d.file] :=
  rfl

theorem hasBytes_result (d : Diagnostic) :
    (∀ t ∈ (result d).texts, HasBytes t) ↔ d.HasBytes := by
  simp only [texts_result, List.forall_mem_cons, hasBytes_uri, hasBytes_ofString]
  exact ⟨fun ⟨hrule, _, hmessage, hfile, _⟩ => ⟨hfile, hrule, hmessage⟩,
    fun ⟨hfile, hrule, hmessage⟩ => ⟨hrule, trivial, hmessage, hfile, fun _ h => nomatch h⟩⟩

/-- The log has texts of its own and those of the results. -/
theorem texts_log (ds : List Diagnostic) : ∃ own : List String,
    (log ds).texts = own.map Text.ofString ++ ds.flatMap fun d => (result d).texts := by
  refine ⟨["https://json.schemastore.org/sarif-2.1.0.json", "2.1.0", "dusty", ruleName,
    "Heavy dependencies should be loaded lazily, not at module top level."], ?_⟩
  simp [log, string, rule, Json.texts, Json.itemTexts, Json.memberTexts, Json.itemTexts_eq_flatMap,
    List.flatMap_map]

theorem hasBytes_log (ds : List Diagnostic) : HasBytes (log ds).render ↔ ∀ d ∈ ds, d.HasBytes := by
  obtain ⟨own, htexts⟩ := texts_log ds
  rw [Json.render, Json.hasBytes_renderAt, htexts, List.forall_mem_append, List.forall_mem_map,
    List.forall_mem_flatMap]
  simp only [hasBytes_result, hasBytes_ofString, implies_true, true_and]

end Sarif

end Report

/-- A report has bytes just if what it reports has. -/
theorem Cli.hasBytes_report (format : Format) (ds : List Diagnostic) :
    (report format ds).HasBytes ↔ ∀ d ∈ ds, d.HasBytes :=
  match format with
  | .text => Report.hasBytes_text ds
  | .sarif => Report.Sarif.hasBytes_log ds

end LazyLint
