import LazyLint.Proofs.Escapes

/-!
# How characters are spelled

A character may be written as an escape in several ways: by its number in base sixteen, between braces
or in four or two digits, by its number in base eight, by a letter, or by itself. `Spells` lists the
ways, and `decode_spelling` says that decoding undoes each of them.

Numbers are written by `Nat.toDigits`, with zeros before and in any case of the letters (`Writes`), and
read by a fold over the digits. That the fold gives the number back (`foldl_writes`) holds for any number
of digits: a number is taken apart from its last digit, which the fold reads last.
-/

namespace LazyLint.Escape

open Script (isHexDigit)

/-! ## Digits -/

/-- Digits that write a number in a base, after any number of zeros and in any case. -/
def Writes (base : Nat) (ds : List Char) (n : Nat) : Prop :=
  ∃ zeros, ds.map Char.toLower = List.replicate zeros '0' ++ Nat.toDigits base n

theorem toNat_toLower (c : Char) :
    c.toLower.toNat = if 0x41 ≤ c.toNat ∧ c.toNat ≤ 0x5A then c.toNat + 0x20 else c.toNat := by
  have hA : 'A'.val.toNat = 0x41 := rfl
  have hZ : 'Z'.val.toNat = 0x5A := rfl
  unfold Char.toLower
  simp only [Char.toNat, ge_iff_le, UInt32.le_iff_toNat_le, hA, hZ]
  split
  · have hshift : 'a'.val - 'A'.val = 0x20 := rfl
    change (c.val + ('a'.val - 'A'.val)).toNat = c.val.toNat + 0x20
    have hsize : UInt32.toNat 0x20 = 0x20 := rfl
    rw [hshift, UInt32.toNat_add, hsize]
    omega
  · rfl

theorem isHexDigit_toLower (c : Char) : isHexDigit c.toLower = isHexDigit c := by
  rw [Bool.eq_iff_iff, isHexDigit_iff, isHexDigit_iff, toNat_toLower]
  split <;> omega

theorem hexDigit_toLower {c : Char} (h : isHexDigit c = true) : hexDigit c.toLower = hexDigit c := by
  rw [isHexDigit_iff] at h
  unfold hexDigit
  rw [toNat_toLower]
  split <;> repeat' split
  all_goals omega

theorem exists_of_mem_toDigits {base n : Nat} (hbase : 1 < base) {c : Char}
    (h : c ∈ Nat.toDigits base n) : ∃ d < base, c = d.digitChar := by
  induction n using Nat.strongRecOn with
  | _ n ih =>
    rw [Nat.toDigits_eq_if hbase] at h
    split at h
    · rename_i hlt
      exact ⟨n, hlt, List.mem_singleton.1 h⟩
    · rename_i hge
      rcases List.mem_append.1 h with h | h
      · exact ih (n / base) (Nat.div_lt_self (by omega) hbase) h
      · exact ⟨n % base, Nat.mod_lt n (by omega), List.mem_singleton.1 h⟩

/-- Reading the digits of a number gives the number. -/
theorem foldl_toDigits {base : Nat} (hbase : 1 < base) {digit : Char → Nat}
    (hdigit : ∀ d < base, digit d.digitChar = d) (n : Nat) :
    (Nat.toDigits base n).foldl (fun v d => v * base + digit d) 0 = n := by
  induction n using Nat.strongRecOn with
  | _ n ih =>
    rw [Nat.toDigits_eq_if hbase]
    split
    · rename_i hlt
      simp [hdigit n hlt]
    · rename_i hge
      have hmod : n % base < base := Nat.mod_lt n (by omega)
      rw [List.foldl_append, ih (n / base) (Nat.div_lt_self (by omega) hbase), List.foldl_cons,
        List.foldl_nil, hdigit _ hmod, Nat.mul_comm, Nat.div_add_mod]

/-- So it does with zeros before the digits. -/
theorem foldl_writes {base zeros n : Nat} (hbase : 1 < base) {digit : Char → Nat}
    (hdigit : ∀ d < base, digit d.digitChar = d) :
    (List.replicate zeros '0' ++ Nat.toDigits base n).foldl (fun v d => v * base + digit d) 0 = n := by
  have hzero : digit '0' = 0 := hdigit 0 (by omega)
  have hzeros : (List.replicate zeros '0').foldl (fun v d => v * base + digit d) 0 = 0 := by
    induction zeros with
    | zero => rfl
    | succ zeros ih => rw [List.replicate_succ, List.foldl_cons, hzero, Nat.zero_mul, ih]
  rw [List.foldl_append, hzeros, foldl_toDigits hbase hdigit]

section Writes

variable {base n : Nat} {ds : List Char}

theorem Writes.ne_nil (h : Writes base ds n) : ds ≠ [] := by
  rintro rfl
  obtain ⟨zeros, h⟩ := h
  exact Nat.toDigits_ne_nil (List.append_eq_nil_iff.1 h.symm).2

theorem Writes.exists_digit (hbase : 1 < base) (h : Writes base ds n) {c : Char} (hc : c ∈ ds) :
    ∃ d < base, c.toLower = d.digitChar := by
  obtain ⟨zeros, h⟩ := h
  have hmem : c.toLower ∈ List.replicate zeros '0' ++ Nat.toDigits base n :=
    h ▸ List.mem_map_of_mem hc
  rcases List.mem_append.1 hmem with hzero | hdigit
  · exact ⟨0, by omega, (List.mem_replicate.1 hzero).2⟩
  · exact exists_of_mem_toDigits hbase hdigit

theorem isHexDigit_digitChar : ∀ d < 16, isHexDigit d.digitChar = true := by
  decide

theorem hexDigit_digitChar : ∀ d < 16, hexDigit d.digitChar = d := by
  decide

theorem Writes.isHexDigit (h : Writes 16 ds n) : ∀ c ∈ ds, isHexDigit c = true := by
  intro c hc
  obtain ⟨d, hd, hlower⟩ := h.exists_digit (by omega) hc
  rw [← isHexDigit_toLower, hlower, isHexDigit_digitChar d hd]

theorem hexValue_of_writes (h : Writes 16 ds n) : hexValue ds = n := by
  have hlower : hexValue ds = hexValue (ds.map Char.toLower) := by
    unfold hexValue
    rw [List.foldl_map]
    refine List.foldl_ext _ _ 0 fun v d hd => ?_
    rw [hexDigit_toLower (h.isHexDigit d hd)]
  obtain ⟨zeros, hds⟩ := h
  rw [hlower, hds]
  exact foldl_writes (by omega) hexDigit_digitChar

/-- An escape by number stands for the code point of the number. -/
theorem hexadecimal_of_writes (raw : Text) {c : CodePoint} (h : Writes 16 ds c.val) :
    hexadecimal raw (Text.ofChars ds) = .ok [c] := by
  have hvalue := hexValue_of_writes h
  have hlast := c.isLt
  rw [hexadecimal_hex raw h.ne_nil h.isHexDigit, if_neg (by omega), dif_pos (hvalue ▸ hlast)]
  exact congrArg (fun d => Except.ok [d]) (Fin.ext hvalue)

/-- Octal digits have no case. -/
theorem Writes.eq_octal (h : Writes 8 ds n) :
    ∃ zeros, ds = List.replicate zeros '0' ++ Nat.toDigits 8 n := by
  have hid : ∀ c ∈ ds, c.toLower = c := by
    intro c hc
    obtain ⟨d, hd, hdigit⟩ := h.exists_digit (by omega) hc
    have hlower := toNat_toLower c
    rw [hdigit, Nat.toNat_digitChar_of_lt_ten (by omega)] at hlower
    rw [hdigit]
    apply Char.toNat_inj.1
    rw [Nat.toNat_digitChar_of_lt_ten (by omega)]
    split at hlower <;> omega
  obtain ⟨zeros, hds⟩ := h
  rw [List.map_congr_left hid, List.map_id'] at hds
  exact ⟨zeros, hds⟩

theorem Writes.isOctalDigit (h : Writes 8 ds n) :
    ∀ c ∈ Text.ofChars ds, isOctalDigit c = true := by
  have hall : ∀ d < 8, Script.isOctalDigit d.digitChar = true := by decide
  intro c hc
  obtain ⟨zeros, hds⟩ := h.eq_octal
  obtain ⟨d, hd, rfl⟩ := List.mem_map.1 hc
  rw [isOctalDigit_ofChar]
  rw [hds] at hd
  rcases List.mem_append.1 hd with hzero | hdigit
  · rw [(List.mem_replicate.1 hzero).2]
    rfl
  · obtain ⟨e, he, rfl⟩ := exists_of_mem_toDigits (by omega) hdigit
    exact hall e he

theorem octalValue_of_writes (h : Writes 8 ds n) : octalValue (Text.ofChars ds) = n := by
  have hdigit : ∀ d < 8, d.digitChar.toNat - 0x30 = d := by decide
  obtain ⟨zeros, hds⟩ := h.eq_octal
  rw [octalValue, Text.ofChars, List.foldl_map, hds]
  exact foldl_writes (by omega) hdigit

end Writes

/-- A number is written in every number of digits that it fits into. -/
theorem exists_writes {base width n : Nat} (hbase : 1 < base) (hmax : base ≤ 16) (hwidth : 0 < width)
    (hn : n < base ^ width) : ∃ ds, ds.length = width ∧ Writes base ds n := by
  have hlength := (Nat.length_toDigits_le_iff hbase hwidth).2 hn
  have hlower : ∀ d < 16, d.digitChar.toLower = d.digitChar := by decide
  refine ⟨List.replicate (width - (Nat.toDigits base n).length) '0' ++ Nat.toDigits base n, ?_,
    width - (Nat.toDigits base n).length, ?_⟩
  · rw [List.length_append, List.length_replicate]
    omega
  · refine (List.map_congr_left fun c hc => ?_).trans (List.map_id' _)
    rcases List.mem_append.1 hc with hzero | hdigit
    · rw [(List.mem_replicate.1 hzero).2]
      rfl
    · obtain ⟨d, hd, rfl⟩ := exists_of_mem_toDigits hbase hdigit
      exact hlower d (by omega)

/-! ## Spellings -/

/-- The letters that stand for control characters. -/
def controls : List (CodePoint × CodePoint) :=
  [(0x62, 0x08), (0x66, 0x0C), (0x6E, 0x0A), (0x72, 0x0D), (0x74, 0x09), (0x76, 0x0B)]

/-- The characters that end a line. -/
def lineEnds : List CodePoint :=
  [0x0A, 0x0D, 0x2028, 0x2029]

/-- An escape, its backslash included, is a way to write a text. -/
inductive Spells : Text → Text → Prop
  /-- A code point by its number in braces, with any number of digits. -/
  | braced {c : CodePoint} {ds : List Char} (h : Writes 16 ds c.val) :
      Spells (written ('u' :: '{' :: (ds ++ ['}']))) [c]
  /-- A code point by its number in four digits. -/
  | unit {c : CodePoint} {ds : List Char} (hlen : ds.length = 4) (h : Writes 16 ds c.val) :
      Spells (written ('u' :: ds)) [c]
  /-- A code point by its number in two digits. -/
  | byte {c : CodePoint} {ds : List Char} (hlen : ds.length = 2) (h : Writes 16 ds c.val) :
      Spells (written ('x' :: ds)) [c]
  /-- A code point by its number in up to three octal digits. -/
  | octal {c : CodePoint} {ds : List Char} (hlen : ds.length ≤ 3) (hc : c.val ≤ 0o377)
      (h : Writes 8 ds c.val) : Spells (written ds) [c]
  /-- A control character by its letter. -/
  | control {letter c : CodePoint} (h : (letter, c) ∈ controls) : Spells [0x5C, letter] [c]
  /-- Any other character by itself. -/
  | itself {c : CodePoint} (hx : c ≠ 0x78) (hu : c ≠ 0x75) (hoctal : ¬ (0x30 ≤ c.val ∧ c.val ≤ 0x37))
      (hend : c ∉ lineEnds) (hletter : ∀ d, (c, d) ∉ controls) : Spells [0x5C, c] [c]
  /-- Nothing, before the end of a line. -/
  | lineEnd {c : CodePoint} (h : c ∈ lineEnds) : Spells [0x5C, c] []
  /-- The two characters of some line ends are one line end. -/
  | crlf : Spells [0x5C, 0x0D, 0x0A] []

theorem decode_octal {ds : List Char} {c : CodePoint} (h : Writes 8 ds c.val) :
    decode (written ds) = .ok [c] := by
  have hdigits := h.isOctalDigit
  have hvalue := octalValue_of_writes h
  have hlast := c.isLt
  obtain ⟨o, os, rfl⟩ := List.exists_cons_of_ne_nil h.ne_nil
  have ho : Script.isOctalDigit o = true := by
    rw [← isOctalDigit_ofChar]
    exact hdigits _ (List.mem_cons_self ..)
  have hx : o ≠ 'x' := by
    rintro rfl
    cases ho
  have hu : o ≠ 'u' := by
    rintro rfl
    cases ho
  have hsimple := simple_octal hdigits (hvalue ▸ hlast)
  rw [decode_simple os hx hu]
  exact hsimple.trans (congrArg (fun d => Except.ok [d]) (Fin.ext hvalue))

theorem isLineEnd_iff {c : CodePoint} : isLineEnd c = true ↔ c ∈ lineEnds := by
  simp only [isLineEnd, lineEnds, Bool.or_eq_true, decide_eq_true_eq, List.mem_cons,
    List.not_mem_nil, or_false]
  tauto

theorem mem_controls {c d : CodePoint} (h : control? c = some d) : (c, d) ∈ controls := by
  unfold control? at h
  repeat' split at h
  all_goals first
    | cases h
      rename_i hc
      rw [hc]
      decide
    | cases h

/-- One character that is no octal digit stands for nothing, a control character or itself. -/
theorem decode_single {c : CodePoint} (h : isOctalDigit c = false) :
    decode [0x5C, c] = .ok (if isLineEnd c then [] else [(control? c).getD c]) := by
  have hsimple : decode [0x5C, c] = simple [c] := by
    simp [decode]
  rw [hsimple]
  unfold simple
  dsimp only
  by_cases hend : isLineEnd c = true
  · rw [if_pos hend, if_pos hend]
  · rw [if_neg hend, if_neg hend, List.all_cons, List.all_nil, Bool.and_true, if_neg (by simp [h])]
    cases control? c <;> rfl

/-- Decoding undoes every spelling, and a number can be spelled with every number of digits that it
fits into: each code point up to U+FFFF in four hexadecimal digits, for instance, and each in any
greater number of them. -/
theorem decode_spelling :
    (∀ raw value : Text, Spells raw value → decode raw = .ok value) ∧
    ∀ base width n : Nat, 1 < base → base ≤ 16 → 0 < width → n < base ^ width →
      ∃ ds, ds.length = width ∧ Writes base ds n := by
  refine ⟨fun raw value h => ?_, fun base width n => exists_writes⟩
  cases h with
  | braced h => rw [decode_braced, hexadecimal_of_writes _ h]
  | unit hlen h =>
    obtain ⟨a, ds, rfl⟩ := List.exists_cons_of_ne_nil h.ne_nil
    rw [decode_unit ds (h.isHexDigit a (List.mem_cons_self ..)), hexadecimal_of_writes _ h]
  | byte hlen h =>
    obtain ⟨a, b, rfl⟩ := List.length_eq_two.1 hlen
    rw [decode_byte, hexadecimal_of_writes _ h]
  | octal _ _ h => exact decode_octal h
  | control h =>
    simp only [controls, List.mem_cons, Prod.mk.injEq, List.not_mem_nil, or_false] at h
    rcases h with ⟨rfl, rfl⟩ | ⟨rfl, rfl⟩ | ⟨rfl, rfl⟩ | ⟨rfl, rfl⟩ | ⟨rfl, rfl⟩ | ⟨rfl, rfl⟩ <;> rfl
  | @itself c _ _ hoctal hend hletter =>
    have hdigit : isOctalDigit c = false := by
      simpa [isOctalDigit] using hoctal
    have hcontrol : control? c = none := by
      rw [Option.eq_none_iff_forall_ne_some]
      exact fun d hd => hletter d (mem_controls hd)
    rw [decode_single hdigit, if_neg (mt isLineEnd_iff.1 hend), hcontrol]
    rfl
  | lineEnd h =>
    simp only [lineEnds, List.mem_cons, List.not_mem_nil, or_false] at h
    rcases h with rfl | rfl | rfl | rfl <;> rfl
  | crlf => rfl

/-! ### Leading zeros in both cases, and half of a pair -/

theorem decode_spelling_samples :
    (Spells (written "u\x7b0001F60a\x7d".toList) [0x1F60A] ∧
      decode (written "u\x7b0001F60a\x7d".toList) = .ok [0x1F60A]) ∧
    (Spells (written "uDc0D".toList) [0xDC0D] ∧ decode (written "uDc0D".toList) = .ok [0xDC0D]) ∧
    ∃ ds, ds.length = 4 ∧ Writes 16 ds 0x70 := by
  have hbraced : Spells (written "u\x7b0001F60a\x7d".toList) [0x1F60A] :=
    @Spells.braced 0x1F60A "0001F60a".toList ⟨3, by rfl⟩
  have hunit : Spells (written "uDc0D".toList) [0xDC0D] :=
    @Spells.unit 0xDC0D "Dc0D".toList rfl ⟨0, by rfl⟩
  exact ⟨⟨hbraced, decode_spelling.1 _ _ hbraced⟩, ⟨hunit, decode_spelling.1 _ _ hunit⟩,
    decode_spelling.2 16 4 0x70 (by decide) (by decide) (by decide) (by decide)⟩

end LazyLint.Escape
