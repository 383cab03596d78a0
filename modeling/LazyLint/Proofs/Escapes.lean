import Mathlib.Algebra.Ring.Nat
import LazyLint.Cst.Escape
import LazyLint.Proofs.Fallible
import LazyLint.Script.Literal

/-!
# The escapes of the grammar

`decode` is written for any text after a backslash and can fail in three ways: there is nothing, the
number is beyond thirty-two bits, or an octal number is no code point. The grammar admits fewer texts:
`Script.escapeLength` says how long the escape is that stands after a backslash.
`decode_error_iff` says which of the escapes that it admits have no value: a number in braces has
any number of digits, so it alone can be too large; the other forms have too few.
-/

namespace LazyLint.Escape

open Script (isHexDigit escapeLength unicodeEscapeLength)

/-! ## Hexadecimal numbers -/

/-- The value of a hexadecimal digit. -/
def hexDigit (c : Char) : Nat :=
  if c.toNat ≤ 0x39 then c.toNat - 0x30
  else if c.toNat ≤ 0x46 then c.toNat - 0x37
  else c.toNat - 0x57

/-- The value of hexadecimal digits. -/
def hexValue (ds : List Char) : Nat :=
  ds.foldl (fun v d => v * 16 + hexDigit d) 0

theorem isHexDigit_iff {c : Char} : isHexDigit c = true ↔
    (0x30 ≤ c.toNat ∧ c.toNat ≤ 0x39) ∨ (0x61 ≤ c.toNat ∧ c.toNat ≤ 0x66) ∨
      (0x41 ≤ c.toNat ∧ c.toNat ≤ 0x46) := by
  simp [isHexDigit, Char.isDigit, Char.le_def, UInt32.le_iff_toNat_le, or_assoc]

theorem hexDigit_lt {c : Char} (h : isHexDigit c = true) : hexDigit c < 16 := by
  rw [isHexDigit_iff] at h
  unfold hexDigit
  split
  · omega
  · split <;> omega

theorem decimal?_ofChar {c : Char} (hlo : 0x30 ≤ c.toNat) (hhi : c.toNat ≤ 0x39) :
    (CodePoint.ofChar c).decimal? = some (c.toNat - 0x30) := by
  have hval : (CodePoint.ofChar c).val = c.toNat := rfl
  rw [CodePoint.decimal?, decimalZeros, List.find?_cons_of_pos (by simp [hval, hlo, hhi])]
  rfl

theorem digit?_ofChar {c : Char} (h : isHexDigit c = true) :
    (CodePoint.ofChar c).digit? 16 = some (hexDigit c) := by
  have hval : (CodePoint.ofChar c).val = c.toNat := rfl
  have hfilter : Option.filter (· < 16) (some (hexDigit c)) = some (hexDigit c) := by
    simp [Option.filter, hexDigit_lt h]
  unfold CodePoint.digit?
  rw [hval, ← hfilter]
  rcases isHexDigit_iff.1 h with ⟨hlo, hhi⟩ | ⟨hlo, hhi⟩ | ⟨hlo, hhi⟩
  · rw [if_neg (by simp; omega), if_neg (by simp; omega), decimal?_ofChar hlo hhi, hexDigit,
      if_pos hhi]
  · rw [if_pos (by simp; omega), hexDigit, if_neg (by omega), if_neg (by omega)]
  · rw [if_neg (by simp; omega), if_pos (by simp; omega), hexDigit, if_neg (by omega), if_pos hhi]

theorem ofChar_eq_iff {c d : Char} : CodePoint.ofChar c = CodePoint.ofChar d ↔ c = d := by
  constructor
  · intro h
    exact Char.toNat_inj.1 (congrArg (fun p : CodePoint => p.val) h)
  · rintro rfl
    rfl

theorem ofChar_ne {c d : Char} (hc : isHexDigit c = true) (hd : isHexDigit d = false) :
    CodePoint.ofChar c ≠ CodePoint.ofChar d := by
  rw [Ne, ofChar_eq_iff]
  rintro rfl
  rw [hc] at hd
  cases hd

theorem digits?_hex {ds : List Char} (h : ∀ d ∈ ds, isHexDigit d = true) (v : Nat) :
    (Text.ofChars ds).digits? 16 v true = some (ds.foldl (fun v d => v * 16 + hexDigit d) v) := by
  induction ds generalizing v with
  | nil => rfl
  | cons d ds ih =>
    have hd := h d (List.mem_cons_self ..)
    have hne : CodePoint.ofChar d ≠ 0x5F := ofChar_ne hd (d := '_') rfl
    rw [Text.ofChars, List.map_cons, Text.digits?, if_neg hne, digit?_ofChar hd]
    exact ih (fun e he => h e (List.mem_cons_of_mem _ he)) _

theorem dropWhile_blank {t : Text} (h : ∀ c ∈ t, c.isNumberBlank = false) :
    t.dropWhile CodePoint.isNumberBlank = t := by
  cases t with
  | nil => rfl
  | cons c t => rw [List.dropWhile_cons_of_neg (by simp [h c])]

theorem isNumberBlank_ofChar {c : Char} (h : isHexDigit c = true) :
    (CodePoint.ofChar c).isNumberBlank = false := by
  have hval : (CodePoint.ofChar c).val = c.toNat := rfl
  rw [isHexDigit_iff] at h
  simp only [CodePoint.isNumberBlank, CodePoint.isBlank, hval]
  simp
  omega

theorem pastMark_hex {ds : List Char} (h : ∀ d ∈ ds, isHexDigit d = true) :
    Text.pastMark 16 (Text.ofChars ds) = Text.ofChars ds := by
  match ds with
  | [] => rfl
  | [d] => rfl
  | d :: e :: ds =>
    have he := isHexDigit_iff.1 (h e (by simp))
    have hx : CodePoint.ofChar e ≠ 0x78 := ofChar_ne (h e (by simp)) (d := 'x') rfl
    have hX : (CodePoint.ofChar e).val + 0x20 ≠ (0x78 : CodePoint).val := by
      change e.toNat + 0x20 ≠ 0x78
      omega
    have hmark : (CodePoint.ofChar d = 0x30 && (CodePoint.ofChar e = 0x78 ||
        (CodePoint.ofChar e).val + 0x20 = (0x78 : CodePoint).val)) = false := by
      rw [decide_eq_false hx, decide_eq_false hX, Bool.or_false, Bool.and_false]
    change (if _ then _ else _) = _
    rw [hmark]
    rfl

/-- A run of hexadecimal digits spells its value. -/
theorem int?_hex {ds : List Char} (hne : ds ≠ []) (h : ∀ d ∈ ds, isHexDigit d = true) :
    (Text.ofChars ds).int? 16 = some (hexValue ds : Int) := by
  have hblank : ∀ c ∈ Text.ofChars ds, c.isNumberBlank = false := by
    intro c hc
    obtain ⟨d, hd, rfl⟩ := List.mem_map.1 hc
    exact isNumberBlank_ofChar (h d hd)
  have hmagnitude : (Text.pastMark 16 (Text.ofChars ds)).digits? 16 0 false = some (hexValue ds) := by
    rw [pastMark_hex h]
    obtain ⟨d, ds, rfl⟩ := List.exists_cons_of_ne_nil hne
    have hd := h d (List.mem_cons_self ..)
    have hne : CodePoint.ofChar d ≠ 0x5F := ofChar_ne hd (d := '_') rfl
    rw [Text.ofChars, List.map_cons, Text.digits?, if_neg hne, digit?_ofChar hd]
    exact digits?_hex (fun e he => h e (List.mem_cons_of_mem _ he)) _
  unfold Text.int?
  dsimp only
  rw [dropWhile_blank hblank, dropWhile_blank (by simpa using hblank), List.reverse_reverse]
  obtain ⟨d, ds, rfl⟩ := List.exists_cons_of_ne_nil hne
  have hd := h d (List.mem_cons_self ..)
  have hminus : CodePoint.ofChar d ≠ 0x2D := ofChar_ne hd (d := '-') rfl
  have hplus : CodePoint.ofChar d ≠ 0x2B := ofChar_ne hd (d := '+') rfl
  rw [Text.ofChars, List.map_cons] at hmagnitude ⊢
  simp only [if_neg hminus, if_neg hplus, Text.isTooLong, hmagnitude]
  rfl

theorem foldl_digits_lt {α : Type} {base : Nat} {digit : α → Nat} {ds : List α}
    (h : ∀ d ∈ ds, digit d < base) (v : Nat) :
    ds.foldl (fun v d => v * base + digit d) v < (v + 1) * base ^ ds.length := by
  induction ds generalizing v with
  | nil => simp
  | cons d ds ih =>
    have hd := h d (List.mem_cons_self ..)
    have hstep : v * base + digit d + 1 ≤ (v + 1) * base := by
      rw [Nat.add_mul, Nat.one_mul]
      omega
    rw [List.foldl_cons, List.length_cons]
    calc _ < (v * base + digit d + 1) * base ^ ds.length :=
          ih (fun e he => h e (List.mem_cons_of_mem _ he)) _
      _ ≤ (v + 1) * base * base ^ ds.length := Nat.mul_le_mul_right _ hstep
      _ = (v + 1) * base ^ (ds.length + 1) := by rw [Nat.pow_succ', Nat.mul_assoc]

theorem hexValue_lt {ds : List Char} (h : ∀ d ∈ ds, isHexDigit d = true) :
    hexValue ds < 16 ^ ds.length := by
  simpa [hexValue] using foldl_digits_lt (fun d hd => hexDigit_lt (h d hd)) 0

/-- An escape that gives its number in digits stands for the code point of this number or, if there is
no such code point, for itself; a number beyond thirty-two bits is a fault. -/
theorem hexadecimal_hex (raw : Text) {ds : List Char} (hne : ds ≠ [])
    (h : ∀ d ∈ ds, isHexDigit d = true) :
    hexadecimal raw (Text.ofChars ds) =
      if 0x7FFFFFFF < hexValue ds then .error .overflow
      else if hv : hexValue ds < 0x110000 then .ok [⟨hexValue ds, hv⟩]
      else .ok raw := by
  rw [hexadecimal, int?_hex hne h]
  dsimp only
  unfold codePoint?
  by_cases hbig : 0x7FFFFFFF < hexValue ds
  · have hbig' : (0x7FFFFFFF : Int) < hexValue ds := by omega
    rw [if_pos (by simp [hbig']), if_pos hbig]
    rfl
  · rw [if_neg (by simp; omega), if_neg hbig]
    by_cases hv : hexValue ds < 0x110000
    · have hv' : (0 : Int) ≤ hexValue ds ∧ (hexValue ds : Int) < 0x110000 := by omega
      rw [dif_pos hv', dif_pos hv]
      rfl
    · rw [dif_neg (by omega), dif_neg hv]
      rfl

theorem fault?_hexadecimal (raw : Text) {ds : List Char} (hne : ds ≠ [])
    (h : ∀ d ∈ ds, isHexDigit d = true) :
    fault? (hexadecimal raw (Text.ofChars ds)) =
      if 0x7FFFFFFF < hexValue ds then some .overflow else none := by
  rw [hexadecimal_hex raw hne h]
  split
  · rfl
  · split <;> rfl

/-! ## Tokens -/

/-- The forms of the escapes that the grammar admits, without their backslash. -/
inductive Token : List Char → Prop
  | byte {a b : Char} (ha : isHexDigit a = true) (hb : isHexDigit b = true) : Token ['x', a, b]
  | unit {a b c d : Char} (ha : isHexDigit a = true) (hb : isHexDigit b = true)
    (hc : isHexDigit c = true) (hd : isHexDigit d = true) : Token ['u', a, b, c, d]
  | braced {ds : List Char} (hne : ds ≠ []) (h : ∀ d ∈ ds, isHexDigit d = true) :
    Token ('u' :: '{' :: (ds ++ ['}']))
  | octal {o : Char} {os : List Char} (hlen : os.length ≤ 2)
    (h : ∀ d ∈ o :: os, Script.isOctalDigit d = true) : Token (o :: os)
  | other {c : Char} (hx : c ≠ 'x') (hu : c ≠ 'u') (ho : Script.isOctalDigit c = false) : Token [c]
  /-- A line end of two characters; the grammar has a question mark in its first place as well. -/
  | lineEnd {c d : Char} (hc : c = '\r' ∨ c = '?') (hd : Script.isSemicolonLineEnd d = true) :
    Token [c, d]

theorem take_length_takeWhile (p : Char → Bool) (cs : List Char) :
    cs.take (cs.takeWhile p).length = cs.takeWhile p :=
  (List.prefix_iff_eq_take.1 (List.takeWhile_prefix p)).symm

theorem of_mem_takeWhile {p : Char → Bool} {cs : List Char} {c : Char} (h : c ∈ cs.takeWhile p) :
    p c = true :=
  List.all_eq_true.1 List.all_takeWhile c h

theorem token_of_unicode {cs : List Char} {n : Nat} (h : unicodeEscapeLength cs = some n) :
    Token ('u' :: cs.take n) := by
  unfold unicodeEscapeLength at h
  split at h
  · rename_i cs
    dsimp only at h
    split at h
    · cases h
    · rename_i hne
      split at h
      · rename_i hclose
        cases h
        obtain ⟨rest, hrest⟩ := List.head?_eq_some_iff.1 hclose
        have htake : cs.take ((cs.takeWhile isHexDigit).length + 1) =
            cs.takeWhile isHexDigit ++ ['}'] := by
          rw [List.take_add, take_length_takeWhile, hrest]
          rfl
        rw [List.take_succ_cons, htake]
        exact .braced (by simpa using hne) fun d hd => of_mem_takeWhile hd
      · cases h
  · split at h
    · rename_i hhex
      cases h
      simp only [Bool.and_eq_true] at hhex
      exact .unit hhex.1.1.1 hhex.1.1.2 hhex.1.2 hhex.2
    · cases h
  · cases h

theorem token_of_octal {c : Char} (cs : List Char) (h : Script.isOctalDigit c = true) :
    Token ((c :: cs).take (1 + ((cs.take 2).takeWhile Script.isOctalDigit).length)) := by
  have hprefix : (cs.take 2).takeWhile Script.isOctalDigit <+: cs :=
    (List.takeWhile_prefix _).trans (List.take_prefix ..)
  rw [Nat.add_comm, List.take_succ_cons, ← List.prefix_iff_eq_take.1 hprefix]
  refine .octal ?_ fun d hd => ?_
  · have hlen := (List.takeWhile_prefix (l := cs.take 2) Script.isOctalDigit).length_le
    rw [List.length_take] at hlen
    omega
  · rcases List.mem_cons.1 hd with rfl | hd
    · exact h
    · exact of_mem_takeWhile hd

theorem token_of_escapeLength {cs : List Char} {n : Nat} (h : escapeLength cs = some n) :
    Token (cs.take n) := by
  unfold escapeLength at h
  split at h
  · split at h
    · rename_i hhex
      cases h
      rw [Bool.and_eq_true] at hhex
      exact .byte hhex.1 hhex.2
    · cases h
  · cases h
  · obtain ⟨k, hk, rfl⟩ := Option.map_eq_some_iff.1 h
    exact token_of_unicode hk
  · rename_i c cs _ hx hu
    split at h
    · rename_i ho
      cases h
      exact token_of_octal cs ho
    · rename_i ho
      have ho : Script.isOctalDigit c = false := by simpa using ho
      split at h
      · cases h
      · split at h
        · rename_i hpair
          cases h
          simp only [Bool.and_eq_true, Bool.or_eq_true, decide_eq_true_eq] at hpair
          obtain ⟨hc, hd⟩ := hpair
          cases cs with
          | nil => cases hd
          | cons d cs => exact .lineEnd hc hd
        · cases h
          exact .other hx hu ho
  · cases h

/-! ## The values of tokens -/

/-- An escape as it stands in the source. -/
def written (cs : List Char) : Text :=
  Text.ofChars ('\\' :: cs)

theorem decode_written (c : Char) (cs : List Char) :
    decode (written (c :: cs)) =
      if CodePoint.ofChar c = 0x75 && (Text.ofChars cs).head? = some 0x7B then
        hexadecimal (written (c :: cs)) ((Text.ofChars cs).drop 1).dropLast
      else if (CodePoint.ofChar c = 0x78 || CodePoint.ofChar c = 0x75) && ! (Text.ofChars cs).isEmpty then
        hexadecimal (written (c :: cs)) (Text.ofChars cs)
      else simple (Text.ofChars (c :: cs)) := rfl

theorem decode_byte (a b : Char) :
    decode (written ['x', a, b]) = hexadecimal (written ['x', a, b]) (Text.ofChars [a, b]) := by
  have hu : CodePoint.ofChar 'x' ≠ 0x75 := by decide
  have hx : CodePoint.ofChar 'x' = 0x78 := by decide
  rw [decode_written, if_neg (by simp [hu]), if_pos (by simp [hx, Text.ofChars])]

theorem decode_unit {a : Char} (cs : List Char) (ha : isHexDigit a = true) :
    decode (written ('u' :: a :: cs)) =
      hexadecimal (written ('u' :: a :: cs)) (Text.ofChars (a :: cs)) := by
  have hu : CodePoint.ofChar 'u' = 0x75 := by decide
  have hne : CodePoint.ofChar a ≠ 0x7B := ofChar_ne ha (d := '{') rfl
  rw [decode_written, if_neg (by simp [hne, Text.ofChars]), if_pos (by simp [hu, Text.ofChars])]

theorem decode_braced (ds : List Char) :
    decode (written ('u' :: '{' :: (ds ++ ['}']))) =
      hexadecimal (written ('u' :: '{' :: (ds ++ ['}']))) (Text.ofChars ds) := by
  have hu : CodePoint.ofChar 'u' = 0x75 := by decide
  have hopen : CodePoint.ofChar '{' = 0x7B := by decide
  have hds : ((Text.ofChars ('{' :: (ds ++ ['}']))).drop 1).dropLast = Text.ofChars ds := by
    simp [Text.ofChars]
  rw [decode_written, if_pos (by simp [hu, hopen, Text.ofChars]), hds]

theorem decode_simple {c : Char} (cs : List Char) (hx : c ≠ 'x') (hu : c ≠ 'u') :
    decode (written (c :: cs)) = simple (Text.ofChars (c :: cs)) := by
  have hx : CodePoint.ofChar c ≠ 0x78 := mt (ofChar_eq_iff (d := 'x')).1 hx
  have hu : CodePoint.ofChar c ≠ 0x75 := mt (ofChar_eq_iff (d := 'u')).1 hu
  rw [decode_written, if_neg (by simp [hu]), if_neg (by simp [hx, hu])]

theorem isOctalDigit_ofChar (c : Char) : isOctalDigit (CodePoint.ofChar c) = Script.isOctalDigit c := by
  have hval : (CodePoint.ofChar c).val = c.toNat := rfl
  simp [isOctalDigit, Script.isOctalDigit, hval, Char.le_def, UInt32.le_iff_toNat_le]

/-- A text that does not start with an octal digit has a value. -/
theorem fault?_simple {c : CodePoint} (cs : Text) (h : isOctalDigit c = false) :
    fault? (simple (c :: cs)) = none := by
  unfold simple
  dsimp only
  split
  · rfl
  · rw [if_neg (by simp [h])]
    split <;> rfl

theorem codePoint?_of_lt {n : Nat} (h : n < 0x110000) : codePoint? n = .ok (some ⟨n, h⟩) := by
  have h' : (0 : Int) ≤ n ∧ (n : Int) < 0x110000 := by omega
  rw [codePoint?, if_neg (by simp; omega), dif_pos h']
  rfl

theorem octalValue_lt {t : Text} (h : ∀ d ∈ t, isOctalDigit d = true) :
    octalValue t < 8 ^ t.length := by
  have hdigit : ∀ d ∈ t, d.val - 0x30 < 8 := by
    intro d hd
    have hd := h d hd
    simp only [isOctalDigit, Bool.and_eq_true, decide_eq_true_eq] at hd
    omega
  simpa [octalValue] using foldl_digits_lt hdigit 0

/-- Octal digits stand for the code point of their value. -/
theorem simple_octal {c : CodePoint} {cs : Text} (h : ∀ d ∈ c :: cs, isOctalDigit d = true)
    (hv : octalValue (c :: cs) < 0x110000) :
    simple (c :: cs) = .ok [⟨octalValue (c :: cs), hv⟩] := by
  have hend : isLineEnd c = false := by
    have hc := h c (List.mem_cons_self ..)
    simp only [isOctalDigit, Bool.and_eq_true, decide_eq_true_eq] at hc
    simp [isLineEnd, Fin.ext_iff]
    omega
  unfold simple
  dsimp only
  rw [if_neg (by simp [hend]), if_pos (List.all_eq_true.2 h), codePoint?_of_lt hv]
  rfl

theorem fault?_octal {o : Char} {os : List Char} (hlen : os.length ≤ 2)
    (h : ∀ d ∈ o :: os, Script.isOctalDigit d = true) :
    fault? (decode (written (o :: os))) = none := by
  have hall : ∀ d ∈ Text.ofChars (o :: os), isOctalDigit d = true := by
    intro d hd
    obtain ⟨c, hc, rfl⟩ := List.mem_map.1 hd
    rw [isOctalDigit_ofChar, h c hc]
  have hvalue : octalValue (Text.ofChars (o :: os)) < 0x110000 := by
    have hlt := octalValue_lt hall
    have hpow : 8 ^ (Text.ofChars (o :: os)).length ≤ 8 ^ 3 :=
      Nat.pow_le_pow_right (by omega) (by simp [Text.ofChars]; omega)
    omega
  have ho := h o (List.mem_cons_self ..)
  have hx : o ≠ 'x' := by
    rintro rfl
    exact absurd ho (by decide)
  have hu : o ≠ 'u' := by
    rintro rfl
    exact absurd ho (by decide)
  rw [decode_simple os hx hu]
  exact fault?_eq_none_iff.2 ⟨_, simple_octal hall hvalue⟩

theorem fault?_other {c : Char} (cs : List Char) (hx : c ≠ 'x') (hu : c ≠ 'u')
    (ho : Script.isOctalDigit c = false) : fault? (decode (written (c :: cs))) = none := by
  rw [decode_simple cs hx hu]
  exact fault?_simple _ (by rw [isOctalDigit_ofChar, ho])

theorem fault?_short (raw : Text) {ds : List Char} (hne : ds ≠ []) (hlen : ds.length ≤ 4)
    (h : ∀ d ∈ ds, isHexDigit d = true) : fault? (hexadecimal raw (Text.ofChars ds)) = none := by
  have hlt := hexValue_lt h
  have hpow : 16 ^ ds.length ≤ 16 ^ 4 := Nat.pow_le_pow_right (by omega) hlen
  rw [fault?_hexadecimal raw hne h, if_neg (by omega)]

/-- An escape whose number stands in braces and is more than a signed number of thirty-two bits can
be. -/
def Overflows (t : Text) : Prop :=
  ∃ ds, t = written ('u' :: '{' :: (ds ++ ['}'])) ∧ ds ≠ [] ∧
    (∀ d ∈ ds, isHexDigit d = true) ∧ 0x7FFFFFFF < hexValue ds

/-- Of the escapes that the grammar admits, only those that overflow have no value. -/
theorem decode_error_iff {cs : List Char} (h : Token cs) {f : Fault} :
    decode (written cs) = .error f ↔ f = .overflow ∧ Overflows (written cs) := by
  constructor
  · rw [← fault?_eq_some_iff]
    intro hf
    cases h with
    | byte ha hb =>
      rw [decode_byte, fault?_short _ (by simp) (by simp) (by simp [ha, hb])] at hf
      cases hf
    | unit ha hb hc hd =>
      rw [decode_unit _ ha, fault?_short _ (by simp) (by simp) (by simp [ha, hb, hc, hd])] at hf
      cases hf
    | braced hne h =>
      rw [decode_braced, fault?_hexadecimal _ hne h] at hf
      split at hf
      · rename_i hbig
        cases hf
        exact ⟨rfl, _, rfl, hne, h, hbig⟩
      · cases hf
    | octal hlen h =>
      rw [fault?_octal hlen h] at hf
      cases hf
    | other hx hu ho =>
      rw [fault?_other _ hx hu ho] at hf
      cases hf
    | lineEnd hc _ =>
      rcases hc with rfl | rfl
      all_goals
        rw [fault?_other _ (by decide) (by decide) (by decide)] at hf
        cases hf
  · rintro ⟨rfl, ds, hds, hne, hhex, hbig⟩
    rw [hds, decode_braced, hexadecimal_hex _ hne hhex, if_pos hbig]

end LazyLint.Escape
