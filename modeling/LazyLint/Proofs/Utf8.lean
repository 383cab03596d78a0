import Mathlib.Data.List.Basic
import LazyLint.Text.Utf8

/-!
# Decoding what was encoded

The automaton that decodes bytes takes back what encoding made of characters, one character at a time
and whatever follows (`decodeFrom_encodeChar`). So a slice of an encoded text that begins and ends
between two characters is the text between them (`text_encode`), and the character for what cannot be
decoded never comes up.
-/

namespace LazyLint.Utf8

/-! ## Bytes -/

section Byte

variable {b x : UInt8}

theorem lead_one (h : b.toNat < 0x80) : lead b = .char (Char.ofNat b.toNat) := by
  simp [lead, UInt8.lt_iff_toNat_lt, h]

theorem lead_two (hlo : 0xC2 ≤ b.toNat) (hhi : b.toNat < 0xE0) :
    lead b = .go (.within 0 0x80 0xBF (b.toNat % 0x20) 1) := by
  have h₁ : ¬ b.toNat < 0x80 := by omega
  have h₂ : ¬ b.toNat < 0xC2 := by omega
  simp [lead, UInt8.lt_iff_toNat_lt, h₁, h₂, hhi]

/-- A character of three bytes is not one that two would do for, and no surrogate. -/
theorem lead_three (hlo : 0xE0 ≤ b.toNat) (hhi : b.toNat < 0xF0)
    (hx : 0x80 ≤ x.toNat ∧ x.toNat ≤ 0xBF) (hlong : b.toNat = 0xE0 → 0xA0 ≤ x.toNat)
    (hsurrogate : b.toNat = 0xED → x.toNat ≤ 0x9F) :
    ∃ low high, lead b = .go (.within 1 low high (b.toNat % 0x10) 1) ∧
      low.toNat ≤ x.toNat ∧ x.toNat ≤ high.toNat := by
  have h₁ : ¬ b.toNat < 0x80 := by omega
  have h₂ : ¬ b.toNat < 0xC2 := by omega
  have h₃ : ¬ b.toNat < 0xE0 := by omega
  simp only [lead, UInt8.lt_iff_toNat_lt, ← UInt8.toNat_inj, UInt8.reduceToNat, h₁, h₂, h₃, hhi,
    if_false, if_true]
  split
  · rename_i h
    exact ⟨0xA0, 0xBF, by rw [h], hlong h, hx.2⟩
  · split
    · rename_i h
      exact ⟨0x80, 0x9F, by rw [h], hx.1, hsurrogate h⟩
    · exact ⟨_, _, rfl, hx⟩

/-- A character of four bytes is not one that three would do for, and there are none above U+10FFFF. -/
theorem lead_four (hlo : 0xF0 ≤ b.toNat) (hhi : b.toNat ≤ 0xF4)
    (hx : 0x80 ≤ x.toNat ∧ x.toNat ≤ 0xBF) (hlong : b.toNat = 0xF0 → 0x90 ≤ x.toNat)
    (hlast : b.toNat = 0xF4 → x.toNat ≤ 0x8F) :
    ∃ low high, lead b = .go (.within 2 low high (b.toNat % 8) 1) ∧
      low.toNat ≤ x.toNat ∧ x.toNat ≤ high.toNat := by
  have h₁ : ¬ b.toNat < 0x80 := by omega
  have h₂ : ¬ b.toNat < 0xC2 := by omega
  have h₃ : ¬ b.toNat < 0xE0 := by omega
  have h₄ : ¬ b.toNat = 0xE0 := by omega
  have h₅ : ¬ b.toNat = 0xED := by omega
  have h₆ : ¬ b.toNat < 0xF0 := by omega
  simp only [lead, UInt8.lt_iff_toNat_lt, ← UInt8.toNat_inj, UInt8.reduceToNat, h₁, h₂, h₃, h₄, h₅, h₆,
    if_false]
  split
  · rename_i h
    exact ⟨0x90, 0xBF, by rw [h], hlong h, hx.2⟩
  · split
    · exact ⟨_, _, rfl, hx⟩
    · have h : b.toNat = 0xF4 := by omega
      rw [if_pos h]
      exact ⟨0x80, 0x8F, by rw [h], hx.1, hlast h⟩

/-- A byte within its bounds goes on with a character. -/
theorem decodeFrom_within {low high : UInt8} (bits count : Nat) (bs : List UInt8)
    (hlow : low.toNat ≤ x.toNat) (hhigh : x.toNat ≤ high.toNat) :
    decodeFrom (.within 0 low high bits count) (x :: bs) =
        Char.ofNat (bits * 0x40 + x.toNat % 0x40) :: decodeFrom .between bs ∧
      ∀ more, decodeFrom (.within (more + 1) low high bits count) (x :: bs) =
        decodeFrom (.within more 0x80 0xBF (bits * 0x40 + x.toNat % 0x40) (count + 1)) bs := by
  have h : (low ≤ x && x ≤ high) = true := by
    simp [UInt8.le_iff_toNat_le, hlow, hhigh]
  constructor
  · simp [decodeFrom, replaceStep, follow, h]
  · intro more
    simp [decodeFrom, replaceStep, follow, h]

theorem decodeFrom_lead {more : Nat} {low high : UInt8} {bits count : Nat} (bs : List UInt8)
    (h : lead b = .go (.within more low high bits count)) :
    decodeFrom .between (b :: bs) = decodeFrom (.within more low high bits count) bs := by
  simp [decodeFrom, replaceStep, replaceLead, h]

end Byte

/-! ## Characters -/

theorem toNat_byte {n : Nat} (h : n < 256) : (UInt8.ofNat n).toNat = n :=
  UInt8.toNat_ofNat_of_lt' h

/-- A character comes back whatever follows it. -/
theorem decodeFrom_encodeChar (c : Char) (bs : List UInt8) :
    decodeFrom .between (String.utf8EncodeChar c ++ bs) = c :: decodeFrom .between bs := by
  have hvalid : c.val.toNat < 0xD800 ∨ 0xDFFF < c.val.toNat ∧ c.val.toNat < 0x110000 := c.valid
  have hc : ∀ n, n = c.val.toNat → Char.ofNat n = c := fun n hn => by rw [hn]; exact Char.ofNat_toNat c
  unfold String.utf8EncodeChar
  dsimp only
  generalize c.val.toNat = v at hvalid hc ⊢
  -- the bytes after the first that hold six bits each
  have hlast : (UInt8.ofNat (v % 0x40 + 0x80)).toNat = v % 0x40 + 0x80 := toNat_byte (by omega)
  have hsecond : (UInt8.ofNat (v / 64 % 0x40 + 0x80)).toNat = v / 64 % 0x40 + 0x80 :=
    toNat_byte (by omega)
  have hthird : (UInt8.ofNat (v / 4096 % 0x40 + 0x80)).toNat = v / 4096 % 0x40 + 0x80 :=
    toNat_byte (by omega)
  split
  · have hb : (UInt8.ofNat v).toNat = v := toNat_byte (by omega)
    have hlead := lead_one (b := UInt8.ofNat v) (by omega)
    simp only [List.cons_append, List.nil_append, decodeFrom, replaceStep, replaceLead, hlead]
    rw [hc _ hb]
  split
  · have hb : (UInt8.ofNat (v / 64 % 0x20 + 0xC0)).toNat = v / 64 % 0x20 + 0xC0 :=
      toNat_byte (by omega)
    have hlead := lead_two (b := UInt8.ofNat (v / 64 % 0x20 + 0xC0)) (by omega) (by omega)
    rw [List.cons_append, List.cons_append, List.nil_append, decodeFrom_lead _ hlead,
      (decodeFrom_within _ _ _ (by rw [hlast]; simp) (by rw [hlast]; simp; omega)).1, hlast, hb,
      hc _ (by omega)]
  split
  · have hb : (UInt8.ofNat (v / 4096 % 0x10 + 0xE0)).toNat = v / 4096 % 0x10 + 0xE0 :=
      toNat_byte (by omega)
    obtain ⟨low, high, hlead, hlow, hhigh⟩ :=
      lead_three (b := UInt8.ofNat (v / 4096 % 0x10 + 0xE0)) (x := UInt8.ofNat (v / 64 % 0x40 + 0x80))
        (by omega) (by omega) (by omega) (by omega) (by omega)
    rw [List.cons_append, List.cons_append, List.cons_append, List.nil_append,
      decodeFrom_lead _ hlead, (decodeFrom_within _ _ _ hlow hhigh).2,
      (decodeFrom_within _ _ _ (by rw [hlast]; simp) (by rw [hlast]; simp; omega)).1, hlast, hsecond, hb,
      hc _ (by omega)]
  · have hb : (UInt8.ofNat (v / 262144 % 0x08 + 0xF0)).toNat = v / 262144 % 0x08 + 0xF0 :=
      toNat_byte (by omega)
    obtain ⟨low, high, hlead, hlow, hhigh⟩ :=
      lead_four (b := UInt8.ofNat (v / 262144 % 0x08 + 0xF0))
        (x := UInt8.ofNat (v / 4096 % 0x40 + 0x80))
        (by omega) (by omega) (by omega) (by omega) (by omega)
    rw [List.cons_append, List.cons_append, List.cons_append, List.cons_append, List.nil_append,
      decodeFrom_lead _ hlead, (decodeFrom_within _ _ _ hlow hhigh).2,
      (decodeFrom_within _ _ _ (by rw [hsecond]; simp) (by rw [hsecond]; simp; omega)).2,
      (decodeFrom_within _ _ _ (by rw [hlast]; simp) (by rw [hlast]; simp; omega)).1,
      hlast, hsecond, hthird, hb, hc _ (by omega)]

/-! ## Texts -/

theorem encode_append (cs ds : List Char) : encode (cs ++ ds) = encode cs ++ encode ds := by
  simp [encode]

theorem decode_encode (cs : List Char) : decode (encode cs) = cs := by
  induction cs with
  | nil => rfl
  | cons c cs ih =>
    rw [encode, List.flatMap_cons, decode, decodeFrom_encodeChar, ← encode, ← decode, ih]

/-- A slice that begins and ends between two characters holds the bytes of the characters between. -/
theorem slice_encode (before cs after : List Char) :
    slice (encode (before ++ cs ++ after)) (encode before).length (encode (before ++ cs)).length =
      encode cs := by
  have hnat : ¬ ((encode (before ++ cs)).length : Int) < 0 := by omega
  rw [slice, if_neg hnat, Int.toNat_natCast, encode_append _ after, encode_append before,
    List.length_append, Nat.add_sub_cancel_left, List.append_assoc, List.drop_left, List.take_left]

/-- A slice between two characters is the text between them. -/
theorem text_encode (before cs after : List Char) :
    text (encode (before ++ cs ++ after)) (encode before).length (encode (before ++ cs)).length =
      Text.ofChars cs := by
  rw [text, slice_encode, decode_encode]

end LazyLint.Utf8
