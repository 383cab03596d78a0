import LazyLint.Proofs.Configuration
import LazyLint.Proofs.Spellings

/-!
# The spellings of a severity

Any value may stand where a severity is named. What counts is the text that the value is printed as, in
small letters and without the blanks around it, and small letters come from far outside of ASCII: the
Kelvin sign becomes a `k`, and the dotted capital I becomes an `i` with a dot after it. Neither makes
another spelling of a severity. No name has a `k` in it, and the dot is in no name
(`loweredAfter_eq_iff`). What is printed for a value that is no text begins with a code point that neither
is blank nor begins a name (`begins_plain`).
-/

namespace LazyLint

/-! ## Letters -/

namespace CodePoint

/-- The code point is a given letter, or the capital of it in ASCII. -/
def Capitalizes (c letter : CodePoint) : Prop :=
  c = letter ∨ (0x61 ≤ letter.val ∧ letter.val ≤ 0x7A) ∧ c.val + 0x20 = letter.val

instance (c letter : CodePoint) : Decidable (c.Capitalizes letter) :=
  inferInstanceAs (Decidable (_ ∨ (_ ∧ _) ∧ _))

/-- A small letter of ASCII that has no capital outside of ASCII. -/
def IsPlainLetter (c : CodePoint) : Prop :=
  0x61 ≤ c.val ∧ c.val ≤ 0x7A ∧ c ≠ 0x6B

instance (c : CodePoint) : Decidable c.IsPlainLetter :=
  inferInstanceAs (Decidable (_ ∧ _ ∧ _))

variable {c l : CodePoint}

theorem capitalRuns_small : ∀ r ∈ capitalRuns, r.small + (r.last - r.first) < 0x110000 ∧
    (0x80 ≤ r.small ∨ r.first = r.last ∧ r.small = 0x6B) := by
  decide +kernel

theorem lowered_of_capitalizes (hl : l.IsPlainLetter) (h : c.Capitalizes l) : c.lowered = [l] := by
  obtain ⟨hfirst, hlast, -⟩ := hl
  unfold lowered
  rcases h with rfl | ⟨-, hcapital⟩
  · rw [dif_neg (by omega), if_pos (by omega)]
  · rw [dif_pos (by omega)]
    exact congrArg (· :: []) (Fin.ext hcapital)

/-- A capital from outside of ASCII has its small form outside of ASCII, the Kelvin sign apart. -/
theorem not_isPlainLetter_of_run {r : CapitalRun} (hr : r ∈ capitalRuns) (hfirst : r.first ≤ c.val)
    (hlast : c.val ≤ r.last) :
    ¬ IsPlainLetter (Fin.ofNat 0x110000 (r.small + (c.val - r.first))) := by
  obtain ⟨hsize, hsmall⟩ := capitalRuns_small r hr
  have hval : (Fin.ofNat 0x110000 (r.small + (c.val - r.first))).val = r.small + (c.val - r.first) :=
    Nat.mod_eq_of_lt (by omega)
  rintro ⟨-, hz, hkelvin⟩
  rw [hval] at hz
  rcases hsmall with hsmall | ⟨hone, hsmall⟩
  · omega
  · refine hkelvin (Fin.ext ?_)
    rw [hval]
    change _ = 0x6B
    omega

/-- Where all the small form of a code point is plain letters, the code point is one letter of ASCII. -/
theorem exists_of_lowered (h : ∀ l ∈ c.lowered, l.IsPlainLetter) :
    ∃ l : CodePoint, c.lowered = [l] ∧ c.Capitalizes l := by
  unfold lowered at h ⊢
  by_cases hcapital : 0x41 ≤ c.val ∧ c.val ≤ 0x5A
  · rw [dif_pos hcapital]
    refine ⟨_, rfl, .inr ⟨?_, rfl⟩⟩
    constructor <;> simp only <;> omega
  rw [dif_neg hcapital] at h ⊢
  by_cases hascii : c.val < 0x80
  · rw [if_pos hascii]
    exact ⟨c, rfl, .inl rfl⟩
  rw [if_neg hascii] at h
  by_cases hdotted : c = 0x130
  · rw [if_pos hdotted] at h
    have hdot := h 0x307 (by simp)
    exact absurd hdot.2.1 (by decide)
  rw [if_neg hdotted] at h
  split at h
  · rename_i r hfind
    have hrun := List.find?_some hfind
    simp only [Bool.and_eq_true, decide_eq_true_eq] at hrun
    obtain ⟨⟨hfirst, hlast⟩, -⟩ := hrun
    have hplain := h _ (List.mem_singleton_self _)
    exact absurd hplain (not_isPlainLetter_of_run (List.mem_of_find?_eq_some hfind) hfirst hlast)
  · have hz := (h c (List.mem_singleton_self c)).2.1
    omega

end CodePoint

namespace Text

open CodePoint

variable {t u before word after : Text} {c l : CodePoint}

theorem loweredBetween_of_capitalizes (hl : l.IsPlainLetter) (h : c.Capitalizes l) :
    loweredBetween before c after = [l] := by
  have hc : c ≠ 0x3A3 := by
    rintro rfl
    obtain ⟨-, hlast, -⟩ := hl
    rcases h with rfl | ⟨-, hcapital⟩
    · exact absurd hlast (by decide)
    · change 0x3A3 + 0x20 = l.val at hcapital
      omega
  rw [loweredBetween, if_neg hc, lowered_of_capitalizes hl h]

theorem exists_of_loweredBetween (h : ∀ l ∈ loweredBetween before c after, l.IsPlainLetter) :
    ∃ l : CodePoint, loweredBetween before c after = [l] ∧ c.Capitalizes l := by
  unfold loweredBetween at h ⊢
  by_cases hc : c = 0x3A3
  · rw [if_pos hc] at h
    -- a sigma stays Greek, whichever of its two forms it gets
    split at h
    · exact absurd (h 0x3C2 (by simp)).2.1 (by decide)
    · exact absurd (h 0x3C3 (by simp)).2.1 (by decide)
  · rw [if_neg hc] at h ⊢
    exact exists_of_lowered h

/-- A text becomes plain letters in small letters only if it is spelled with these letters and their
capitals, one by one, whatever stands around it. -/
theorem loweredAfter_eq_iff (hu : ∀ l ∈ u, l.IsPlainLetter) :
    loweredAfter before t = u ↔ List.Forall₂ Capitalizes t u := by
  induction t generalizing before u with
  | nil => rw [loweredAfter, List.forall₂_nil_left_iff, eq_comm]
  | cons c t ih =>
    rw [loweredAfter]
    constructor
    · rintro rfl
      obtain ⟨hhead, htail⟩ := List.forall_mem_append.1 hu
      obtain ⟨l, hone, hl⟩ := exists_of_loweredBetween hhead
      rw [hone, List.singleton_append]
      exact .cons hl ((ih htail).1 rfl)
    · intro h
      cases h with
      | cons hl hrest =>
        obtain ⟨hplain, htail⟩ := List.forall_mem_cons.1 hu
        rw [loweredBetween_of_capitalizes hplain hl, (ih htail).2 hrest, List.singleton_append]

theorem ofString_append (s t : String) : ofString (s ++ t) = ofString s ++ ofString t := by
  rw [ofString, String.toList_append, List.map_append]
  rfl

/-! ## Blanks -/

theorem exists_strip (t : Text) : ∃ before after : Text, t = before ++ t.strip ++ after ∧
    (∀ c ∈ before, c.isBlank = true) ∧ ∀ c ∈ after, c.isBlank = true := by
  refine ⟨t.takeWhile isBlank, (t.stripLeft.reverse.takeWhile isBlank).reverse, ?_,
    fun c hc => List.mem_takeWhile_imp hc,
    fun c hc => List.mem_takeWhile_imp (List.mem_reverse.1 hc)⟩
  calc t
    _ = t.takeWhile isBlank ++ t.stripLeft := by
      rw [stripLeft, List.takeWhile_append_dropWhile]
    _ = t.takeWhile isBlank ++
        (t.stripLeft.reverse.takeWhile isBlank ++ t.stripLeft.reverse.dropWhile isBlank).reverse := by
      rw [List.takeWhile_append_dropWhile, List.reverse_reverse]
    _ = t.takeWhile isBlank ++ t.strip ++ (t.stripLeft.reverse.takeWhile isBlank).reverse := by
      rw [List.reverse_append, strip, List.append_assoc]

theorem dropWhile_isBlank_append (hbefore : ∀ c ∈ before, c.isBlank = true) (hne : word ≠ [])
    (hword : ∀ c ∈ word, c.isBlank = false) :
    (before ++ (word ++ after)).dropWhile isBlank = word ++ after := by
  rw [List.dropWhile_append_of_pos hbefore]
  cases word with
  | nil => exact absurd rfl hne
  | cons c word =>
    rw [List.cons_append, List.dropWhile_cons_of_neg]
    rw [hword c List.mem_cons_self]
    exact Bool.false_ne_true

theorem strip_append (hbefore : ∀ c ∈ before, c.isBlank = true)
    (hafter : ∀ c ∈ after, c.isBlank = true) (hne : word ≠ [])
    (hword : ∀ c ∈ word, c.isBlank = false) : (before ++ word ++ after).strip = word := by
  rw [strip, stripLeft, List.append_assoc, dropWhile_isBlank_append hbefore hne hword,
    List.reverse_append]
  have hback : (after.reverse ++ (word.reverse ++ [])).dropWhile isBlank = word.reverse ++ [] :=
    dropWhile_isBlank_append (by simpa using hafter) (by simpa using hne) (by simpa using hword)
  rw [List.append_nil] at hback
  rw [hback, List.reverse_reverse]

end Text

/-! ## Names -/

namespace Severity

open CodePoint

variable {t : Text} {s : Severity}

/-- A text that spells a severity: its name in letters of any case, with blanks around it. -/
inductive Spells : Text → Severity → Prop
  | mk {before word after : Text} {s : Severity} (hbefore : ∀ c ∈ before, c.isBlank = true)
      (hword : List.Forall₂ Capitalizes word (Text.ofString s.name))
      (hafter : ∀ c ∈ after, c.isBlank = true) : Spells (before ++ word ++ after) s

theorem isPlainLetter_of_mem_name : ∀ l ∈ Text.ofString s.name, l.IsPlainLetter := by
  have hall : (Text.ofString s.name).all fun l => decide l.IsPlainLetter := by
    cases s <;> decide
  intro l hl
  exact of_decide_eq_true (List.all_eq_true.1 hall l hl)

theorem ofName_eq_some_iff : ofName t = some s ↔ t = Text.ofString s.name := by
  constructor
  · intro h
    unfold ofName at h
    have hfound := List.find?_some h
    exact (eq_of_beq hfound).symm
  · rintro rfl
    cases s <;> rfl

theorem exists_letter_of_mem {word name : Text} (h : List.Forall₂ Capitalizes word name)
    (hname : ∀ l ∈ name, l.IsPlainLetter) {c : CodePoint} (hc : c ∈ word) :
    0x41 ≤ c.val ∧ c.val ≤ 0x7A := by
  induction h with
  | nil => cases hc
  | cons hl _ ih =>
    obtain ⟨⟨hfirst, hlast, -⟩, htail⟩ := List.forall_mem_cons.1 hname
    rcases List.mem_cons.1 hc with rfl | hc
    · rcases hl with rfl | ⟨-, hcapital⟩ <;> omega
    · exact ih htail hc

theorem Spells.isBlank_or_ascii (h : Spells t s) {c : CodePoint} (hc : c ∈ t) :
    c.isBlank = true ∨ c.val < 0x80 := by
  obtain ⟨hbefore, hword, hafter⟩ := h
  rcases List.mem_append.1 hc with hc | hc
  · rcases List.mem_append.1 hc with hc | hc
    · exact .inl (hbefore c hc)
    · obtain ⟨-, hlast⟩ := exists_letter_of_mem hword isPlainLetter_of_mem_name hc
      exact .inr (by omega)
  · exact .inl (hafter c hc)

theorem not_isBlank_of_letter {c : CodePoint} (h : 0x41 ≤ c.val ∧ c.val ≤ 0x7A) :
    c.isBlank = false := by
  unfold isBlank
  simp only [Bool.or_eq_false_iff, Bool.and_eq_false_iff, decide_eq_false_iff_not]
  omega

/-- A text names a severity if it spells it, and not otherwise. -/
theorem ofName_lowered_eq_some_iff : ofName t.strip.lowered = some s ↔ Spells t s := by
  rw [ofName_eq_some_iff, Text.lowered, Text.loweredAfter_eq_iff isPlainLetter_of_mem_name]
  constructor
  · intro h
    obtain ⟨before, after, ht, hbefore, hafter⟩ := Text.exists_strip t
    rw [ht]
    exact .mk hbefore h hafter
  · rintro ⟨hbefore, hword, hafter⟩
    have hne : ∀ {word : Text}, List.Forall₂ Capitalizes word (Text.ofString s.name) → word ≠ [] := by
      rintro _ h rfl
      cases s <;> cases h
    rw [Text.strip_append hbefore hafter (hne hword) fun c hc =>
      not_isBlank_of_letter (exists_letter_of_mem hword isPlainLetter_of_mem_name hc)]
    exact hword

end Severity

/-! ## Values that are no texts -/

namespace Value

/-- What the printed form of a value that is no text can begin with. -/
def initials : Text :=
  "-0123456789NTFnib[(s\x7b"

/-- The text begins like the printed form of a value that is no text. -/
def Begins (t : Text) : Prop :=
  ∃ c ∈ initials, t.head? = some c

theorem Begins.append {t : Text} (h : Begins t) (u : Text) : Begins (t ++ u) := by
  obtain ⟨c, hc, hhead⟩ := h
  exact ⟨c, hc, by rw [List.head?_append, hhead, Option.some_or]⟩

theorem Begins.appendString {s : String} (h : Begins (Text.ofString s)) (t : String) :
    Begins (Text.ofString (s ++ t)) := by
  rw [Text.ofString_append]
  exact h.append _

/-- A decimal digit. -/
def IsDigit (c : Char) : Prop :=
  ∃ d < 10, c = Nat.digitChar d

theorem begins_digits {cs : List Char} (hne : cs ≠ []) (h : ∀ c ∈ cs, IsDigit c) :
    Begins (Text.ofString (String.ofList cs)) := by
  have hdigits : ∀ d < 10, CodePoint.ofChar (Nat.digitChar d) ∈ initials := by
    decide +kernel
  cases cs with
  | nil => exact absurd rfl hne
  | cons c cs =>
    obtain ⟨d, hd, rfl⟩ := h c List.mem_cons_self
    exact ⟨_, hdigits d hd, by rw [Text.ofString, String.toList_ofList]; rfl⟩

theorem isDigit_of_mem_toDigits {n : Nat} {c : Char} (h : c ∈ Nat.toDigits 10 n) : IsDigit c :=
  Escape.exists_of_mem_toDigits (by decide) h

theorem isDigit_zero : IsDigit '0' :=
  ⟨0, by decide, rfl⟩

theorem begins_padded (width n : Nat) : Begins (Text.ofString (padded width n)) := by
  unfold padded
  simp only [Nat.repr]
  rw [← String.ofList_append]
  refine begins_digits (fun h => Nat.toDigits_ne_nil (List.append_eq_nil_iff.1 h).2) ?_
  intro c hc
  rcases List.mem_append.1 hc with hc | hc
  · rw [List.eq_of_mem_replicate hc]
    exact isDigit_zero
  · exact isDigit_of_mem_toDigits hc

theorem begins_ofNat (n : Nat) : Begins (Text.ofNat n) :=
  begins_digits Nat.toDigits_ne_nil fun _ => isDigit_of_mem_toDigits

theorem begins_ofInt (n : Int) : Begins (Text.ofInt n) := by
  unfold Text.ofInt
  by_cases hn : n < 0
  · rw [if_pos hn]
    exact Begins.append ⟨0x2D, by decide, rfl⟩ _
  · rw [if_neg hn]
    exact begins_ofNat _

theorem exists_ne_zero {n : Nat} (hn : n ≠ 0) : ∃ c ∈ Nat.toDigits 10 n, c ≠ '0' := by
  induction n using Nat.strongRecOn with
  | _ n ih =>
    rw [Nat.toDigits_eq_if (by decide)]
    split
    · rename_i hlt
      refine ⟨n.digitChar, List.mem_singleton_self _, ?_⟩
      have hdigit : ∀ d < 10, d ≠ 0 → Nat.digitChar d ≠ '0' := by decide
      exact hdigit n hlt hn
    · rename_i hge
      obtain ⟨c, hc, hne⟩ := ih (n / 10) (Nat.div_lt_self (by omega) (by decide)) (by omega)
      exact ⟨c, List.mem_append_left _ hc, hne⟩

theorem withoutTrailingZeros_ne_nil {n : Nat} (hn : n ≠ 0) :
    withoutTrailingZeros (Nat.toDigits 10 n) ≠ [] := by
  intro h
  rw [withoutTrailingZeros, List.reverse_eq_nil_iff, List.dropWhile_eq_nil_iff] at h
  obtain ⟨c, hc, hne⟩ := exists_ne_zero hn
  exact hne (by simpa using h c (List.mem_reverse.2 hc))

theorem isDigit_of_mem_withoutTrailingZeros {n : Nat} {c : Char}
    (h : c ∈ withoutTrailingZeros (Nat.toDigits 10 n)) : IsDigit c := by
  rw [withoutTrailingZeros, List.mem_reverse] at h
  exact isDigit_of_mem_toDigits (List.mem_reverse.1 ((List.dropWhile_sublist _).subset h))

theorem begins_writtenDecimal {digits : List Char} {point : Int} (hne : digits ≠ [])
    (h : ∀ c ∈ digits, IsDigit c) : Begins (Text.ofString (writtenDecimal digits point)) := by
  have htake : ∀ {n : Nat}, n ≠ 0 → Begins (Text.ofString (String.ofList (digits.take n))) := by
    intro n hn
    refine begins_digits (fun htake => ?_) fun c hc => h c (List.mem_of_mem_take hc)
    rcases List.take_eq_nil_iff.1 htake with hzero | hnil
    · exact hn hzero
    · exact hne hnil
  unfold writtenDecimal
  dsimp only
  split
  · split
    · exact Begins.appendString ⟨0x30, by decide, rfl⟩ _
    · split
      · refine Begins.appendString (begins_digits (by simp [hne]) ?_) _
        intro c hc
        rcases List.mem_append.1 hc with hc | hc
        · exact h c hc
        · rw [List.eq_of_mem_replicate hc]
          exact isDigit_zero
      · rename_i hpoint _
        rw [String.append_assoc]
        exact (htake (by omega)).appendString _
  · simp only [String.append_assoc]
    exact (htake (by decide)).appendString _

theorem begins_signed {s : String} (h : Begins (Text.ofString s)) (negative : Prop) [Decidable negative] :
    Begins (Text.ofString ((if negative then "-" else "") ++ s)) := by
  split
  · exact Begins.appendString ⟨0x2D, by decide, rfl⟩ _
  · rw [String.empty_append]
    exact h

theorem begins_writtenFloat (x : Float) : Begins (Text.ofString (writtenFloat x)) := by
  unfold writtenFloat
  split
  · exact ⟨0x6E, by decide, rfl⟩
  · dsimp only
    split
    · exact begins_signed ⟨0x69, by decide, rfl⟩ _
    · split
      · exact begins_signed ⟨0x30, by decide, rfl⟩ _
      · rename_i hdigits
        exact begins_signed (begins_writtenDecimal (withoutTrailingZeros_ne_nil hdigits)
          fun c => isDigit_of_mem_withoutTrailingZeros) _

theorem begins_plainDate (y m d : Nat) : Begins (Text.ofString (plainDate y m d)) := by
  unfold plainDate
  simp only [String.append_assoc]
  exact (begins_padded 4 y).appendString _

/-- What is printed for a value that is no text begins with one of few code points. -/
theorem begins_plain {v : Value} (h : ∀ t, v ≠ .text t) : Begins v.plain := by
  cases v with
  | null => exact ⟨0x4E, by decide, rfl⟩
  | bool b =>
    cases b
    · exact ⟨0x46, by decide, rfl⟩
    · exact ⟨0x54, by decide, rfl⟩
  | int n => exact begins_ofInt n
  | float x => exact begins_writtenFloat x
  | text t => exact absurd rfl (h t)
  | bytes bs => exact ⟨0x62, by decide, rfl⟩
  | date y m d => exact begins_plainDate y m d
  | instant y m d clock =>
    rw [plain, String.append_assoc]
    exact (begins_plainDate y m d).appendString _
  | list items label =>
    change Begins (writtenIn [] (.list items label))
    rw [writtenIn]
    split <;> exact ⟨0x5B, by decide, rfl⟩
  | tuple items =>
    cases items with
    | nil => exact ⟨0x28, by decide, rfl⟩
    | cons v vs => cases vs <;> exact ⟨0x28, by decide, rfl⟩
  | set members =>
    cases members
    · exact ⟨0x73, by decide, rfl⟩
    · exact ⟨0x7B, by decide, rfl⟩
  | map entries label =>
    change Begins (writtenIn [] (.map entries label))
    rw [writtenIn]
    split <;> exact ⟨0x7B, by decide, rfl⟩
  | loop isMap label =>
    cases isMap
    · exact ⟨0x5B, by decide, rfl⟩
    · exact ⟨0x7B, by decide, rfl⟩

end Value

/-! ## The severity of a value -/

namespace Severity

open CodePoint

variable {t : Text} {s : Severity} {v : Value}

theorem not_capitalizes_of_initial {c l : CodePoint} (hc : c ∈ Value.initials)
    (hl : (Text.ofString s.name).head? = some l) : ¬ c.Capitalizes l := by
  have hall : Value.initials.all fun c => (Text.ofString s.name).head?.all fun l =>
      ! decide (c.Capitalizes l) := by
    cases s <;> decide
  simpa [hl] using List.all_eq_true.1 hall c hc

theorem not_isBlank_of_initial {c : CodePoint} (hc : c ∈ Value.initials) : c.isBlank = false := by
  have hall : Value.initials.all fun c => ! c.isBlank := by
    decide
  simpa using List.all_eq_true.1 hall c hc

/-- What begins like a value that is no text spells no severity: it has no blanks before it, and its first
code point does not begin a name. -/
theorem not_spells_of_begins (h : Value.Begins t) : ¬ Spells t s := by
  obtain ⟨c, hc, hhead⟩ := h
  rintro ⟨hbefore, hword, -⟩
  rename_i before word after
  cases before with
  | cons b before =>
    obtain rfl : b = c := Option.some.inj hhead
    have hblank := hbefore b List.mem_cons_self
    rw [not_isBlank_of_initial hc] at hblank
    cases hblank
  | nil =>
    generalize hname : Text.ofString s.name = name at hword
    cases hword with
    | nil => cases s <;> cases hname
    | cons hl _ =>
      obtain rfl := Option.some.inj hhead
      exact not_capitalizes_of_initial hc (by rw [hname]; rfl) hl

theorem ofValue_eq_some_iff : ofValue v = some s ↔ ∃ t, v = .text t ∧ Spells t s := by
  rw [ofValue, ofName_lowered_eq_some_iff]
  constructor
  · intro h
    by_cases htext : ∃ t, v = .text t
    · obtain ⟨t, rfl⟩ := htext
      exact ⟨t, rfl, h⟩
    · have hbegins := Value.begins_plain fun t ht => htext ⟨t, ht⟩
      exact absurd h (not_spells_of_begins hbegins)
  · rintro ⟨t, rfl, h⟩
    exact h

end Severity

namespace Config

open Severity (Spells)

/-- A value names a severity exactly if it is a text that spells it: the name in any case of its letters,
with blanks around it. Every other value is refused. All of an accepted text is blank or in ASCII. -/
theorem accepts_severity_iff (v : Value) :
    (∀ s, severityOf v = .ok s ↔ ∃ t, v = .text t ∧ Spells t s) ∧
    (severityOf v = .error (.severity v) ↔ ¬ ∃ t s, v = .text t ∧ Spells t s) ∧
    ∀ t s, v = .text t → severityOf v = .ok s → ∀ c ∈ t, c.isBlank = true ∨ c.val < 0x80 := by
  have haccepts : ∀ s, severityOf v = .ok s ↔ ∃ t, v = .text t ∧ Spells t s := by
    intro s
    rw [severityOf_eq_ok_iff, Severity.ofValue_eq_some_iff]
  refine ⟨haccepts, ?_, ?_⟩
  · constructor
    · rintro herror ⟨t, s, ht, hs⟩
      rw [(haccepts s).2 ⟨t, ht, hs⟩] at herror
      cases herror
    · intro hnone
      cases hs : Severity.ofValue v with
      | none => rw [severityOf, hs]
      | some s =>
        obtain ⟨t, ht, hspells⟩ := Severity.ofValue_eq_some_iff.1 hs
        exact absurd ⟨t, s, ht, hspells⟩ hnone
  · rintro t s rfl hs c hc
    obtain ⟨u, hu, hspells⟩ := (haccepts s).1 hs
    obtain rfl := Value.text.inj hu
    exact hspells.isBlank_or_ascii hc

/-- Blanks and capitals are accepted, and the dotted capital I is not. -/
theorem accepts_severity_shouted : severityOf (.text "\u00A0WaRNing\n") = .ok .warning ∧
    severityOf (.text "WARNİNG") = .error (.severity (.text "WARNİNG")) := by
  constructor
  · have hspells : Spells ([0xA0] ++ Text.ofString "WaRNing" ++ [0x0A]) .warning :=
      .mk (List.forall_mem_singleton.2 rfl) (by decide) (List.forall_mem_singleton.2 rfl)
    exact ((accepts_severity_iff _).1 _).2 ⟨_, rfl, hspells⟩
  · refine (accepts_severity_iff _).2.1.2 ?_
    rintro ⟨t, s, ht, hspells⟩
    obtain rfl := Value.text.inj ht
    have hdotted := hspells.isBlank_or_ascii (c := 0x130) (by decide)
    exact absurd hdotted (by decide)

end Config

end LazyLint
