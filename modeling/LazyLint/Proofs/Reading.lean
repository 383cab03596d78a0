import Mathlib
import LazyLint.Proofs.Faults
import LazyLint.Proofs.Shape
import LazyLint.Proofs.Utf8
import LazyLint.Script.Source

/-!
# What a parser keeps

A parser goes from a place in the source to a later one and makes nodes on its way. Two things are
kept by all of them. A cursor stands between two characters of the source, at the byte that its offset
says (`Reached`), and a node of the kind of an escape covers an escape of the grammar (`Faithful`).
`Reads src p Q` is the triple that says so of a parser and adds what holds of its result. The parsers
here are the ones that look at the text; the rules of the grammar are made of them.
-/

set_option mvcgen.warning false

namespace LazyLint.Script

open Cst (Node Head)
open Std.Do

/-! ## The logic of parsers -/

/-- A parser, then one that its result chooses, as one case split. -/
theorem bind_apply {α β : Type} (p : Parser α) (f : α → Parser β) (c : Cursor) :
    (p >>= f) c = match p c with
      | .ok a d => f a d
      | .fail e => .fail e := rfl

theorem bind_eq_ok_iff {α β : Type} {p : Parser α} {f : α → Parser β} {c d : Cursor} {b : β} :
    (p >>= f) c = .ok b d ↔ ∃ a e, p c = .ok a e ∧ f a e = .ok b d := by
  rw [bind_apply]
  cases p c with
  | ok a e => simp
  | fail e => simp

instance : LawfulMonad Parser :=
  LawfulMonad.mk' Parser
    (fun p => by
      funext c
      change (p >>= fun a => pure a) c = p c
      rw [bind_apply]
      cases p c <;> rfl)
    (fun _ _ => rfl)
    (fun p f g => by
      funext c
      simp only [bind_apply]
      cases p c <;> rfl)

instance : WP Parser (.arg Cursor (.except Fault .pure)) where
  wp p :=
    { trans := fun Q c =>
        match p c with
        | .ok a d => Q.1 a d
        | .fail e => Q.2.1 e
      conjunctiveRaw := by
        intro _ _
        apply SPred.bientails.of_eq
        ext c
        dsimp
        cases p c
        · simp
        · simp
          rfl }

instance : WPMonad Parser (.arg Cursor (.except Fault .pure)) where
  wp_pure _ := rfl
  wp_bind p f := by
    ext Q c
    simp only [WP.wp, PredTrans.apply_Bind_bind]
    simp only [PredTrans.apply, bind_apply]
    cases p c <;> rfl

/-! ## Nodes -/

section Nodes

variable {src : List UInt8} {n : Node} {ns : List Node} {kind : String}

/-- A node covers an escape of the grammar. -/
def CoversEscape (src : List UInt8) (n : Node) : Prop :=
  ∃ cs, Escape.Token cs ∧ n.text src = Escape.written cs

/-- The escapes of a tree are escapes of the grammar. -/
def Faithful (src : List UInt8) (root : Node) : Prop :=
  ∀ n ∈ root.nodes, n.kind = "escape_sequence" → CoversEscape src n

/-- The escapes of some trees are escapes of the grammar. -/
abbrev AllFaithful (src : List UInt8) (ns : List Node) : Prop :=
  ∀ n ∈ ns, Faithful src n

theorem faithful_iff : Faithful src n ↔
    (n.kind = "escape_sequence" → CoversEscape src n) ∧ AllFaithful src n.children := by
  unfold AllFaithful Faithful
  rw [Cst.Node.nodes_eq]
  simp only [List.forall_mem_cons, Cst.nodesAmong_eq, List.forall_mem_flatMap]

@[grind =]
theorem faithful_mk {h : Head} (hkind : h.kind ≠ "escape_sequence") :
    Faithful src (.mk h ns) ↔ AllFaithful src ns := by
  rw [faithful_iff]
  exact and_iff_right fun hk => absurd hk hkind

@[grind =]
theorem faithful_withField (field : String) : Faithful src (n.withField field) ↔ Faithful src n := by
  rw [faithful_iff, faithful_iff (n := n)]
  rfl

@[grind =]
theorem faithful_recast (hkind : kind ≠ "escape_sequence") :
    Faithful src (n.recast kind ns) ↔ AllFaithful src ns :=
  faithful_mk hkind

@[grind =]
theorem faithful_spanning (hkind : kind ≠ "escape_sequence") (first last : Node) :
    Faithful src (spanning kind first last ns) ↔ AllFaithful src ns :=
  faithful_mk hkind

@[grind →]
theorem allFaithful_children (h : Faithful src n) : AllFaithful src n.children :=
  (faithful_iff.1 h).2

end Nodes

/-! ## Places -/

section Places

variable {src : List UInt8} {c : Cursor}

/-- A cursor stands between two characters of the source, at the byte that its offset says; the
comments that it holds are no escapes. -/
structure Reached (src : List UInt8) (c : Cursor) : Prop where
  place : ∃ before, src = Utf8.encode (before ++ c.rest) ∧ c.offset = (Utf8.encode before).length
  comments : AllFaithful src c.comments

theorem reached_ofChars (cs : List Char) : Reached (Utf8.encode cs) (Cursor.ofChars cs) where
  place := ⟨[], rfl, rfl⟩
  comments := List.forall_mem_nil _

/-- What a cursor says of the last token and of what is still open has no part in where it stands. -/
theorem Reached.of_eq {d : Cursor} (h : Reached src c) (hrest : d.rest = c.rest)
    (hoffset : d.offset = c.offset) (hcomments : d.comments = c.comments) : Reached src d where
  place := by
    rw [hrest, hoffset]
    exact h.place
  comments := by
    rw [hcomments]
    exact h.comments

@[grind =]
theorem reached_close : Reached src c.close ↔ Reached src c :=
  ⟨fun h => h.of_eq rfl rfl rfl, fun h => h.of_eq rfl rfl rfl⟩

theorem reached_tokenEnd (x : Nat) : Reached src { c with tokenEnd := x } ↔ Reached src c :=
  ⟨fun h => h.of_eq rfl rfl rfl, fun h => h.of_eq rfl rfl rfl⟩

@[grind =]
theorem reached_cover (x : Option Fault) : Reached src { c with cover := x } ↔ Reached src c :=
  ⟨fun h => h.of_eq rfl rfl rfl, fun h => h.of_eq rfl rfl rfl⟩

@[grind =]
theorem reached_awaitName (x : Option Nat) :
    Reached src { c with awaitName := x } ↔ Reached src c :=
  ⟨fun h => h.of_eq rfl rfl rfl, fun h => h.of_eq rfl rfl rfl⟩

@[grind ←]
theorem reached_advance (h : Reached src c) : Reached src c.advance := by
  obtain ⟨before, hsrc, hoffset⟩ := h.place
  unfold Cursor.advance
  cases hrest : c.rest with
  | nil => exact h
  | cons ch rest =>
    refine ⟨⟨before ++ [ch], ?_, ?_⟩, h.comments⟩
    · rw [hsrc, hrest, List.append_assoc]
      rfl
    · simp [hoffset, Utf8.encode]

@[grind ←]
theorem reached_skip (n : Nat) (h : Reached src c) : Reached src (c.skip n) := by
  induction n generalizing c with
  | zero => exact h
  | succ n ih => exact ih (reached_advance h)

theorem reached_pastMarkupComment (n : Nat) (h : Reached src c) :
    Reached src (c.pastMarkupComment n) := by
  have hd := reached_skip (n + markupCommentLength (c.rest.drop n)) h
  refine ⟨hd.place, ?_⟩
  simp only [Cursor.pastMarkupComment, AllFaithful, List.forall_mem_cons]
  refine ⟨?_, hd.comments⟩
  rw [faithful_mk (by simp)]
  exact List.forall_mem_nil _

theorem reached_triviaLoop (markup : Bool) (fuel : Nat) (h : Reached src c) :
    Reached src (c.triviaLoop markup fuel) := by
  fun_induction Cursor.triviaLoop markup fuel c <;>
    grind [reached_pastMarkupComment]

@[grind ←]
theorem reached_trivia (h : Reached src c) : Reached src c.trivia :=
  reached_triviaLoop false c.left h

@[grind ←]
theorem reached_triviaBefore (h : Reached src c) : Reached src c.triviaBefore :=
  reached_triviaLoop true c.left h

end Places

/-! ## Parsers -/

section Parsers

variable {src : List UInt8} {α : Type}

/-- A parser goes from place to place of the source, and `Q` holds of what it reads. -/
abbrev Reads (src : List UInt8) (p : Parser α) (Q : α → Prop) : Prop :=
  ⦃fun c => ⌜Reached src c⌝⦄ p ⦃⇓? a d => ⌜Reached src d ∧ Q a⌝⦄

theorem reads_iff {p : Parser α} {Q : α → Prop} :
    Reads src p Q ↔ ∀ c a d, Reached src c → p c = .ok a d → Reached src d ∧ Q a := by
  constructor
  · intro h c a d hc hp
    have h := h c hc
    simp only [WP.wp, PredTrans.apply, hp] at h
    exact h
  · intro h c hc
    simp only [WP.wp, PredTrans.apply]
    cases hp : p c with
    | ok a d => exact h c a d hc hp
    | fail e => trivial

theorem reads_bind {β : Type} {p : Parser α} {f : α → Parser β} {Q : α → Prop} {R : β → Prop}
    (hp : Reads src p Q) (hf : ∀ a, Q a → Reads src (f a) R) : Reads src (p >>= f) R := by
  rw [reads_iff] at hp ⊢
  intro c b d hc h
  obtain ⟨a, e, ha, hb⟩ := bind_eq_ok_iff.1 h
  obtain ⟨he, hQ⟩ := hp c a e hc ha
  exact reads_iff.1 (hf a hQ) e b d he hb

@[spec]
theorem reads_here : Reads src Parser.here (Reached src) := by
  rw [reads_iff]
  rintro c _ _ hc ⟨⟩
  exact ⟨hc, hc⟩

@[spec]
theorem reads_goto {d : Cursor} (hd : Reached src d) : Reads src (Parser.goto d) fun _ => True := by
  rw [reads_iff]
  rintro c _ _ hc ⟨⟩
  exact ⟨hd, trivial⟩

/-- A parser that only stops comes to no result, whatever the place. -/
abbrev Fails (p : Parser α) : Prop :=
  ⦃⌜True⌝⦄ p ⦃⇓? _ => ⌜False⌝⦄

@[spec]
theorem fails_stop {e : Fault} : Fails (Parser.stop e : Parser α) :=
  fun _ _ => trivial

@[spec]
theorem fails_unexpected : Fails (unexpected : Parser α) :=
  fun _ _ => trivial

@[spec]
theorem fails_refuse {n : Node} : Fails (refuse n : Parser α) :=
  fun _ _ => trivial

@[spec]
theorem reads_orElse {p q : Parser α} {Q : α → Prop} (hp : Reads src p Q) (hq : Reads src q Q) :
    Reads src (Parser.orElse p q) Q := by
  rw [reads_iff] at hp hq ⊢
  intro c a d hc h
  unfold Parser.orElse at h
  split at h
  · rename_i hok
    cases h
    exact hp c _ _ hc hok
  · split at h
    · rename_i hok
      cases h
      exact hq c _ _ hc hok
    · cases h

@[spec]
theorem reads_nextStart : Reads src nextStart (Reached src) := by
  rw [reads_iff]
  rintro c _ _ hc ⟨⟩
  exact ⟨reached_triviaBefore hc, reached_triviaBefore hc⟩

/-! ### Tokens -/

/-- Where a parser of a token ends: past the blanks and comments and some characters. -/
theorem reads_token {p : Parser α}
    (h : ∀ c a d, p c = .ok a d → d = c ∨ ∃ n, d = (c.trivia.skip n).close) :
    Reads src p fun _ => True := by
  rw [reads_iff]
  intro c a d hc hp
  obtain rfl | ⟨n, rfl⟩ := h c a d hp
  · exact ⟨hc, trivial⟩
  · exact ⟨reached_close.2 (reached_skip n (reached_trivia hc)), trivial⟩

@[spec]
theorem reads_peek : Reads src peek fun _ => True :=
  reads_token fun _ _ _ h => by
    cases h
    exact .inl rfl

@[spec]
theorem reads_peekBefore : Reads src peekBefore fun _ => True :=
  reads_token fun _ _ _ h => by
    cases h
    exact .inl rfl

@[spec]
theorem reads_mayEnd (operand : Bool) : Reads src (mayEnd operand) fun _ => True :=
  reads_token fun _ _ _ h => by
    cases h
    exact .inl rfl

@[spec]
theorem reads_take (n : Nat) : Reads src (take n) fun _ => True :=
  reads_token fun _ _ _ h => by
    cases h
    exact .inr ⟨n, rfl⟩

@[spec]
theorem reads_mark (m : String) : Reads src (mark m) fun _ => True :=
  reads_token fun _ _ _ h => by
    unfold mark at h
    dsimp only at h
    split at h <;> cases h
    exact .inr ⟨_, rfl⟩

@[spec]
theorem reads_mark? (m : String) : Reads src (mark? m) fun _ => True :=
  reads_token fun _ _ _ h => by
    unfold mark? at h
    dsimp only at h
    split at h <;> cases h
    · exact .inr ⟨_, rfl⟩
    · exact .inl rfl

@[spec]
theorem reads_word (w : String) : Reads src (word w) fun _ => True :=
  reads_token fun _ _ _ h => by
    unfold word at h
    dsimp only at h
    split at h <;> cases h
    exact .inr ⟨_, rfl⟩

@[spec]
theorem reads_word? (w : String) : Reads src (word? w) fun _ => True :=
  reads_token fun _ _ _ h => by
    unfold word? at h
    dsimp only at h
    split at h <;> cases h
    · exact .inr ⟨_, rfl⟩
    · exact .inl rfl

@[spec]
theorem reads_isModifier (w : String) (lines star : Bool) :
    Reads src (isModifier w lines star) fun _ => True :=
  reads_token fun _ _ _ h => by
    unfold isModifier at h
    dsimp only at h
    split at h <;> cases h <;> exact .inl rfl

@[spec]
theorem reads_semicolon (operand : Bool) : Reads src (semicolon operand) fun _ => True := by
  rw [reads_iff]
  intro c a d hc h
  unfold semicolon at h
  split at h
  · cases h
    exact ⟨hc, trivial⟩
  · exact reads_iff.1 (reads_mark ";") c a d hc h

/-! ### Leaves -/

section Leaves

variable {kind : String} (hkind : kind ≠ "escape_sequence")
include hkind

@[spec]
theorem reads_node {at_ : Cursor} {ns : List Node} (h : AllFaithful src ns) :
    Reads src (node kind at_ ns) (Faithful src) := by
  rw [reads_iff]
  rintro c _ _ hc ⟨⟩
  exact ⟨hc, (faithful_mk hkind).2 h⟩

@[spec]
theorem reads_nodeFrom {first : Node} {ns : List Node} (h : AllFaithful src ns) :
    Reads src (nodeFrom kind first ns) (Faithful src) := by
  rw [reads_iff]
  rintro c _ _ hc ⟨⟩
  exact ⟨hc, (faithful_mk hkind).2 h⟩

/-- A parser of a leaf: past the blanks and comments and some characters, with a node for them. -/
theorem reads_leafToken {p : Parser Node}
    (h : ∀ c a d, p c = .ok a d → ∃ n, node kind c.trivia [] (c.trivia.skip n).close = .ok a d) :
    Reads src p (Faithful src) := by
  rw [reads_iff]
  intro c a d hc hp
  obtain ⟨n, hn⟩ := h c a d hp
  cases hn
  exact ⟨reached_close.2 (reached_skip n (reached_trivia hc)),
    (faithful_mk hkind).2 (List.forall_mem_nil _)⟩

@[spec]
theorem reads_anyWord : Reads src (anyWord kind) (Faithful src) :=
  reads_leafToken hkind fun _ _ _ h => by
    unfold anyWord at h
    dsimp only at h
    split at h
    · exact ⟨_, h⟩
    · cases h

@[spec]
theorem reads_name : Reads src (name kind) (Faithful src) :=
  reads_leafToken hkind fun _ _ _ h => by
    unfold name at h
    dsimp only at h
    split at h
    · split at h
      · cases h
      · exact ⟨_, h⟩
    · cases h

@[spec]
theorem reads_markupName (reservedToo : Bool) :
    Reads src (markupName kind reservedToo) (Faithful src) :=
  reads_leafToken hkind fun _ _ _ h => by
    unfold markupName at h
    dsimp only at h
    split at h
    · split at h
      · split at h
        · cases h
        · exact ⟨_, h⟩
      · exact ⟨_, h⟩
    · cases h

@[spec]
theorem reads_leaf (n : Nat) : Reads src (leaf kind n) (Faithful src) := by
  rw [reads_iff]
  rintro c _ _ hc ⟨⟩
  exact ⟨reached_close.2 (reached_skip n hc), (faithful_mk hkind).2 (List.forall_mem_nil _)⟩

end Leaves

@[spec]
theorem reads_number : Reads src number (Faithful src) :=
  reads_leafToken (show "number" ≠ "escape_sequence" by decide) fun _ _ _ h => by
    unfold number at h
    dsimp only at h
    split at h
    · cases h
    · exact ⟨_, h⟩

/-! ### Strings -/

theorem offset_skip (n : Nat) (c : Cursor) :
    (c.skip n).offset = c.offset + (Utf8.encode (c.rest.take n)).length := by
  induction n generalizing c with
  | zero => simp [Cursor.skip, Utf8.encode]
  | succ n ih =>
    rw [Cursor.skip, ih, Cursor.advance]
    cases hrest : c.rest <;> simp [hrest, Utf8.encode, Nat.add_assoc]

/-- The text between a place and one further on. -/
theorem text_skip {c : Cursor} (h : Reached src c) (n : Nat) :
    Utf8.text src c.offset (c.skip n).offset = Text.ofChars (c.rest.take n) := by
  obtain ⟨before, hsrc, hoffset⟩ := h.place
  have hsplit : before ++ c.rest = before ++ c.rest.take n ++ c.rest.drop n := by
    rw [List.append_assoc, List.take_append_drop]
  rw [offset_skip, hoffset, ← List.length_append, ← Utf8.encode_append, hsrc, hsplit, Utf8.text_encode]

/-- At a backslash, the node of an escape covers one that the grammar knows. -/
theorem escape_faithful {c d : Cursor} {n : Node} {cs : List Char} (hc : Reached src c)
    (hrest : c.rest = '\\' :: cs) (h : escape c = .ok n d) : Reached src d ∧ Faithful src n := by
  unfold escape at h
  split at h
  · rename_i k hk
    rw [hrest, List.drop_succ_cons, List.drop_zero] at hk
    have htext := text_skip hc (k + 1)
    rw [hrest, List.take_succ_cons] at htext
    cases h
    refine ⟨reached_close.2 (reached_skip _ hc), faithful_iff.2 ⟨fun _ => ?_, List.forall_mem_nil _⟩⟩
    exact ⟨cs.take k, Escape.token_of_escapeLength hk, htext⟩
  · cases h

@[spec]
theorem reads_closeBroken {q : Char} {acc : List Node} (h : AllFaithful src acc) :
    Reads src (closeBroken q acc) (AllFaithful src) := by
  rw [reads_iff]
  intro c ns d hc hp
  have ht := reached_trivia hc
  unfold closeBroken at hp
  dsimp only at hp
  split at hp
  · cases hp
    exact ⟨reached_close.2 (reached_advance ht), h⟩
  · split at hp
    · cases hp
      refine ⟨reached_close.2 (reached_advance (reached_skip _ ht)), ?_⟩
      grind
    · cases hp

@[spec]
theorem reads_stringPieces {q : Char} {fuel : Nat} {acc : List Node} (h : AllFaithful src acc) :
    Reads src (stringPieces q fuel acc) (AllFaithful src) := by
  rw [reads_iff]
  induction fuel generalizing acc with
  | zero =>
    rintro c ns d _ ⟨⟩
  | succ fuel ih =>
    intro c ns d hc hp
    unfold stringPieces at hp
    split at hp
    · cases hp
    · rename_i ch cs hrest
      split at hp
      · cases hp
        exact ⟨reached_close.2 (reached_advance hc), h⟩
      · split at hp
        · rename_i hch
          obtain ⟨e, c', he, hp⟩ := bind_eq_ok_iff.1 hp
          obtain ⟨hc', he⟩ := escape_faithful hc (hch ▸ hrest) he
          exact ih (List.forall_mem_cons.2 ⟨he, h⟩) _ _ _ hc' hp
        · split at hp
          · exact reads_iff.1 (reads_closeBroken h) _ _ _ hc hp
          · obtain ⟨e, c', he, hp⟩ := bind_eq_ok_iff.1 hp
            obtain ⟨hc', he⟩ := reads_iff.1 (reads_leaf (by decide) _) _ _ _ hc he
            exact ih (List.forall_mem_cons.2 ⟨he, h⟩) _ _ _ hc' hp

@[spec]
theorem reads_stringLiteral : Reads src stringLiteral (Faithful src) := by
  mvcgen [stringLiteral]
  all_goals grind

end Parsers

end LazyLint.Script
