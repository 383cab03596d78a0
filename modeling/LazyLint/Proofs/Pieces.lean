import LazyLint.Proofs.Faults
import LazyLint.Proofs.Shape
import LazyLint.Proofs.Utf8

/-!
# The pieces of a string literal

A string literal is written as pieces, text and escapes in any order, and read by byte offsets: the
text between two escapes is a slice of bytes, and so is each escape. The two views are joined by the
list of these slices. What a literal stands for depends on the slices only (`stringPieces_eq`), and the
slices of a literal are the bytes of its pieces, the text between two escapes in one slice
(`slicesAt_eq`). The invariant of the latter is that reading stands between two characters: it has come
past some text, and the text that it has not decoded yet begins where it stands.

`stringValue_eq_pieces` draws from this that the value is made of the pieces one by one.
-/

namespace LazyLint.Cst

/-! ## Literals -/

/-- A piece of a string literal as it stands in a source. -/
inductive Piece where
  /-- Text that stands for itself. -/
  | plain (cs : List Char)
  /-- An escape, its backslash included. -/
  | escape (cs : List Char)

namespace Piece

/-- The characters of a piece. -/
def chars : Piece → List Char
  | .plain cs => cs
  | .escape cs => cs

/-- What a piece stands for. -/
def value : Piece → Except Escape.Fault Text
  | .plain cs => .ok (Text.ofChars cs)
  | .escape cs => Escape.decode (Text.ofChars cs)

end Piece

/-- The bytes that the escapes among some pieces take, if the first piece starts at a byte. -/
def escapeSpans : Nat → List Piece → List (Nat × Nat)
  | _, [] => []
  | start, .plain cs :: ps => escapeSpans (start + (Utf8.encode cs).length) ps
  | start, .escape cs :: ps =>
    (start, start + (Utf8.encode cs).length) ::
      escapeSpans (start + (Utf8.encode cs).length) ps

/-- A string literal somewhere in a source. -/
structure Literal where
  before : List Char := []
  opening : Char
  pieces : List Piece
  closing : Char
  after : List Char := []
  /-- A quote takes one byte. -/
  opening_size : opening.utf8Size = 1 := by rfl
  closing_size : closing.utf8Size = 1 := by rfl

namespace Literal

/-- The characters between the quotes. -/
def body (l : Literal) : List Char :=
  l.pieces.flatMap Piece.chars

/-- The whole source. -/
def source (l : Literal) : List Char :=
  l.before ++ l.opening :: (l.body ++ l.closing :: l.after)

end Literal

/-- A node stands where the literal stands, and the escapes among its children where the literal has
escapes. -/
structure Node.Covers (n : Node) (l : Literal) : Prop where
  start : n.start = (Utf8.encode l.before).length
  stop : n.stop = n.start + 1 + (Utf8.encode l.body).length + 1
  escapes : (n.children.filter Node.isEscape).map Node.span = escapeSpans (n.start + 1) l.pieces

/-! ## Slices -/

/-- The slices that are decoded from a byte on: the text before each escape, the escape, and the text
after the last one. -/
def slicesAt (src : List UInt8) (stop : Int) : Nat → List (Nat × Nat) → List (List UInt8)
  | pos, [] => [Utf8.slice src pos stop]
  | pos, (start, next) :: spans =>
    Utf8.slice src pos start :: Utf8.slice src start next :: slicesAt src stop next spans

/-- The slices that are decoded for a string literal. -/
def Node.slices (src : List UInt8) (n : Node) : List (List UInt8) :=
  slicesAt src ((n.stop : Int) - 1) (n.start + 1) ((n.children.filter Node.isEscape).map Node.span)

/-- What slices stand for, text and escapes by turns. -/
def joined : List (List UInt8) → Except Escape.Fault Text
  | [] => .ok []
  | [text] => .ok (Text.ofChars (Utf8.decode text))
  | text :: escape :: rest => do
    let value ← Escape.decode (Text.ofChars (Utf8.decode escape))
    return Text.ofChars (Utf8.decode text) ++ value ++ (← joined rest)

/-- A literal is read from the slices that its escapes cut it into; its other children do not count. -/
theorem stringPieces_eq (src : List UInt8) (stop : Int) (pos : Nat) (ns : List Node) :
    stringPieces src stop pos ns =
      joined (slicesAt src stop pos ((ns.filter Node.isEscape).map Node.span)) := by
  induction ns generalizing pos with
  | nil => rfl
  | cons n ns ih =>
    by_cases hn : n.isEscape = true
    · rw [stringPieces_cons_escape src hn, List.filter_cons_of_pos hn, List.map_cons, ih]
      rfl
    · rw [stringPieces_cons_other src hn, List.filter_cons_of_neg hn, ih]

theorem stringValue_eq_joined (src : List UInt8) (n : Node) :
    stringValue src n = joined (n.slices src) :=
  stringPieces_eq ..

/-! ## Pieces in turns -/

/-- Text and escapes by turns, after text that is still to be followed by the first pieces: pieces of
text that lie side by side are one text, and between two escapes there is an empty one. -/
def turns : List Char → List Piece → List (List Char)
  | pending, [] => [pending]
  | pending, .plain cs :: ps => turns (pending ++ cs) ps
  | pending, .escape cs :: ps => pending :: cs :: turns [] ps

theorem flatten_turns (pending : List Char) (ps : List Piece) :
    (turns pending ps).flatten = pending ++ ps.flatMap Piece.chars := by
  induction ps generalizing pending with
  | nil => simp [turns]
  | cons p ps ih =>
    cases p with
    | plain cs => rw [turns, ih, List.flatMap_cons, Piece.chars, List.append_assoc]
    | escape cs =>
      rw [turns, List.flatten_cons, List.flatten_cons, ih, List.flatMap_cons, Piece.chars,
        List.nil_append]

/-- What the pieces stand for does not depend on how the text among them is divided. -/
theorem joined_turns (pending : List Char) (ps : List Piece) :
    joined ((turns pending ps).map Utf8.encode) =
      (ps.mapM Piece.value).map fun values => Text.ofChars pending ++ values.flatten := by
  induction ps generalizing pending with
  | nil =>
    rw [turns, List.map_singleton, joined, Utf8.decode_encode, List.mapM_nil]
    simp [pure, Except.pure, Except.map]
  | cons p ps ih =>
    rw [List.mapM_cons]
    cases p with
    | plain cs =>
      have happend : Text.ofChars (pending ++ cs) = Text.ofChars pending ++ Text.ofChars cs :=
        List.map_append
      rw [turns, ih, happend, Piece.value]
      cases ps.mapM Piece.value with
      | error f => rfl
      | ok values => simp [bind, Except.bind, pure, Except.pure, Except.map]
    | escape cs =>
      rw [turns, List.map_cons, List.map_cons, joined, Utf8.decode_encode, Utf8.decode_encode, ih,
        Piece.value]
      cases Escape.decode (Text.ofChars cs) with
      | error f => rfl
      | ok value =>
        cases ps.mapM Piece.value with
        | error f => rfl
        | ok values => simp [bind, Except.bind, pure, Except.pure, Except.map, Text.ofChars]

/-! ## The slices of a literal -/

/-- Reading stands after some text, with text before the next piece that is not decoded yet. -/
theorem slicesAt_eq (before pending after : List Char) (ps : List Piece) :
    slicesAt (Utf8.encode (before ++ pending ++ ps.flatMap Piece.chars ++ after))
        (Utf8.encode (before ++ pending ++ ps.flatMap Piece.chars)).length
        (Utf8.encode before).length
        (escapeSpans (Utf8.encode (before ++ pending)).length ps) =
      (turns pending ps).map Utf8.encode := by
  induction ps generalizing before pending with
  | nil =>
    rw [escapeSpans, slicesAt, turns, List.flatMap_nil, List.append_nil, Utf8.slice_encode]
    rfl
  | cons p ps ih =>
    cases p with
    | plain cs =>
      have hstart : (Utf8.encode (before ++ pending)).length + (Utf8.encode cs).length =
          (Utf8.encode (before ++ (pending ++ cs))).length := by
        rw [← List.append_assoc, Utf8.encode_append _ cs, List.length_append]
      have hrest := ih before (pending ++ cs)
      simp only [List.append_assoc] at hrest
      rw [escapeSpans, hstart, turns, List.flatMap_cons, Piece.chars]
      simp only [List.append_assoc, hrest]
    | escape cs =>
      have hstop : (Utf8.encode (before ++ pending)).length + (Utf8.encode cs).length =
          (Utf8.encode (before ++ pending ++ cs)).length := by
        rw [Utf8.encode_append _ cs, List.length_append]
      have hrest := ih (before ++ pending ++ cs) []
      have htext := Utf8.slice_encode before pending (cs ++ (ps.flatMap Piece.chars ++ after))
      have hescape := Utf8.slice_encode (before ++ pending) cs (ps.flatMap Piece.chars ++ after)
      simp only [List.append_nil, List.append_assoc] at hrest htext hescape
      rw [escapeSpans, hstop, turns, List.flatMap_cons, Piece.chars]
      simp only [slicesAt, List.append_assoc, htext, hescape, hrest, List.map_cons]

theorem slices_eq {n : Node} {l : Literal} (h : n.Covers l) :
    n.slices (Utf8.encode l.source) = (turns [] l.pieces).map Utf8.encode := by
  have hsize : ∀ c : Char, c.utf8Size = 1 → (Utf8.encode [c]).length = 1 := by
    intro c hc
    rw [Utf8.encode, List.flatMap_singleton, String.length_utf8EncodeChar, hc]
  have hstart : n.start + 1 = (Utf8.encode (l.before ++ [l.opening])).length := by
    rw [Utf8.encode_append, List.length_append, hsize _ l.opening_size, h.start]
  have hstop : (n.stop : Int) - 1 =
      (Utf8.encode (l.before ++ [l.opening] ++ l.pieces.flatMap Piece.chars)).length := by
    rw [Utf8.encode_append _ (l.pieces.flatMap Piece.chars), List.length_append, ← hstart, h.stop,
      Literal.body]
    omega
  have hsource : l.source =
      l.before ++ [l.opening] ++ l.pieces.flatMap Piece.chars ++ l.closing :: l.after := by
    simp [Literal.source, Literal.body]
  have hslices := slicesAt_eq (l.before ++ [l.opening]) [] (l.closing :: l.after) l.pieces
  rw [List.append_nil] at hslices
  rw [Node.slices, h.escapes, hstop, hstart, hsource, hslices]

/-- The value of a string literal is what its pieces stand for, one after the other: text for itself
and each escape for its value. It is made of slices that together are the bytes between the quotes, in
their order, and each of them is the UTF-8 form of some text, so that nothing is lost, read twice or
replaced. There is no value only where some escape has none. -/
theorem stringValue_eq_pieces {n : Node} {l : Literal} (h : n.Covers l) :
    stringValue (Utf8.encode l.source) n = (l.pieces.mapM Piece.value).map List.flatten ∧
    (stringValue (Utf8.encode l.source) n = joined (n.slices (Utf8.encode l.source)) ∧
      (n.slices (Utf8.encode l.source)).flatten = Utf8.encode l.body ∧
      ∀ s ∈ n.slices (Utf8.encode l.source), ∃ cs, s = Utf8.encode cs) ∧
    ∀ f, stringValue (Utf8.encode l.source) n = .error f →
      ∃ cs, Piece.escape cs ∈ l.pieces ∧ Escape.decode (Text.ofChars cs) = .error f := by
  have hvalue : stringValue (Utf8.encode l.source) n =
      (l.pieces.mapM Piece.value).map List.flatten := by
    rw [stringValue_eq_joined, slices_eq h, joined_turns]
    rfl
  refine ⟨hvalue, ⟨stringValue_eq_joined _ n, ?_, ?_⟩, ?_⟩
  · have hflatten : ∀ texts : List (List Char),
        (texts.map Utf8.encode).flatten = Utf8.encode texts.flatten := by
      intro texts
      rw [Utf8.encode, List.flatMap, List.map_flatten, List.flatten_flatten, List.map_map]
      rfl
    rw [slices_eq h, hflatten, flatten_turns, List.nil_append, Literal.body]
  · intro s hs
    rw [slices_eq h] at hs
    obtain ⟨cs, -, rfl⟩ := List.mem_map.1 hs
    exact ⟨cs, rfl⟩
  · intro f hf
    rw [hvalue, ← fault?_eq_some_iff, fault?_map, fault?_eq_some_iff] at hf
    obtain ⟨p, hp, hpf⟩ := exists_error_of_mapM hf
    cases p with
    | plain cs => cases hpf
    | escape cs => exact ⟨cs, hp, hpf⟩

/-! ### Escapes side by side, among text of several bytes a character -/

/-- Text that begins and ends with escapes and holds the character for what cannot be decoded. -/
def mixedLiteral : Literal where
  before := "é = f(".toList
  opening := '\''
  pieces :=
    [.escape "\\u\x7b01f600\x7d".toList, .escape "\\x70".toList, .plain "aé\ufffd".toList,
     .plain "😀".toList, .escape "\\\r\n".toList]
  closing := '\''
  after := ") // ü".toList

/-- The literal with a fragment between its escapes and a child that has no place in it. -/
def mixedLiteralNode : Node :=
  .mk { kind := "string", start := 7, stop := 36 }
    [.mk { kind := "comment", start := 0, stop := 3 } [],
     .mk { kind := "escape_sequence", start := 8, stop := 18 } [],
     .mk { kind := "escape_sequence", start := 18, stop := 22 } [],
     .mk { kind := "string_fragment", start := 22, stop := 32 } [],
     .mk { kind := "escape_sequence", start := 32, stop := 35 } []]

theorem stringValue_mixedLiteral :
    mixedLiteralNode.Covers mixedLiteral ∧
      stringValue (Utf8.encode mixedLiteral.source) mixedLiteralNode =
        .ok (Text.ofString "😀paé\ufffd😀") := by
  have hcovers : mixedLiteralNode.Covers mixedLiteral :=
    { start := by rfl, stop := by rfl, escapes := by rfl }
  refine ⟨hcovers, (stringValue_eq_pieces hcovers).1.trans ?_⟩
  rfl

end LazyLint.Cst
