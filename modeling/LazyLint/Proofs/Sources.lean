import Mathlib
import LazyLint.Proofs.Grammar

/-!
# What a source is read as

The rules for statements, and with them all rules: each level of nesting rests on the one below it
(`reads_ruleWithin`). So every escape of the tree that a source is read as is an escape of the grammar at
the bytes that its node covers (`read_faithful`).
-/

set_option mvcgen.warning false

namespace LazyLint.Script

open Cst (Node Head)
open Std.Do

/-! ## Names and specifiers of modules -/

section Leaves

variable {src : List UInt8}

@[spec]
theorem reads_moduleName : Reads src moduleName (AllFaithful src) := by
  mvcgen [moduleName]
  all_goals grind

@[spec]
theorem reads_exportSpecifier : Reads src exportSpecifier (Faithful src) := by
  mvcgen [exportSpecifier]
  all_goals grind

@[spec]
theorem reads_importSpecifier : Reads src importSpecifier (Faithful src) := by
  refine reads_bind reads_nextStart fun start _ => ?_
  refine reads_bind reads_moduleName fun first hfirst => ?_
  rcases first with _ | ⟨n, _ | ⟨m, ns⟩⟩
  all_goals
    mvcgen
    all_goals grind

@[spec]
theorem reads_specifiersLoop {item : Parser Node} (hitem : Reads src item (Faithful src))
    {fuel : Nat} {acc : List Node} (h : AllFaithful src acc) :
    Reads src (specifiersLoop item fuel acc) (AllFaithful src) := by
  induction fuel generalizing acc with
  | zero =>
    mvcgen [specifiersLoop]
    simp
  | succ fuel ih =>
    mvcgen [specifiersLoop, ih, hitem]
    all_goals grind

@[spec]
theorem reads_specifiers {kind : String} {item : Parser Node} (hkind : kind ≠ "escape_sequence")
    (hitem : Reads src item (Faithful src)) :
    Reads src (specifiers kind item) (Faithful src) := by
  mvcgen [specifiers]
  all_goals grind

@[spec]
theorem reads_fromClause : Reads src fromClause (Faithful src) := by
  mvcgen [fromClause]
  all_goals grind

@[spec]
theorem reads_namespaceImport : Reads src namespaceImport (Faithful src) := by
  mvcgen [namespaceImport]
  all_goals grind

@[spec]
theorem reads_importClause : Reads src importClause (Faithful src) := by
  mvcgen [importClause]
  all_goals grind

@[spec]
theorem reads_exportAllRest : Reads src exportAllRest (AllFaithful src) := by
  mvcgen [exportAllRest]
  all_goals grind

@[spec]
theorem reads_jumpStatement {keyword kind : String} (hkind : kind ≠ "escape_sequence") :
    Reads src (jumpStatement keyword kind) (Faithful src) := by
  mvcgen [jumpStatement]
  all_goals grind

end Leaves

section Rules

-- what the rules assume of the nested ones
variable {src : List UInt8} {sub : Sub} (hs : ∀ r, Reads src (sub r) (Faithful src))
include hs

/-! ## Declarations -/

@[spec]
theorem reads_bindingTarget : Reads src (bindingTarget sub) (Faithful src) := by
  mvcgen [bindingTarget, hs]
  all_goals grind

@[spec]
theorem reads_declarator (membership : Bool) :
    Reads src (declarator sub membership) (Faithful src) := by
  mvcgen [declarator, hs]
  all_goals grind

@[spec]
theorem reads_declaratorsLoop {fuel : Nat} {acc : List Node} (h : AllFaithful src acc) :
    Reads src (declaratorsLoop sub fuel acc) (AllFaithful src) := by
  induction fuel generalizing acc with
  | zero =>
    mvcgen [declaratorsLoop]
  | succ fuel ih =>
    mvcgen [declaratorsLoop, ih, hs]
    all_goals grind

@[spec]
theorem reads_declarationRest {kind : String} {start : Cursor} (hkind : kind ≠ "escape_sequence") :
    Reads src (declarationRest sub kind start) (Faithful src) := by
  refine reads_bind (reads_declarator hs true) fun first hfirst => ?_
  refine reads_bind (reads_declaratorsLoop hs (List.forall_mem_singleton.2 hfirst)) fun ds hds => ?_
  rw [reads_iff]
  rintro c a d hc h
  -- the node is made before its semicolon is read, and ends with it
  obtain ⟨n, _, hn, h⟩ := bind_eq_ok_iff.1 h
  cases hn
  refine reads_iff.1 ?_ _ _ _ hc h
  refine reads_bind (reads_semicolon _) fun _ _ => reads_bind reads_here fun e _ => ?_
  rw [reads_iff]
  rintro _ _ _ hc ⟨⟩
  exact ⟨hc, (faithful_mk hkind).2 fun m hm => hds m (List.mem_reverse.1 hm)⟩

@[spec]
theorem reads_declaration?_declared {start : Cursor} {skipAsync : Cursor → Cursor}
    (h : Reached src (skipAsync start)) :
    Reads src (declaration?.declared sub start skipAsync) fun n? => AllFaithful src n?.toList := by
  mvcgen [declaration?.declared, hs]
  all_goals grind

@[spec]
theorem reads_declaration? : Reads src (declaration? sub) fun n? => AllFaithful src n?.toList := by
  mvcgen [declaration?, hs]
  all_goals grind

/-! ## Modules -/

@[spec]
theorem reads_importAttributes : Reads src (importAttributes sub) (AllFaithful src) := by
  mvcgen [importAttributes, hs]
  all_goals grind

@[spec]
theorem reads_importStatement : Reads src (importStatement sub) (Faithful src) := by
  mvcgen [importStatement, hs]
  all_goals grind

@[spec]
theorem reads_exportDefaultRest : Reads src (exportDefaultRest sub) (Faithful src) := by
  mvcgen [exportDefaultRest, hs]
  all_goals grind

@[spec]
theorem reads_exportRest {start : Cursor} {notes : List Node} (hnotes : AllFaithful src notes) :
    Reads src (exportRest sub start notes) (Faithful src) := by
  mvcgen [exportRest, hs]
  all_goals grind

/-! ## Loops -/

@[spec]
theorem reads_eachRest {start : Cursor} {target : List Node} (h : AllFaithful src target) :
    Reads src (eachRest sub start target) (Faithful src) := by
  mvcgen [eachRest, hs]
  all_goals grind

@[spec]
theorem reads_eachDeclared (start : Cursor) (keyword : String) :
    Reads src (eachDeclared sub start keyword) (Faithful src) := by
  mvcgen [eachDeclared, hs]
  all_goals grind

@[spec]
theorem reads_eachAssigned (start : Cursor) :
    Reads src (eachAssigned sub start) (Faithful src) := by
  mvcgen [eachAssigned, hs]
  all_goals grind

@[spec]
theorem reads_conditionSlot : Reads src (conditionSlot sub) (Faithful src) := by
  mvcgen [conditionSlot, hs]
  all_goals grind

@[spec]
theorem reads_initialSlot_declared {keyword kind : String} {start : Cursor}
    (hkind : kind ≠ "escape_sequence") :
    Reads src (initialSlot.declared sub keyword kind start) (Faithful src) := by
  mvcgen [initialSlot.declared, hs]
  all_goals grind

@[spec]
theorem reads_initialSlot : Reads src (initialSlot sub) (Faithful src) := by
  mvcgen [initialSlot, hs]
  all_goals grind

@[spec]
theorem reads_countingRest (start : Cursor) :
    Reads src (countingRest sub start) (Faithful src) := by
  mvcgen [countingRest, hs]
  all_goals grind

@[spec]
theorem reads_forStatement : Reads src (forStatement sub) (Faithful src) := by
  mvcgen [forStatement, hs]
  all_goals grind

/-! ## Other statements -/

@[spec]
theorem reads_expressionStatement : Reads src (expressionStatement sub) (Faithful src) := by
  mvcgen [expressionStatement, hs]
  all_goals grind

@[spec]
theorem reads_braces : Reads src (braces sub) (Faithful src) := by
  mvcgen [braces, hs]

@[spec]
theorem reads_ifStatement : Reads src (ifStatement sub) (Faithful src) := by
  mvcgen [ifStatement, hs]
  all_goals grind

@[spec]
theorem reads_caseLoop {fuel : Nat} {acc : List Node} (h : AllFaithful src acc) :
    Reads src (caseLoop sub fuel acc) (AllFaithful src) := by
  induction fuel generalizing acc with
  | zero =>
    mvcgen [caseLoop]
    simp
  | succ fuel ih =>
    mvcgen [caseLoop, ih, hs]
    all_goals grind

@[spec]
theorem reads_casesLoop {fuel : Nat} {acc : List Node} (h : AllFaithful src acc) :
    Reads src (casesLoop sub fuel acc) (AllFaithful src) := by
  induction fuel generalizing acc with
  | zero =>
    mvcgen [casesLoop]
    simp
  | succ fuel ih =>
    mvcgen [casesLoop, ih, hs]
    all_goals grind

@[spec]
theorem reads_switchStatement : Reads src (switchStatement sub) (Faithful src) := by
  mvcgen [switchStatement, hs]
  all_goals grind

@[spec]
theorem reads_guarded {keyword kind : String} (hkind : kind ≠ "escape_sequence") :
    Reads src (guarded sub keyword kind) (Faithful src) := by
  mvcgen [guarded, hs]
  all_goals grind

@[spec]
theorem reads_doStatement : Reads src (doStatement sub) (Faithful src) := by
  mvcgen [doStatement, hs]
  all_goals grind

@[spec]
theorem reads_tryStatement : Reads src (tryStatement sub) (Faithful src) := by
  mvcgen [tryStatement, hs]
  all_goals grind

@[spec]
theorem reads_returnStatement : Reads src (returnStatement sub) (Faithful src) := by
  mvcgen [returnStatement, hs]
  all_goals grind

@[spec]
theorem reads_throwStatement : Reads src (throwStatement sub) (Faithful src) := by
  mvcgen [throwStatement, hs]
  all_goals grind

@[spec]
theorem reads_labeledStatement : Reads src (labeledStatement sub) (Faithful src) := by
  mvcgen [labeledStatement, hs]
  all_goals grind

@[spec]
theorem reads_declarationOrExpression : Reads src (declarationOrExpression sub) (Faithful src) := by
  mvcgen [declarationOrExpression, hs]
  all_goals grind

@[spec]
theorem reads_wordStatement (start : Cursor) (w : String) :
    Reads src (wordStatement sub start w) (Faithful src) := by
  mvcgen [wordStatement, hs]
  all_goals grind

@[spec]
theorem reads_statement : Reads src (statement sub) (Faithful src) := by
  mvcgen [statement, hs]
  all_goals grind

end Rules

/-! ## Sources -/

section Sources

variable {src : List UInt8}

theorem reads_rule {sub : Sub} (hs : ∀ r, Reads src (sub r) (Faithful src)) (r : Rule) :
    Reads src (rule sub r) (Faithful src) := by
  cases r with
  | statement => exact reads_statement hs
  | expression membership cover => exact reads_expression hs membership cover
  | operand => exact reads_operand hs
  | construct => exact reads_construct hs
  | element => exact reads_element hs

/-- With one level of nesting after another, all rules keep what each keeps. -/
theorem reads_ruleWithin (levels : Nat) (r : Rule) :
    Reads src (ruleWithin levels r) (Faithful src) := by
  induction levels generalizing r with
  | zero =>
    mvcgen [ruleWithin]
    simp
  | succ levels ih => exact reads_rule ih r

theorem reads_statements (levels : Nat) : Reads src (statements levels) (AllFaithful src) := by
  have hs : ∀ r, Reads src (ruleWithin levels r) (Faithful src) := reads_ruleWithin levels
  mvcgen [statements, hs]
  all_goals grind

theorem reached_pastHashBang {c : Cursor} (h : Reached src c) : Reached src c.pastHashBang := by
  unfold Cursor.pastHashBang
  split
  · exact reached_skip _ (reached_trivia h)
  · exact h

mutual

theorem placeIn_faithful {comment : Node} (hcomment : Faithful src comment) (n : Node)
    (hn : Faithful src n) : Faithful src (placeIn comment n) := by
  cases n with
  | mk h cs =>
    rw [placeIn]
    obtain ⟨hself, hcs⟩ := faithful_iff.1 hn
    exact faithful_iff.2 ⟨hself, placeAmong_faithful hcomment cs hcs⟩

theorem placeAmong_faithful {comment : Node} (hcomment : Faithful src comment) (ns : List Node)
    (hns : AllFaithful src ns) : AllFaithful src (placeAmong comment ns) := by
  cases ns with
  | nil =>
    rw [placeAmong]
    exact List.forall_mem_singleton.2 hcomment
  | cons n ns =>
    obtain ⟨hn, htail⟩ := List.forall_mem_cons.1 hns
    rw [placeAmong]
    split
    · exact List.forall_mem_cons.2 ⟨hcomment, hns⟩
    · split
      · exact List.forall_mem_cons.2 ⟨placeIn_faithful hcomment n hn, htail⟩
      · exact List.forall_mem_cons.2 ⟨hn, placeAmong_faithful hcomment ns htail⟩

end

/-- Comments find their places among nodes without a change to the escapes. -/
theorem program_faithful {body : List Node} {c : Cursor} (hbody : AllFaithful src body)
    (hc : Reached src c) : Faithful src (program body c) := by
  have hroot : Faithful src (.mk { kind := "program", start := 0, stop := c.offset } body) :=
    (faithful_mk (by simp)).2 hbody
  have hcomments : AllFaithful src c.triviaBefore.comments.reverse := fun n hn =>
    (reached_triviaBefore hc).comments n (List.mem_reverse.1 hn)
  unfold program
  dsimp only
  generalize Node.mk { kind := "program", start := 0, stop := c.offset } body = root at hroot ⊢
  generalize c.triviaBefore.comments.reverse = comments at hcomments ⊢
  induction comments generalizing root with
  | nil => exact hroot
  | cons n ns ih =>
    obtain ⟨hn, hns⟩ := List.forall_mem_cons.1 hcomments
    exact ih _ (placeIn_faithful hn root hroot) hns

/-- The escapes of the tree that a source is read as are escapes of the grammar. -/
theorem read_faithful (source : List Char) : Faithful (Utf8.encode source) (read source) := by
  have hstart := reached_pastHashBang (reached_ofChars source)
  have hmending : Reached (Utf8.encode source)
      { (Cursor.ofChars source).pastHashBang with mending := true } := hstart.of_eq rfl rfl rfl
  have hstatements : ∀ levels c body d, Reached (Utf8.encode source) c →
      statements levels c = .ok body d → Reached (Utf8.encode source) d ∧
        AllFaithful (Utf8.encode source) body := fun levels => reads_iff.1 (reads_statements levels)
  unfold read
  dsimp only
  split
  · rename_i body c hok
    obtain ⟨hc, hbody⟩ := hstatements _ _ _ _ hstart hok
    exact program_faithful hbody hc
  · split
    · rename_i body c hok
      obtain ⟨hc, hbody⟩ := hstatements _ _ _ _ hmending hok
      exact program_faithful hbody hc
    · refine (faithful_mk (by simp)).2 (List.forall_mem_singleton.2 ?_)
      exact (faithful_mk (by simp)).2 (List.forall_mem_nil _)

end Sources

end LazyLint.Script
