import Mathlib
import LazyLint.Proofs.Reading

/-!
# The rules of the grammar

Each rule of the reader goes from place to place and makes nodes whose escapes are those of the grammar,
if the nested rules do. There is one lemma for each rule, in the order of the rules, and each rests on
those of the rules that it calls. A rule that looks at the text itself is taken apart by hand; the others
are put together by `mvcgen` from the lemmas of their parts.
-/

set_option mvcgen.warning false

namespace LazyLint.Script

open Cst (Node Head)
open Std.Do

/-! ## Patterns -/

section Patterns

variable {src : List UInt8}

theorem faithful_of_mk {h : Head} {ns : List Node} (hn : Faithful src (.mk h ns)) :
    AllFaithful src ns :=
  (faithful_iff.1 hn).2

theorem initialised?_faithful {ns value : List Node} {left : Node} (hns : AllFaithful src ns)
    (h : initialised? ns = some (left, value)) : Faithful src left ∧ AllFaithful src value := by
  unfold initialised? at h
  split at h
  · rename_i g l v
    split at h
    · cases h
      have hchildren := faithful_of_mk (hns _ (List.mem_cons_self ..))
      exact List.forall_mem_cons.1 hchildren
    · cases h
  · cases h

/-- A pattern has no other escapes than its elements or properties, which come from the expression. -/
theorem toPattern_step {h : Head} {ns : List Node} {p : Node} (hn : Faithful src (.mk h ns))
    (helements : ∀ ps, toElements ns = some ps → AllFaithful src ps)
    (hproperties : ∀ ps, toProperties ns = some ps → AllFaithful src ps)
    (hp : toPattern (.mk h ns) = some p) : Faithful src p := by
  rw [toPattern] at hp
  split at hp
  · cases hp
    exact hn
  split at hp
  · obtain ⟨ps, hps, hp⟩ := Option.bind_eq_some_iff.1 hp
    cases hp
    exact (faithful_mk (by simp)).2 (helements ps hps)
  split at hp
  · obtain ⟨ps, hps, hp⟩ := Option.bind_eq_some_iff.1 hp
    cases hp
    exact (faithful_mk (by simp)).2 (hproperties ps hps)
  · cases hp

-- on the tree, as the functions that turn it into a pattern
mutual

@[grind →]
theorem toPattern_faithful {n p : Node} (hn : Faithful src n) (hp : toPattern n = some p) :
    Faithful src p := by
  cases n with
  | mk h ns =>
    have hns := faithful_of_mk hn
    exact toPattern_step hn (fun _ => toElements_faithful hns) (fun _ => toProperties_faithful hns) hp
termination_by structural n

@[grind →]
theorem toElement_faithful {n p : Node} (hn : Faithful src n) (hp : toElement n = some p) :
    Faithful src p := by
  cases n with
  | mk h ns =>
    have hns := faithful_of_mk hn
    rw [toElement.eq_def] at hp
    dsimp only at hp
    split at hp
    · split at hp
      · split at hp
        · cases hp
          exact (faithful_mk (by simp)).2 hns
        · cases hp
      · cases hp
    split at hp
    · split at hp
      · rename_i left value hinit
        cases hp
        obtain ⟨hleft, hvalue⟩ := initialised?_faithful hns hinit
        refine (faithful_mk (by simp)).2 (List.forall_mem_cons.2 ⟨?_, hvalue⟩)
        exact (faithful_mk (by simp)).2 (List.forall_mem_singleton.2 hleft)
      · obtain ⟨ps, hps, hp⟩ := Option.bind_eq_some_iff.1 hp
        cases hp
        exact (faithful_mk (by simp)).2 (toTargets_faithful hns hps)
    · exact toPattern_step hn (fun _ => toElements_faithful hns)
        (fun _ => toProperties_faithful hns) hp
termination_by structural n

theorem toTargets_faithful {ns ps : List Node} (hns : AllFaithful src ns)
    (hp : toTargets ns = some ps) : AllFaithful src ps := by
  cases ns with
  | nil =>
    rw [toTargets] at hp
    cases hp
    exact List.forall_mem_nil _
  | cons n ns =>
    rw [toTargets] at hp
    obtain ⟨p, hn, hp⟩ := Option.bind_eq_some_iff.1 hp
    obtain ⟨ps, hps, hp⟩ := Option.bind_eq_some_iff.1 hp
    cases hp
    have hns := List.forall_mem_cons.1 hns
    exact List.forall_mem_cons.2 ⟨toPattern_faithful hns.1 hn, toTargets_faithful hns.2 hps⟩
termination_by structural ns

theorem toElements_faithful {ns ps : List Node} (hns : AllFaithful src ns)
    (hp : toElements ns = some ps) : AllFaithful src ps := by
  cases ns with
  | nil =>
    rw [toElements] at hp
    cases hp
    exact List.forall_mem_nil _
  | cons n ns =>
    rw [toElements] at hp
    obtain ⟨p, hn, hp⟩ := Option.bind_eq_some_iff.1 hp
    obtain ⟨ps, hps, hp⟩ := Option.bind_eq_some_iff.1 hp
    cases hp
    have hns := List.forall_mem_cons.1 hns
    exact List.forall_mem_cons.2 ⟨toElement_faithful hns.1 hn, toElements_faithful hns.2 hps⟩
termination_by structural ns

theorem toProperty_faithful {n p : Node} (hn : Faithful src n) (hp : toProperty n = some p) :
    Faithful src p := by
  cases n with
  | mk h ns =>
    have hns := faithful_of_mk hn
    rw [toProperty.eq_def] at hp
    dsimp only at hp
    split at hp
    · cases hp
      exact (faithful_mk (by simp)).2 hns
    split at hp
    · cases hp
      exact hn
    split at hp
    · match ns, hns, hp with
      | [key, value], hns, hp =>
        obtain ⟨p, hvalue, hp⟩ := Option.bind_eq_some_iff.1 hp
        cases hp
        obtain ⟨hkey, hns⟩ := List.forall_mem_cons.1 hns
        have hvalue := toElement_faithful (List.forall_mem_singleton.1 hns) hvalue
        exact (faithful_mk (by simp)).2
          (List.forall_mem_cons.2 ⟨hkey, List.forall_mem_singleton.2 hvalue⟩)
      | [], _, hp => cases hp
      | [_], _, hp => cases hp
      | _ :: _ :: _ :: _, _, hp => cases hp
    split at hp
    · obtain ⟨ps, hps, hp⟩ := Option.bind_eq_some_iff.1 hp
      cases hp
      exact (faithful_mk (by simp)).2 (toTargets_faithful hns hps)
    · cases hp
termination_by structural n

theorem toProperties_faithful {ns ps : List Node} (hns : AllFaithful src ns)
    (hp : toProperties ns = some ps) : AllFaithful src ps := by
  cases ns with
  | nil =>
    rw [toProperties] at hp
    cases hp
    exact List.forall_mem_nil _
  | cons n ns =>
    rw [toProperties] at hp
    obtain ⟨p, hn, hp⟩ := Option.bind_eq_some_iff.1 hp
    obtain ⟨ps, hps, hp⟩ := Option.bind_eq_some_iff.1 hp
    cases hp
    have hns := List.forall_mem_cons.1 hns
    exact List.forall_mem_cons.2 ⟨toProperty_faithful hns.1 hn, toProperties_faithful hns.2 hps⟩
termination_by structural ns

end

@[spec]
theorem reads_asPattern {n : Node} (hn : Faithful src n) :
    Reads src (asPattern n) (Faithful src) := by
  rw [reads_iff]
  intro c p d hc hp
  unfold asPattern at hp
  split at hp
  · rename_i q hq
    cases hp
    exact ⟨(reached_cover none).2 hc, toPattern_faithful hn hq⟩
  · cases hp

end Patterns

/-! ## Rules that nest no others -/

section Leaves

variable {src : List UInt8}

@[spec]
theorem reads_declaredName? : Reads src declaredName? fun n? => AllFaithful src n?.toList := by
  mvcgen [declaredName?]
  all_goals grind

@[spec]
theorem reads_markupPath {fuel : Nat} {n : Node} (h : Faithful src n) :
    Reads src (markupPath fuel n) (Faithful src) := by
  induction fuel generalizing n with
  | zero =>
    mvcgen [markupPath]
  | succ fuel ih =>
    mvcgen [markupPath, ih]
    all_goals grind

@[spec]
theorem reads_elementName : Reads src elementName (Faithful src) := by
  mvcgen [elementName]
  all_goals grind

@[spec]
theorem reads_attributePieces {q : Char} {fuel : Nat} {acc : List Node} (h : AllFaithful src acc) :
    Reads src (attributePieces q fuel acc) (AllFaithful src) := by
  induction fuel generalizing acc with
  | zero =>
    mvcgen [attributePieces]
    simp
  | succ fuel ih =>
    have hleaf : ∀ kind n, kind ≠ "escape_sequence" →
        Reads src (do attributePieces q fuel ((← leaf kind n) :: acc)) (AllFaithful src) := by
      intro kind n hkind
      mvcgen [ih]
      all_goals grind
    rw [reads_iff]
    intro c ns d hc hp
    unfold attributePieces at hp
    split at hp
    · split at hp
      · split at hp
        · exact reads_iff.1 (hleaf _ _ (by decide)) _ _ _ hc hp
        · cases hp
      · split at hp
        · cases hp
          exact ⟨reached_close.2 (reached_advance hc), h⟩
        · cases hp
      · cases hp
    · exact reads_iff.1 (hleaf _ _ (by decide)) _ _ _ hc hp

@[spec]
theorem reads_markupString : Reads src markupString (Faithful src) := by
  mvcgen [markupString]
  all_goals grind

@[spec]
theorem reads_closeAngle : Reads src closeAngle fun _ => True :=
  reads_token fun _ _ _ h => by
    unfold closeAngle at h
    dsimp only at h
    split at h
    · cases h
      exact .inr ⟨1, rfl⟩
    · cases h

@[spec]
theorem reads_closingTag : Reads src closingTag (Faithful src) := by
  mvcgen [closingTag]
  all_goals grind

@[spec]
theorem reads_privateName : Reads src privateName (Faithful src) := by
  mvcgen [privateName]
  all_goals grind

@[spec]
theorem reads_decoratorPath {fuel : Nat} {n : Node} (h : Faithful src n) :
    Reads src (decoratorPath fuel n) (Faithful src) := by
  induction fuel generalizing n with
  | zero =>
    mvcgen [decoratorPath]
  | succ fuel ih =>
    mvcgen [decoratorPath, ih]
    all_goals grind

@[spec]
theorem reads_modifiers (lines : Bool) : Reads src (modifiers lines) fun _ => True := by
  mvcgen [modifiers]
  all_goals grind

@[spec]
theorem reads_importForms : Reads src importForms (Faithful src) := by
  mvcgen [importForms]
  all_goals grind

@[spec]
theorem reads_regex : Reads src regex (Faithful src) := by
  mvcgen [regex]
  all_goals grind

@[spec]
theorem reads_memberName : Reads src memberName (Faithful src) := by
  mvcgen [memberName]
  all_goals grind

theorem closeOperators_faithful (p : Nat) {stack : List Waiting} {right : Node}
    (hstack : AllFaithful src (stack.map (·.1))) (hright : Faithful src right) :
    AllFaithful src ((closeOperators p stack right).1.map (·.1)) ∧
      Faithful src (closeOperators p stack right).2 := by
  fun_induction closeOperators p stack right <;> grind

@[grind ←]
theorem closeAll_faithful {stack : List Waiting} {right : Node}
    (hstack : AllFaithful src (stack.map (·.1))) (hright : Faithful src right) :
    Faithful src (closeAll stack right) :=
  (closeOperators_faithful 0 hstack hright).2

end Leaves

section Rules

-- what the rules assume of the nested ones
variable {src : List UInt8} {sub : Sub} (hs : ∀ r, Reads src (sub r) (Faithful src))
include hs

/-! ## Lists, templates and blocks -/

@[spec]
theorem reads_sequenceLoop {fuel : Nat} {acc : List Node} (h : AllFaithful src acc) :
    Reads src (sequenceLoop sub fuel acc) (AllFaithful src) := by
  induction fuel generalizing acc with
  | zero =>
    mvcgen [sequenceLoop]
  | succ fuel ih =>
    mvcgen [sequenceLoop, ih, hs]
    all_goals grind

@[spec]
theorem reads_expressions : Reads src (expressions sub) (Faithful src) := by
  mvcgen [expressions, hs]
  all_goals grind

@[spec]
theorem reads_parenthesized : Reads src (parenthesized sub) (Faithful src) := by
  mvcgen [parenthesized, hs]
  all_goals grind

@[spec]
theorem reads_listElement (cover : Bool) : Reads src (listElement sub cover) (Faithful src) := by
  mvcgen [listElement, hs]
  all_goals grind

@[spec]
theorem reads_slotsLoop {cover : Bool} {closing : String} {fuel : Nat} {acc : List Node}
    (h : AllFaithful src acc) :
    Reads src (slotsLoop sub cover closing fuel acc) (AllFaithful src) := by
  induction fuel generalizing acc with
  | zero =>
    mvcgen [slotsLoop]
    simp
  | succ fuel ih =>
    mvcgen [slotsLoop, ih, hs]
    all_goals grind

@[spec]
theorem reads_slots (cover : Bool) (opening closing : String) :
    Reads src (slots sub cover opening closing) (AllFaithful src) := by
  mvcgen [slots, hs]
  all_goals grind

@[spec]
theorem reads_arguments : Reads src (arguments sub) (Faithful src) := by
  mvcgen [arguments, hs]
  all_goals grind

@[spec]
theorem reads_arrayLiteral : Reads src (arrayLiteral sub) (Faithful src) := by
  mvcgen [arrayLiteral, hs]
  all_goals grind

@[spec]
theorem reads_templatePieces {fuel : Nat} {acc : List Node} (h : AllFaithful src acc) :
    Reads src (templatePieces sub fuel acc) (AllFaithful src) := by
  induction fuel generalizing acc with
  | zero =>
    mvcgen [templatePieces]
    simp
  | succ fuel ih =>
    rw [reads_iff]
    intro c ns d hc hp
    unfold templatePieces at hp
    split at hp
    · cases hp
      exact ⟨reached_close.2 (reached_advance hc), h⟩
    · rename_i cs hrest
      obtain ⟨e, c', he, hp⟩ := bind_eq_ok_iff.1 hp
      obtain ⟨hc', he⟩ := escape_faithful hc hrest he
      exact reads_iff.1 (ih (List.forall_mem_cons.2 ⟨he, h⟩)) _ _ _ hc' hp
    · refine reads_iff.1 ?_ _ _ _ hc hp
      mvcgen [ih, hs]
      all_goals grind
    · split at hp
      · cases hp
      · refine reads_iff.1 ?_ _ _ _ hc hp
        mvcgen [ih, hs]
        all_goals grind

@[spec]
theorem reads_template : Reads src (template sub) (Faithful src) := by
  mvcgen [template, hs]
  all_goals grind

@[spec]
theorem reads_statementsLoop {fuel : Nat} {acc : List Node} (h : AllFaithful src acc) :
    Reads src (statementsLoop sub fuel acc) (AllFaithful src) := by
  induction fuel generalizing acc with
  | zero =>
    mvcgen [statementsLoop]
    simp
  | succ fuel ih =>
    mvcgen [statementsLoop, ih, hs]
    all_goals grind

@[spec]
theorem reads_blockRest (start : Cursor) : Reads src (blockRest sub start) (Faithful src) := by
  mvcgen [blockRest, hs]
  all_goals grind

@[spec]
theorem reads_block : Reads src (block sub) (Faithful src) := by
  mvcgen [block, hs]
  all_goals grind

@[spec]
theorem reads_ambiguousBlock : Reads src (ambiguousBlock sub) (Faithful src) := by
  mvcgen [ambiguousBlock, hs]
  all_goals grind

@[spec]
theorem reads_blockOr {other : Parser Node} {prefers : Node → Cursor → Bool}
    (h : Reads src other (Faithful src)) :
    Reads src (blockOr sub other prefers) (Faithful src) := by
  have hblock := reads_iff.1 (reads_ambiguousBlock hs)
  rw [reads_iff] at h ⊢
  intro c a d hc hp
  unfold blockOr at hp
  cases hb : ambiguousBlock sub c <;> cases ho : other c <;> simp only [hb, ho] at hp
  · split at hp <;> cases hp
    · exact h c _ _ hc ho
    · exact hblock c _ _ hc hb
  · split at hp <;> cases hp <;> exact hblock c _ _ hc hb
  · cases hp
    exact h c _ _ hc ho
  · cases hp

/-! ## Functions -/

@[spec]
theorem reads_formalParametersLoop {fuel : Nat} {acc : List Node} (h : AllFaithful src acc) :
    Reads src (formalParametersLoop sub fuel acc) (AllFaithful src) := by
  induction fuel generalizing acc with
  | zero =>
    mvcgen [formalParametersLoop]
    simp
  | succ fuel ih =>
    mvcgen [formalParametersLoop, ih, hs]
    all_goals grind

@[spec]
theorem reads_formalParameters : Reads src (formalParameters sub) (Faithful src) := by
  mvcgen [formalParameters, hs]
  all_goals grind

@[spec]
theorem reads_functionFrom (declared : Bool) (start : Cursor) :
    Reads src (functionFrom sub declared start) (Faithful src) := by
  mvcgen [functionFrom, hs]
  all_goals grind [= Option.map_eq_some_iff]

/-! ## Markup -/

@[spec]
theorem reads_markupExpression : Reads src (markupExpression sub) (Faithful src) := by
  mvcgen [markupExpression, hs]
  all_goals grind

@[spec]
theorem reads_markupAttribute : Reads src (markupAttribute sub) (Faithful src) := by
  mvcgen [markupAttribute, hs]
  all_goals grind

@[spec]
theorem reads_attributesLoop {fuel : Nat} {acc : List Node} (h : AllFaithful src acc) :
    Reads src (attributesLoop sub fuel acc) (AllFaithful src) := by
  induction fuel generalizing acc with
  | zero =>
    mvcgen [attributesLoop]
  | succ fuel ih =>
    mvcgen [attributesLoop, ih, hs]
    all_goals grind

@[spec]
theorem reads_childrenLoop {fuel : Nat} {acc : List Node} (h : AllFaithful src acc) :
    Reads src (childrenLoop sub fuel acc) (AllFaithful src) := by
  induction fuel generalizing acc with
  | zero =>
    mvcgen [childrenLoop]
    simp
  | succ fuel ih =>
    have hchild : ∀ p, Reads src p (Faithful src) →
        Reads src (do childrenLoop sub fuel ((← p) :: acc)) (AllFaithful src) := by
      intro p hp
      mvcgen [hp, ih]
      all_goals grind
    have hleaf : ∀ kind n, kind ≠ "escape_sequence" →
        Reads src (do childrenLoop sub fuel ((← leaf kind n) :: acc)) (AllFaithful src) :=
      fun kind n hkind => hchild _ (reads_leaf hkind n)
    rw [reads_iff]
    intro c ns d hc hp
    unfold childrenLoop at hp
    split at hp
    · exact reads_iff.1 (hleaf _ _ (by decide)) _ _ _ hc hp
    · rename_i n _
      have hskip := reached_skip n hc
      dsimp only at hp
      split at hp
      · cases hp
        exact ⟨hskip, h⟩
      · exact reads_iff.1 (hchild _ (hs _)) _ _ _ ((reached_tokenEnd _).2 hskip) hp
      · exact reads_iff.1 (hchild _ (reads_markupExpression hs)) _ _ _ hskip hp
      · split at hp
        · exact reads_iff.1 (hleaf _ _ (by decide)) _ _ _ hskip hp
        · cases hp
      · cases hp

@[spec]
theorem reads_elementRest {start : Cursor} {opening : Node} (h : Faithful src opening) :
    Reads src (elementRest sub start opening) (Faithful src) := by
  mvcgen [elementRest, hs]
  all_goals grind

@[spec]
theorem reads_element : Reads src (element sub) (Faithful src) := by
  mvcgen [element, hs]
  all_goals grind

/-! ## Objects and classes -/

@[spec]
theorem reads_propertyKey : Reads src (propertyKey sub) (Faithful src) := by
  mvcgen [propertyKey, hs]
  all_goals grind

@[spec]
theorem reads_decoratorsLoop {fuel : Nat} {acc : List Node} (h : AllFaithful src acc) :
    Reads src (decoratorsLoop sub fuel acc) (AllFaithful src) := by
  induction fuel generalizing acc with
  | zero =>
    mvcgen [decoratorsLoop]
  | succ fuel ih =>
    mvcgen [decoratorsLoop, ih, hs]
    all_goals grind

@[spec]
theorem reads_decorators : Reads src (decorators sub) (AllFaithful src) := by
  mvcgen [decorators, hs]
  all_goals grind

@[spec]
theorem reads_methodRest {start : Cursor} {notes : List Node} {key : Node}
    (hnotes : AllFaithful src notes) (hkey : Faithful src key) :
    Reads src (methodRest sub start notes key) (Faithful src) := by
  mvcgen [methodRest, hs]
  all_goals grind

@[spec]
theorem reads_keyedRest {start : Cursor} {notes : List Node} {key : Node} {method : Bool}
    (hnotes : AllFaithful src notes) (hkey : Faithful src key) :
    Reads src (keyedRest sub start notes key method) (Faithful src) := by
  mvcgen [keyedRest, hs]
  all_goals grind

@[spec]
theorem reads_property : Reads src (property sub) (Faithful src) := by
  mvcgen [property, hs]
  all_goals grind

@[spec]
theorem reads_propertiesLoop {fuel : Nat} {acc : List Node} (h : AllFaithful src acc) :
    Reads src (propertiesLoop sub fuel acc) (AllFaithful src) := by
  induction fuel generalizing acc with
  | zero =>
    mvcgen [propertiesLoop]
    simp
  | succ fuel ih =>
    mvcgen [propertiesLoop, ih, hs]
    all_goals grind

@[spec]
theorem reads_objectLiteral : Reads src (objectLiteral sub) (Faithful src) := by
  mvcgen [objectLiteral, hs]
  all_goals grind

@[spec]
theorem reads_fieldRest {start : Cursor} {notes : List Node} {key : Node}
    (hnotes : AllFaithful src notes) (hkey : Faithful src key) :
    Reads src (fieldRest sub start notes key) (Faithful src) := by
  mvcgen [fieldRest, hs]
  all_goals grind

@[spec]
theorem reads_classMember : Reads src (classMember sub) (Faithful src) := by
  mvcgen [classMember, hs]
  all_goals grind

@[spec]
theorem reads_classMembersLoop {fuel : Nat} {acc : List Node} (h : AllFaithful src acc) :
    Reads src (classMembersLoop sub fuel acc) (AllFaithful src) := by
  induction fuel generalizing acc with
  | zero =>
    mvcgen [classMembersLoop]
    simp
  | succ fuel ih =>
    mvcgen [classMembersLoop, ih, hs]
    all_goals grind

@[spec]
theorem reads_classBody : Reads src (classBody sub) (Faithful src) := by
  mvcgen [classBody, hs]
  all_goals grind

@[spec]
theorem reads_classFrom {declared : Bool} {start : Cursor} {notes : List Node}
    (hnotes : AllFaithful src notes) :
    Reads src (classFrom sub declared start notes) (Faithful src) := by
  mvcgen [classFrom, hs]
  all_goals grind [= Option.map_eq_some_iff]

/-! ## Operands -/

@[spec]
theorem reads_arrowBody : Reads src (arrowBody sub) (Faithful src) := by
  mvcgen [arrowBody, hs]
  all_goals grind

@[spec]
theorem reads_arrowRest {start : Cursor} {parameters : Node} (h : Faithful src parameters) :
    Reads src (arrowRest sub start parameters) (Faithful src) := by
  mvcgen [arrowRest, hs]
  all_goals grind

@[spec]
theorem reads_arrowOfElements {start opening : Cursor} {elements : List Node}
    (h : AllFaithful src elements) :
    Reads src (arrowOfElements sub start opening elements) (Faithful src) := by
  mvcgen [arrowOfElements, hs]
  all_goals grind [toElements_faithful]

@[spec]
theorem reads_groupLoop {fuel : Nat} {acc : List Node} (h : AllFaithful src acc) :
    Reads src (groupLoop sub fuel acc) fun r => AllFaithful src r.1 := by
  induction fuel generalizing acc with
  | zero =>
    mvcgen [groupLoop]
    simp
  | succ fuel ih =>
    mvcgen [groupLoop, ih, hs]
    all_goals grind

@[spec]
theorem reads_group : Reads src (group sub) (Faithful src) := by
  mvcgen [group, hs]
  all_goals grind

@[spec]
theorem reads_nameOrArrow {kind : String} (hkind : kind ≠ "escape_sequence") :
    Reads src (nameOrArrow sub kind) (Faithful src) := by
  mvcgen [nameOrArrow, hs]
  all_goals grind

@[spec]
theorem reads_asyncForms : Reads src (asyncForms sub) (Faithful src) := by
  mvcgen [asyncForms, hs]
  all_goals grind

@[spec]
theorem reads_primaryWord (w : String) : Reads src (primaryWord sub w) (Faithful src) := by
  mvcgen [primaryWord, hs]
  all_goals grind [literalWords]

@[spec]
theorem reads_primary : Reads src (primary sub) (Faithful src) := by
  mvcgen [primary, hs]
  all_goals grind

@[spec]
theorem reads_subscriptRest {object : Node} {chain : List Node} (hobject : Faithful src object)
    (hchain : AllFaithful src chain) :
    Reads src (subscriptRest sub object chain) (Faithful src) := by
  mvcgen [subscriptRest, hs]
  all_goals grind

@[spec]
theorem reads_callRest {callee : Node} {chain : List Node} (hcallee : Faithful src callee)
    (hchain : AllFaithful src chain) :
    Reads src (callRest sub callee chain) (Faithful src) := by
  mvcgen [callRest, hs]
  all_goals grind

@[spec]
theorem reads_chainRest {object : Node} (hobject : Faithful src object) :
    Reads src (chainRest sub object) (Faithful src) := by
  mvcgen [chainRest, hs]
  all_goals grind

@[spec]
theorem reads_applied {calls : Bool} {fuel : Nat} {n : Node} (h : Faithful src n) :
    Reads src (applied sub calls fuel n) (Faithful src) := by
  induction fuel generalizing n with
  | zero =>
    mvcgen [applied]
  | succ fuel ih =>
    mvcgen [applied, ih, hs]
    all_goals grind

@[spec]
theorem reads_construct : Reads src (construct sub) (Faithful src) := by
  mvcgen [construct, hs]
  all_goals grind

@[spec]
theorem reads_assigned {left : Node} (h : Faithful src left) :
    Reads src (assigned sub left) (Faithful src) := by
  mvcgen [assigned, hs]
  all_goals grind

@[spec]
theorem reads_prefixed {kind : String} (n : Nat) (hkind : kind ≠ "escape_sequence") :
    Reads src (prefixed sub kind n) (Faithful src) := by
  mvcgen [prefixed, hs]
  all_goals grind

@[spec]
theorem reads_yielded : Reads src (yielded sub) (Faithful src) := by
  mvcgen [yielded, hs]
  all_goals grind

@[spec]
theorem reads_appliedOperand {base : Parser Node} (hbase : Reads src base (Faithful src)) :
    Reads src (appliedOperand sub base) (Faithful src) := by
  mvcgen [appliedOperand, hbase, hs]
  all_goals grind

@[spec]
theorem reads_operand : Reads src (operand sub) (Faithful src) := by
  mvcgen [operand, hs]
  all_goals grind

/-! ## Expressions -/

@[spec]
theorem reads_conditionalRest {membership : Bool} {condition : Node} (h : Faithful src condition) :
    Reads src (conditionalRest sub membership condition) (Faithful src) := by
  mvcgen [conditionalRest, hs]
  all_goals grind

@[spec]
theorem reads_operatorsLoop {membership : Bool} {fuel : Nat} {stack : List Waiting} {right : Node}
    (hstack : AllFaithful src (stack.map (·.1))) (hright : Faithful src right) :
    Reads src (operatorsLoop sub membership fuel stack right) (Faithful src) := by
  induction fuel generalizing stack right with
  | zero =>
    mvcgen [operatorsLoop]
    all_goals grind
  | succ fuel ih =>
    have hclose := fun p => closeOperators_faithful p hstack hright
    mvcgen [operatorsLoop, ih, hs]
    all_goals grind

@[spec]
theorem reads_expression (membership cover : Bool) :
    Reads src (expression sub membership cover) (Faithful src) := by
  mvcgen [expression, hs]
  all_goals grind

end Rules

end LazyLint.Script
