import LazyLint.Proofs.March

/-!
# Walks that are cut short

A walk may end at any node: its visitor raises, the node has no schema, a field of it cannot be gone
through, or it lies too far down. This file says what such a walk has done by then. The visitor is made to
keep a list of its calls, and `Ends` says what is known of the calls, of the places that were shown and of
those that were not, for each way in which a walk ends. The induction is along the march that the walk is.
-/

namespace LazyLint.Ast

/-! ## Fields that cannot be gone through -/

/-- A place below a place. -/
def Placed.down (p q : Placed) : Placed :=
  { above := p.above ++ p.node :: q.above, node := q.node }

/-- What a walk has shown when it comes to a field that cannot be gone through: nothing below the node that
has the field but the trees in its earlier fields. -/
inductive Broken : List Placed → Fault → Prop
  | mk {before : List Placed} {last : Placed} {earlier later : List (String × Arity)}
      {field : String} {ms : List Node}
      (hfields : last.node.fields = .ok (earlier ++ (field, .sequence) :: later))
      (hearlier : last.node.inFields earlier = .ok ms)
      (hheld : (last.node.held field).isNode = true ∨ ∃ type, last.node.held field = .atom type true) :
    Broken (before ++ last :: ms.flatMap fun c => c.visits.map last.down)
      (.notSequence (last.node.held field))

section Broken

variable {n : Node} {f : Fault}

theorem Placed.under_down (n : Node) (p q : Placed) : (p.down q).under n = (p.under n).down q := rfl

theorem Broken.under {seen : List Placed} (h : Broken seen f) (n : Node) (before : List Placed) :
    Broken (before ++ seen.map (.under n)) f := by
  obtain ⟨hfields, hearlier, hheld⟩ := h
  rename_i front last earlier later field ms
  have hbroken : Broken ((before ++ front.map (.under n)) ++ last.under n ::
      ms.flatMap fun c => c.visits.map (last.under n).down) (.notSequence (last.node.held field)) :=
    .mk hfields hearlier hheld
  simpa [List.map_flatMap, Function.comp_def, Placed.under_down] using hbroken

/-- The nodes that come before the first fault, and the fault. -/
def upToFault : List Stop → List Placed × Option Fault
  | [] => ([], none)
  | .fault f :: _ => ([], some f)
  | .node p :: stops => (p :: (upToFault stops).1, (upToFault stops).2)

theorem upToFault_nodes (seen : List Placed) (more : List Stop) :
    upToFault (seen.map .node ++ .fault f :: more) = (seen, some f) := by
  induction seen with
  | nil => rfl
  | cons p seen ih => rw [List.map_cons, List.cons_append, upToFault, ih]

theorem upToFault_append (ss ts : List Stop) : upToFault (ss ++ ts) =
    match (upToFault ss).2 with
    | some _ => upToFault ss
    | none => ((upToFault ss).1 ++ (upToFault ts).1, (upToFault ts).2) := by
  induction ss with
  | nil => rfl
  | cons s ss ih =>
    cases s with
    | fault f => rfl
    | node p =>
      rw [List.cons_append, upToFault, ih, upToFault]
      cases hss : (upToFault ss).2 <;> simp [hss]

theorem upToFault_under (n : Node) (ss : List Stop) : upToFault (ss.map (.under n)) =
    ((upToFault ss).1.map (.under n), (upToFault ss).2) := by
  induction ss with
  | nil => rfl
  | cons s ss ih =>
    cases s with
    | fault f => rfl
    | node p =>
      rw [List.map_cons, Stop.under, upToFault, ih]
      rfl

theorem upToFault_of_none {ss : List Stop} (h : (upToFault ss).2 = none) :
    upToFault ss = (ss.filterMap Stop.place?, none) := by
  induction ss with
  | nil => rfl
  | cons s ss ih =>
    cases s with
    | fault f => cases h
    | node p =>
      rw [upToFault, ih h]
      rfl

/-- The first fault in the trees of some nodes is one in one of these trees, or there is none. -/
theorem upToFault_stops (ms : List Node) :
    (∃ c ∈ ms, ∃ before seen f, upToFault (ms.flatMap Node.stops) = (before ++ seen, some f) ∧
      upToFault c.stops = (seen, some f)) ∨
    upToFault (ms.flatMap Node.stops) = (ms.flatMap Node.visits, none) := by
  induction ms with
  | nil => exact .inr rfl
  | cons m ms ih =>
    rw [List.flatMap_cons, upToFault_append]
    rcases hm : upToFault m.stops with ⟨seen, fault⟩
    cases fault with
    | some f => exact .inl ⟨m, List.mem_cons_self .., [], seen, f, rfl, hm⟩
    | none =>
      have hseen : seen = m.visits := by
        have hnone := upToFault_of_none (congrArg Prod.snd hm)
        rw [hm, filterMap_stops] at hnone
        exact congrArg Prod.fst hnone
      subst hseen
      dsimp only
      rcases ih with ⟨c, hc, before, seen, f, hms, hfault⟩ | hms
      · refine .inl ⟨c, List.mem_cons_of_mem _ hc, m.visits ++ before, seen, f, ?_, hfault⟩
        rw [hms, List.append_assoc]
      · exact .inr (by rw [hms, List.flatMap_cons])

/-- The first fault in some fields of a node is one in a tree that is found there, or a field that cannot be
gone through, after the trees in the earlier fields. -/
theorem upToFault_metIn {fields : List (String × Arity)} {seen : List Placed}
    (h : upToFault ((n.metIn fields).flatMap stopsOf) = (seen, some f)) :
    (∃ field arity found, (field, arity) ∈ fields ∧ n.inField field arity = .ok found ∧ ∃ c ∈ found,
      ∃ before rest, seen = before ++ rest ∧ upToFault c.stops = (rest, some f)) ∨
    ∃ earlier field later ms, fields = earlier ++ (field, .sequence) :: later ∧
      n.inFields earlier = .ok ms ∧ seen = ms.flatMap Node.visits ∧ f = .notSequence (n.held field) ∧
      ((n.held field).isNode = true ∨ ∃ type, n.held field = .atom type true) := by
  induction fields generalizing seen with
  | nil => cases h
  | cons fa fields ih =>
    obtain ⟨field, arity⟩ := fa
    cases hfield : n.inField field arity with
    | error g =>
      rw [metIn_cons_error hfield] at h
      cases h
      obtain ⟨rfl, rfl, hheld⟩ := held_of_inField_error hfield
      exact .inr ⟨[], field, fields, [], rfl, rfl, rfl, rfl, hheld⟩
    | ok first =>
      have hstops : (first.map Except.ok).flatMap stopsOf = first.flatMap Node.stops :=
        List.flatMap_map ..
      rw [metIn_cons_ok hfield, List.flatMap_append, hstops, upToFault_append] at h
      rcases upToFault_stops first with ⟨c, hc, before, rest, g, hfirst, hg⟩ | hfirst
      · rw [hfirst] at h
        cases h
        exact .inl ⟨field, arity, first, List.mem_cons_self .., hfield, c, hc, before, rest, rfl, hg⟩
      · rw [hfirst] at h
        obtain ⟨hseen, hfault⟩ := Prod.mk.inj h
        rcases ih (Prod.ext rfl hfault) with
          ⟨field', arity', found, hmem, hfound, c, hc, before, rest, hrest, hg⟩ |
          ⟨earlier, field', later, ms, rfl, hearlier, hms, hf, hheld⟩
        · refine .inl ⟨field', arity', found, List.mem_cons_of_mem _ hmem, hfound, c, hc,
            first.flatMap Node.visits ++ before, rest, ?_, hg⟩
          rw [← hseen, List.append_assoc, ← hrest]
        · refine .inr ⟨(field, arity) :: earlier, field', later, first ++ ms, rfl, ?_, ?_, hf, hheld⟩
          · exact Node.inFields_cons_eq_ok_iff.2 ⟨first, ms, hfield, hearlier, rfl⟩
          · rw [← hseen, List.flatMap_append, ← hms]

/-- The first fault that a walk comes to is a field that cannot be gone through, after the trees in the
earlier fields of the same node. -/
theorem broken_of_stops {seen : List Placed} (h : upToFault n.stops = (seen, some f)) :
    Broken seen f := by
  induction hh : n.height using Nat.strongRecOn generalizing n seen with
  | _ k ih =>
    rw [Node.stops_eq, upToFault, upToFault_under] at h
    rcases hbelow : upToFault (n.met.flatMap stopsOf) with ⟨below, fault⟩
    rw [hbelow] at h
    cases h
    cases hf : n.fields with
    | error g =>
      rw [Node.met, hf] at hbelow
      cases hbelow
    | ok fields =>
      rw [Node.met, hf] at hbelow
      rcases upToFault_metIn hbelow with
        ⟨field, arity, found, hmem, hfound, c, hc, before, rest, rfl, hg⟩ |
        ⟨earlier, field, later, ms, rfl, hearlier, rfl, rfl, hheld⟩
      · have hpart : c ∈ n.parts :=
          Node.mem_parts_iff.2 ⟨fields, field, arity, found, hf, hmem, hfound, hc⟩
        have hbroken := ih c.height (hh ▸ height_lt_of_mem_parts hpart) hg rfl
        dsimp only
        rw [List.map_append, ← List.cons_append]
        exact hbroken.under n ({ node := n } :: before.map (.under n))
      · dsimp only
        rw [List.map_flatMap]
        have hbroken : Broken ([] ++ { node := n } ::
            ms.flatMap fun c => c.visits.map (Placed.down { node := n }))
            (.notSequence (n.held field)) := .mk hf hearlier hheld
        exact hbroken

end Broken

/-! ## The calls of a walk -/

/-- A call of a visitor: the node and the depth that it was given, and what it raised. -/
structure Call (ε : Type) where
  node : Node
  depth : Nat
  raised : Option ε

section Calls

variable {σ ε : Type}

/-- The visitor that does the same and keeps a list of its calls. -/
def Visitor.recorded (visit : Visitor σ ε) : Visitor (σ × List (Call ε)) ε :=
  fun n depth (state, calls) =>
    (((visit n depth state).1, calls ++ [⟨n, depth, (visit n depth state).2⟩]),
      (visit n depth state).2)

/-- The same end of a walk, with the calls that were kept. -/
def Walked.withCalls (w : Walked σ ε) (calls : List (Call ε)) : Walked (σ × List (Call ε)) ε where
  scope := w.scope
  state := (w.state, calls)
  halt := w.halt

/-- How a walk ends that has shown some places and has not come to what is left. What can be wrong with a
field after the places that were shown is a parameter. -/
inductive Ends (broken : List Placed → Fault → Prop) (room : Nat) (seen : List Placed)
    (rest : List Stop) (calls : List (Call ε)) : Option (Halt ε) → Prop
  /-- All places are shown, none of them is malformed, and nothing was raised. -/
  | whole (hrest : rest = []) (hfit : ∀ p ∈ seen, p.node.malformed? = none ∧ p.above.length < room)
      (hcalls : ∀ c ∈ calls, c.raised = none) : Ends broken room seen rest calls none
  /-- The last call raised, and no call before it did. -/
  | raised {e : ε} {before : List (Call ε)} {last : Call ε} (hlast : last.raised = some e)
      (hcalls : calls = before ++ [last]) (hbefore : ∀ c ∈ before, c.raised = none)
      (hfit : ∀ p ∈ seen.dropLast, p.node.malformed? = none) :
      Ends broken room seen rest calls (some (.visitor e))
  /-- The place shown last is malformed, and no call raised. -/
  | malformed {f : Fault} {before : List Placed} {last : Placed}
      (hlast : last.node.malformed? = some f) (hseen : seen = before ++ [last])
      (hfit : ∀ p ∈ before, p.node.malformed? = none) (hcalls : ∀ c ∈ calls, c.raised = none) :
      Ends broken room seen rest calls (some (.tree f))
  /-- A field of a place that was shown cannot be gone through, and no call raised. -/
  | broken {f : Fault} (hbroken : broken seen f) (hfit : ∀ p ∈ seen, p.node.malformed? = none)
      (hcalls : ∀ c ∈ calls, c.raised = none) : Ends broken room seen rest calls (some (.tree f))
  /-- The place to be shown next lies too far down, and no call raised. -/
  | tooDeep {next : Placed} {more : List Stop} (hnext : room ≤ next.above.length)
      (hrest : rest = .node next :: more) (hfit : ∀ p ∈ seen, p.node.malformed? = none)
      (hcalls : ∀ c ∈ calls, c.raised = none) :
      Ends broken room seen rest calls (some (.tree .tooDeep))

variable {broken : List Placed → Fault → Prop} {room : Nat} {seen : List Placed} {rest : List Stop}
  {calls : List (Call ε)} {halt : Option (Halt ε)}

/-- A place before the first changes nothing about the end. -/
theorem Ends.cons {p : Placed} (h : Ends (fun seen => broken (p :: seen)) room seen rest calls halt)
    {c : Call ε} (hp : p.node.malformed? = none) (hroom : p.above.length < room)
    (hc : c.raised = none) : Ends broken room (p :: seen) rest (c :: calls) halt := by
  cases h with
  | whole hrest hfit hcalls =>
    exact .whole hrest (List.forall_mem_cons.2 ⟨⟨hp, hroom⟩, hfit⟩) (List.forall_mem_cons.2 ⟨hc, hcalls⟩)
  | raised hlast hcalls hbefore hfit =>
    refine .raised hlast (by rw [hcalls, List.cons_append]) (List.forall_mem_cons.2 ⟨hc, hbefore⟩) ?_
    cases seen with
    | nil => exact List.forall_mem_nil _
    | cons q seen =>
      rw [List.dropLast_cons_cons]
      exact List.forall_mem_cons.2 ⟨hp, hfit⟩
  | malformed hlast hseen hfit hcalls =>
    exact .malformed hlast (by rw [hseen, List.cons_append]) (List.forall_mem_cons.2 ⟨hp, hfit⟩)
      (List.forall_mem_cons.2 ⟨hc, hcalls⟩)
  | broken hbroken hfit hcalls =>
    exact .broken hbroken (List.forall_mem_cons.2 ⟨hp, hfit⟩) (List.forall_mem_cons.2 ⟨hc, hcalls⟩)
  | tooDeep hnext hrest hfit hcalls =>
    exact .tooDeep hnext hrest (List.forall_mem_cons.2 ⟨hp, hfit⟩) (List.forall_mem_cons.2 ⟨hc, hcalls⟩)

/-- What a march makes of the calls that are kept: it adds one for each place that it shows. -/
theorem march_recorded (visit : Visitor σ ε) (room : Nat) (scope : Scope) (stops : List Stop)
    (hbroken : ∀ seen f more, stops = seen.map .node ++ .fault f :: more → broken seen f)
    (state : σ) (calls : List (Call ε)) :
    ∃ seen rest made, stops = seen.map .node ++ rest ∧
      made.map (fun c => (c.node, c.depth)) = seen.map (fun p => (p.node, p.depthIn scope)) ∧
      Ends broken room seen rest made (march visit room scope stops state).halt ∧
      march visit.recorded room scope stops (state, calls) =
        (march visit room scope stops state).withCalls (calls ++ made) := by
  induction stops generalizing broken state calls with
  | nil =>
    refine ⟨[], [], [], rfl, rfl, .whole rfl (List.forall_mem_nil _) (List.forall_mem_nil _), ?_⟩
    rw [List.append_nil]
    rfl
  | cons s stops ih =>
    cases s with
    | fault f =>
      refine ⟨[], .fault f :: stops, [], rfl, rfl, ?_, ?_⟩
      · exact .broken (hbroken [] f stops rfl) (List.forall_mem_nil _) (List.forall_mem_nil _)
      · rw [List.append_nil]
        rfl
    | node p =>
      by_cases hroom : room ≤ p.above.length
      · rw [march_deep hroom, march_deep hroom]
        refine ⟨[], .node p :: stops, [], rfl, rfl, ?_, ?_⟩
        · exact .tooDeep hroom rfl (List.forall_mem_nil _) (List.forall_mem_nil _)
        · rw [List.append_nil]
          rfl
      · let made : Call ε := ⟨p.node, p.depthIn scope, (visit p.node (p.depthIn scope) state).2⟩
        have hone : [made] = [] ++ [made] := rfl
        cases hv : (visit p.node (p.depthIn scope) state).2 with
        | some e =>
          have hkept : (visit.recorded p.node (p.depthIn scope) (state, calls)).2 = some e := hv
          rw [march_raised hroom hv, march_raised hroom hkept]
          refine ⟨[p], stops, [made], rfl, rfl, ?_, rfl⟩
          exact .raised hv hone (List.forall_mem_nil _) (List.forall_mem_nil _)
        | none =>
          have hkept : (visit.recorded p.node (p.depthIn scope) (state, calls)).2 = none := hv
          cases hf : p.node.malformed? with
          | some f =>
            rw [march_malformed hroom hv hf, march_malformed hroom hkept hf]
            refine ⟨[p], stops, [made], rfl, rfl, ?_, rfl⟩
            exact .malformed hf (List.nil_append [p]).symm (List.forall_mem_nil _)
              (List.forall_mem_singleton.2 hv)
          | none =>
            rw [march_onward hroom hv hf, march_onward hroom hkept hf]
            obtain ⟨seen, rest, more, rfl, hmore, hends, hmarch⟩ :=
              ih (fun seen f more h => hbroken (p :: seen) f more (by rw [h]; rfl))
                (visit p.node (p.depthIn scope) state).1 (calls ++ [made])
            rw [List.append_assoc, List.singleton_append] at hmarch
            refine ⟨p :: seen, rest, made :: more, rfl, ?_, ?_, hmarch⟩
            · rw [List.map_cons, List.map_cons, hmore]
            · exact hends.cons hf (Nat.lt_of_not_le hroom) hv

/-- Whatever the tree, the visitor and the scope that a walk starts in, the visitor is called for a first
part of the nodes in pre-order, each at the depth of the start and of the boundaries above it. The walk
ends with all of them shown, or with what the last call raised, or, after the call for a node without a
schema and before anything below it, with what is wrong with that node, or at a field that cannot be gone
through, after the trees in the earlier fields of the same node, or before a node too far down. However it
ends, the scope is left as it was found, and none is left that was not entered. -/
theorem walk_calls_preorder (visit : Visitor σ ε) (room : Nat) (n : Node) (scope : Scope) (state : σ) :
    (∃ seen rest calls, n.visits = seen ++ rest.filterMap Stop.place? ∧
      calls.map (fun c => (c.node, c.depth)) = seen.map (fun p => (p.node, p.depthIn scope)) ∧
      walk visit.recorded room n scope (state, []) =
        (walk visit room n scope state).withCalls calls ∧
      Ends Broken room seen rest calls (walk visit room n scope state).halt) ∧
    (walk visit room n scope state).scope = scope ∧
    (walk visit room n scope state).halt ≠ some .imbalance ∧
    ∀ (m : Node) (f : Fault), m.malformed? = some f ↔
      m.kind? = none ∧ f = .noKind m ∨ ∃ kind, m.kind? = some kind ∧
        f = .unsupported kind ∧ (∀ children, m ≠ .plain kind children) ∧ schema kind = none := by
  have hbroken : ∀ seen f more, n.stops = seen.map .node ++ .fault f :: more → Broken seen f := by
    intro seen f more h
    exact broken_of_stops (h ▸ upToFault_nodes seen more)
  obtain ⟨seen, rest, calls, hstops, hcalls, hends, hmarch⟩ :=
    march_recorded visit room scope n.stops hbroken state []
  have hvisits : n.visits = seen ++ rest.filterMap Stop.place? := by
    have hnodes : Stop.place? ∘ Stop.node = some := rfl
    rw [← filterMap_stops, hstops, List.filterMap_append, List.filterMap_map, hnodes,
      List.filterMap_some]
  rw [List.nil_append, ← walk_eq_march, ← walk_eq_march] at hmarch
  rw [← walk_eq_march] at hends
  refine ⟨⟨seen, rest, calls, hvisits, hcalls, hmarch, hends⟩, ?_, ?_, fun m f => ?_⟩
  · exact walk_scope visit room n scope state
  · intro himbalance
    rw [himbalance] at hends
    cases hends
  · exact malformed?_eq_some_iff

end Calls

/-! ### A function of an unknown kind, and one whose parameters are a number -/

/-- Nothing in the function of the unknown kind is shown, nor what stands behind it. -/
def strangeTree : Node :=
  .program (.items
    [.function "arrow_function" .absent (.items [.ident "x"])
      (.plain "statement_block" (.items
        [.function "strange" .absent (.items []) (.ident "y"), .ident "z"]))])

/-- The name of the function is shown, and its body is not. -/
def numberedTree : Node :=
  .program (.items [.function "function" (.ident "f") (.atom "int" true) (.ident "b"), .ident "z"])

/-- The visitor that counts its calls and raises at one of them. -/
def raiseAt (last : Nat) : Visitor Nat Unit :=
  fun _ _ k => (k + 1, if k + 1 = last then some () else none)

theorem walk_calls_strangeTree :
    (∃ seen rest calls, strangeTree.visits = seen ++ rest.filterMap Stop.place? ∧
      calls.map (fun c => (c.node.kind?, c.depth)) =
        [(some "program", 2), (some "arrow_function", 2), (some "identifier", 3)] ∧
      Ends Broken 9 seen rest calls (some (.visitor ()))) ∧
    (∃ seen rest calls, strangeTree.visits = seen ++ rest.filterMap Stop.place? ∧
      calls.map (fun c => (c.node.kind?, c.depth)) =
        [(some "program", 2), (some "arrow_function", 2), (some "identifier", 3),
          (some "statement_block", 3), (some "strange", 3)] ∧
      Ends Broken 9 seen rest calls (some (.tree (.unsupported "strange")) : Option (Halt Unit))) ∧
    ∃ seen rest calls, numberedTree.visits = seen ++ rest.filterMap Stop.place? ∧
      calls.map (fun c => (c.node.kind?, c.depth)) =
        [(some "program", 2), (some "function", 2), (some "identifier", 3)] ∧
      Ends Broken 9 seen rest calls
        (some (.tree (.notSequence (.atom "int" true))) : Option (Halt Unit)) := by
  have hkept : ∀ {visit : Visitor Nat Unit} {n : Node} {calls : List (Call Unit)},
      walk visit.recorded 9 n { depth := 2 } (0, []) =
        (walk visit 9 n { depth := 2 } 0).withCalls calls →
      calls = (walk visit.recorded 9 n { depth := 2 } (0, [])).state.2 := by
    intro visit n calls h
    rw [h]
    rfl
  refine ⟨?_, ?_, ?_⟩
  · obtain ⟨⟨seen, rest, calls, hvisits, -, hcalls, hends⟩, -⟩ :=
      walk_calls_preorder (raiseAt 3) 9 strangeTree { depth := 2 } 0
    exact ⟨seen, rest, calls, hvisits, by rw [hkept hcalls]; rfl, hends⟩
  · obtain ⟨⟨seen, rest, calls, hvisits, -, hcalls, hends⟩, -⟩ :=
      walk_calls_preorder (raiseAt 0) 9 strangeTree { depth := 2 } 0
    exact ⟨seen, rest, calls, hvisits, by rw [hkept hcalls]; rfl, hends⟩
  · obtain ⟨⟨seen, rest, calls, hvisits, -, hcalls, hends⟩, -⟩ :=
      walk_calls_preorder (raiseAt 0) 9 numberedTree { depth := 2 } 0
    exact ⟨seen, rest, calls, hvisits, by rw [hkept hcalls]; rfl, hends⟩

end LazyLint.Ast
