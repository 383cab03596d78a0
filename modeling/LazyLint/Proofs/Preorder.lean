import LazyLint.Ast.Walk
import LazyLint.Proofs.Fallible

/-!
# What a walk shows

A walk threads a counter and a state through a recursion over the schema. Here the same walk is a
list: `Node.visits` holds every node of a tree in pre-order, each with the nodes above it, and no
state at all. The depth at which a node is shown is given by the nodes above it.

The list is defined for every tree. A node without a schema counts as a leaf of it: the walk shows such a
node before it stops there. A field that cannot be gone through counts as an empty one, and `Node.stops`,
which has a fault in its place, says where a walk stops for it.
-/

namespace LazyLint.Ast

/-! ## The nodes below a node -/

/-- The nodes that a traversal finds in some fields of a node, field by field. -/
def Node.inFields (n : Node) : List (String × Arity) → Except Fault (List Node)
  | [] => .ok []
  | (field, arity) :: fields => do
    let first ← n.inField field arity
    let rest ← n.inFields fields
    return first ++ rest

/-- The nodes right below a node, in the order of its schema. -/
def Node.parts? (n : Node) : Except Fault (List Node) := do
  n.inFields (← n.fields)

/-- The nodes in some fields of a node, each with the field; none in one that cannot be gone through. -/
def Node.branchesIn (n : Node) (fields : List (String × Arity)) : List (String × Node) :=
  fields.flatMap fun fa =>
    match n.inField fa.1 fa.2 with
    | .ok ms => ms.map (fa.1, ·)
    | .error _ => []

/-- The nodes right below a node, each with the field that it hangs from. -/
def Node.branches (n : Node) : List (String × Node) :=
  match n.fields with
  | .ok fields => n.branchesIn fields
  | .error _ => []

/-- The nodes right below a node; none below one without a schema. -/
def Node.parts (n : Node) : List Node :=
  n.branches.map Prod.snd

section Parts

variable {n m : Node} {field : String} {arity : Arity} {fields : List (String × Arity)}
  {ms : List Node}

theorem Node.inFields_cons_eq_ok_iff :
    n.inFields ((field, arity) :: fields) = .ok ms ↔
      ∃ first rest, n.inField field arity = .ok first ∧ n.inFields fields = .ok rest ∧
        ms = first ++ rest := by
  rw [Node.inFields, bind_eq_ok_iff]
  constructor
  · rintro ⟨first, hf, h⟩
    obtain ⟨rest, hr, h⟩ := bind_eq_ok_iff.1 h
    cases h
    exact ⟨first, rest, hf, hr, rfl⟩
  · rintro ⟨first, rest, hf, hr, rfl⟩
    exact ⟨first, hf, bind_eq_ok_iff.2 ⟨rest, hr, rfl⟩⟩

theorem Node.parts?_eq_ok_iff :
    n.parts? = .ok ms ↔ ∃ fields, n.fields = .ok fields ∧ n.inFields fields = .ok ms :=
  bind_eq_ok_iff

theorem branchesIn_cons (h : n.inField field arity = .ok ms) :
    n.branchesIn ((field, arity) :: fields) = ms.map (field, ·) ++ n.branchesIn fields := by
  rw [Node.branchesIn, List.flatMap_cons, h]
  rfl

theorem map_snd_branchesIn (h : n.inFields fields = .ok ms) :
    (n.branchesIn fields).map Prod.snd = ms := by
  induction fields generalizing ms with
  | nil =>
    cases h
    rfl
  | cons fa fields ih =>
    obtain ⟨field, arity⟩ := fa
    obtain ⟨first, rest, hf, hr, rfl⟩ := Node.inFields_cons_eq_ok_iff.1 h
    rw [branchesIn_cons hf, List.map_append, ih hr, List.map_map]
    exact congrArg (· ++ rest) (List.map_id first)

theorem Node.parts_eq (h : n.parts? = .ok ms) : n.parts = ms := by
  obtain ⟨fields, hf, hread⟩ := Node.parts?_eq_ok_iff.1 h
  rw [Node.parts, Node.branches, hf]
  exact map_snd_branchesIn hread

/-- What a traversal finds in some fields, it finds in one of them. -/
theorem Node.mem_branchesIn_iff : (field, m) ∈ n.branchesIn fields ↔
    ∃ arity found, (field, arity) ∈ fields ∧ n.inField field arity = .ok found ∧ m ∈ found := by
  rw [Node.branchesIn, List.mem_flatMap]
  constructor
  · rintro ⟨⟨f, arity⟩, hmem, h⟩
    dsimp only at h
    split at h
    · rename_i found hfound
      obtain ⟨m', hm, heq⟩ := List.mem_map.1 h
      cases heq
      exact ⟨arity, found, hmem, hfound, hm⟩
    · cases h
  · rintro ⟨arity, found, hmem, hfound, hm⟩
    refine ⟨(field, arity), hmem, ?_⟩
    simp only [hfound]
    exact List.mem_map_of_mem hm

theorem Node.mem_parts_iff : m ∈ n.parts ↔ ∃ fields field arity found, n.fields = .ok fields ∧
    (field, arity) ∈ fields ∧ n.inField field arity = .ok found ∧ m ∈ found := by
  rw [Node.parts, Node.branches]
  constructor
  · intro h
    obtain ⟨⟨field, m'⟩, hb, rfl⟩ := List.mem_map.1 h
    split at hb
    · rename_i fields hf
      obtain ⟨arity, found, hmem⟩ := Node.mem_branchesIn_iff.1 hb
      exact ⟨fields, field, arity, found, hf, hmem⟩
    · cases hb
  · rintro ⟨fields, field, arity, found, hf, hmem⟩
    rw [hf]
    exact List.mem_map.2 ⟨(field, m), Node.mem_branchesIn_iff.2 ⟨arity, found, hmem⟩, rfl⟩

/-- What a traversal finds in a field is the node that is held there, or one of the items. -/
theorem Node.held_of_mem_inField (h : n.inField field arity = .ok ms) (hm : m ∈ ms) :
    m.isNode = true ∧ (n.held field = m ∨ ∃ values, n.held field = .items values ∧ m ∈ values) := by
  unfold Node.inField at h
  split at h
  · cases h
    obtain ⟨hmem, hnode⟩ := List.mem_filter.1 hm
    exact ⟨hnode, .inl (List.mem_singleton.1 hmem).symm⟩
  · split at h
    · rename_i values hheld
      cases h
      obtain ⟨hmem, hnode⟩ := List.mem_filter.1 hm
      exact ⟨hnode, .inr ⟨values, hheld, hmem⟩⟩
    · cases h
      cases hm
    · cases h

/-- A field cannot be gone through where a list should be and a node stands, or a value that is no list
and not empty. -/
theorem held_of_inField_error {f : Fault} (h : n.inField field arity = .error f) :
    arity = .sequence ∧ f = .notSequence (n.held field) ∧
      ((n.held field).isNode = true ∨ ∃ type, n.held field = .atom type true) := by
  unfold Node.inField at h
  split at h
  · cases h
  · split at h
    · cases h
    · cases h
    · rename_i hitems hatom
      cases h
      refine ⟨rfl, rfl, ?_⟩
      cases hv : n.held field with
      | items values => exact absurd hv (hitems values)
      | atom type truthy =>
        cases truthy with
        | false => exact absurd hv (hatom type)
        | true => exact .inr ⟨type, rfl⟩
      | _ => exact .inl rfl

end Parts

section Height

variable {n m : Node} {field : String}

theorem height_le_heights {ms : List Node} (h : m ∈ ms) : m.height ≤ heights ms := by
  induction ms with
  | nil => cases h
  | cons a ms ih =>
    rw [heights]
    rcases List.mem_cons.1 h with rfl | h
    · exact Nat.le_max_left ..
    · exact Nat.le_trans (ih h) (Nat.le_max_right ..)

theorem height_held_lt (h : n.held field ≠ .absent) : (n.held field).height < n.height := by
  unfold Node.held at h ⊢
  split at h <;> first | exact absurd rfl h | (simp only [Node.height]; omega)

theorem height_lt_of_mem_parts (h : m ∈ n.parts) : m.height < n.height := by
  obtain ⟨fields, field, arity, found, -, -, hfound, hm⟩ := Node.mem_parts_iff.1 h
  obtain ⟨hnode, hheld | ⟨values, hheld, hmem⟩⟩ := Node.held_of_mem_inField hfound hm
  · have hne : n.held field ≠ .absent := by
      rw [hheld]
      rintro rfl
      cases hnode
    exact hheld ▸ height_held_lt hne
  · have hne : n.held field ≠ .absent := by simp [hheld]
    have hlt := height_held_lt hne
    have hle := height_le_heights hmem
    rw [hheld, Node.height] at hlt
    omega

theorem height_pos (hn : n.isNode = true) : 0 < n.height := by
  cases n with
  | items | atom => cases hn
  | _ => simp [Node.height]

theorem isNode_of_mem_parts (h : m ∈ n.parts) : m.isNode = true := by
  obtain ⟨_, _, _, _, -, -, hfound, hm⟩ := Node.mem_parts_iff.1 h
  exact (Node.held_of_mem_inField hfound hm).1

end Height

/-! ## Places -/

/-- A node in its place in a tree. -/
structure Placed where
  /-- The nodes above it, the root first. -/
  above : List Node := []
  node : Node

/-- The same place in the tree of a node further up. -/
def Placed.under (n : Node) (p : Placed) : Placed :=
  { p with above := n :: p.above }

/-- The nodes of a tree in pre-order, each in its place. -/
def Node.visits (n : Node) : List Placed :=
  { node := n } :: n.parts.attach.flatMap fun ⟨c, _⟩ => c.visits.map (.under n)
termination_by n.height
decreasing_by exact height_lt_of_mem_parts ‹_›

theorem Node.visits_eq (n : Node) :
    n.visits = { node := n } :: n.parts.flatMap fun c => c.visits.map (.under n) := by
  rw [Node.visits]
  simp

/-- A path from the root of a tree to one of its nodes, by the nodes that it passes, the root
first. -/
inductive Path : Node → List Node → Node → Prop
  | here (n : Node) : Path n [] n
  | step {n c m : Node} {above : List Node} (hc : c ∈ n.parts) (h : Path c above m) :
    Path n (n :: above) m

theorem mem_visits_iff {n : Node} {p : Placed} : p ∈ n.visits ↔ Path n p.above p.node := by
  induction hh : n.height using Nat.strongRecOn generalizing n p with
  | _ k ih =>
    rw [Node.visits_eq, List.mem_cons, List.mem_flatMap]
    constructor
    · rintro (rfl | ⟨c, hc, hp⟩)
      · exact .here n
      · obtain ⟨q, hq, rfl⟩ := List.mem_map.1 hp
        have hlt := height_lt_of_mem_parts hc
        exact .step hc ((ih c.height (hh ▸ hlt) rfl).1 hq)
    · obtain ⟨above, node⟩ := p
      intro h
      cases h with
      | here => exact .inl rfl
      | step hc h =>
        have hlt := height_lt_of_mem_parts hc
        refine .inr ⟨_, hc, List.mem_map.2 ⟨⟨_, node⟩, ?_, rfl⟩⟩
        exact (ih _ (hh ▸ hlt) rfl).2 h

/-- No node of the tree lies so many levels below its root. -/
def Node.FitsIn (n : Node) (room : Nat) : Prop :=
  ∀ p ∈ n.visits, p.above.length < room

theorem Node.not_fitsIn_zero (n : Node) : ¬ n.FitsIn 0 := by
  intro h
  have hroot := h { node := n } (mem_visits_iff.2 (.here n))
  exact Nat.not_lt_zero _ hroot

theorem Node.fitsIn_succ_iff {n : Node} {room : Nat} :
    n.FitsIn (room + 1) ↔ ∀ c ∈ n.parts, c.FitsIn room := by
  unfold Node.FitsIn
  rw [Node.visits_eq]
  constructor
  · intro h c hc p hp
    have hunder := h (p.under n) (List.mem_cons_of_mem _
      (List.mem_flatMap.2 ⟨c, hc, List.mem_map.2 ⟨p, hp, rfl⟩⟩))
    exact Nat.lt_of_succ_lt_succ hunder
  · intro h p hp
    rcases List.mem_cons.1 hp with rfl | hp
    · exact Nat.succ_pos room
    · obtain ⟨c, hc, hp⟩ := List.mem_flatMap.1 hp
      obtain ⟨q, hq, rfl⟩ := List.mem_map.1 hp
      exact Nat.succ_lt_succ (h c hc q hq)

theorem Path.length_lt_height {n m : Node} {above : List Node} (h : Path n above m)
    (hn : n.isNode = true) : above.length < n.height := by
  induction h with
  | here n => exact height_pos hn
  | step hc _ ih =>
    have hlt := height_lt_of_mem_parts hc
    have hbelow := ih (isNode_of_mem_parts hc)
    rw [List.length_cons]
    omega

theorem Node.fitsIn_of_height_le {n : Node} {room : Nat} (hn : n.isNode = true)
    (h : n.height ≤ room) : n.FitsIn room :=
  fun _ hp => Nat.lt_of_lt_of_le ((mem_visits_iff.1 hp).length_lt_height hn) h

/-! ## What a walk comes to -/

/-- What a walk comes to in some fields of a node: the nodes there, and a fault in the place of a field
that cannot be gone through. -/
def Node.metIn (n : Node) (fields : List (String × Arity)) : List (Except Fault Node) :=
  fields.flatMap fun fa =>
    match n.inField fa.1 fa.2 with
    | .ok ms => ms.map .ok
    | .error f => [.error f]

/-- What a walk comes to right below a node that has a schema. -/
def Node.met (n : Node) : List (Except Fault Node) :=
  match n.fields with
  | .ok fields => n.metIn fields
  | .error _ => []

section Met

variable {n : Node} {fields : List (String × Arity)}

theorem filterMap_metIn (n : Node) (fields : List (String × Arity)) :
    (n.metIn fields).filterMap Except.toOption = (n.branchesIn fields).map Prod.snd := by
  rw [Node.metIn, Node.branchesIn, List.filterMap_flatMap, List.map_flatMap]
  refine List.flatMap_congr fun fa _ => ?_
  cases n.inField fa.1 fa.2 with
  | ok ms => simp [Except.toOption, Function.comp_def]
  | error f => rfl

theorem filterMap_met (n : Node) : n.met.filterMap Except.toOption = n.parts := by
  rw [Node.met, Node.parts, Node.branches]
  cases n.fields with
  | ok fields => exact filterMap_metIn n fields
  | error f => rfl

theorem mem_parts_of_met {c : Node} (h : .ok c ∈ n.met) : c ∈ n.parts := by
  rw [← filterMap_met]
  exact List.mem_filterMap.2 ⟨_, h, rfl⟩

theorem metIn_cons_ok {field : String} {arity : Arity} {ms : List Node}
    (h : n.inField field arity = .ok ms) :
    n.metIn ((field, arity) :: fields) = ms.map .ok ++ n.metIn fields := by
  rw [Node.metIn, List.flatMap_cons, h]
  rfl

theorem metIn_cons_error {field : String} {arity : Arity} {f : Fault}
    (h : n.inField field arity = .error f) :
    n.metIn ((field, arity) :: fields) = .error f :: n.metIn fields := by
  rw [Node.metIn, List.flatMap_cons, h]
  rfl

theorem metIn_of_inFields {ms : List Node} (h : n.inFields fields = .ok ms) :
    n.metIn fields = ms.map .ok := by
  induction fields generalizing ms with
  | nil =>
    cases h
    rfl
  | cons fa fields ih =>
    obtain ⟨field, arity⟩ := fa
    obtain ⟨first, rest, hf, hr, rfl⟩ := Node.inFields_cons_eq_ok_iff.1 h
    rw [metIn_cons_ok hf, ih hr, List.map_append]

theorem met_eq {ms : List Node} (h : n.parts? = .ok ms) : n.met = ms.map .ok := by
  obtain ⟨fields, hf, hread⟩ := Node.parts?_eq_ok_iff.1 h
  rw [Node.met, hf]
  exact metIn_of_inFields hread

/-- Fields that cannot all be gone through have a first such field. -/
theorem exists_first_inField_error {f : Fault} (h : n.inFields fields = .error f) :
    ∃ earlier field arity later ms, fields = earlier ++ (field, arity) :: later ∧
      n.inFields earlier = .ok ms ∧ n.inField field arity = .error f := by
  induction fields with
  | nil => cases h
  | cons fa fields ih =>
    obtain ⟨field, arity⟩ := fa
    rw [Node.inFields] at h
    cases hfirst : n.inField field arity with
    | error g =>
      rw [hfirst] at h
      cases h
      exact ⟨[], field, arity, fields, [], rfl, rfl, hfirst⟩
    | ok first =>
      rw [hfirst] at h
      cases hrest : n.inFields fields with
      | error g =>
        rw [hrest] at h
        cases h
        obtain ⟨earlier, field', arity', later, ms, rfl, hread, herror⟩ := ih hrest
        refine ⟨(field, arity) :: earlier, field', arity', later, first ++ ms, rfl, ?_, herror⟩
        exact Node.inFields_cons_eq_ok_iff.2 ⟨first, ms, hfirst, hread, rfl⟩
      | ok rest =>
        rw [hrest] at h
        cases h

end Met

/-- What a walk comes to next. -/
inductive Stop where
  /-- A node, in its place. -/
  | node (p : Placed)
  /-- A field that cannot be gone through. -/
  | fault (f : Fault)

def Stop.under (n : Node) : Stop → Stop
  | .node p => .node (p.under n)
  | .fault f => .fault f

def Stop.place? : Stop → Option Placed
  | .node p => some p
  | .fault _ => none

/-- The nodes of a tree in pre-order and the fields that cannot be gone through, each where a walk comes
to it. -/
def Node.stops (n : Node) : List Stop :=
  .node { node := n } :: n.met.attach.flatMap fun
    | ⟨.ok c, _⟩ => c.stops.map (.under n)
    | ⟨.error f, _⟩ => [.fault f]
termination_by n.height
decreasing_by exact height_lt_of_mem_parts (mem_parts_of_met ‹_›)

/-- What a walk comes to in a node that it has met, or the fault in its place. -/
def stopsOf : Except Fault Node → List Stop
  | .ok c => c.stops
  | .error f => [.fault f]

section Stops

variable {n : Node}

theorem Node.stops_eq (n : Node) :
    n.stops = .node { node := n } :: (n.met.flatMap stopsOf).map (.under n) := by
  rw [Node.stops, List.map_flatMap]
  congr 1
  conv_rhs => rw [← List.attach_map_subtype_val n.met, List.flatMap_map]
  refine List.flatMap_congr fun b _ => ?_
  match b with
  | ⟨.ok c, _⟩ => rfl
  | ⟨.error f, _⟩ => rfl

/-- The nodes among the stops are those of the tree. -/
theorem filterMap_stops (n : Node) : n.stops.filterMap Stop.place? = n.visits := by
  induction hh : n.height using Nat.strongRecOn generalizing n with
  | _ k ih =>
    have hunder : Stop.place? ∘ Stop.under n = fun s => s.place?.map (.under n) := by
      funext s
      cases s <;> rfl
    have hbelow : ∀ met : List (Except Fault Node), (∀ b ∈ met, b ∈ n.met) →
        ((met.flatMap stopsOf).map (.under n)).filterMap Stop.place? =
          (met.filterMap Except.toOption).flatMap fun c => c.visits.map (.under n) := by
      intro met
      induction met with
      | nil => exact fun _ => rfl
      | cons b met ihmet =>
        intro hmem
        obtain ⟨hb, hmet⟩ := List.forall_mem_cons.1 hmem
        rw [List.flatMap_cons, List.map_append, List.filterMap_append, ihmet hmet]
        cases b with
        | error f => rfl
        | ok c =>
          have hlt := height_lt_of_mem_parts (mem_parts_of_met hb)
          have hc := ih c.height (hh ▸ hlt) c rfl
          rw [stopsOf, List.filterMap_map, hunder, ← List.map_filterMap, hc]
          rfl
    rw [Node.stops_eq, Node.visits_eq, ← filterMap_met]
    exact congrArg _ (hbelow n.met fun _ => id)

end Stops

/-! ## Depth -/

/-- Whether a node opens a scope. -/
def Node.opens (n : Node) (kinds : List String) : Bool :=
  n.kind?.any kinds.contains

/-- How many of the nodes above a place open a scope. -/
def Placed.depth (p : Placed) (kinds : List String) : Nat :=
  p.above.countP (·.opens kinds)

theorem Placed.depth_under (n : Node) (p : Placed) (kinds : List String) :
    (p.under n).depth kinds = (if n.opens kinds then 1 else 0) + p.depth kinds := by
  rw [Placed.depth, Placed.under, List.countP_cons, Nat.add_comm, Placed.depth]

theorem Placed.depth_eq_zero_iff {p : Placed} {kinds : List String} :
    p.depth kinds = 0 ↔ ∀ a ∈ p.above, a.opens kinds = false := by
  simp [Placed.depth, List.countP_eq_zero]

theorem Scope.exit_enter (s : Scope) (kind : String) :
    (s.enter kind).1.exit (s.enter kind).2 = some s := by
  unfold Scope.enter
  split
  · simp [Scope.exit]
  · rfl

theorem Scope.enter_depth {s : Scope} {n : Node} {kind : String} (hk : n.kind? = some kind) :
    (s.enter kind).1.depth = s.depth + if n.opens s.boundaryKinds then 1 else 0 := by
  unfold Scope.enter Scope.isBoundary Node.opens
  rw [hk, Option.any_some]
  split <;> rfl

theorem Scope.depth_lt_enter_iff {s : Scope} {kind : String} :
    s.depth < (s.enter kind).1.depth ↔ kind ∈ s.boundaryKinds := by
  unfold Scope.enter Scope.isBoundary
  split
  · rename_i h
    simpa using h
  · rename_i h
    simpa using h

theorem Scope.enter_boundaryKinds (s : Scope) (kind : String) :
    (s.enter kind).1.boundaryKinds = s.boundaryKinds := by
  unfold Scope.enter
  split <;> rfl

end LazyLint.Ast
