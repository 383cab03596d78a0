import LazyLint.Proofs.Preorder

/-!
# Walks along a list

A walk is a recursion over the schema that enters and leaves scopes. `march` goes along a list of stops
instead, without recursion over a tree and without entering or leaving a scope, and ends at the first
place at which the visitor raises, that has no schema, or that lies too far down, or at the first field
that cannot be gone through. `walk_eq_march` says that a walk is the march along `Node.stops`. What a walk
shows, what cuts it short and the scope that it leaves are read off the list from there on: `walk_eq_foldl`
is about a walk that is not cut short, and `walk_cutBy` says that a tree of fitting nodes cuts no walk short
but by reaching too far down.
-/

namespace LazyLint.Ast

/-! ## Malformed nodes -/

/-- Why a walk that has shown a node cannot go on to its fields. -/
def Node.malformed? (n : Node) : Option Fault :=
  match n.kind? with
  | none => some (.noKind n)
  | some _ => fault? n.fields

section Malformed

variable {n : Node} {f : Fault}

theorem isNode_of_kind {kind : String} (h : n.kind? = some kind) : n.isNode = true := by
  cases n with
  | items | atom => cases h
  | _ => rfl

theorem fields_eq_error_iff {kind : String} (hk : n.kind? = some kind) :
    n.fields = .error f ↔
      f = .unsupported kind ∧ (∀ children, n ≠ .plain kind children) ∧ schema kind = none := by
  by_cases hplain : ∃ children, n = .plain kind children
  · obtain ⟨children, rfl⟩ := hplain
    constructor
    · intro h
      cases h
    · rintro ⟨-, hne, -⟩
      exact absurd rfl (hne children)
  · have hne : ∀ children, n ≠ .plain kind children := fun children hn => hplain ⟨children, hn⟩
    unfold Node.fields
    split
    · cases hk
      exact absurd rfl (hne _)
    · rw [hk]
      cases hs : schema kind with
      | none => simp [hs, hne, eq_comm]
      | some fs => simp [hs]

/-- A walk goes on to the fields of a node unless it has no kind, or no schema for its kind. -/
theorem malformed?_eq_some_iff : n.malformed? = some f ↔
    n.kind? = none ∧ f = .noKind n ∨ ∃ kind, n.kind? = some kind ∧
      f = .unsupported kind ∧ (∀ children, n ≠ .plain kind children) ∧ schema kind = none := by
  unfold Node.malformed?
  cases hk : n.kind? with
  | none => simp [eq_comm]
  | some kind => simp [fault?_eq_some_iff, fields_eq_error_iff hk]

theorem malformed?_eq_none_iff :
    n.malformed? = none ↔ (∃ kind, n.kind? = some kind) ∧ ∃ fields, n.fields = .ok fields := by
  unfold Node.malformed?
  cases n.kind? with
  | none => simp
  | some kind => simp [fault?_eq_none_iff]

end Malformed

/-! ## One level of a walk -/

section Level

variable {σ ε : Type} {visit : Visitor σ ε} {room : Nat} {n : Node} {scope : Scope} {state : σ}

/-- One level of a walk over a node that the visitor lets pass and that has a schema. -/
theorem walk_step {kind : String} {fields : List (String × Arity)}
    (hv : (visit n scope.depth state).2 = none) (hk : n.kind? = some kind)
    (hf : n.fields = .ok fields) :
    walk visit (room + 1) n scope state =
      let w := walkFields (walk visit room) n fields (scope.enter kind).1
        (visit n scope.depth state).1
      match w.scope.exit (scope.enter kind).2 with
      | some scope => { w with scope }
      | none => { w with halt := some .imbalance } := by
  rw [walk]
  rcases hvis : visit n scope.depth state with ⟨state', stopped⟩
  rw [hvis] at hv
  obtain rfl : stopped = none := hv
  dsimp only
  rewrite [hk, hf]
  rfl

theorem walk_stopped {e : ε} (hv : (visit n scope.depth state).2 = some e) :
    walk visit (room + 1) n scope state =
      { scope, state := (visit n scope.depth state).1, halt := some (.visitor e) } := by
  rw [walk]
  rcases hvis : visit n scope.depth state with ⟨state', stopped⟩
  rw [hvis] at hv
  obtain rfl : stopped = some e := hv
  rfl

/-- A walk over a node without a schema ends there. -/
theorem walk_malformed {f : Fault} (hv : (visit n scope.depth state).2 = none)
    (hf : n.malformed? = some f) :
    walk visit (room + 1) n scope state =
      { scope, state := (visit n scope.depth state).1, halt := some (.tree f) } := by
  rw [walk]
  rcases hvis : visit n scope.depth state with ⟨state', raised⟩
  rw [hvis] at hv
  obtain rfl : raised = none := hv
  unfold Node.malformed? at hf
  cases hk : n.kind? with
  | none =>
    rw [hk] at hf
    cases hf
    rfl
  | some kind =>
    rw [hk] at hf
    rw [fault?_eq_some_iff.1 hf]
    simp only [Scope.exit_enter]

end Level

/-! ## The march along a list -/

/-- The depth at which a walk that starts in a scope shows a place. -/
def Placed.depthIn (p : Placed) (scope : Scope) : Nat :=
  scope.depth + p.depth scope.boundaryKinds

/-- Below a node the scope is the one inside it. -/
theorem Placed.depthIn_under {n : Node} {kind : String} (hk : n.kind? = some kind) (p : Placed)
    (scope : Scope) : (p.under n).depthIn scope = p.depthIn (scope.enter kind).1 := by
  rw [Placed.depthIn, Placed.depthIn, Placed.depth_under, Scope.enter_depth hk,
    Scope.enter_boundaryKinds, Nat.add_assoc]

section March

variable {σ ε : Type} (visit : Visitor σ ε) (room : Nat) (scope : Scope)

/-- What comes of one place: the state when it has been shown, and what ends the march there. The place
is shown unless it lies too far down. -/
def Placed.meet (p : Placed) (state : σ) : σ × Option (Halt ε) :=
  if room ≤ p.above.length then (state, some (.tree .tooDeep))
  else
    ((visit p.node (p.depthIn scope) state).1,
      ((visit p.node (p.depthIn scope) state).2.map .visitor).or (p.node.malformed?.map .tree))

/-- Places are shown to a visitor one after another, up to the first at which the visitor raises, that has
no schema, or that lies too far down to be shown, or up to a field that cannot be gone through. -/
def march : List Stop → σ → Walked σ ε
  | [], state => { scope, state }
  | .fault f :: _, state => { scope, state, halt := some (.tree f) }
  | .node p :: stops, state =>
    match (p.meet visit room scope state).2 with
    | some cut => { scope, state := (p.meet visit room scope state).1, halt := some cut }
    | none => march stops (p.meet visit room scope state).1

section Meet

variable {visit room scope} {p : Placed} {state : σ}

theorem meet_deep (hroom : room ≤ p.above.length) :
    p.meet visit room scope state = (state, some (.tree .tooDeep)) :=
  if_pos hroom

theorem meet_shown (hroom : ¬ room ≤ p.above.length) :
    p.meet visit room scope state = ((visit p.node (p.depthIn scope) state).1,
      ((visit p.node (p.depthIn scope) state).2.map .visitor).or (p.node.malformed?.map .tree)) :=
  if_neg hroom

/-- Below a node there is one level of room less, and the scope is the one inside the node. -/
theorem meet_under {n : Node} {kind : String} (hk : n.kind? = some kind) :
    (p.under n).meet visit (room + 1) scope state = p.meet visit room (scope.enter kind).1 state := by
  have hnode : (p.under n).node = p.node := rfl
  by_cases hroom : room ≤ p.above.length
  · rw [meet_deep hroom, meet_deep (Nat.succ_le_succ hroom)]
  · have hunder : ¬ room + 1 ≤ (p.under n).above.length := fun hle => hroom (Nat.le_of_succ_le_succ hle)
    rw [meet_shown hroom, meet_shown hunder, Placed.depthIn_under hk, hnode]

end Meet

section Step

variable {visit room scope} {p : Placed} {ps : List Stop} {state : σ}

theorem march_stop {cut : Halt ε} (h : (p.meet visit room scope state).2 = some cut) :
    march visit room scope (.node p :: ps) state =
      { scope, state := (p.meet visit room scope state).1, halt := some cut } := by
  rw [march, h]

theorem march_next (h : (p.meet visit room scope state).2 = none) :
    march visit room scope (.node p :: ps) state =
      march visit room scope ps (p.meet visit room scope state).1 := by
  rw [march, h]

theorem march_deep (hroom : room ≤ p.above.length) :
    march visit room scope (.node p :: ps) state =
      { scope, state, halt := some (.tree .tooDeep) } := by
  have hmeet : p.meet visit room scope state = (state, some (.tree .tooDeep)) := meet_deep hroom
  rw [march_stop (congrArg Prod.snd hmeet), hmeet]

theorem march_raised (hroom : ¬ room ≤ p.above.length) {e : ε}
    (hv : (visit p.node (p.depthIn scope) state).2 = some e) :
    march visit room scope (.node p :: ps) state =
      { scope, state := (visit p.node (p.depthIn scope) state).1, halt := some (.visitor e) } := by
  have hcut : (p.meet visit room scope state).2 = some (.visitor e) := by
    rw [meet_shown hroom, hv]
    rfl
  rw [march_stop hcut, meet_shown hroom]

theorem march_malformed (hroom : ¬ room ≤ p.above.length) {f : Fault}
    (hv : (visit p.node (p.depthIn scope) state).2 = none) (hf : p.node.malformed? = some f) :
    march visit room scope (.node p :: ps) state =
      { scope, state := (visit p.node (p.depthIn scope) state).1, halt := some (.tree f) } := by
  have hcut : (p.meet visit room scope state).2 = some (.tree f) := by
    rw [meet_shown hroom, hv, hf]
    rfl
  rw [march_stop hcut, meet_shown hroom]

theorem march_onward (hroom : ¬ room ≤ p.above.length)
    (hv : (visit p.node (p.depthIn scope) state).2 = none) (hf : p.node.malformed? = none) :
    march visit room scope (.node p :: ps) state =
      march visit room scope ps (visit p.node (p.depthIn scope) state).1 := by
  have hnext : (p.meet visit room scope state).2 = none := by
    rw [meet_shown hroom, hv, hf]
    rfl
  rw [march_next hnext, meet_shown hroom]

end Step

theorem march_scope (ps : List Stop) (state : σ) :
    (march visit room scope ps state).scope = scope := by
  induction ps generalizing state with
  | nil => rfl
  | cons s ps ih =>
    cases s with
    | fault f => rfl
    | node p =>
      cases h : (p.meet visit room scope state).2 with
      | some cut => rw [march_stop h]
      | none => rw [march_next h, ih]

theorem march_append (ps qs : List Stop) (state : σ) :
    march visit room scope (ps ++ qs) state =
      match (march visit room scope ps state).halt with
      | some _ => march visit room scope ps state
      | none => march visit room scope qs (march visit room scope ps state).state := by
  induction ps generalizing state with
  | nil => rfl
  | cons s ps ih =>
    cases s with
    | fault f => rfl
    | node p =>
      cases h : (p.meet visit room scope state).2 with
      | some cut => rw [List.cons_append, march_stop h, march_stop h]
      | none => rw [List.cons_append, march_next h, march_next h, ih]

theorem march_under {n : Node} {kind : String} (hk : n.kind? = some kind) (ps : List Stop)
    (state : σ) :
    march visit (room + 1) scope (ps.map (.under n)) state =
      { march visit room (scope.enter kind).1 ps state with scope } := by
  induction ps generalizing state with
  | nil => rfl
  | cons s ps ih =>
    cases s with
    | fault f => rfl
    | node p =>
      have hmeet : (p.under n).meet visit (room + 1) scope state =
          p.meet visit room (scope.enter kind).1 state := meet_under hk
      have hnode : Stop.under n (.node p) = .node (p.under n) := rfl
      cases h : (p.meet visit room (scope.enter kind).1 state).2 with
      | some cut => rw [List.map_cons, hnode, march_stop h, march_stop (hmeet ▸ h), hmeet]
      | none => rw [List.map_cons, hnode, march_next h, march_next (hmeet ▸ h), hmeet, ih]

variable {visit room scope}

theorem walkList_eq_march {go : Node → Scope → σ → Walked σ ε}
    (hgo : ∀ m st, go m scope st = march visit room scope m.stops st) (ms : List Node) (state : σ) :
    walkList go ms scope state = march visit room scope (ms.flatMap Node.stops) state := by
  induction ms generalizing state with
  | nil => rfl
  | cons m ms ih =>
    rw [walkList, List.flatMap_cons, march_append, hgo m state]
    cases (march visit room scope m.stops state).halt with
    | some cut => rfl
    | none =>
      dsimp only
      rw [march_scope, ih]

theorem walkFields_eq_march {go : Node → Scope → σ → Walked σ ε}
    (hgo : ∀ m st, go m scope st = march visit room scope m.stops st) (n : Node)
    (fields : List (String × Arity)) (state : σ) :
    walkFields go n fields scope state =
      march visit room scope ((n.metIn fields).flatMap stopsOf) state := by
  induction fields generalizing state with
  | nil => rfl
  | cons fa fields ih =>
    obtain ⟨field, arity⟩ := fa
    rw [walkFields]
    cases hfield : n.inField field arity with
    | error f =>
      rw [metIn_cons_error hfield]
      rfl
    | ok ms =>
      have hfirst : (ms.map Except.ok).flatMap stopsOf = ms.flatMap Node.stops :=
        List.flatMap_map ..
      dsimp only
      rw [metIn_cons_ok hfield, walkList_eq_march hgo, List.flatMap_append, march_append, hfirst]
      cases (march visit room scope (ms.flatMap Node.stops) state).halt with
      | some cut => rfl
      | none =>
        dsimp only
        rw [march_scope, ih]

/-- A walk is the march along the stops of the tree. -/
theorem walk_eq_march (visit : Visitor σ ε) (room : Nat) (n : Node) (scope : Scope) (state : σ) :
    walk visit room n scope state = march visit room scope n.stops state := by
  induction room generalizing n scope state with
  | zero =>
    rw [Node.stops_eq, march_deep (Nat.zero_le _)]
    rfl
  | succ room ih =>
    have hroom : ¬ room + 1 ≤ ({ node := n } : Placed).above.length := Nat.not_succ_le_zero room
    rw [Node.stops_eq]
    cases hv : (visit n scope.depth state).2 with
    | some e =>
      rw [walk_stopped hv, march_raised hroom hv]
      rfl
    | none =>
      cases hf : n.malformed? with
      | some f =>
        rw [walk_malformed hv hf, march_malformed hroom hv hf]
        rfl
      | none =>
        obtain ⟨⟨kind, hk⟩, fields, hfields⟩ := malformed?_eq_none_iff.1 hf
        have hmet : n.met = n.metIn fields := by rw [Node.met, hfields]
        rw [walk_step hv hk hfields, walkFields_eq_march fun m st => ih m _ st,
          march_onward hroom hv hf, hmet, march_under visit room scope hk]
        simp only [march_scope, Scope.exit_enter]
        rfl

/-- A walk leaves the scope as it was, also when it is cut short. -/
theorem walk_scope (visit : Visitor σ ε) (room : Nat) (n : Node) (scope : Scope) (state : σ) :
    (walk visit room n scope state).scope = scope := by
  rw [walk_eq_march, march_scope]

/-! ## A march that is not cut short -/

/-- What a visitor makes of its state when it is shown a node in its place. -/
def shown (visit : Visitor σ ε) (scope : Scope) (state : σ) (p : Placed) : σ :=
  (visit p.node (scope.depth + p.depth scope.boundaryKinds) state).1

variable {ps : List Stop} {state : σ}

theorem march_cons_inv {p : Placed} (h : (march visit room scope (.node p :: ps) state).halt = none) :
    p.above.length < room ∧ p.node.malformed? = none ∧ march visit room scope (.node p :: ps) state =
      march visit room scope ps (shown visit scope state p) := by
  by_cases hroom : room ≤ p.above.length
  · rw [march_deep hroom] at h
    cases h
  · cases hv : (visit p.node (p.depthIn scope) state).2 with
    | some e =>
      rw [march_raised hroom hv] at h
      cases h
    | none =>
      cases hf : p.node.malformed? with
      | some f =>
        rw [march_malformed hroom hv hf] at h
        cases h
      | none => exact ⟨Nat.lt_of_not_le hroom, rfl, march_onward hroom hv hf⟩

/-- A march that is not cut short has come to nothing but nodes, and has shown all of them. -/
theorem march_whole (h : (march visit room scope ps state).halt = none) :
    (∀ f, .fault f ∉ ps) ∧
    (∀ p ∈ ps.filterMap Stop.place?, p.above.length < room ∧ p.node.malformed? = none) ∧
    march visit room scope ps state =
      { scope, state := (ps.filterMap Stop.place?).foldl (shown visit scope) state } := by
  induction ps generalizing state with
  | nil => exact ⟨fun _ => List.not_mem_nil, List.forall_mem_nil _, rfl⟩
  | cons s ps ih =>
    cases s with
    | fault f => cases h
    | node p =>
      obtain ⟨hroom, hp, hnext⟩ := march_cons_inv h
      rw [hnext] at h ⊢
      obtain ⟨hfaults, hps, hmarch⟩ := ih h
      refine ⟨fun f hf => ?_, List.forall_mem_cons.2 ⟨⟨hroom, hp⟩, hps⟩, hmarch⟩
      rcases List.mem_cons.1 hf with heq | hf
      · cases heq
      · exact hfaults f hf

/-- A walk that is not cut short leaves the scope as it was and shows the nodes of the tree in
pre-order, each at the depth of its place. -/
theorem walk_eq_foldl {n : Node} (h : (walk visit room n scope state).halt = none) :
    walk visit room n scope state =
      { scope, state := n.visits.foldl (shown visit scope) state } := by
  rw [walk_eq_march] at h ⊢
  rw [← filterMap_stops]
  exact (march_whole h).2.2

/-- A walk that is not cut short had room for the whole tree. -/
theorem fitsIn_of_halt_none {n : Node} (h : (walk visit room n scope state).halt = none) :
    n.FitsIn room := by
  rw [walk_eq_march] at h
  intro p hp
  rw [← filterMap_stops] at hp
  exact ((march_whole h).2.1 p hp).1

/-! ## What cuts a walk short -/

/-- Every node of a tree has a kind and fields that can be gone through. -/
def Node.Sound (n : Node) : Prop :=
  ∀ p ∈ n.visits, (∃ kind, p.node.kind? = some kind) ∧ ∃ ms, p.node.parts? = .ok ms

theorem Node.Sound.part {n c : Node} (hn : n.Sound) (hc : c ∈ n.parts) : c.Sound := by
  intro p hp
  refine hn (p.under n) ?_
  rw [Node.visits_eq]
  exact List.mem_cons_of_mem _ (List.mem_flatMap.2 ⟨c, hc, List.mem_map_of_mem hp⟩)

/-- A walk over a sound tree comes to nothing but nodes. -/
theorem Node.Sound.stops_eq {n : Node} (hn : n.Sound) : n.stops = n.visits.map .node := by
  induction hh : n.height using Nat.strongRecOn generalizing n with
  | _ k ih =>
    obtain ⟨-, ms, hms⟩ : (∃ kind, n.kind? = some kind) ∧ ∃ ms, n.parts? = .ok ms :=
      hn { node := n } (mem_visits_iff.2 (.here n))
    have hparts := Node.parts_eq hms
    have hbelow : ms.flatMap Node.stops = ms.flatMap fun c => c.visits.map Stop.node := by
      refine List.flatMap_congr fun c hc => ?_
      rw [← hparts] at hc
      exact ih c.height (hh ▸ height_lt_of_mem_parts hc) (hn.part hc) rfl
    have hunder : Stop.under n ∘ Stop.node = Stop.node ∘ Placed.under n := rfl
    rw [Node.stops_eq, Node.visits_eq, met_eq hms, hparts, List.flatMap_map, List.map_cons]
    change _ :: (ms.flatMap Node.stops).map (Stop.under n) = _
    rw [hbelow, List.map_flatMap, List.map_flatMap]
    simp only [List.map_map, hunder]

/-- A tree in which a walk comes to nothing but nodes with a schema is sound. -/
theorem sound_of_stops {n : Node} (hfaults : ∀ f, .fault f ∉ n.stops)
    (hvisits : ∀ p ∈ n.visits, p.node.malformed? = none) : n.Sound := by
  induction hh : n.height using Nat.strongRecOn generalizing n with
  | _ k ih =>
    have hroot : n.malformed? = none := hvisits { node := n } (mem_visits_iff.2 (.here n))
    obtain ⟨hkind, fields, hf⟩ := malformed?_eq_none_iff.1 hroot
    have hmet : n.met = n.metIn fields := by rw [Node.met, hf]
    have hread : ∃ ms, n.parts? = .ok ms := by
      cases hms : n.inFields fields with
      | ok ms => exact ⟨ms, Node.parts?_eq_ok_iff.2 ⟨fields, hf, hms⟩⟩
      | error f =>
        obtain ⟨earlier, field, arity, later, -, rfl, -, herror⟩ := exists_first_inField_error hms
        refine absurd ?_ (hfaults f)
        have hin : .error f ∈ n.met := by
          rw [hmet, Node.metIn, List.mem_flatMap]
          refine ⟨(field, arity), List.mem_append_right _ (List.mem_cons_self ..), ?_⟩
          rw [herror]
          exact List.mem_singleton_self _
        rw [Node.stops_eq]
        exact List.mem_cons_of_mem _ (List.mem_map.2 ⟨.fault f,
          List.mem_flatMap.2 ⟨_, hin, List.mem_singleton_self _⟩, rfl⟩)
    intro p hp
    rw [Node.visits_eq] at hp
    rcases List.mem_cons.1 hp with rfl | hp
    · exact ⟨hkind, hread⟩
    · obtain ⟨c, hc, hp⟩ := List.mem_flatMap.1 hp
      obtain ⟨q, hq, rfl⟩ := List.mem_map.1 hp
      obtain ⟨ms, hms⟩ := hread
      have hmem : c ∈ ms := Node.parts_eq hms ▸ hc
      refine ih c.height (hh ▸ height_lt_of_mem_parts hc) (fun f hmem' => ?_) (fun r hr => ?_) rfl q hq
      · refine hfaults f ?_
        rw [Node.stops_eq, met_eq hms]
        exact List.mem_cons_of_mem _ (List.mem_map.2 ⟨.fault f,
          List.mem_flatMap.2 ⟨.ok c, List.mem_map_of_mem hmem, hmem'⟩, rfl⟩)
      · refine hvisits (r.under n) ?_
        rw [Node.visits_eq]
        exact List.mem_cons_of_mem _ (List.mem_flatMap.2 ⟨c, hc, List.mem_map_of_mem hr⟩)

/-- A tree whose walk is not cut short is sound. -/
theorem sound_of_halt_none {n : Node} (h : (walk visit room n scope state).halt = none) : n.Sound := by
  rw [walk_eq_march] at h
  obtain ⟨hfaults, hvisits, -⟩ := march_whole h
  rw [filterMap_stops] at hvisits
  exact sound_of_stops hfaults fun p hp => (hvisits p hp).2

theorem Node.Sound.malformed? {n : Node} (hn : n.Sound) : ∀ p ∈ n.visits, p.node.malformed? = none := by
  intro p hp
  obtain ⟨hkind, ms, hms⟩ := hn p hp
  obtain ⟨fields, hf, -⟩ := Node.parts?_eq_ok_iff.1 hms
  exact malformed?_eq_none_iff.2 ⟨hkind, fields, hf⟩

/-- What can cut short a walk over a tree of fitting nodes: its visitor, or a node too far down. -/
inductive CutBy (visit : Visitor σ ε) (room : Nat) (n : Node) : Halt ε → Prop
  | visitor {p : Placed} {d : Nat} {st : σ} {e : ε} (hp : p ∈ n.visits)
      (h : (visit p.node d st).2 = some e) : CutBy visit room n (.visitor e)
  | depth (h : ¬ n.FitsIn room) : CutBy visit room n (.tree .tooDeep)

theorem march_cut {ps : List Placed} {cut : Halt ε} (hps : ∀ p ∈ ps, p.node.malformed? = none)
    (h : (march visit room scope (ps.map .node) state).halt = some cut) :
    (∃ p ∈ ps, ∃ d st e, (visit p.node d st).2 = some e ∧ cut = .visitor e) ∨
      cut = .tree .tooDeep ∧ ∃ p ∈ ps, room ≤ p.above.length := by
  induction ps generalizing state with
  | nil => cases h
  | cons p ps ih =>
    obtain ⟨hp, hps⟩ := List.forall_mem_cons.1 hps
    rw [List.map_cons] at h
    by_cases hroom : room ≤ p.above.length
    · rw [march_deep hroom] at h
      cases h
      exact .inr ⟨rfl, p, List.mem_cons_self .., hroom⟩
    · cases hv : (visit p.node (p.depthIn scope) state).2 with
      | some e =>
        rw [march_raised hroom hv] at h
        cases h
        exact .inl ⟨p, List.mem_cons_self .., _, _, e, hv, rfl⟩
      | none =>
        rw [march_onward hroom hv hp] at h
        rcases ih hps h with ⟨q, hq, hraised⟩ | ⟨hcut, q, hq, hdeep⟩
        · exact .inl ⟨q, List.mem_cons_of_mem _ hq, hraised⟩
        · exact .inr ⟨hcut, q, List.mem_cons_of_mem _ hq, hdeep⟩

theorem walk_cutBy {n : Node} (hn : n.Sound) {cut : Halt ε}
    (h : (walk visit room n scope state).halt = some cut) : CutBy visit room n cut := by
  rw [walk_eq_march, hn.stops_eq] at h
  rcases march_cut hn.malformed? h with ⟨p, hp, d, st, e, he, rfl⟩ | ⟨rfl, p, hp, hdeep⟩
  · exact .visitor hp he
  · exact .depth fun hfits => Nat.not_le_of_lt (hfits p hp) hdeep

section NeverStops

variable {n : Node} (hv : ∀ p ∈ n.visits, ∀ d st, (visit p.node d st).2 = none) (hn : n.Sound)

include hv hn

theorem walk_halt_cases (room : Nat) (scope : Scope) (state : σ) :
    (walk visit room n scope state).halt = none ∨
      (walk visit room n scope state).halt = some (.tree .tooDeep) ∧ ¬ n.FitsIn room := by
  cases hcut : (walk visit room n scope state).halt with
  | none => exact .inl rfl
  | some cut =>
    cases walk_cutBy hn hcut with
    | visitor hp he =>
      rw [hv _ hp] at he
      cases he
    | depth hfar => exact .inr ⟨rfl, hfar⟩

/-- A visitor that never stops walks a sound tree to its end, unless the tree is higher than the
walk has room for. -/
theorem walk_halt (room : Nat) (scope : Scope) (state : σ) :
    (walk visit room n scope state).halt = none ∨
      (walk visit room n scope state).halt = some (.tree .tooDeep) ∧ room < n.height := by
  obtain ⟨⟨kind, hk⟩, -⟩ : (∃ kind, n.kind? = some kind) ∧ ∃ ms, n.parts? = .ok ms :=
    hn { node := n } (mem_visits_iff.2 (.here n))
  refine (walk_halt_cases hv hn room scope state).imp_right fun ⟨h, hfar⟩ => ⟨h, ?_⟩
  exact Nat.lt_of_not_le fun hle => hfar (Node.fitsIn_of_height_le (isNode_of_kind hk) hle)

theorem walk_halt_eq_none_iff {room : Nat} {scope : Scope} {state : σ} :
    (walk visit room n scope state).halt = none ↔ n.FitsIn room := by
  refine ⟨fitsIn_of_halt_none, fun hfits => ?_⟩
  rcases walk_halt_cases hv hn room scope state with h | ⟨-, hfar⟩
  · exact h
  · exact absurd hfits hfar

end NeverStops

end March

end LazyLint.Ast
