import LazyLint.Import
import LazyLint.Proofs.Schema
import LazyLint.Proofs.Shape

/-!
# Lowering keeps the import sites

The sites of a source are found by walking its lowered tree. They can be read off the concrete tree
as well: `scan` goes over its named nodes in pre-order, looks at the fields of the grammar, and counts
a scope for everything below a function and for what is below the parameters and the body of a method.
Neither splices a node away nor makes one up.

`scan_lower` shows that the two find the same, one site for each occurrence and in the same order, at
whatever depth they start. The induction is over the nodes that lowering looks at. In a method, the
scope that the scan opens for two of the children is the function that lowering makes of them.
-/

namespace LazyLint.Cst

open Import (Site Form site?)

/-! ## Occurrences in a concrete tree -/

/-- A place in a concrete tree where a module is loaded by a string literal. -/
structure Occurrence where
  literal : Node
  depth : Nat
  form : Form

/-- The site of an occurrence, if its literal has a value. -/
def Occurrence.site (src : List UInt8) (o : Occurrence) : Except Escape.Fault Site := do
  return { specifier := ← stringValue src o.literal, depth := o.depth, form := o.form }

/-- The first argument of a call that has a list of arguments. -/
def Node.firstArgument (n : Node) : Option Node := do
  let args ← n.childByField "arguments"
  if args.kind = "arguments" then (kept args.children).head? else none

/-- What a callee loads modules as. -/
def Node.loader? (src : List UInt8) (callee : Node) : Option Form :=
  if callee.kind = "identifier" && Utf8.text src callee.start callee.stop = Import.requireName then
    some .require
  else if callee.kind = "import" then some .dynamic
  else none

/-- The occurrence that a node at some depth is, if it is one. -/
def Node.occurrence? (src : List UInt8) (depth : Nat) (n : Node) : Option Occurrence :=
  if n.kind = "import_statement" then do
    let literal ← n.childByField "source"
    if literal.kind = "string" && depth = 0 then some { literal, depth, form := .static } else none
  else if n.kind = "call_expression" then do
    let form ← (← n.childByField "function").loader? src
    let literal ← n.firstArgument
    if literal.kind = "string" then some { literal, depth, form } else none
  else none

/-- Whether a child of a node of some kind is in a scope that its parent opens. -/
def opensFor (kind : String) (child : Node) : Bool :=
  Ast.functionKinds.contains kind ||
    kind = "method_definition" &&
      (child.head.field = some "parameters" || child.head.field = some "body")

mutual

/-- The occurrences among a node at some depth and the named nodes below it, in pre-order; comments
are passed over. -/
def scan (src : List UInt8) (depth : Nat) : Node → List Occurrence
  | .mk h cs => (Node.occurrence? src depth (.mk h cs)).toList ++ scanAmong src depth h.kind cs

/-- The occurrences among the children of a node of some kind at some depth. -/
def scanAmong (src : List UInt8) (depth : Nat) (kind : String) : List Node → List Occurrence
  | [] => []
  | c :: cs =>
    (if c.named && ! isSkipped c.kind then scan src (if opensFor kind c then depth + 1 else depth) c
      else []) ++ scanAmong src depth kind cs

end

section Scan

variable (src : List UInt8) (depth : Nat)

theorem scanAmong_eq (kind : String) (ns : List Node) :
    scanAmong src depth kind ns =
      (kept ns).flatMap fun c => scan src (if opensFor kind c then depth + 1 else depth) c := by
  induction ns with
  | nil => rfl
  | cons n ns ih =>
    rw [scanAmong, ih, kept_cons]
    split
    · rw [List.flatMap_cons]
    · rw [List.nil_append]

theorem scan_eq (n : Node) :
    scan src depth n = (n.occurrence? src depth).toList ++
      (kept n.children).flatMap fun c =>
        scan src (if opensFor n.kind c then depth + 1 else depth) c := by
  obtain ⟨h, cs⟩ := n
  rw [scan, scanAmong_eq]
  rfl

theorem occurrence?_eq_none {n : Node} (hi : n.kind ≠ "import_statement")
    (hc : n.kind ≠ "call_expression") : n.occurrence? src depth = none := by
  simp [Node.occurrence?, hi, hc]

/-- Nodes of most kinds are no occurrence and open no scope. -/
theorem scan_transparent {n : Node} (hi : n.kind ≠ "import_statement")
    (hc : n.kind ≠ "call_expression") (hf : n.kind ∉ Ast.functionKinds)
    (hm : n.kind ≠ "method_definition") :
    scan src depth n = (kept n.children).flatMap (scan src depth) := by
  have hopen : ∀ c, opensFor n.kind c = false := by simp [opensFor, hf, hm]
  rw [scan_eq, occurrence?_eq_none src depth hi hc]
  simp [hopen]

/-- Nothing is found where there is neither a call nor an import. -/
theorem scan_eq_nil {n : Node} (h : ∀ m ∈ n.nodes, m.kind ≠ "call_expression" ∧
    m.kind ≠ "import_statement") : scan src depth n = [] := by
  induction hw : n.weight using Nat.strongRecOn generalizing n depth with
  | _ w ih =>
    obtain ⟨hc, hi⟩ := h n n.mem_nodes_self
    rw [scan_eq, List.append_eq_nil_iff, List.flatMap_eq_nil_iff]
    refine ⟨by rw [occurrence?_eq_none src depth hi hc]; rfl, fun c hk => ?_⟩
    have hmem := mem_of_kept hk
    have hle := Node.weight_le_of_mem hmem
    rw [Node.weight_eq] at hw
    exact ih c.weight (by omega) _ (fun m hm => h m (mem_nodes_of_child hmem hm)) rfl

/-- A list of parameters shows its elements. -/
theorem scan_parameters {n : Node} (h : Fits n) (hk : n.kind ∈ bodyKinds) :
    (n.childByField "parameters").toList.flatMap (scan src depth) =
      (Plan.parameters n).flatMap (scan src depth) := by
  unfold Plan.parameters
  cases hp : n.childByField "parameters" with
  | none => rfl
  | some ps =>
    have hkind := h.parameters hk ps hp
    rw [Option.toList_some, List.flatMap_singleton]
    apply scan_transparent <;> rw [hkind] <;> decide

theorem scan_allParameters {n : Node} (h : Fits n) (hk : n.kind ∈ bodyKinds) :
    n.parameterPart.toList.flatMap (scan src depth) =
      (Plan.allParameters n).flatMap (scan src depth) := by
  unfold Node.parameterPart Plan.allParameters
  cases hp : n.childByField "parameters" with
  | none => simp
  | some ps =>
    have hs := scan_parameters src depth h hk
    rw [hp] at hs
    exact hs

/-- An argument list shows its elements, a template is an argument of its own. -/
theorem scan_arguments {n args : Node} (ha : n.childByField "arguments" = some args)
    (hk : args.kind = "arguments" ∨ args.kind = "template_string") :
    scan src depth args = (Plan.arguments n).flatMap (scan src depth) := by
  rw [Plan.arguments, ha]
  rcases hk with hk | hk
  · simp only [hk, ↓reduceIte]
    apply scan_transparent <;> rw [hk] <;> decide
  · have hne : args.kind ≠ "arguments" := by
      rw [hk]
      decide
    simp [hne]

end Scan

/-! ## Sites of a lowered tree -/

/-- The sites of a lowered tree that stands at some depth, in pre-order. -/
def sitesFrom (depth : Nat) (t : Ast.Node) : List Site :=
  t.visits.filterMap fun p => site? p.node ((depth + p.depth Ast.functionKinds : Nat) : Int)

theorem sitesFrom_eq {t : Ast.Node} {kind : String} {ts : List Ast.Node}
    (hk : t.kind? = some kind) (hp : t.parts? = .ok ts) (depth : Nat) :
    sitesFrom depth t = (site? t depth).toList ++
      ts.flatMap (sitesFrom (if kind ∈ Ast.functionKinds then depth + 1 else depth)) := by
  have hopen : t.opens Ast.functionKinds = decide (kind ∈ Ast.functionKinds) := by
    simp [Ast.Node.opens, hk]
  have hunder : ∀ p : Ast.Placed, depth + (p.under t).depth Ast.functionKinds =
      (if kind ∈ Ast.functionKinds then depth + 1 else depth) + p.depth Ast.functionKinds := by
    intro p
    rw [Ast.Placed.depth_under, hopen]
    by_cases hm : kind ∈ Ast.functionKinds
    · simp only [hm, decide_true, ↓reduceIte]
      omega
    · simp [hm]
  have hroot : (Ast.Placed.mk [] t).depth Ast.functionKinds = 0 := rfl
  have hbelow : ∀ c : Ast.Node,
      (c.visits.map (Ast.Placed.under t)).filterMap
        (fun p => site? p.node ((depth + p.depth Ast.functionKinds : Nat) : Int)) =
      sitesFrom (if kind ∈ Ast.functionKinds then depth + 1 else depth) c := by
    intro c
    rw [List.filterMap_map, sitesFrom]
    congr 1
    funext p
    rw [Function.comp_apply, hunder p]
    rfl
  rw [sitesFrom, Ast.Node.visits_eq, Ast.Node.parts_eq hp, ← List.singleton_append,
    List.filterMap_append, List.filterMap_flatMap]
  simp only [hbelow]
  rw [List.filterMap_cons, List.filterMap_nil, hroot, Nat.add_zero]
  cases site? t depth <;> rfl

/-! ## The two agree -/

/-- The sites are those of the occurrences, one for each and in the same order. -/
def Found (src : List UInt8) : List Occurrence → List Site → Prop :=
  List.Forall₂ fun o s => o.site src = .ok s

section Agree

variable {src : List UInt8} {n m : Node} {t s : Ast.Node}

theorem Found.append {os os' : List Occurrence} {ss ss' : List Site} (h : Found src os ss)
    (h' : Found src os' ss') : Found src (os ++ os') (ss ++ ss') :=
  List.rel_append h h'

theorem Found.eq_nil {ss : List Site} (h : Found src [] ss) : ss = [] :=
  List.forall₂_nil_left_iff.1 h

/-- Whatever depth it stands at, a tree of the grammar's shape shows the sites of its lowered
tree. -/
def Keeps (src : List UInt8) (n : Node) (t : Ast.Node) : Prop :=
  n.Shaped → ∀ depth, Found src (scan src depth n) (sitesFrom depth t)

theorem found_flatMap {ms : List Node} {ts : List Ast.Node}
    (h : List.Forall₂ (fun m s => lower src m = .ok s ∧ Keeps src m s) ms ts)
    (hs : ∀ m ∈ ms, m.Shaped) (depth : Nat) :
    Found src (ms.flatMap (scan src depth)) (ts.flatMap (sitesFrom depth)) := by
  induction h with
  | nil => exact .nil
  | cons hm _ ih =>
    rw [List.flatMap_cons, List.flatMap_cons]
    exact (hm.2 (hs _ (List.mem_cons_self ..)) depth).append
      (ih fun m' hm' => hs m' (List.mem_cons_of_mem _ hm'))

/-- Below nodes that show nothing, lowering makes no site. -/
theorem sites_eq_nil {ms : List Node} {ts : List Ast.Node}
    (h : List.Forall₂ (fun m s => lower src m = .ok s ∧ Keeps src m s) ms ts)
    (hs : ∀ m ∈ ms, m.Shaped) (depth : Nat)
    (hnil : ∀ m ∈ ms, scan src depth m = []) : ts.flatMap (sitesFrom depth) = [] := by
  have hf := found_flatMap h hs depth
  rw [List.flatMap_eq_nil_iff.2 hnil] at hf
  exact hf.eq_nil

/-! ### Strings and callees are recognised by their kinds -/

theorem lower_string (h : lower src m = .ok s) (hk : m.kind = "string") :
    ∃ v, s = .string v ∧ stringValue src m = .ok v := by
  rw [lower_eq, plan, if_neg (by rw [hk]; decide), if_pos hk] at h
  cases hv : stringValue src m with
  | error f => simp [hv, Except.map, bind, Except.bind] at h
  | ok v =>
    rw [hv] at h
    cases h
    exact ⟨v, rfl, rfl⟩

theorem kind_of_lower_string {v : Text} (h : lower src m = .ok (.string v)) : m.kind = "string" :=
  (Option.some.inj (lower_kind h)).symm

theorem lower_ident (h : lower src m = .ok s) (hk : m.kind = "identifier") :
    s = .ident (Utf8.text src m.start m.stop) := by
  rw [lower_eq, plan, if_neg (by rw [hk]; decide), if_neg (by rw [hk]; decide), if_pos hk] at h
  cases h
  rfl

theorem lower_importOp (h : lower src m = .ok s) (hk : m.kind = "import") : s = .importOp := by
  rw [lower_eq, plan, if_neg (by rw [hk]; decide), if_neg (by rw [hk]; decide),
    if_neg (by rw [hk]; decide), if_pos hk] at h
  cases h
  rfl

/-! ### Imports -/

theorem site?_importDecl_of_ne (h : ∀ v, s ≠ .string v) (clause : Ast.Node) (depth : Int) :
    site? (.importDecl s clause) depth = none := by
  unfold site?
  split
  · rename_i v _ he
    cases he
    exact absurd rfl (h v)
  · contradiction
  · contradiction
  · rfl

theorem found_importDecl (hk : n.kind = "import_statement") {ss : List Ast.Node}
    (hs : List.Forall₂ (fun m s => lower src m = .ok s) (n.childByField "source").toList ss)
    (clause : Ast.Node) (depth : Nat) :
    Found src (n.occurrence? src depth).toList
      (site? (.importDecl (ss.headD .absent) clause) depth).toList := by
  have ho : n.occurrence? src depth = (n.childByField "source").bind fun literal =>
      if literal.kind = "string" && depth = 0 then some { literal, depth, form := .static }
      else none := by
    rw [Node.occurrence?, if_pos hk]
    rfl
  cases hsrc : n.childByField "source" with
  | none =>
    rw [hsrc] at hs
    cases hs
    rw [ho, hsrc]
    exact .nil
  | some m =>
    rw [hsrc, Option.toList_some] at hs
    obtain ⟨s, _, hm, hnil, rfl⟩ := List.forall₂_cons_left_iff.1 hs
    cases hnil
    rw [ho, hsrc, Option.bind_some, List.headD_cons]
    by_cases hstr : m.kind = "string"
    · obtain ⟨v, rfl, hv⟩ := lower_string hm hstr
      by_cases hd : depth = 0
      · subst hd
        simp only [hstr, decide_true, Bool.and_self, ↓reduceIte]
        refine .cons ?_ .nil
        rw [Occurrence.site, hv]
        rfl
      · have hd' : (depth : Int) ≠ 0 := by omega
        simp only [hd, decide_false, Bool.and_false, Bool.false_eq_true, ↓reduceIte]
        rw [site?, if_neg hd']
        exact .nil
    · rw [site?_importDecl_of_ne (fun v hv => hstr (kind_of_lower_string (hv ▸ hm)))]
      simp only [hstr, decide_false, Bool.false_and, Bool.false_eq_true, ↓reduceIte]
      exact .nil

/-! ### Calls -/

theorem site?_call_of_ne {args : List Ast.Node} (h : ∀ v rest, args ≠ .string v :: rest)
    (depth : Int) : site? (.call t (.items args)) depth = none := by
  unfold site?
  split
  · contradiction
  · rename_i v rest he
    cases he
    exact absurd rfl (h v _)
  · rename_i v rest he
    cases he
    exact absurd rfl (h v _)
  · rfl

/-- A call is a site by what its callee is, and its first argument names the module. -/
theorem site?_call_string (h : lower src m = .ok t) (v : Text) (rest : List Ast.Node)
    (depth : Nat) :
    site? (.call t (.items (.string v :: rest))) depth =
      (m.loader? src).map fun form => { specifier := v, depth, form } := by
  unfold Node.loader?
  by_cases hi : m.kind = "identifier"
  · rw [lower_ident h hi]
    simp only [hi, decide_true, Bool.true_and, decide_eq_true_eq, site?]
    split <;> rfl
  · by_cases hd : m.kind = "import"
    · rw [lower_importOp h hd]
      simp [hd, site?]
    · have hne : ∀ name, t ≠ .ident name := by
        rintro name rfl
        exact hi (Option.some.inj (lower_kind h)).symm
      have hne' : t ≠ .importOp := by
        rintro rfl
        exact hd (Option.some.inj (lower_kind h)).symm
      simp only [hi, hd, decide_false, Bool.false_and, Bool.false_eq_true, ↓reduceIte,
        Option.map_none]
      unfold site?
      split
      · contradiction
      · rename_i name _ _ he
        cases he
        exact absurd rfl (hne name)
      · rename_i he
        cases he
        exact absurd rfl hne'
      · rfl

/-- The first argument of a call is the first one that lowering takes, unless that is a template. -/
theorem firstArgument_eq {args : Node} (ha : n.childByField "arguments" = some args)
    (hk : args.kind = "arguments" ∨ args.kind = "template_string") :
    n.firstArgument.filter (·.kind = "string") =
      (Plan.arguments n).head?.filter (·.kind = "string") := by
  have hfirst : n.firstArgument =
      if args.kind = "arguments" then (kept args.children).head? else none := by
    rw [Node.firstArgument, ha]
    rfl
  rw [hfirst, Plan.arguments, ha]
  rcases hk with hk | hk
  · simp [hk]
  · simp [hk, Option.filter]

theorem occurrence?_call (hk : n.kind = "call_expression") {f : Node}
    (hf : n.childByField "function" = some f) (depth : Nat) :
    n.occurrence? src depth = (f.loader? src).bind fun form =>
      (n.firstArgument.filter (·.kind = "string")).map (Occurrence.mk · depth form) := by
  rw [Node.occurrence?, if_neg (by rw [hk]; decide), if_pos hk, hf]
  change ((f.loader? src).bind fun form => n.firstArgument.bind fun literal =>
    if literal.kind = "string" then some (Occurrence.mk literal depth form) else none) = _
  congr 1
  funext form
  cases n.firstArgument with
  | none => rfl
  | some a => by_cases h : a.kind = "string" <;> simp [h, Option.filter]

theorem found_call (hk : n.kind = "call_expression") {f args : Node} {callee : Ast.Node}
    {ts : List Ast.Node} (hf : n.childByField "function" = some f) (hc : lower src f = .ok callee)
    (ha : n.childByField "arguments" = some args)
    (hkind : args.kind = "arguments" ∨ args.kind = "template_string")
    (hts : List.Forall₂ (fun m s => lower src m = .ok s) (Plan.arguments n) ts) (depth : Nat) :
    Found src (n.occurrence? src depth).toList (site? (.call callee (.items ts)) depth).toList := by
  rw [occurrence?_call hk hf, firstArgument_eq ha hkind]
  generalize Plan.arguments n = as at hts
  cases hts with
  | nil =>
    rw [site?_call_of_ne (by simp)]
    cases f.loader? src <;> exact .nil
  | @cons a s as ss has _ =>
    rw [List.head?_cons]
    by_cases hstr : a.kind = "string"
    · obtain ⟨v, rfl, hv⟩ := lower_string has hstr
      rw [site?_call_string hc]
      cases f.loader? src with
      | none => exact .nil
      | some form =>
        simp only [Option.filter, hstr, decide_true, ↓reduceIte, Option.bind_some, Option.map_some]
        refine .cons ?_ .nil
        rw [Occurrence.site, hv]
        rfl
    · have hne : ∀ v rest, s :: ss ≠ .string v :: rest := by
        rintro v rest he
        cases he
        exact hstr (kind_of_lower_string has)
      rw [site?_call_of_ne hne]
      cases f.loader? src with
      | none => exact .nil
      | some form =>
        simp only [Option.filter, hstr, decide_false, Bool.false_eq_true, ↓reduceIte,
          Option.bind_some, Option.map_none]
        exact .nil

/-! ### One lemma for each form of a lowered node -/

section Forms

variable {ts us ps bs ks : List Ast.Node} {depth : Nat}

/-- What lowering and the induction give for a node that was looked at. -/
abbrev Kept (src : List UInt8) (m : Node) (s : Ast.Node) : Prop :=
  lower src m = .ok s ∧ Keeps src m s

theorem forall₂_lower {ms : List Node} (h : List.Forall₂ (Kept src) ms ts) :
    List.Forall₂ (fun m s => lower src m = .ok s) ms ts :=
  h.imp fun _ _ h => h.1

theorem found_transparent (hs : n.Shaped) (hi : n.kind ≠ "import_statement")
    (hc : n.kind ≠ "call_expression") (hf : n.kind ∉ Ast.functionKinds)
    (hm : n.kind ≠ "method_definition") (hkind : t.kind? = some n.kind)
    (hsite : site? t depth = none) (hp : t.parts? = .ok ts)
    (h : List.Forall₂ (Kept src) (kept n.children) ts) :
    Found src (scan src depth n) (sitesFrom depth t) := by
  rw [scan_transparent src depth hi hc hf hm, sitesFrom_eq hkind hp, hsite, if_neg hf]
  exact found_flatMap h (fun m hm => shaped_of_kept hs hm) depth

theorem found_leaf (hs : n.Shaped) (hk : n.kind ∈ closedKinds) (hi : n.kind ≠ "import_statement")
    (hkind : t.kind? = some n.kind) (hsite : site? t depth = none) (hp : t.parts? = .ok []) :
    Found src (scan src depth n) (sitesFrom depth t) := by
  rw [sitesFrom_eq hkind hp, hsite, scan_eq_nil]
  · exact .nil
  · intro m hm
    rw [Node.nodes_eq, List.mem_cons] at hm
    rcases hm with rfl | hm
    · refine ⟨fun hc => ?_, hi⟩
      rw [hc] at hk
      exact absurd hk (by decide)
    · exact hs.fits.closed hk m hm

theorem found_importStatement (hs : n.Shaped) (hk : n.kind = "import_statement")
    {ss cs : List Ast.Node} (hss : List.Forall₂ (Kept src) (n.childByField "source").toList ss)
    (hcs : List.Forall₂ (Kept src) (Plan.clause n).toList cs) :
    Found src (scan src depth n)
      (sitesFrom depth (.importDecl (ss.headD .absent) (cs.headD .absent))) := by
  have hquiet : ∀ c ∈ n.children, ∀ d, scan src d c = [] := by
    intro c hc d
    refine scan_eq_nil src d fun m hm => ?_
    exact hs.fits.closed (by rw [hk]; decide) m (mem_nodesAmong hc hm)
  have hparts : (cs ++ ss).flatMap (sitesFrom depth) = [] := by
    rw [List.flatMap_append, List.append_eq_nil_iff]
    constructor
    · have hmem : ∀ m ∈ (Plan.clause n).toList, m ∈ n.children :=
        fun m hm => mem_of_clause (Option.mem_toList.1 hm)
      exact sites_eq_nil hcs (fun m hm => hs.child (hmem m hm)) depth
        fun m hm => hquiet m (hmem m hm) depth
    · have hmem : ∀ m ∈ (n.childByField "source").toList, m ∈ n.children :=
        fun m hm => mem_of_childByField (Option.mem_toList.1 hm)
      exact sites_eq_nil hss (fun m hm => hs.child (hmem m hm)) depth
        fun m hm => hquiet m (hmem m hm) depth
  have hbelow : ((kept n.children).flatMap fun c =>
      scan src (if opensFor n.kind c then depth + 1 else depth) c) = [] :=
    List.flatMap_eq_nil_iff.2 fun c hc => hquiet c (mem_of_kept hc) _
  rw [scan_eq, hbelow, sitesFrom_eq rfl (parts_lowered_importDecl (fun _ _ h => h.1) hss hcs),
    if_neg (by decide), hparts]
  exact (found_importDecl hk (forall₂_lower hss) _ depth).append .nil

theorem found_callExpression (hs : n.Shaped) (hk : n.kind = "call_expression") {f : Node}
    {callee : Ast.Node} (hf : n.childByField "function" = some f) (hc : Kept src f callee)
    (ha : List.Forall₂ (Kept src) (Plan.arguments n) ts) :
    Found src (scan src depth n) (sitesFrom depth (.call callee (.items ts))) := by
  obtain ⟨f', chain, args, hf', hargs, hkind, hkept, hchain⟩ := hs.fits.call hk
  obtain rfl : f' = f := Option.some.inj (hf'.symm.trans hf)
  have hopen : ∀ c, opensFor n.kind c = false := by
    rw [hk]
    simp [opensFor, Ast.functionKinds]
  have hchain_nil : chain.flatMap (scan src depth) = [] := by
    refine List.flatMap_eq_nil_iff.2 fun c hcm => ?_
    obtain ⟨hck, hcc⟩ := hchain c hcm
    rw [scan_transparent src depth (by rw [hck]; decide) (by rw [hck]; decide) (by rw [hck]; decide)
      (by rw [hck]; decide), hcc]
    rfl
  have hparts : (Ast.Node.call callee (.items ts)).parts? = .ok (callee :: ts) := by
    rw [Ast.parts?_call, filter_isNode_of_forall₂ (fun _ _ h => h.1) (.cons hc ha)]
  rw [scan_eq, hkept, sitesFrom_eq rfl hparts, if_neg (by decide)]
  simp only [hopen, Bool.false_eq_true, ↓reduceIte]
  rw [List.flatMap_cons, List.flatMap_append, hchain_nil, List.nil_append,
    List.flatMap_singleton, scan_arguments src depth hargs hkind]
  refine (found_call hk hf hc.1 hargs hkind (forall₂_lower ha) depth).append ?_
  rw [List.flatMap_cons]
  exact (hc.2 (hs.child (mem_of_childByField hf)) depth).append
    (found_flatMap ha (fun m hm => shaped_of_arguments hs hm) depth)

theorem found_function (hs : n.Shaped) (hk : n.kind ∈ Ast.functionKinds)
    (hu : List.Forall₂ (Kept src) (n.childByField "name").toList us)
    (hp : List.Forall₂ (Kept src) (Plan.allParameters n) ps)
    (hb : List.Forall₂ (Kept src) (n.childByField "body").toList bs) :
    Found src (scan src depth n)
      (sitesFrom depth (.function n.kind (us.headD .absent) (.items ps) (bs.headD .absent))) := by
  have hopen : ∀ c, opensFor n.kind c = true := by
    intro c
    simp [opensFor, hk]
  have ho : n.occurrence? src depth = none := by
    refine occurrence?_eq_none src depth (fun h => ?_) fun h => ?_
    · rw [h] at hk
      exact absurd hk (by decide)
    · rw [h] at hk
      exact absurd hk (by decide)
  rw [scan_eq, ho, hs.fits.function hk,
    sitesFrom_eq rfl (parts_lowered_function (fun _ _ h => h.1) hk hu hp hb), if_pos hk]
  simp only [hopen, ↓reduceIte]
  rw [List.flatMap_append, List.flatMap_append, List.flatMap_append, List.flatMap_append,
    scan_allParameters src _ hs.fits (List.mem_append_left _ hk)]
  exact (found_flatMap hu (fun m hm => shaped_of_toList hs hm) _).append
    ((found_flatMap hp (fun m hm => shaped_of_allParameters hs hm) _).append
      (found_flatMap hb (fun m hm => shaped_of_toList hs hm) _))

/-- The key and the decorators of a method belong to the scope that the method stands in. -/
theorem scan_keys (hk : n.kind = "method_definition") {keys : List Node}
    (hkeys : ∀ k ∈ keys, k.head.field ≠ some "parameters" ∧ k.head.field ≠ some "body") :
    (keys.flatMap fun c => scan src (if opensFor n.kind c then depth + 1 else depth) c) =
      keys.flatMap (scan src depth) := by
  refine List.flatMap_congr fun c hc => ?_
  obtain ⟨h1, h2⟩ := hkeys c hc
  simp [opensFor, hk, h1, h2, Ast.functionKinds]

/-- For the two parts of its value the scan opens a scope. -/
theorem scan_value (hk : n.kind = "method_definition") {field : String}
    (hfield : field = "parameters" ∨ field = "body") :
    ((n.childByField field).toList.flatMap fun c =>
      scan src (if opensFor n.kind c then depth + 1 else depth) c) =
    (n.childByField field).toList.flatMap (scan src (depth + 1)) := by
  refine List.flatMap_congr fun c hc => ?_
  have hcf := field_of_childByField (Option.mem_toList.1 hc)
  rcases hfield with rfl | rfl <;> simp [opensFor, hk, hcf]

theorem found_method (hs : n.Shaped) (hk : n.kind = "method_definition")
    (hks : List.Forall₂ (Kept src) (Plan.keys n) ks)
    (hp : List.Forall₂ (Kept src) (Plan.parameters n) ps)
    (hb : List.Forall₂ (Kept src) (n.childByField "body").toList bs) :
    Found src (scan src depth n)
      (sitesFrom depth (.plain n.kind (.items
        (ks ++ [.function "function_expression" .absent (.items ps) (bs.headD .absent)])))) := by
  obtain ⟨keys, hkept, hkeys⟩ := hs.fits.method hk
  rw [hs.fits.keys_eq hkept] at hks
  have hmem : ∀ m ∈ keys, m.Shaped := fun m hm =>
    shaped_of_kept hs (by rw [hkept]; exact List.mem_append_left _ hm)
  have ho : n.occurrence? src depth = none :=
    occurrence?_eq_none src depth (by rw [hk]; decide) (by rw [hk]; decide)
  have hbody : n.kind ∈ bodyKinds := by
    rw [hk]
    decide
  have hparts : (Ast.Node.plain n.kind (.items
      (ks ++ [.function "function_expression" .absent (.items ps) (bs.headD .absent)]))).parts? =
      .ok (ks ++ [.function "function_expression" .absent (.items ps) (bs.headD .absent)]) := by
    rw [Ast.parts?_plain, List.filter_append, filter_isNode_of_forall₂ (fun _ _ h => h.1) hks]
    rfl
  have hfun : sitesFrom depth (.function "function_expression" .absent (.items ps) (bs.headD .absent)) =
      (ps ++ bs).flatMap (sitesFrom (depth + 1)) := by
    rw [sitesFrom_eq rfl (parts_lowered_value (fun _ _ h => h.1) hp hb), if_pos (by decide)]
    rfl
  rw [scan_eq, ho, hkept, List.flatMap_append, List.flatMap_append, scan_keys hk hkeys,
    scan_value hk (.inl rfl), scan_value hk (.inr rfl), scan_parameters src _ hs.fits hbody,
    sitesFrom_eq rfl hparts, if_neg (by rw [hk]; decide), List.flatMap_append,
    List.flatMap_singleton, hfun, List.flatMap_append]
  exact (found_flatMap hks hmem _).append
    ((found_flatMap hp (fun m hm => shaped_of_parameters hs hm) _).append
      (found_flatMap hb (fun m hm => shaped_of_toList hs hm) _))

end Forms

/-- The occurrences that a scan finds in a tree of the grammar's shape are the sites of the lowered
tree. -/
theorem scan_lower (h : lower src n = .ok t) : Keeps src n t := by
  refine lower_induction (motive := Keeps src) (fun n t h hs depth => ?_) h
  have hkind := h.kind
  have hR : ∀ m s, Kept src m s → lower src m = .ok s := fun _ _ h => h.1
  cases h with
  | program hk h =>
    refine found_transparent hs ?_ ?_ ?_ ?_ hkind rfl ?_ h
    any_goals rw [hk]; decide
    rw [Ast.parts?_program, filter_isNode_of_forall₂ hR h]
  | string hk _ =>
    exact found_leaf hs (by rw [hk]; decide) (by rw [hk]; decide) hkind rfl (Ast.parts?_string _)
  | ident hk =>
    exact found_leaf hs (by rw [hk]; decide) (by rw [hk]; decide) hkind rfl (Ast.parts?_ident _)
  | importOp hk =>
    exact found_leaf hs (by rw [hk]; decide) (by rw [hk]; decide) hkind rfl Ast.parts?_importOp
  | importDecl hk hss hcs => exact found_importStatement hs hk hss hcs
  | call hk hf hc ha => exact found_callExpression hs hk hf hc ha
  | function hk hu hp hb => exact found_function hs hk hu hp hb
  | method hk hks hp hb => exact found_method hs hk hks hp hb
  | bareCall hk hf _ =>
    obtain ⟨callee, _, _, hcallee, _⟩ := hs.fits.call hk
    rw [hf] at hcallee
    cases hcallee
  | plain hk hf h =>
    simp only [Plan.ownKinds, List.mem_cons, List.not_mem_nil, not_or] at hk
    refine found_transparent hs hk.2.2.2.2.1 hk.2.2.2.2.2.1 hf hk.2.2.2.2.2.2.1 hkind rfl ?_ h
    rw [Ast.parts?_plain, filter_isNode_of_forall₂ hR h]

end Agree

/-! ## Walking a lowered tree finds what scanning the concrete one finds -/

/-- The visitor that collects the sites that it is shown. -/
def collector : Ast.Visitor (List Site) Empty :=
  fun n depth sites => (sites ++ (site? n depth).toList, none)

theorem foldl_collector (ps : List Ast.Placed) (sites : List Site) :
    ps.foldl (Ast.shown collector {}) sites =
      sites ++ ps.filterMap fun p => site? p.node ((0 + p.depth Ast.functionKinds : Nat) : Int) := by
  induction ps generalizing sites with
  | nil => simp
  | cons p ps ih =>
    rw [List.foldl_cons, ih, List.filterMap_cons, Ast.shown, collector]
    cases site? p.node ((0 + p.depth Ast.functionKinds : Nat) : Int) <;> simp

/-- Lowering a tree of the grammar's shape and walking the result finds the sites of the concrete tree,
no more, no fewer and in their order: the walk comes to its end if it has room for the height of the
lowered tree, and a walk that comes to its end has collected the sites of the scan. -/
theorem walk_sites_eq_scan {src : List UInt8} {root : Node} {tree : Ast.Node} (hs : root.Shaped)
    (ht : lowerDeep src root = .ok tree) :
    ∃ sites, (scan src 0 root).mapM (Occurrence.site src) = .ok sites ∧ ∀ room,
      (tree.height ≤ room → (Ast.walk collector room tree {} []).halt = none) ∧
      ((Ast.walk collector room tree {} []).halt = none →
        (Ast.walk collector room tree {} []).state = sites) := by
  rw [lowerDeep_eq_lower] at ht
  have hgo : ∀ p ∈ tree.visits, ∀ d st, (collector p.node d st).2 = none := fun _ _ _ _ => rfl
  refine ⟨sitesFrom 0 tree, mapM_eq_ok_iff.2 (scan_lower ht hs 0), fun room => ⟨fun hr => ?_, ?_⟩⟩
  · rcases Ast.walk_halt hgo (lower_sound ht) room {} [] with h | ⟨_, hlt⟩
    · exact h
    · omega
  · intro hw
    rw [Ast.walk_eq_foldl hw, foldl_collector]
    rfl

/-! ### A method whose key and body both load a module -/

/-- A node of a sample tree. -/
def sample (kind : String) (start stop : Nat) (field : Option String) (children : List Node) : Node :=
  .mk { kind, start, stop, field } children

/-- The call of `require` that starts at a byte of `keyedSource`. -/
def requireCall (start : Nat) : Node :=
  sample "call_expression" start (start + 12) none
    [sample "identifier" start (start + 7) (some "function") [],
     sample "arguments" (start + 7) (start + 12) (some "arguments")
      [sample "string" (start + 8) (start + 11) none []]]

def keyedSource : List UInt8 :=
  Utf8.encode "[require('k')]()\x7brequire('b')\x7d".toList

/-- The method definition of `keyedSource`. -/
def keyedMethod : Node :=
  sample "method_definition" 0 30 none
    [sample "computed_property_name" 0 14 (some "name") [requireCall 1],
     sample "formal_parameters" 14 16 (some "parameters") [],
     sample "statement_block" 16 30 (some "body") [requireCall 17]]

/-- Apart from calls, functions and methods a node fits if its children cover different bytes and
leaves have none. -/
theorem fits_of_kind {n : Node} (kind : String) (hn : n.kind = kind)
    (hs : (n.children.map Node.span).Nodup) (hk : kind ∉ "call_expression" :: bodyKinds)
    (hc : kind ∈ closedKinds → n.children = []) : Fits n := by
  subst hn
  rw [List.mem_cons, not_or] at hk
  exact
    { spans := hs
      call := fun h => absurd h hk.1
      function := fun h => absurd (List.mem_append_left _ h) hk.2
      method := fun h => absurd (List.mem_append_right _ (List.mem_singleton.2 h)) hk.2
      parameters := fun h => absurd h hk.2
      closed := fun h m hm => by
        rw [hc h] at hm
        cases hm }

theorem fits_of_method {n : Node} (keys : List Node) (hn : n.kind = "method_definition")
    (hs : (n.children.map Node.span).Nodup)
    (hkept : kept n.children = keys ++
      ((n.childByField "parameters").toList ++ (n.childByField "body").toList))
    (hkeys : ∀ k ∈ keys, k.head.field ≠ some "parameters" ∧ k.head.field ≠ some "body")
    (hps : ∀ ps, n.childByField "parameters" = some ps → ps.kind = "formal_parameters") : Fits n where
  spans := hs
  call := fun h => absurd (hn.symm.trans h) (by decide)
  function := fun h => absurd (hn ▸ h) (show "method_definition" ∉ Ast.functionKinds by decide)
  method := fun _ => ⟨keys, hkept, hkeys⟩
  parameters := fun _ => hps
  closed := fun h => absurd (hn ▸ h) (show "method_definition" ∉ closedKinds by decide)

theorem fits_requireCall (start : Nat) : Fits (requireCall start) where
  spans := by simp [requireCall, sample, Node.span, Node.start, Node.stop]
  call := fun _ => ⟨_, [], _, rfl, rfl, .inl rfl, rfl, by simp⟩
  function := fun h => absurd h (show "call_expression" ∉ Ast.functionKinds by decide)
  method := fun h => absurd h (show "call_expression" ≠ "method_definition" by decide)
  parameters := fun h => absurd h (show "call_expression" ∉ bodyKinds by decide)
  closed := fun h => absurd h (show "call_expression" ∉ closedKinds by decide)

theorem shaped_requireCall (start : Nat) : (requireCall start).Shaped := by
  intro n hn
  have hnodes : (requireCall start).nodes = requireCall start ::
      [sample "identifier" start (start + 7) (some "function") [],
       sample "arguments" (start + 7) (start + 12) (some "arguments")
        [sample "string" (start + 8) (start + 11) none []],
       sample "string" (start + 8) (start + 11) none []] := rfl
  rw [hnodes, List.mem_cons] at hn
  rcases hn with rfl | hn
  · exact fits_requireCall start
  · simp only [List.mem_cons, List.not_mem_nil, or_false] at hn
    rcases hn with rfl | rfl | rfl
    · exact fits_of_kind "identifier" rfl .nil (by decide) fun _ => rfl
    · exact fits_of_kind "arguments" rfl (List.pairwise_singleton ..) (by decide)
        fun h => absurd h (by decide)
    · exact fits_of_kind "string" rfl .nil (by decide) fun _ => rfl

theorem shaped_keyedMethod : keyedMethod.Shaped := by
  intro n hn
  have hnodes : keyedMethod.nodes = keyedMethod ::
      ((sample "computed_property_name" 0 14 (some "name") [requireCall 1] ::
        (requireCall 1).nodes) ++
        (sample "formal_parameters" 14 16 (some "parameters") [] ::
          sample "statement_block" 16 30 (some "body") [requireCall 17] ::
          (requireCall 17).nodes)) := rfl
  rw [hnodes] at hn
  simp only [List.mem_cons, List.mem_append] at hn
  rcases hn with rfl | (rfl | hn) | rfl | rfl | hn
  · refine fits_of_method [_] rfl (by decide) rfl (by simp [sample]) fun ps h => ?_
    cases h
    rfl
  · exact fits_of_kind "computed_property_name" rfl (List.pairwise_singleton ..) (by decide)
      (by decide)
  · exact shaped_requireCall 1 n hn
  · exact fits_of_kind "formal_parameters" rfl .nil (by decide) (by decide)
  · exact fits_of_kind "statement_block" rfl (List.pairwise_singleton ..) (by decide) (by decide)
  · exact shaped_requireCall 17 n hn

/-- The module of the key is loaded at the top level, that of the body one scope further in. -/
theorem walk_sites_keyedMethod :
    ∃ tree, lowerDeep keyedSource keyedMethod = .ok tree ∧
      (Ast.walk collector 5 tree {} []).state =
        [{ specifier := Text.ofString "k", depth := 0, form := .require },
         { specifier := Text.ofString "b", depth := 1, form := .require }] := by
  have ht : ∃ tree, lower keyedSource keyedMethod = .ok tree ∧ tree.height = 5 := ⟨_, rfl, rfl⟩
  obtain ⟨tree, ht, hheight⟩ := ht
  rw [← lowerDeep_eq_lower] at ht
  obtain ⟨sites, hsites, hwalk⟩ := walk_sites_eq_scan shaped_keyedMethod ht
  have hscan : (scan keyedSource 0 keyedMethod).mapM (Occurrence.site keyedSource) =
      .ok [{ specifier := Text.ofString "k", depth := 0, form := .require },
        { specifier := Text.ofString "b", depth := 1, form := .require }] := rfl
  refine ⟨tree, ht, ?_⟩
  rw [(hwalk 5).2 ((hwalk 5).1 (Nat.le_of_eq hheight))]
  exact Except.ok.inj (hsites.symm.trans hscan)

end LazyLint.Cst
