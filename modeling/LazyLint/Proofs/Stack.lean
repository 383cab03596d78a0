import Mathlib.Logic.Relation
import LazyLint.Proofs.Faults

/-!
# The stack of lowering, turn by turn

`perform` works off a stack of tasks. `Turn` is one turn of that loop, and it is stricter than the
loop: results can be assembled only where as many of them are done as the task takes. So a stage at
which the loop would reach below the results, or end with none or several of them, is one at which the
machine of `Turn` is stuck, and that the loop never does so is progress: `standing_of_reached` says that
a stage that is reached turns, or holds the lowered tree and nothing else, or is about to plan a node
that has no plan.

Two things are kept by every turn. `leftAfter` counts how many results the tasks on the stack will leave:
it is one at the start and stays one. `ahead` lists the nodes that the tasks on the stack will plan:
with the nodes planned so far it is always the list of `asked`, so the nodes are planned in pre-order
and the loop ends at the first of them that has no plan.
-/

namespace LazyLint.Cst

open Relation (ReflTransGen)

/-- What the loop holds between two turns: the tasks, and the results with the last one first. -/
structure Stage where
  tasks : List Task
  done : List Ast.Node

namespace Stage

/-- The stage at which a tree is about to be lowered. -/
def start (root : Node) : Stage where
  tasks := [.expand root]
  done := []

/-- The results once the loop is through with the tasks. -/
def outcome (src : List UInt8) (s : Stage) : Except Escape.Fault (List Ast.Node) :=
  perform src s.tasks s.done

end Stage

/-- One turn of the loop. -/
inductive Turn (src : List UInt8) : Stage → Stage → Prop
  | expand {n : Node} {p : Plan} {tasks : List Task} {done : List Ast.Node}
      (hp : plan src n = .ok p) :
      Turn src ⟨.expand n :: tasks, done⟩
        ⟨p.inputs.map .expand ++ .assemble p.inputs.length p.build :: tasks, done⟩
  | assemble {build : List Ast.Node → Ast.Node} {tasks : List Task} {taken rest : List Ast.Node} :
      Turn src ⟨.assemble taken.length build :: tasks, taken ++ rest⟩
        ⟨tasks, build taken.reverse :: rest⟩

/-- The stages of a run of the loop. -/
def Reached (src : List UInt8) (root : Node) : Stage → Prop :=
  ReflTransGen (Turn src) (.start root)

/-! ## What a turn keeps -/

section Count

/-- How many results there are after the tasks, if none of them takes more than there are. -/
def leftAfter : List Task → Nat → Option Nat
  | [], k => some k
  | .expand _ :: tasks, k => leftAfter tasks (k + 1)
  | .assemble count _ :: tasks, k =>
    if count ≤ k then leftAfter tasks (k - count + 1) else none

theorem leftAfter_expand (ns : List Node) (tasks : List Task) (k : Nat) :
    leftAfter (ns.map .expand ++ tasks) k = leftAfter tasks (k + ns.length) := by
  induction ns generalizing k with
  | nil => rfl
  | cons n ns ih =>
    have hlen : k + 1 + ns.length = k + (n :: ns).length := by
      rw [List.length_cons]
      omega
    rw [List.map_cons, List.cons_append, leftAfter, ih, hlen]

theorem leftAfter_assemble {count k : Nat} {build : List Ast.Node → Ast.Node} {tasks : List Task}
    (h : count ≤ k) :
    leftAfter (.assemble count build :: tasks) k = leftAfter tasks (k - count + 1) := by
  rw [leftAfter, if_pos h]

theorem le_of_leftAfter {count k j : Nat} {build : List Ast.Node → Ast.Node} {tasks : List Task}
    (h : leftAfter (.assemble count build :: tasks) k = some j) : count ≤ k := by
  rw [leftAfter] at h
  split at h
  · assumption
  · cases h

theorem leftAfter_turn {src : List UInt8} {s s' : Stage} (h : Turn src s s') :
    leftAfter s.tasks s.done.length = leftAfter s'.tasks s'.done.length := by
  cases h with
  | @expand n p tasks done hp =>
    -- The inputs add as many results as the task that follows them takes.
    have hle : p.inputs.length ≤ done.length + p.inputs.length := Nat.le_add_left ..
    rw [leftAfter_expand, leftAfter_assemble hle, Nat.add_sub_cancel, leftAfter]
  | @assemble build tasks taken rest =>
    have hle : taken.length ≤ (taken ++ rest).length := by simp
    have hrest : (taken ++ rest).length - taken.length + 1 = rest.length + 1 := by simp
    rw [leftAfter_assemble hle, hrest, List.length_cons]

end Count

section Order

variable {src : List UInt8}

/-- The nodes that the tasks will plan, in the order in which they will. -/
def ahead (src : List UInt8) : List Task → List Node
  | [] => []
  | .expand n :: tasks => asked src n ++ ahead src tasks
  | .assemble .. :: tasks => ahead src tasks

theorem ahead_expand (ns : List Node) (tasks : List Task) :
    ahead src (ns.map .expand ++ tasks) = ns.flatMap (asked src) ++ ahead src tasks := by
  induction ns with
  | nil => rfl
  | cons n ns ih =>
    rw [List.map_cons, List.cons_append, ahead, ih, List.flatMap_cons, List.append_assoc]

/-- A turn plans the first of the nodes ahead, or none of them. -/
theorem ahead_turn {s s' : Stage} (h : Turn src s s') :
    ∃ planned, ahead src s.tasks = planned ++ ahead src s'.tasks ∧
      ∀ m ∈ planned, ∃ p, plan src m = .ok p := by
  cases h with
  | @expand n p tasks done hp =>
    refine ⟨[n], ?_, ?_⟩
    · rw [ahead, asked_of_ok hp, ahead_expand, ahead]
      rfl
    · exact List.forall_mem_singleton.2 ⟨p, hp⟩
  | assemble =>
    exact ⟨[], rfl, List.forall_mem_nil _⟩

theorem exists_ahead_of_expand (src : List UInt8) (n : Node) (tasks : List Task) :
    ∃ rest, ahead src (.expand n :: tasks) = n :: rest := by
  cases hp : plan src n with
  | error f => exact ⟨ahead src tasks, by rw [ahead, asked_of_error hp, List.singleton_append]⟩
  | ok p =>
    exact ⟨p.inputs.flatMap (asked src) ++ ahead src tasks, by rw [ahead, asked_of_ok hp]; rfl⟩

end Order

section Outcome

variable {src : List UInt8} {s s' : Stage}

/-- The loop takes the turns of the machine. -/
theorem outcome_turn (h : Turn src s s') : s.outcome src = s'.outcome src := by
  cases h with
  | expand hp =>
    unfold Stage.outcome
    rw [perform]
    split
    · rename_i f hf
      cases hp.symm.trans hf
    · rename_i q hq
      cases hp.symm.trans hq
      rfl
  | assemble =>
    unfold Stage.outcome
    rw [perform, List.take_left, List.drop_left]

theorem outcome_of_fault {n : Node} {tasks : List Task} {done : List Ast.Node} {f : Escape.Fault}
    (h : plan src n = .error f) : (Stage.mk (.expand n :: tasks) done).outcome src = .error f := by
  unfold Stage.outcome
  rw [perform]
  split
  · rename_i g hg
    cases h.symm.trans hg
    rfl
  · rename_i q hq
    cases h.symm.trans hq

/-- A turn leaves less to do. -/
theorem weights_turn (h : Turn src s s') : Task.weights s'.tasks < Task.weights s.tasks := by
  cases h with
  | expand hp =>
    have hlt := weights_inputs_lt hp
    simp only [weights_expand_append, Task.weights, Task.weight]
    omega
  | assemble =>
    simp only [Task.weights, Task.weight]
    omega

theorem wellFounded_turn (src : List UInt8) : WellFounded fun s' s => Turn src s s' :=
  Subrelation.wf (fun h => weights_turn h)
    (InvImage.wf (fun s : Stage => Task.weights s.tasks) Nat.lt_wfRel.wf)

end Outcome

/-! ## Stages that are reached -/

section Run

variable {src : List UInt8} {root : Node} {s : Stage}

/-- What holds at every stage of a run. -/
structure OnCourse (src : List UInt8) (root : Node) (s : Stage) : Prop where
  left : leftAfter s.tasks s.done.length = some 1
  outcome : s.outcome src = (Stage.start root).outcome src
  order : ∃ planned, asked src root = planned ++ ahead src s.tasks ∧
    ∀ m ∈ planned, ∃ p, plan src m = .ok p

theorem onCourse_start (src : List UInt8) (root : Node) : OnCourse src root (.start root) where
  left := rfl
  outcome := rfl
  order := ⟨[], by simp [Stage.start, ahead], List.forall_mem_nil _⟩

theorem OnCourse.turn {s s' : Stage} (h : OnCourse src root s) (hturn : Turn src s s') :
    OnCourse src root s' where
  left := (leftAfter_turn hturn).symm.trans h.left
  outcome := (outcome_turn hturn).symm.trans h.outcome
  order := by
    obtain ⟨planned, hasked, hplanned⟩ := h.order
    obtain ⟨more, hmore, hok⟩ := ahead_turn hturn
    refine ⟨planned ++ more, ?_, List.forall_mem_append.2 ⟨hplanned, hok⟩⟩
    rw [hasked, hmore, List.append_assoc]

theorem onCourse_of_reached (h : Reached src root s) : OnCourse src root s := by
  induction h with
  | refl => exact onCourse_start src root
  | tail _ hturn ih => exact ih.turn hturn

/-- A node that lowering asks for and that has no plan, while all that are asked for before it have
one. -/
def FirstFault (src : List UInt8) (root n : Node) (f : Escape.Fault) : Prop :=
  plan src n = .error f ∧ ∃ planned rest, asked src root = planned ++ n :: rest ∧
    ∀ m ∈ planned, ∃ p, plan src m = .ok p

/-- How a stage can stand. -/
inductive Standing (src : List UInt8) (root : Node) : Stage → Prop
  /-- All is done, and what is done is the lowered tree. -/
  | finished {t : Ast.Node} (ht : lower src root = .ok t) : Standing src root ⟨[], [t]⟩
  | turning {s s' : Stage} (h : Turn src s s') : Standing src root s
  /-- The next node has no plan; it is the first such node, and lowering fails on it. -/
  | failing {n : Node} {f : Escape.Fault} {tasks : List Task} {done : List Ast.Node}
      (hn : FirstFault src root n f) (hf : lower src root = .error f) :
      Standing src root ⟨.expand n :: tasks, done⟩

/-- Enough results are done for the task that comes next. -/
theorem count_le_of_reached {count : Nat} {build : List Ast.Node → Ast.Node} {tasks : List Task}
    {done : List Ast.Node} (h : Reached src root ⟨.assemble count build :: tasks, done⟩) :
    count ≤ done.length :=
  le_of_leftAfter (onCourse_of_reached h).left

theorem standing_of_reached (h : Reached src root s) : Standing src root s := by
  have hcourse := onCourse_of_reached h
  have hout := hcourse.outcome.trans (perform_root src root)
  obtain ⟨tasks, done⟩ := s
  match tasks with
  | [] =>
    obtain ⟨t, rfl⟩ : ∃ t, done = [t] := List.length_eq_one_iff.1 (Option.some.inj hcourse.left)
    refine .finished ?_
    have hperform : (Stage.mk [] [t]).outcome src = .ok [t] := by
      rw [Stage.outcome, perform]
    cases hlower : lower src root with
    | error f =>
      rw [hperform, hlower] at hout
      cases hout
    | ok u =>
      rw [hperform, hlower] at hout
      cases hout
      rfl
  | .assemble count build :: tasks =>
    have hle : count ≤ done.length := count_le_of_reached h
    have hturn : Turn src ⟨.assemble (done.take count).length build :: tasks,
        done.take count ++ done.drop count⟩ _ := .assemble
    rw [List.length_take, Nat.min_eq_left hle, List.take_append_drop] at hturn
    exact .turning hturn
  | .expand n :: tasks =>
    cases hp : plan src n with
    | ok p => exact .turning (.expand hp)
    | error f =>
      refine .failing ⟨hp, ?_⟩ ?_
      · obtain ⟨planned, hasked, hplanned⟩ := hcourse.order
        obtain ⟨rest, hrest⟩ := exists_ahead_of_expand src n tasks
        exact ⟨planned, rest, by rw [hasked, hrest], hplanned⟩
      · rw [outcome_of_fault hp] at hout
        cases hlower : lower src root with
        | error g =>
          rw [hlower] at hout
          cases hout
          rfl
        | ok t =>
          rw [hlower] at hout
          cases hout

/-- Every stage leads to one at which the loop ends. -/
theorem exists_last (src : List UInt8) (s : Stage) :
    ∃ last, ReflTransGen (Turn src) s last ∧ ∀ s', ¬ Turn src last s' := by
  induction s using (wellFounded_turn src).induction with
  | _ s ih =>
    by_cases hturn : ∃ s', Turn src s s'
    · obtain ⟨s', hs'⟩ := hturn
      obtain ⟨last, hlast, hend⟩ := ih s' hs'
      exact ⟨last, .head hs' hlast, hend⟩
    · exact ⟨s, .refl, fun s' hs' => hturn ⟨s', hs'⟩⟩

theorem reached_finished_iff {t : Ast.Node} :
    Reached src root ⟨[], [t]⟩ ↔ lower src root = .ok t := by
  constructor
  · intro h
    cases standing_of_reached h with
    | finished ht => exact ht
    | turning hturn => cases hturn
  · intro ht
    obtain ⟨last, hlast, hend⟩ := exists_last src (.start root)
    cases standing_of_reached hlast with
    | finished hu =>
      cases hu.symm.trans ht
      exact hlast
    | turning hturn => exact absurd hturn (hend _)
    | failing _ hf => cases hf.symm.trans ht

theorem lower_error_iff_reached {f : Escape.Fault} :
    lower src root = .error f ↔
      ∃ n tasks done, Reached src root ⟨.expand n :: tasks, done⟩ ∧ FirstFault src root n f := by
  constructor
  · intro hf
    obtain ⟨last, hlast, hend⟩ := exists_last src (.start root)
    cases standing_of_reached hlast with
    | finished ht => cases ht.symm.trans hf
    | turning hturn => exact absurd hturn (hend _)
    | @failing n g tasks done hn hg =>
      cases hg.symm.trans hf
      exact ⟨n, tasks, done, hlast, hn⟩
  · rintro ⟨n, tasks, done, hreached, hp, -⟩
    cases standing_of_reached hreached with
    | turning hturn =>
      cases hturn with
      | expand hok => cases hok.symm.trans hp
    | failing hn hg =>
      cases hn.1.symm.trans hp
      exact hg

end Run

/-- The parts of a lowered node are its inputs lowered, each in its own place. -/
theorem lowered_of_lower {src : List UInt8} {n : Node} {t : Ast.Node} (h : lower src n = .ok t) :
    Lowered src (fun m u => lower src m = .ok u) n t := by
  rw [lower_eq, bind_eq_ok_iff] at h
  obtain ⟨p, hp, h⟩ := h
  obtain ⟨ts, hts, h⟩ := bind_eq_ok_iff.1 h
  cases h
  exact lowered_of_plan hp (mapM_eq_ok_iff.1 hts)

/-- The loop computes the recursion over the plans: plan a node, lower what the plan asks for, build; and
building finds every part of the node that it looks for. Whatever the tree, the loop comes to an end; on
the way it never takes more results than are done. It ends with the lowered tree as its only result, or
at a node that has no plan, the first such node in the pre-order of what the plans ask for, and then
with the fault of that node. -/
theorem lowerDeep_eq_recursion (src : List UInt8) (root : Node) :
    (∀ n, lower src n = do
      let p ← plan src n
      return p.build (← p.inputs.mapM (lower src))) ∧
    (∀ n t, lower src n = .ok t → Lowered src (fun m u => lower src m = .ok u) n t) ∧
    lowerDeep src root = lower src root ∧
    (WellFounded fun s' s => Turn src s s') ∧
    (∀ s, Reached src root s → Standing src root s) ∧
    (∀ count build tasks done, Reached src root ⟨.assemble count build :: tasks, done⟩ →
      count ≤ done.length) ∧
    (∀ t, lowerDeep src root = .ok t ↔ Reached src root ⟨[], [t]⟩) ∧
    (∀ f, lowerDeep src root = .error f ↔
      ∃ n tasks done, Reached src root ⟨.expand n :: tasks, done⟩ ∧ FirstFault src root n f) := by
  refine ⟨lower_eq src, fun _ _ => lowered_of_lower, lowerDeep_eq_lower src root,
    wellFounded_turn src, fun _ => standing_of_reached, fun _ _ _ _ => count_le_of_reached, ?_, ?_⟩
  · intro t
    rw [lowerDeep_eq_lower, reached_finished_iff]
  · intro f
    rw [lowerDeep_eq_lower, lower_error_iff_reached]

/-! ### An arrow function, and two literals that have no value -/

def arrowSource : List UInt8 :=
  Utf8.encode "x=>f(x)".toList

/-- The arrow function of `arrowSource`: its parameter has no list, the argument of its call has one. -/
def arrow : Node :=
  .mk { kind := "arrow_function", start := 0, stop := 7 }
    [.mk { kind := "identifier", start := 0, stop := 1, field := some "parameter" } [],
     .mk { kind := "call_expression", start := 3, stop := 7, field := some "body" }
      [.mk { kind := "identifier", start := 3, stop := 4, field := some "function" } [],
       .mk { kind := "arguments", start := 4, stop := 7, field := some "arguments" }
        [.mk { kind := "identifier", start := 5, stop := 6 } []]]]

def literalsSource : List UInt8 :=
  Utf8.encode "'\\'+'\\77777777'".toList

/-- A backslash alone, and an octal number that is no code point. -/
def literals : Node :=
  .mk { kind := "binary_expression", start := 0, stop := 15 }
    [.mk { kind := "string", start := 0, stop := 3 }
      [.mk { kind := "escape_sequence", start := 1, stop := 2 } []],
     .mk { kind := "string", start := 4, stop := 15 }
      [.mk { kind := "escape_sequence", start := 5, stop := 14 } []]]

theorem lowerDeep_arrow_literals :
    Reached arrowSource arrow ⟨[], [.function "arrow_function" .absent (.items [.ident "x"])
      (.call (.ident "f") (.items [.ident "x"]))]⟩ ∧
    ∃ n tasks done, Reached literalsSource literals ⟨.expand n :: tasks, done⟩ ∧
      FirstFault literalsSource literals n .empty := by
  obtain ⟨-, -, harrow, -, -, -, hfinished, -⟩ := lowerDeep_eq_recursion arrowSource arrow
  obtain ⟨-, -, hliterals, -, -, -, -, hfault⟩ := lowerDeep_eq_recursion literalsSource literals
  refine ⟨(hfinished _).1 ?_, (hfault _).1 ?_⟩
  · rw [harrow]
    rfl
  · rw [hliterals]
    rfl

end LazyLint.Cst
