import LazyLint.Config.File
import LazyLint.Proofs.Names

/-!
# What a configuration comes to

A configuration is made in two steps: a document gives one, or the built-in one if it says nothing, and
the environment is laid over it. Each step checks the names that it handles; the built-in configuration
is not checked at all. `complete_eq_eraseDups` says what comes out, whichever way was taken: one list of
names, from the document or the built-in list and from the environment, each once and in this order.

Between the two steps stands `Says`, which is what a document says as far as the rule reads it, and
`withEnvironment_eq_ok_iff`, which is what the environment changes. Either step gives the names as
`eraseDups` of a longer list, so that they can be put one after the other by `eraseDups_append_left`.
-/

namespace LazyLint.Config

open Dependency (IsName)

/-! ## Checked names -/

theorem checkNames_eq_ok_iff {names ts : List Text} :
    checkNames names = .ok ts ↔ (∀ name ∈ names, IsName name) ∧ ts = names.eraseDups := by
  rw [checkNames, mapError_eq_ok_iff, Dependency.normalize_texts_eq_ok_iff]

/-- The built-in names pass the check and come out as they are. -/
theorem checkNames_defaults : checkNames Dependency.defaults = .ok Dependency.defaults := by
  rfl

/-! ## What a document says -/

/-- The value under a key of the rule's entry in a document. -/
def given? (v : Value) (key : String) : Option Value :=
  (v.get? (Text.ofString ruleName)).bind (·.get? (Text.ofString key))

/-- What a value under a key says about a list of names: nothing, for which null stands as well, or the
names. -/
inductive Lists : Option Value → Option (List Text) → Prop
  | nothing {o : Option Value} (h : o.getD .null = .null) : Lists o none
  | list (ts : List Text) (label : Option Nat) : Lists (some (.list (ts.map .text) label)) (some ts)
  | tuple (ts : List Text) : Lists (some (.tuple (ts.map .text))) (some ts)

/-- What a document says as far as the rule reads it, with what stands for what it does not say. -/
structure Says (v : Value) (enabled : Bool) (severity : Severity) (base additional : List Text) :
    Prop where
  enabled : given? v "enabled" = none ∧ enabled = true ∨ given? v "enabled" = some (.bool enabled)
  severity : given? v "severity" = none ∧ severity = .warning ∨
    ∃ s, given? v "severity" = some s ∧ Severity.ofValue s = some severity
  base : ∃ ts, Lists (given? v "heavyDeps") ts ∧ base = ts.getD Dependency.defaults
  additional : ∃ ts, Lists (given? v "additionalHeavyDeps") ts ∧ additional = ts.getD []

theorem says_nothing {v : Value} (h : ∀ key, given? v key = none) :
    Says v true .warning Dependency.defaults [] where
  enabled := .inl ⟨h _, rfl⟩
  severity := .inl ⟨h _, rfl⟩
  base := ⟨none, .nothing (by rw [h]; rfl), rfl⟩
  additional := ⟨none, .nothing (by rw [h]; rfl), rfl⟩

/-! ### The steps of reading an entry -/

/-- The switch, which is on if nothing is said. -/
def switchOf : Option Value → Except Fault Bool
  | none => .ok true
  | some (.bool b) => .ok b
  | some v => .error (.enabled v)

/-- The severity, which is a warning if nothing is said. -/
def severityFrom : Option Value → Except Fault Severity
  | none => .ok .warning
  | some v => severityOf v

/-- The list that replaces the built-in names, or these. -/
def baseFrom (o : Option Value) : Except Fault (List Text) :=
  match o.getD .null with
  | .null => .ok Dependency.defaults
  | v => namesOf "heavyDeps" v

/-- An entry is read one key after another. -/
theorem ofRule_eq (rule : Value) :
    ofRule rule = (do
      let enabled ← switchOf (rule.get? "enabled")
      let severity ← severityFrom (rule.get? "severity")
      let base ← baseFrom (rule.get? "heavyDeps")
      let additional ← namesOf "additionalHeavyDeps" ((rule.get? "additionalHeavyDeps").getD .null)
      let deps ← checkNames (base ++ additional)
      return { enabled, severity, deps }) := by
  unfold ofRule
  generalize rule.get? "enabled" = enabled
  generalize rule.get? "severity" = severity
  generalize rule.get? "heavyDeps" = base
  -- What follows a key stands in the branches of its match; `hbase` moves it out of the last one.
  have hbase : ∀ f : List Text → Except Fault Config,
      (match base.getD .null with
        | .null => pure Dependency.defaults >>= f
        | v => namesOf "heavyDeps" v >>= f) = baseFrom base >>= f := by
    intro f
    unfold baseFrom
    split <;> rfl
  rcases enabled with _ | v
  · rcases severity with _ | s
    · exact hbase _
    · exact congrArg (severityOf s >>= ·) (funext fun _ => hbase _)
  · cases v with
    | bool b =>
      rcases severity with _ | s
      · exact hbase _
      · exact congrArg (severityOf s >>= ·) (funext fun _ => hbase _)
    | _ => rfl

theorem switchOf_eq_ok_iff {o : Option Value} {b : Bool} :
    switchOf o = .ok b ↔ o = none ∧ b = true ∨ o = some (.bool b) := by
  rcases o with _ | v
  · simp [switchOf, eq_comm]
  · cases v <;> simp [switchOf]

theorem severityOf_eq_ok_iff {v : Value} {s : Severity} :
    severityOf v = .ok s ↔ Severity.ofValue v = some s := by
  unfold severityOf
  cases Severity.ofValue v <;> simp

theorem severityFrom_eq_ok_iff {o : Option Value} {s : Severity} :
    severityFrom o = .ok s ↔
      o = none ∧ s = .warning ∨ ∃ v, o = some v ∧ Severity.ofValue v = some s := by
  rcases o with _ | v
  · simp [severityFrom, eq_comm]
  · simp [severityFrom, severityOf_eq_ok_iff]

theorem mapM_text?_eq_some_iff {items : List Value} {ts : List Text} :
    items.mapM text? = some ts ↔ items = ts.map .text := by
  induction items generalizing ts with
  | nil =>
    rw [List.mapM_nil]
    cases ts <;> simp
  | cons v items ih =>
    have htext : ∀ t, text? v = some t ↔ v = .text t := by
      intro t
      cases v <;> simp [text?]
    rw [List.mapM_cons]
    cases ts with
    | nil => simp [Option.bind_eq_some_iff]
    | cons t ts => simp [Option.bind_eq_some_iff, htext, ih]

/-- The texts of a list or of a tuple are named. -/
theorem namesAmong_eq_ok_iff {key : String} {v : Value} {items : List Value} {ts : List Text} :
    (match items.mapM text? with
      | some names => .ok names
      | none => .error (.names key v) : Except Fault (List Text)) = .ok ts ↔ items = ts.map .text := by
  split
  · rename_i names hnames
    rw [mapM_text?_eq_some_iff] at hnames
    subst hnames
    simp [List.map_inj_right]
  · rename_i hnone
    simp [← mapM_text?_eq_some_iff, hnone]

theorem namesOf_eq_ok_iff {key : String} {v : Value} {ts : List Text} :
    namesOf key v = .ok ts ↔ v = .null ∧ ts = [] ∨ (∃ label, v = .list (ts.map .text) label) ∨
      v = .tuple (ts.map .text) := by
  unfold namesOf
  split
  · simp [eq_comm]
  · refine namesAmong_eq_ok_iff.trans ?_
    simp
  · refine namesAmong_eq_ok_iff.trans ?_
    simp
  · rename_i hnull hlist htuple
    simp only [reduceCtorEq, false_iff]
    rintro (⟨hv, -⟩ | ⟨label, hv⟩ | hv)
    · exact hnull hv
    · exact hlist _ _ hv
    · exact htuple _ hv

/-- What is named under a key that holds something else than null. -/
theorem lists_some {key : String} {o : Option Value} {ts : List Text} (hnull : o.getD .null ≠ .null)
    (h : namesOf key (o.getD .null) = .ok ts) : Lists o (some ts) := by
  cases o with
  | none => exact absurd rfl hnull
  | some v =>
    rcases namesOf_eq_ok_iff.1 h with ⟨hv, -⟩ | ⟨label, rfl⟩ | rfl
    · exact absurd hv hnull
    · exact .list ts label
    · exact .tuple ts

theorem additional_of_ok {key : String} {o : Option Value} {ts : List Text}
    (h : namesOf key (o.getD .null) = .ok ts) : ∃ us, Lists o us ∧ ts = us.getD [] := by
  by_cases hnull : o.getD .null = .null
  · rw [hnull] at h
    cases h
    exact ⟨none, .nothing hnull, rfl⟩
  · exact ⟨some ts, lists_some hnull h, rfl⟩

theorem base_of_ok {o : Option Value} {ts : List Text} (h : baseFrom o = .ok ts) :
    ∃ us, Lists o us ∧ ts = us.getD Dependency.defaults := by
  unfold baseFrom at h
  split at h
  · rename_i hnull
    cases h
    exact ⟨none, .nothing hnull, rfl⟩
  · rename_i hnull
    exact ⟨some ts, lists_some hnull h, rfl⟩

/-! ### Documents -/

/-- The configuration of an entry, in the words of the document that holds the entry. -/
theorem ofRule_says {v rule : Value} {c : Config}
    (hgiven : ∀ key, given? v key = rule.get? (Text.ofString key)) (h : ofRule rule = .ok c) :
    ∃ base additional, Says v c.enabled c.severity base additional ∧
      checkNames (base ++ additional) = .ok c.deps := by
  rw [ofRule_eq] at h
  simp only [← hgiven] at h
  obtain ⟨enabled, henabled, h⟩ := bind_eq_ok_iff.1 h
  obtain ⟨severity, hseverity, h⟩ := bind_eq_ok_iff.1 h
  obtain ⟨base, hbase, h⟩ := bind_eq_ok_iff.1 h
  obtain ⟨additional, hadditional, h⟩ := bind_eq_ok_iff.1 h
  obtain ⟨deps, hdeps, h⟩ := bind_eq_ok_iff.1 h
  cases h
  refine ⟨base, additional, ⟨?_, ?_, base_of_ok hbase, additional_of_ok hadditional⟩, hdeps⟩
  · exact switchOf_eq_ok_iff.1 henabled
  · exact severityFrom_eq_ok_iff.1 hseverity

theorem ofRule_of_ofEntry {room : Nat} {rule : Value} {c : Config} (h : (ofEntry room rule).2 = .ok c) :
    ofRule rule = .ok c := by
  unfold ofEntry at h
  split at h
  · cases h
  · exact h

theorem get?_of_isFalsy {v : Value} (h : v.isFalsy = true) (key : Text) : v.get? key = none := by
  cases v with
  | map entries label =>
    obtain rfl : entries = [] := List.isEmpty_iff.1 h
    rfl
  | _ => rfl

/-- The configuration of a document, whether or not the document has an entry for the rule. -/
theorem ofValue_says {room : Nat} {v : Value} {c : Config} (h : (ofValue room v).2 = .ok c) :
    ∃ base additional, Says v c.enabled c.severity base additional ∧
      checkNames (base ++ additional) = .ok c.deps := by
  have hdefault (hnone : ∀ key, given? v key = none) : ∃ base additional,
      Says v true .warning base additional ∧
        checkNames (base ++ additional) = .ok Dependency.defaults :=
    ⟨_, _, says_nothing hnone, checkNames_defaults⟩
  unfold ofValue at h
  split at h
  · rename_i hfalsy
    cases h
    exact hdefault fun key => by rw [given?, get?_of_isFalsy hfalsy]; rfl
  · split at h
    · rename_i entries label _
      dsimp only at h
      cases hget : (Value.map entries label).get? (Text.ofString ruleName) with
      | none =>
        rw [hget] at h
        cases h
        exact hdefault fun key => by rw [given?, hget]; rfl
      | some rule =>
        have hgiven : ∀ key, given? (.map entries label) key = rule.get? (Text.ofString key) :=
          fun key => by rw [given?, hget]; rfl
        rw [hget] at h
        cases rule with
        | null =>
          cases h
          exact hdefault hgiven
        | map es l =>
          exact ofRule_says hgiven (ofRule_of_ofEntry h)
        | _ => cases h
    · cases h

/-! ## What the environment changes -/

/-- The names that the environment adds: what stands between commas and is not blank, without the blanks
around it. -/
def added (env : Environment) : List Text :=
  ((((setting? env dependenciesVariable).getD []).splitOn 0x2C).filter fun piece =>
    ! Text.isAllBlank piece).map Text.strip

theorem pieces_eq (t : Text) :
    pieces t = ((t.splitOn 0x2C).filter fun piece => ! Text.isAllBlank piece).map Text.strip := by
  rw [pieces, Text.splitAt_eq_splitOn, List.filter_map]
  congr 1
  refine List.filter_congr fun piece _ => ?_
  rw [Function.comp_apply, Bool.eq_iff_iff]
  simp only [Bool.not_eq_true', Bool.eq_false_iff, ne_eq, List.isEmpty_iff, Text.strip_eq_nil_iff]

theorem added_of_unset {env : Environment} (h : setting? env dependenciesVariable = none) :
    added env = [] := by
  rw [added, h]
  rfl

theorem added_of_set {env : Environment} {raw : Text}
    (h : setting? env dependenciesVariable = some raw) : added env = pieces raw := by
  rw [added, h, pieces_eq]
  rfl

/-- The severity under an environment. -/
def severityUnder (env : Environment) (severity : Severity) : Except Fault Severity :=
  match setting? env severityVariable with
  | some raw => severityOf (.text raw)
  | none => .ok severity

/-- The names under an environment. -/
def namesUnder (env : Environment) (names : List Text) : Except Fault (List Text) :=
  match setting? env dependenciesVariable with
  | some raw => checkNames (names ++ pieces raw)
  | none => .ok names

/-- The severity and the names are laid over one after the other. -/
theorem withEnvironment_eq (c : Config) (env : Environment) :
    c.withEnvironment env = (do
      let severity ← severityUnder env c.severity
      let deps ← namesUnder env c.deps
      return { c with severity, deps }) := by
  unfold withEnvironment severityUnder namesUnder
  cases setting? env severityVariable with
  | none => cases setting? env dependenciesVariable <;> rfl
  | some raw =>
    dsimp only
    cases severityOf (.text raw) with
    | error f => rfl
    | ok s => cases setting? env dependenciesVariable <;> rfl

theorem severityUnder_eq_ok_iff {env : Environment} {s t : Severity} :
    severityUnder env s = .ok t ↔ setting? env severityVariable = none ∧ t = s ∨
      ∃ raw, setting? env severityVariable = some raw ∧ Severity.ofValue (.text raw) = some t := by
  unfold severityUnder
  split
  · rename_i raw hraw
    simp [hraw, severityOf_eq_ok_iff]
  · rename_i hnone
    simp [hnone, eq_comm]

theorem namesUnder_eq_ok_iff {env : Environment} {names ts : List Text} :
    namesUnder env names = .ok ts ↔ setting? env dependenciesVariable = none ∧ ts = names ∨
      (∃ raw, setting? env dependenciesVariable = some raw) ∧
        checkNames (names ++ added env) = .ok ts := by
  unfold namesUnder
  split
  · rename_i raw hraw
    simp [hraw, added_of_set hraw]
  · rename_i hnone
    simp [hnone, eq_comm]

/-- Names that were checked, under an environment, are these names and those that are added. -/
theorem checkNames_append_added {env : Environment} {names cs ds : List Text}
    (hc : checkNames names = .ok cs) (hd : namesUnder env cs = .ok ds) :
    checkNames (names ++ added env) = .ok ds := by
  obtain ⟨hnames, hcs⟩ := checkNames_eq_ok_iff.1 hc
  rcases namesUnder_eq_ok_iff.1 hd with ⟨hunset, rfl⟩ | ⟨-, hd⟩
  · rw [added_of_unset hunset, List.append_nil, hc]
  · obtain ⟨hall, hds⟩ := checkNames_eq_ok_iff.1 hd
    rw [hcs, eraseDups_append_left] at hds
    refine checkNames_eq_ok_iff.2 ⟨List.forall_mem_append.2 ⟨hnames, fun name hname => ?_⟩, hds⟩
    exact hall name (List.mem_append_right _ hname)

theorem severityUnder_again {env : Environment} {s t : Severity} (h : severityUnder env s = .ok t) :
    severityUnder env t = .ok t := by
  rw [severityUnder_eq_ok_iff] at h ⊢
  exact h.imp (fun h => ⟨h.1, rfl⟩) id

theorem namesUnder_again {env : Environment} {cs ds : List Text} (h : namesUnder env cs = .ok ds) :
    namesUnder env ds = .ok ds := by
  rw [namesUnder_eq_ok_iff] at h ⊢
  refine h.imp (fun h => ⟨h.1, rfl⟩) fun ⟨hset, h⟩ => ⟨hset, ?_⟩
  -- All that is added is among the names already, so no name is new.
  obtain ⟨hall, hds⟩ := checkNames_eq_ok_iff.1 h
  refine checkNames_eq_ok_iff.2 ⟨fun name hname => ?_, ?_⟩
  · rw [hds, List.mem_append, List.mem_eraseDups] at hname
    exact hall name (hname.elim id (List.mem_append_right _))
  · rw [hds, eraseDups_append_left, eraseDups_append_of_subset (List.subset_append_right ..)]

/-- What a configuration becomes under an environment. -/
theorem withEnvironment_eq_ok_iff {c d : Config} {env : Environment} :
    c.withEnvironment env = .ok d ↔ d.enabled = c.enabled ∧
      severityUnder env c.severity = .ok d.severity ∧ namesUnder env c.deps = .ok d.deps := by
  rw [withEnvironment_eq]
  constructor
  · intro h
    obtain ⟨severity, hseverity, h⟩ := bind_eq_ok_iff.1 h
    obtain ⟨deps, hdeps, h⟩ := bind_eq_ok_iff.1 h
    cases h
    exact ⟨rfl, hseverity, hdeps⟩
  · rintro ⟨henabled, hseverity, hdeps⟩
    rw [hseverity, hdeps, ← henabled]
    rfl

/-! ## The two steps together -/

theorem complete_eq_ok_iff {room : Nat} {v : Value} {env : Environment} {d : Config} :
    (complete room v env).2 = .ok d ↔ ∃ c, (ofValue room v).2 = .ok c ∧ c.withEnvironment env = .ok d := by
  change ((ofValue room v).2 >>= fun c => c.withEnvironment env).mapError LoadFault.invalid = .ok d ↔ _
  rw [mapError_eq_ok_iff, bind_eq_ok_iff]

/-- The names of a configuration are those of the document, or the built-in ones, with what the document
and the environment add, each once and in the order of its first appearance, and all of them names. The
severity is the one that the environment sets, or else the one of the document; whether the rule is on is
for the document alone to say. The same environment changes nothing more. -/
theorem complete_eq_eraseDups {room : Nat} {v : Value} {env : Environment} {d : Config}
    (h : (complete room v env).2 = .ok d) :
    ∃ base additional severity, Says v d.enabled severity base additional ∧
      d.deps = (base ++ additional ++ added env).eraseDups ∧ d.deps.Nodup ∧
      (∀ name ∈ d.deps, IsName name) ∧
      (setting? env severityVariable = none ∧ d.severity = severity ∨
        ∃ raw, setting? env severityVariable = some raw ∧
          Severity.ofValue (.text raw) = some d.severity) ∧
      d.withEnvironment env = .ok d := by
  obtain ⟨c, hc, hd⟩ := complete_eq_ok_iff.1 h
  obtain ⟨base, additional, hsays, hnames⟩ := ofValue_says hc
  obtain ⟨henabled, hseverity, hunder⟩ := withEnvironment_eq_ok_iff.1 hd
  obtain ⟨hall, hdeps⟩ := checkNames_eq_ok_iff.1 (checkNames_append_added hnames hunder)
  refine ⟨base, additional, c.severity, henabled ▸ hsays, hdeps, ?_, fun name hname => ?_,
    severityUnder_eq_ok_iff.1 hseverity, ?_⟩
  · rw [hdeps]
    exact nodup_eraseDups _
  · rw [hdeps, List.mem_eraseDups] at hname
    exact hall name hname
  · exact withEnvironment_eq_ok_iff.2 ⟨rfl, severityUnder_again hseverity, namesUnder_again hunder⟩

/-- A document that switches the rule off, replaces the built-in names and adds some. -/
def mixedDocument : Value :=
  .map [(.text "other", .int 1), (.text (Text.ofString ruleName), .map [
    (.text "enabled", .bool false), (.text "severity", .text " Warning"),
    (.text "heavyDeps", .list [.text "three", .text "@scope/pkg", .text "three"]),
    (.text "additionalHeavyDeps", .list [.text "vue"])])]

/-- An environment that raises the severity and adds names, one of which the document has. -/
def mixedEnvironment : Environment :=
  [("DUSTY_SEVERITY", "ERROR"), ("DUSTY_ADDITIONAL_HEAVY_DEPS", " d3 ,, vue ,@org/x, ")]

/-- What the two come to. -/
def mixed : Config where
  enabled := false
  severity := .error
  deps := ["three", "@scope/pkg", "vue", "d3", "@org/x"]

theorem complete_mixed : (complete 9 mixedDocument mixedEnvironment).2 = .ok mixed ∧
    ∃ base additional severity, Says mixedDocument mixed.enabled severity base additional ∧
      mixed.deps = (base ++ additional ++ added mixedEnvironment).eraseDups ∧ mixed.deps.Nodup ∧
      (∀ name ∈ mixed.deps, IsName name) ∧
      (setting? mixedEnvironment severityVariable = none ∧ mixed.severity = severity ∨
        ∃ raw, setting? mixedEnvironment severityVariable = some raw ∧
          Severity.ofValue (.text raw) = some mixed.severity) ∧
      mixed.withEnvironment mixedEnvironment = .ok mixed :=
  have h : (complete 9 mixedDocument mixedEnvironment).2 = .ok mixed := by rfl
  ⟨h, complete_eq_eraseDups h⟩

end LazyLint.Config
