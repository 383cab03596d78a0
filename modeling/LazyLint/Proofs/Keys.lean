import LazyLint.Proofs.Configuration
import LazyLint.Proofs.Labels
import LazyLint.Proofs.Naming

/-!
# What of a document counts

A document gives a configuration by four keys of one entry, and all else in it is passed over. Reading is
`outcome`, which is the configuration or the text that says why there is none. Two documents that `Agree`
on the four keys have the same outcome (`outcome_eq_of_sameEntry`), and an entry fails with the first of
its `Objection`s (`failsFirst_ofRule`).

There is one thing more that counts. The other keys are noted, and to note one it is written: where one of
them cannot be written (`keyTrouble?`), as an integer of too many digits cannot, there is no configuration
whatever the four keys say.
-/

namespace LazyLint.Config

open Dependency (IsAccepted NameFault Offends)

/-! ## Documents and entries -/

/-- The configuration of a document, or the text of its fault. -/
def outcome (room : Nat) (v : Value) : Except Text Config :=
  (ofValue room v).2.mapError (Fault.message room)

def IsMap (v : Value) : Prop :=
  ∃ entries label, v = .map entries label

/-- The entry of the rule in a document. -/
def ruleIn? (v : Value) : Option Value :=
  v.get? (Text.ofString ruleName)

/-- What ends the writing of the keys of an entry that are not the four. -/
def keyTrouble? (room : Nat) (rule : Value) : Option Value.Trouble :=
  (extraKeys rule).findSome? fun k => k.trouble? room

/-- Two entries say the same under the four keys: the switch and the severity are given in both or in
neither, and for lists null is as good as nothing. Labels do not count. -/
structure Agree (r s : Value) : Prop where
  enabled : (r.get? "enabled").map Value.unlabelled = (s.get? "enabled").map Value.unlabelled
  severity : (r.get? "severity").map Value.unlabelled = (s.get? "severity").map Value.unlabelled
  base : ((r.get? "heavyDeps").getD .null).unlabelled = ((s.get? "heavyDeps").getD .null).unlabelled
  additional : ((r.get? "additionalHeavyDeps").getD .null).unlabelled =
    ((s.get? "additionalHeavyDeps").getD .null).unlabelled

/-- Two documents have nothing under the name of the rule, or entries that agree. -/
inductive SameEntry (v w : Value) : Prop
  | unsaid (hv : (ruleIn? v).getD .null = .null) (hw : (ruleIn? w).getD .null = .null)
  | given {r s : Value} (hr : ruleIn? v = some r) (hs : ruleIn? w = some s) (hrmap : IsMap r)
      (hsmap : IsMap s) (hagree : Agree r s)

section Document

variable {room : Nat} {v rule : Value}

theorem outcome_of_unsaid (hv : IsMap v) (h : (ruleIn? v).getD .null = .null) :
    outcome room v = .ok {} := by
  obtain ⟨entries, label, rfl⟩ := hv
  unfold ruleIn? at h
  unfold outcome ofValue
  split
  · rfl
  · dsimp only
    rw [h]
    rfl

theorem outcome_of_given (hv : IsMap v) (hr : ruleIn? v = some rule) (hrule : IsMap rule) :
    outcome room v = (ofEntry room rule).2.mapError (Fault.message room) := by
  obtain ⟨entries, label, rfl⟩ := hv
  obtain ⟨es, l, rfl⟩ := hrule
  unfold ruleIn? at hr
  unfold outcome ofValue
  split
  · rename_i hfalsy
    rw [get?_of_isFalsy hfalsy] at hr
    cases hr
  · dsimp only
    rw [hr]
    rfl

theorem findSome?_trouble (room : Nat) (ks : List Value) :
    (ks.findSome? fun k => k.trouble? room) =
      (ks.find? fun k => (k.trouble? room).isSome).bind fun k => k.trouble? room := by
  induction ks with
  | nil => rfl
  | cons k ks ih =>
    rw [List.findSome?_cons, List.find?_cons]
    cases hk : k.trouble? room with
    | none => exact ih
    | some t => exact hk.symm

/-- The keys that mean nothing count before all else. -/
theorem ofEntry_eq (room : Nat) (rule : Value) :
    (ofEntry room rule).2.mapError (Fault.message room) =
      match keyTrouble? room rule with
      | some t => .error t.message
      | none => (ofRule rule).mapError (Fault.message room) := by
  rw [keyTrouble?, findSome?_trouble]
  unfold ofEntry
  cases hfind : (extraKeys rule).find? fun k => (k.trouble? room).isSome with
  | none => rfl
  | some k =>
    have hsome := (List.find?_eq_some_iff_append.1 hfind).1
    obtain ⟨t, ht⟩ := Option.isSome_iff_exists.1 hsome
    have hmessage : (Fault.extraKey k).message room = t.message := by
      rw [Fault.message, Value.showing, ht]
    rw [Option.bind_some, ht]
    exact congrArg Except.error hmessage

end Document

/-! ## The four keys -/

section Unlabelled

variable (room : Nat)

theorem message_names_unlabelled (key : String) (v : Value) :
    (Fault.names key v.unlabelled).message room = (Fault.names key v).message room := by
  rw [Fault.message, Fault.message, Value.showing_unlabelled, Value.written_unlabelled]

theorem switchOf_unlabelled (o : Option Value) :
    (switchOf (o.map Value.unlabelled)).mapError (Fault.message room) =
      (switchOf o).mapError (Fault.message room) := by
  have hfault : ∀ v : Value, (Fault.enabled v.unlabelled).message room =
      (Fault.enabled v).message room := by
    intro v
    rw [Fault.message, Fault.message, Value.showing_unlabelled, Value.written_unlabelled]
  cases o with
  | none => rfl
  | some v =>
    have hv := hfault v
    rw [Option.map_some]
    cases v with
    | bool b => rfl
    | list items label =>
      rw [Value.unlabelled_list] at hv ⊢
      exact congrArg Except.error hv
    | map entries label =>
      rw [Value.unlabelled_map] at hv ⊢
      exact congrArg Except.error hv
    | _ => exact congrArg Except.error hv

theorem severityFrom_unlabelled (o : Option Value) :
    (severityFrom (o.map Value.unlabelled)).mapError (Fault.message room) =
      (severityFrom o).mapError (Fault.message room) := by
  cases o with
  | none => rfl
  | some v =>
    have hfault : (Fault.severity v.unlabelled).message room = (Fault.severity v).message room := by
      rw [Fault.message, Fault.message, Value.showing_unlabelled, Value.plain_unlabelled]
    rw [Option.map_some, severityFrom, severityFrom, severityOf, severityOf, Value.ofValue_unlabelled]
    cases Severity.ofValue v with
    | some s => rfl
    | none => exact congrArg Except.error hfault

theorem text?_unlabelledIn (around : List Nat) (v : Value) :
    text? (v.unlabelledIn around) = text? v := by
  cases v with
  | list items label =>
    rw [Value.unlabelledIn]
    split <;> rfl
  | map entries label =>
    rw [Value.unlabelledIn]
    split <;> rfl
  | _ => rfl

theorem mapM_text?_unlabelledItems (around : List Nat) (items : List Value) :
    (Value.unlabelledItems around items).mapM text? = items.mapM text? := by
  induction items with
  | nil => rfl
  | cons v items ih =>
    rw [Value.unlabelledItems, List.mapM_cons, List.mapM_cons, text?_unlabelledIn, ih]

theorem namesOf_unlabelled (key : String) (v : Value) :
    (namesOf key v.unlabelled).mapError (Fault.message room) =
      (namesOf key v).mapError (Fault.message room) := by
  have hfault := message_names_unlabelled room key v
  cases v with
  | null => rfl
  | list items label =>
    rw [Value.unlabelled_list] at hfault ⊢
    rw [namesOf, namesOf, mapM_text?_unlabelledItems]
    cases items.mapM text? with
    | some names => rfl
    | none => exact congrArg Except.error hfault
  | tuple items =>
    have htuple : (Value.tuple items).unlabelled = .tuple (Value.unlabelledItems [] items) := rfl
    rw [htuple] at hfault ⊢
    rw [namesOf, namesOf, mapM_text?_unlabelledItems]
    cases items.mapM text? with
    | some names => rfl
    | none => exact congrArg Except.error hfault
  | map entries label =>
    rw [Value.unlabelled_map] at hfault ⊢
    exact congrArg Except.error hfault
  | _ => exact congrArg Except.error hfault

theorem baseFrom_of_null {o : Option Value} (h : o.getD .null = .null) :
    baseFrom o = .ok Dependency.defaults := by
  rw [baseFrom, h]

theorem baseFrom_of_ne_null {o : Option Value} (h : o.getD .null ≠ .null) :
    baseFrom o = namesOf "heavyDeps" (o.getD .null) := by
  unfold baseFrom
  split
  · rename_i hnull
    exact absurd hnull h
  · rfl

theorem baseFrom_congr {o o' : Option Value}
    (h : (o.getD .null).unlabelled = (o'.getD .null).unlabelled) :
    (baseFrom o).mapError (Fault.message room) = (baseFrom o').mapError (Fault.message room) := by
  by_cases hnull : o.getD .null = .null
  · have hnull' : o'.getD .null = .null := by
      rw [← Value.unlabelled_eq_null_iff, ← h, hnull]
      rfl
    rw [baseFrom_of_null hnull, baseFrom_of_null hnull']
  · have hnull' : o'.getD .null ≠ .null := by
      intro h'
      apply hnull
      rw [← Value.unlabelled_eq_null_iff, h, h']
      rfl
    have hnames := namesOf_unlabelled room "heavyDeps" (o.getD .null)
    rw [baseFrom_of_ne_null hnull, baseFrom_of_ne_null hnull', ← hnames, h, namesOf_unlabelled]

end Unlabelled

theorem ofRule_congr {room : Nat} {r s : Value} (h : Agree r s) :
    (ofRule r).mapError (Fault.message room) = (ofRule s).mapError (Fault.message room) := by
  have hswitch := switchOf_unlabelled room (r.get? "enabled")
  rw [h.enabled, switchOf_unlabelled] at hswitch
  have hseverity := severityFrom_unlabelled room (r.get? "severity")
  rw [h.severity, severityFrom_unlabelled] at hseverity
  have hadditional := namesOf_unlabelled room "additionalHeavyDeps"
    ((r.get? "additionalHeavyDeps").getD .null)
  rw [h.additional, namesOf_unlabelled] at hadditional
  simp only [ofRule_eq, mapError_bind]
  rw [hswitch, hseverity, baseFrom_congr room h.base, hadditional]

theorem outcome_eq_of_sameEntry {room : Nat} {v w : Value} (hv : IsMap v) (hw : IsMap w)
    (h : SameEntry v w)
    (htrouble : (ruleIn? v).bind (keyTrouble? room) = (ruleIn? w).bind (keyTrouble? room)) :
    outcome room v = outcome room w := by
  cases h with
  | unsaid hv' hw' => rw [outcome_of_unsaid hv hv', outcome_of_unsaid hw hw']
  | given hr hs hrmap hsmap hagree =>
    rw [hr, hs, Option.bind_some, Option.bind_some] at htrouble
    rw [outcome_of_given hv hr hrmap, outcome_of_given hw hs hsmap, ofEntry_eq, ofEntry_eq, htrouble,
      ofRule_congr hagree]

/-! ## What can be wrong with an entry -/

/-- What is wrong with an entry, by number: the switch is no truth value, the severity is none, one of the
lists is neither a list nor a tuple of texts, or a name of the list that the entry comes to is not the name
of a package. -/
inductive Objection (rule : Value) : Nat → Fault → Prop
  | enabled {v : Value} (hv : rule.get? "enabled" = some v) (h : ∀ b, v ≠ .bool b) :
      Objection rule 0 (.enabled v)
  | severity {v : Value} (hv : rule.get? "severity" = some v) (h : Severity.ofValue v = none) :
      Objection rule 1 (.severity v)
  | base {v : Value} (hv : rule.get? "heavyDeps" = some v) (hnull : v ≠ .null)
      (h : ∀ ts, ¬ Lists (some v) (some ts)) :
      Objection rule 2 (.names "heavyDeps" v)
  | additional {v : Value} (hv : rule.get? "additionalHeavyDeps" = some v) (hnull : v ≠ .null)
      (h : ∀ ts, ¬ Lists (some v) (some ts)) :
      Objection rule 3 (.names "additionalHeavyDeps" v)
  | name {ts us : Option (List Text)} {i n : Nat} {name : Text} {f : NameFault}
      (hbase : Lists (rule.get? "heavyDeps") ts)
      (hadditional : Lists (rule.get? "additionalHeavyDeps") us)
      (hname : (ts.getD Dependency.defaults ++ us.getD [])[i]? = some name)
      (h : Offends (.text name) f) (hn : n = 4 + i) : Objection rule n (.name f)

section Objections

variable {rule : Value}

theorem switchOf_eq_error_iff {f : Fault} :
    switchOf (rule.get? "enabled") = .error f ↔ Objection rule 0 f := by
  constructor
  · intro h
    cases hv : rule.get? "enabled" with
    | none =>
      rw [hv] at h
      cases h
    | some v =>
      rw [hv] at h
      cases v with
      | bool b => cases h
      | _ =>
        cases h
        exact .enabled hv nofun
  · intro h
    cases h with
    | @enabled v hv h =>
      rw [hv]
      cases v with
      | bool b => exact absurd rfl (h b)
      | _ => rfl
    | name _ _ _ _ hn => omega

theorem severityFrom_eq_error_iff {f : Fault} :
    severityFrom (rule.get? "severity") = .error f ↔ Objection rule 1 f := by
  constructor
  · intro h
    cases hv : rule.get? "severity" with
    | none =>
      rw [hv] at h
      cases h
    | some v =>
      rw [hv, severityFrom, severityOf] at h
      split at h
      · cases h
      · rename_i hnone
        cases h
        exact .severity hv hnone
  · intro h
    cases h with
    | severity hv h => rw [hv, severityFrom, severityOf, h]
    | name _ _ _ _ hn => omega

theorem Lists.namesOf_eq {o : Option Value} {ts : List Text} (h : Lists o (some ts)) (key : String) :
    o.getD .null ≠ .null ∧ namesOf key (o.getD .null) = .ok ts := by
  cases h with
  | list ts label => exact ⟨nofun, namesOf_eq_ok_iff.2 (.inr (.inl ⟨label, rfl⟩))⟩
  | tuple ts => exact ⟨nofun, namesOf_eq_ok_iff.2 (.inr (.inr rfl))⟩

theorem Lists.unique {o : Option Value} {ts us : Option (List Text)} (h : Lists o ts)
    (h' : Lists o us) : ts = us := by
  cases ts with
  | none =>
    cases us with
    | none => rfl
    | some us =>
      cases h with
      | nothing hnull => exact absurd hnull (h'.namesOf_eq "").1
  | some ts =>
    obtain ⟨hnull, hts⟩ := h.namesOf_eq ""
    cases us with
    | none =>
      cases h' with
      | nothing hnull' => exact absurd hnull' hnull
    | some us => rw [Except.ok.inj (hts.symm.trans (h'.namesOf_eq "").2)]

theorem namesOf_eq_error_iff {key : String} {v : Value} {f : Fault} : namesOf key v = .error f ↔
    v ≠ .null ∧ (∀ ts, ¬ Lists (some v) (some ts)) ∧ f = .names key v := by
  have hfault : ∀ g, namesOf key v = .error g → g = .names key v := by
    intro g hg
    unfold namesOf at hg
    split at hg
    · cases hg
    · split at hg <;> cases hg
      rfl
    · split at hg <;> cases hg
      rfl
    · cases hg
      rfl
  constructor
  · intro h
    refine ⟨?_, fun ts hlists => ?_, hfault f h⟩
    · rintro rfl
      cases h
    · cases h.symm.trans (hlists.namesOf_eq key).2
  · rintro ⟨hnull, hlists, rfl⟩
    cases hnames : namesOf key v with
    | error g => rw [hfault g hnames]
    | ok ts => exact absurd (lists_some (o := some v) hnull hnames) (hlists ts)

theorem namesOf_getD_eq_error_iff {key : String} {o : Option Value} {f : Fault} :
    namesOf key (o.getD .null) = .error f ↔ ∃ v, o = some v ∧ v ≠ .null ∧
      (∀ ts, ¬ Lists (some v) (some ts)) ∧ f = .names key v := by
  rw [namesOf_eq_error_iff]
  cases o with
  | none => simp
  | some v => simp

theorem baseFrom_eq_error_iff {f : Fault} :
    baseFrom (rule.get? "heavyDeps") = .error f ↔ Objection rule 2 f := by
  have hnames : baseFrom (rule.get? "heavyDeps") = .error f ↔
      namesOf "heavyDeps" ((rule.get? "heavyDeps").getD .null) = .error f := by
    by_cases hnull : (rule.get? "heavyDeps").getD .null = .null
    · rw [baseFrom_of_null hnull, hnull, namesOf]
      simp
    · rw [baseFrom_of_ne_null hnull]
  rw [hnames, namesOf_getD_eq_error_iff]
  constructor
  · rintro ⟨v, hv, hnull, hlist, rfl⟩
    exact .base hv hnull hlist
  · intro h
    cases h with
    | base hv hnull hlist => exact ⟨_, hv, hnull, hlist, rfl⟩
    | name _ _ _ _ hn => omega

theorem additional_eq_error_iff {f : Fault} :
    namesOf "additionalHeavyDeps" ((rule.get? "additionalHeavyDeps").getD .null) = .error f ↔
      Objection rule 3 f := by
  rw [namesOf_getD_eq_error_iff]
  constructor
  · rintro ⟨v, hv, hnull, hlist, rfl⟩
    exact .additional hv hnull hlist
  · intro h
    cases h with
    | additional hv hnull hlist => exact ⟨_, hv, hnull, hlist, rfl⟩
    | name _ _ _ _ hn => omega

theorem checkNames_eq_error_iff {names : List Text} {f : Fault} : checkNames names = .error f ↔
    ∃ i name e, names[i]? = some name ∧ Offends (.text name) e ∧ f = .name e ∧
      ∀ (j : Nat) other d, names[j]? = some other → Offends (.text other) d → i ≤ j := by
  rw [checkNames, mapError_eq_error_iff]
  simp only [Dependency.normalize_eq_error_iff]
  constructor
  · rintro ⟨e, ⟨before, v, after, hsplit, hbefore, he⟩, rfl⟩
    have hv : (names.map Value.text)[before.length]? = some v := by
      rw [hsplit, List.getElem?_append_right (Nat.le_refl _), Nat.sub_self, List.getElem?_cons_zero]
    rw [List.getElem?_map, Option.map_eq_some_iff] at hv
    obtain ⟨name, hname, rfl⟩ := hv
    refine ⟨before.length, name, e, hname, he, rfl, fun j other d hj hd => ?_⟩
    apply Nat.le_of_not_lt
    intro hlt
    -- a name before the first bad one is accepted
    have hother : before[j]? = some (.text other) := by
      rw [← List.getElem?_append_left hlt, ← hsplit, List.getElem?_map, hj, Option.map_some]
    obtain ⟨_, haccepted⟩ :=
      Dependency.exists_ofValue_iff.2 (hbefore _ (List.mem_of_getElem? hother))
    cases haccepted.symm.trans (Dependency.ofValue_eq_error_iff.2 hd)
  · rintro ⟨i, name, e, hname, he, rfl, hfirst⟩
    obtain ⟨hi, rfl⟩ := List.getElem?_eq_some_iff.1 hname
    refine ⟨e, ⟨(names.take i).map .text, .text names[i], (names.drop (i + 1)).map .text, ?_, ?_, he⟩,
      rfl⟩
    · rw [← List.map_cons, ← List.map_append, ← List.drop_eq_getElem_cons hi, List.take_append_drop]
    · intro u hu
      obtain ⟨other, hother, rfl⟩ := List.mem_map.1 hu
      obtain ⟨j, hj⟩ := List.getElem?_of_mem hother
      rw [← Dependency.exists_ofValue_iff]
      cases hd : Dependency.ofValue (.text other) with
      | ok name => exact ⟨name, rfl⟩
      | error d =>
        have hlt : j < i := by
          have hlength := (List.getElem?_eq_some_iff.1 hj).1
          rw [List.length_take] at hlength
          omega
        rw [List.getElem?_take_of_lt hlt] at hj
        have hle := hfirst j other d hj (Dependency.ofValue_eq_error_iff.1 hd)
        omega

/-- The objections from the fourth on are those to names of the list that the entry comes to. -/
theorem objection_name_iff {ts us : Option (List Text)} (hts : Lists (rule.get? "heavyDeps") ts)
    (hus : Lists (rule.get? "additionalHeavyDeps") us) {n : Nat} (hn : 4 ≤ n) {f : Fault} :
    Objection rule n f ↔ ∃ i name e, n = 4 + i ∧
      (ts.getD Dependency.defaults ++ us.getD [])[i]? = some name ∧ Offends (.text name) e ∧
        f = .name e := by
  constructor
  · intro h
    cases h with
    | @name ts' us' i _ name e hts' hus' hname h hi =>
      cases hts.unique hts'
      cases hus.unique hus'
      exact ⟨i, name, e, hi, hname, h, rfl⟩
    | enabled => omega
    | severity => omega
    | base => omega
    | additional => omega
  · rintro ⟨i, name, e, hi, hname, h, rfl⟩
    exact .name hts hus hname h hi

theorem failsFirst_ofRule : FailsFirst (ofRule rule) (Objection rule) 0 := by
  rw [ofRule_eq]
  refine .bind (fun _ => switchOf_eq_error_iff) fun enabled _ => ?_
  refine .bind (fun _ => severityFrom_eq_error_iff) fun severity _ => ?_
  refine .bind (fun _ => baseFrom_eq_error_iff) fun base hbase => ?_
  refine .bind (fun _ => additional_eq_error_iff) fun additional hadditional => ?_
  obtain ⟨ts, hts, rfl⟩ := base_of_ok hbase
  obtain ⟨us, hus, rfl⟩ := additional_of_ok hadditional
  -- The last check has as many objections as there are bad names, numbered by their places.
  intro f
  rw [bind_pure_eq_error_iff, checkNames_eq_error_iff]
  constructor
  · rintro ⟨i, name, e, hname, he, rfl, hfirst⟩
    refine ⟨4 + i, by omega, (objection_name_iff hts hus (by omega)).2 ⟨i, name, e, rfl, hname, he, rfl⟩,
      fun j d hj hd => ?_⟩
    obtain ⟨k, other, e', rfl, hother, he', rfl⟩ := (objection_name_iff hts hus hj).1 hd
    have hle := hfirst k other e' hother he'
    omega
  · rintro ⟨j, hj, hd, hfirst⟩
    obtain ⟨i, name, e, rfl, hname, he, rfl⟩ := (objection_name_iff hts hus hj).1 hd
    refine ⟨i, name, e, hname, he, rfl, fun k other e' hother he' => ?_⟩
    have hobjection : Objection rule (4 + k) (.name e') :=
      (objection_name_iff hts hus (by omega)).2 ⟨k, other, e', rfl, hother, he', rfl⟩
    have hle := hfirst (4 + k) (.name e') (by omega) hobjection
    omega

end Objections

/-! ## The outcome -/

/-- Maps whose entries for the rule agree on the four keys have the same outcome, whatever else they hold,
unless another key that cannot be written stands in one of the entries. With such a key in its entry a map
gives no configuration. Without one it gives a configuration exactly if there is no objection to the entry,
and else the text is that of the first objection. -/
theorem outcome_laws {room : Nat} {v : Value} (hv : IsMap v) :
    (∀ w, IsMap w → SameEntry v w →
      (ruleIn? v).bind (keyTrouble? room) = (ruleIn? w).bind (keyTrouble? room) →
        outcome room v = outcome room w) ∧
    ∀ rule, ruleIn? v = some rule → IsMap rule →
      (∀ trouble, keyTrouble? room rule = some trouble → outcome room v = .error trouble.message) ∧
      (keyTrouble? room rule = none →
        ((∃ c, outcome room v = .ok c) ↔ ∀ i f, ¬ Objection rule i f) ∧
        ∀ t, outcome room v = .error t ↔ ∃ i f, Objection rule i f ∧
          (∀ j g, Objection rule j g → i ≤ j) ∧ f.message room = t) := by
  refine ⟨fun w => outcome_eq_of_sameEntry hv,
    fun rule hrule hmap => ⟨fun trouble htrouble => ?_, fun hnone => ?_⟩⟩
  · rw [outcome_of_given hv hrule hmap, ofEntry_eq, htrouble]
  · have hread : outcome room v = (ofRule rule).mapError (Fault.message room) := by
      rw [outcome_of_given hv hrule hmap, ofEntry_eq, hnone]
    constructor
    · rw [hread, ← failsFirst_ofRule.exists_ok_iff]
      simp only [mapError_eq_ok_iff]
    · intro t
      rw [hread, mapError_eq_error_iff]
      constructor
      · rintro ⟨f, hf, rfl⟩
        obtain ⟨i, -, hi, hfirst⟩ := (failsFirst_ofRule f).1 hf
        exact ⟨i, f, hi, fun j g hg => hfirst j g (Nat.zero_le j) hg, rfl⟩
      · rintro ⟨i, f, hi, hfirst, rfl⟩
        exact ⟨f, (failsFirst_ofRule f).2 ⟨i, Nat.zero_le i, hi, fun j g _ hg => hfirst j g hg⟩, rfl⟩

/-- A document with an entry of the rule and something before it. -/
def documentOf (before entries : List (Value × Value)) (label : Option Nat) : Value :=
  .map (before ++ [(.text (Text.ofString ruleName), .map entries label)])

/-- An entry that switches the rule off and names a dependency, with a key that means nothing. -/
def offWith (k : Value) : List (Value × Value) :=
  [(k, .null), (.text "enabled", .bool false), (.text "additionalHeavyDeps", .tuple [.text "d3"])]

/-- An entry with a number for a list and nothing for the switch. -/
def noSwitch : List (Value × Value) :=
  [(.text "heavyDeps", .int 1), (.text "enabled", .null)]

/-- The least integer of too many digits. -/
def tooLong : Value :=
  .int (Nat.pow 10 Text.maxDecimalDigits : Nat)

theorem trouble?_tooLong (room : Nat) : tooLong.trouble? (room + 1) = some .digits := by
  rw [tooLong, Value.trouble?, Value.troubleIn, Int.natAbs_natCast, if_neg (Nat.lt_irrefl _)]

/-- The rule is switched off in two documents which differ in another key, in what stands before the entry
and in a label. -/
theorem outcome_off :
    (∃ c, outcome 9 (documentOf [(.text "x", .int 1)] (offWith (.text "y")) (some 3)) = .ok c ∧
      c.enabled = false ∧ c.deps = Dependency.defaults ++ [Text.ofString "d3"]) ∧
    outcome 9 (documentOf [(.text "x", .int 1)] (offWith (.text "y")) (some 3)) =
      outcome 9 (documentOf [] (offWith .null) none) ∧
    outcome 9 (documentOf [] (offWith tooLong) none) = .error Value.Trouble.digits.message ∧
    outcome 9 (documentOf [] noSwitch none) =
      .error (Text.ofString (ruleName ++ ".enabled must be a boolean, got ") ++ "None") := by
  have hmap : ∀ before entries label, IsMap (documentOf before entries label) :=
    fun _ _ _ => ⟨_, _, rfl⟩
  refine ⟨⟨{ enabled := false, deps := Dependency.defaults ++ [Text.ofString "d3"] }, rfl, rfl, rfl⟩,
    ?_, ?_, ?_⟩
  · exact (outcome_laws (hmap _ _ _)).1 _ (hmap _ _ _)
      (.given (r := .map (offWith (.text "y")) (some 3)) (s := .map (offWith .null)) rfl rfl
        ⟨_, _, rfl⟩ ⟨_, _, rfl⟩ ⟨rfl, rfl, rfl, rfl⟩) rfl
  · have hrule : ruleIn? (documentOf [] (offWith tooLong) none) = some (.map (offWith tooLong)) := rfl
    have htrouble : keyTrouble? 9 (.map (offWith tooLong)) = some .digits := by
      have hextra : extraKeys (.map (offWith tooLong)) = [tooLong] := rfl
      rw [keyTrouble?, hextra, List.findSome?_cons, trouble?_tooLong]
    obtain ⟨hwrong, -⟩ := (outcome_laws (hmap _ _ _)).2 _ hrule ⟨_, _, rfl⟩
    exact hwrong _ htrouble
  · have hrule : ruleIn? (documentOf [] noSwitch none) = some (.map noSwitch) := rfl
    have hswitch : Objection (.map noSwitch) 0 (.enabled .null) := .enabled rfl nofun
    obtain ⟨-, hread⟩ := (outcome_laws (hmap _ _ _)).2 _ hrule ⟨_, _, rfl⟩
    obtain ⟨-, hwrong⟩ := hread rfl
    exact (hwrong _).2 ⟨0, _, hswitch, fun j _ _ => Nat.zero_le j, rfl⟩

end LazyLint.Config
