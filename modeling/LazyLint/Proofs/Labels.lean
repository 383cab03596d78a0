import LazyLint.Severity

/-!
# What can be seen of a value

Lists and maps of a document are labelled, and a place inside one of them can refer to it by its label.
Labels are counted through a whole document, so that the same value has other labels where something else
stands before it. Nothing that is said of a value depends on them: `unlabelled` takes them away, and the
value is written, or cannot be, and names a severity as before.
-/

namespace LazyLint.Value

mutual

/-- The value inside the lists and maps with the given labels, without labels of its own. One of these ends
where it is met again. -/
def unlabelledIn (around : List Nat) : Value → Value
  | .list items label =>
    if label.any around.contains then .loop false 0
    else .list (unlabelledItems (label.toList ++ around) items)
  | .tuple items => .tuple (unlabelledItems around items)
  | .set members => .set (unlabelledItems around members)
  | .map entries label =>
    if label.any around.contains then .loop true 0
    else .map (unlabelledEntries (label.toList ++ around) entries)
  | .loop isMap _ => .loop isMap 0
  | v => v

def unlabelledItems (around : List Nat) : List Value → List Value
  | [] => []
  | v :: vs => unlabelledIn around v :: unlabelledItems around vs

def unlabelledEntries (around : List Nat) : List (Value × Value) → List (Value × Value)
  | [] => []
  | (k, v) :: es => (unlabelledIn around k, unlabelledIn around v) :: unlabelledEntries around es

end

/-- The value without labels. -/
def unlabelled (v : Value) : Value :=
  v.unlabelledIn []

mutual

theorem writtenIn_unlabelled (around : List Nat) (v : Value) :
    writtenIn [] (unlabelledIn around v) = writtenIn around v := by
  cases v with
  | list items label =>
    rw [unlabelledIn, writtenIn]
    split
    · rfl
    · rw [writtenIn, if_neg (by simp), Option.toList_none, List.nil_append,
        writtenItems_unlabelled (label.toList ++ around) items]
  | tuple items =>
    cases items with
    | nil => rfl
    | cons v vs =>
      cases vs with
      | nil =>
        rw [unlabelledIn, unlabelledItems, unlabelledItems, writtenIn, writtenIn,
          writtenIn_unlabelled around v]
      | cons w vs =>
        rw [unlabelledIn, unlabelledItems, unlabelledItems, writtenIn, writtenIn,
          ← writtenItems_unlabelled around (v :: w :: vs), unlabelledItems, unlabelledItems]
        · simp
        · simp
  | set members =>
    cases members with
    | nil => rfl
    | cons m ms =>
      rw [unlabelledIn, unlabelledItems, writtenIn, writtenIn, ← writtenItems_unlabelled around (m :: ms),
        unlabelledItems]
      · simp
      · simp
  | map entries label =>
    rw [unlabelledIn, writtenIn]
    split
    · rfl
    · rw [writtenIn, if_neg (by simp), Option.toList_none, List.nil_append,
        writtenEntries_unlabelled (label.toList ++ around) entries]
  | loop isMap label => cases isMap <;> rfl
  | bool b => cases b <;> rfl
  | _ => rfl

theorem writtenItems_unlabelled (around : List Nat) (vs : List Value) :
    writtenItems [] (unlabelledItems around vs) = writtenItems around vs := by
  cases vs with
  | nil => rfl
  | cons v vs =>
    rw [unlabelledItems, writtenItems, writtenItems, writtenIn_unlabelled around v,
      writtenItems_unlabelled around vs]

theorem writtenEntries_unlabelled (around : List Nat) (es : List (Value × Value)) :
    writtenEntries [] (unlabelledEntries around es) = writtenEntries around es := by
  cases es with
  | nil => rfl
  | cons e es =>
    obtain ⟨k, v⟩ := e
    rw [unlabelledEntries, writtenEntries, writtenEntries, writtenIn_unlabelled around k,
      writtenIn_unlabelled around v, writtenEntries_unlabelled around es]

end

mutual

theorem troubleIn_unlabelled (around : List Nat) (room : Nat) (v : Value) :
    troubleIn [] room (unlabelledIn around v) = troubleIn around room v := by
  cases room with
  | zero => rw [troubleIn, troubleIn]
  | succ room =>
    cases v with
    | list items label =>
      rw [unlabelledIn, troubleIn]
      split
      · rfl
      · rw [troubleIn, if_neg (by simp), Option.toList_none, List.nil_append,
          troubleAmong_unlabelled (label.toList ++ around) room items]
    | tuple items =>
      rw [unlabelledIn, troubleIn, troubleIn, troubleAmong_unlabelled around room items]
    | set members =>
      rw [unlabelledIn, troubleIn, troubleIn, troubleAmong_unlabelled around (room - 1) members]
    | map entries label =>
      rw [unlabelledIn, troubleIn]
      split
      · rfl
      · rw [troubleIn, if_neg (by simp), Option.toList_none, List.nil_append,
          troubleAmongEntries_unlabelled (label.toList ++ around) room entries]
    | _ => rfl

theorem troubleAmong_unlabelled (around : List Nat) (room : Nat) (vs : List Value) :
    troubleAmong [] room (unlabelledItems around vs) = troubleAmong around room vs := by
  cases vs with
  | nil => rfl
  | cons v vs =>
    rw [unlabelledItems, troubleAmong, troubleAmong, troubleIn_unlabelled around room v,
      troubleAmong_unlabelled around room vs]

theorem troubleAmongEntries_unlabelled (around : List Nat) (room : Nat) (es : List (Value × Value)) :
    troubleAmongEntries [] room (unlabelledEntries around es) = troubleAmongEntries around room es := by
  cases es with
  | nil => rfl
  | cons e es =>
    obtain ⟨k, v⟩ := e
    rw [unlabelledEntries, troubleAmongEntries, troubleAmongEntries, troubleIn_unlabelled around room k,
      troubleIn_unlabelled around room v, troubleAmongEntries_unlabelled around room es]

end

theorem any_contains_nil (label : Option Nat) : label.any ([] : List Nat).contains = false := by
  cases label <;> rfl

@[simp] theorem unlabelled_list (items : List Value) (label : Option Nat) :
    (Value.list items label).unlabelled = .list (unlabelledItems label.toList items) := by
  rw [unlabelled, unlabelledIn, any_contains_nil, if_neg Bool.false_ne_true, List.append_nil]

@[simp] theorem unlabelled_map (entries : List (Value × Value)) (label : Option Nat) :
    (Value.map entries label).unlabelled = .map (unlabelledEntries label.toList entries) := by
  rw [unlabelled, unlabelledIn, any_contains_nil, if_neg Bool.false_ne_true, List.append_nil]

theorem unlabelled_eq_null_iff {v : Value} : v.unlabelled = .null ↔ v = .null := by
  cases v with
  | list items label => simp
  | map entries label => simp
  | _ => simp [unlabelled, unlabelledIn]

section Seen

variable (v : Value)

theorem written_unlabelled : v.unlabelled.written = v.written :=
  writtenIn_unlabelled [] v

theorem trouble?_unlabelled (room : Nat) : v.unlabelled.trouble? room = v.trouble? room :=
  troubleIn_unlabelled [] room v

theorem showing_unlabelled (room : Nat) (t : Text) : v.unlabelled.showing room t = v.showing room t := by
  rw [showing, showing, trouble?_unlabelled]

theorem plain_unlabelled : v.unlabelled.plain = v.plain := by
  have hwritten := v.written_unlabelled
  cases v with
  | text t => rfl
  | date y m d => rfl
  | instant y m d c => rfl
  | list items label =>
    rw [unlabelled_list] at hwritten ⊢
    exact hwritten
  | map entries label =>
    rw [unlabelled_map] at hwritten ⊢
    exact hwritten
  | _ => exact hwritten

theorem ofValue_unlabelled : Severity.ofValue v.unlabelled = Severity.ofValue v := by
  rw [Severity.ofValue, Severity.ofValue, plain_unlabelled]

end Seen

end LazyLint.Value
