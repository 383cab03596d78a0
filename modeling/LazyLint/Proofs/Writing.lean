import LazyLint.Files.Tree
import Mathlib.Data.List.Basic

/-!
# A file that was written is there

A path leads through directories and links to a name, and writing puts a file under that name, in the
directory that was really reached. `file?_write` says that the same path then leads to the file that was
put there.

The path is followed in the tree before and in the tree after the write, step by step and side by side.
The two places of a step are `Beside` each other: the same names lead to them from the two tops. What
they have under a name is `Alike` but for the name that was written (`get?_written`), so that the two
ways go on together (`followParts_written`).
-/

namespace LazyLint.Files

/-! ## Names in a directory -/

namespace Directory

/-- The directory that names of directories lead to. -/
def at? (d : Directory) : List Text → Option Directory
  | [] => some d
  | name :: names =>
    match d.get? name with
    | some (.directory e) => at? e names
    | _ => none

theorem at?_cons {d e : Directory} {name : Text} {names : List Text} :
    d.at? (name :: names) = some e ↔
      ∃ b : Directory, d.get? name = some (.directory b) ∧ b.at? names = some e := by
  rw [at?]
  constructor
  · intro h
    split at h
    · exact ⟨_, by assumption, h⟩
    · cases h
  · rintro ⟨b, hb, h⟩
    rw [hb]
    exact h

theorem at?_append {d b e : Directory} {ms : List Text} {name : Text} (hb : d.at? ms = some b)
    (he : b.get? name = some (.directory e)) : d.at? (ms ++ [name]) = some e := by
  induction ms generalizing d with
  | nil =>
    cases hb
    exact at?_cons.2 ⟨e, he, rfl⟩
  | cons m ms ih =>
    obtain ⟨c, hc, hb⟩ := at?_cons.1 hb
    exact at?_cons.2 ⟨c, hc, ih hb⟩

theorem get?_cons (name n : Text) (e : Entry) (d : Directory) :
    get? ((n, e) :: d) name = if n = name then some e else get? d name := by
  by_cases h : n = name
  · simp [get?, h]
  · simp [get?, h]

/-- Only what the first name stands for is another. -/
theorem get?_put (new : Entry) (name part : Text) (names : List Text) (d : Directory) :
    (d.put (name :: names) new).get? part =
      if name = part then some (Entry.put new names ((d.get? name).getD (.directory [])))
      else d.get? part := by
  rw [put]
  induction d with
  | nil =>
    rw [putAmong, get?_cons]
    rfl
  | cons ne d ih =>
    obtain ⟨n, e⟩ := ne
    rw [putAmong]
    by_cases hn : n = name
    · subst hn
      rw [if_pos rfl, get?_cons, get?_cons, get?_cons, if_pos rfl, Option.getD_some]
      split <;> rfl
    · rw [if_neg hn, get?_cons, get?_cons, get?_cons, if_neg hn, ih]
      by_cases hp : n = part
      · subst hp
        rw [if_pos rfl, if_neg (Ne.symm hn), if_pos rfl]
      · rw [if_neg hp, if_neg hp]

/-- The last name stands for what was put. -/
theorem get?_put_last (new : Entry) (name part : Text) (d : Directory) :
    (d.put [name] new).get? part = if name = part then some new else d.get? part := by
  rw [get?_put, Entry.put]

/-- A directory on the way remains one. -/
theorem get?_put_directory {d b : Directory} {name : Text} (h : d.get? name = some (.directory b))
    (new : Entry) (part : Text) {names : List Text} (hne : names ≠ []) :
    (d.put (name :: names) new).get? part =
      if name = part then some (.directory (b.put names new)) else d.get? part := by
  obtain ⟨n, ns, rfl⟩ := List.exists_cons_of_ne_nil hne
  rw [get?_put, h, Option.getD_some, Entry.put]
  rfl

end Directory

/-! ## What a write changes -/

/-- Two entries that a path is followed through in the same way: directories may differ in what they
hold. -/
inductive Alike : Option Entry → Option Entry → Prop
  | none : Alike none none
  | file (bytes : List UInt8) : Alike (some (.file bytes)) (some (.file bytes))
  | link (target : Text) : Alike (some (.link target)) (some (.link target))
  | directory (d e : Directory) : Alike (some (.directory d)) (some (.directory e))

theorem Alike.refl (e : Option Entry) : Alike e e :=
  match e with
  | .none => .none
  | some (.file bytes) => .file bytes
  | some (.link target) => .link target
  | some (.directory d) => .directory d d

/-- The entry under one name is another and stands for no directory to go on through. -/
theorem at?_put_last {top d e : Directory} {bytes : List UInt8} {name : Text} {ns : List Text}
    (hne : ns ≠ []) (hd : top.at? ns = some d)
    (he : (top.put [name] (.file bytes)).at? ns = some e) : e = d := by
  obtain ⟨n, ns, rfl⟩ := List.exists_cons_of_ne_nil hne
  obtain ⟨b, hb, hd⟩ := Directory.at?_cons.1 hd
  obtain ⟨c, hc, he⟩ := Directory.at?_cons.1 he
  rw [Directory.get?_put_last] at hc
  split at hc
  · cases hc
  · cases hb.symm.trans hc
    exact Option.some.inj (he.symm.trans hd)

/-- A file that is put under a name of a directory is there, and what else the directories have is
alike. -/
theorem get?_written {top q d e : Directory} {bytes : List UInt8} {name : Text} {ms ns : List Text}
    (hq : top.at? ms = some q) (hd : top.at? ns = some d)
    (he : (top.put (ms ++ [name]) (.file bytes)).at? ns = some e) (part : Text) :
    (ns = ms ∧ part = name ∧ e.get? part = some (.file bytes)) ∨
      (¬ (ns = ms ∧ part = name) ∧ Alike (d.get? part) (e.get? part)) := by
  induction ms generalizing top ns with
  | nil =>
    by_cases hns : ns = []
    · subst hns
      cases hd
      cases he
      rw [List.nil_append, Directory.get?_put_last]
      by_cases hp : name = part
      · exact .inl ⟨rfl, hp.symm, if_pos hp⟩
      · rw [if_neg hp]
        exact .inr ⟨fun h => hp h.2.symm, Alike.refl _⟩
    · cases at?_put_last hns hd he
      exact .inr ⟨fun h => hns h.1, Alike.refl _⟩
  | cons m ms ih =>
    obtain ⟨b, hb, hq⟩ := Directory.at?_cons.1 hq
    have hput := fun n => Directory.get?_put_directory hb (.file bytes) n
      (List.append_ne_nil_of_right_ne_nil ms (List.cons_ne_nil name []))
    cases ns with
    | nil =>
      refine .inr ⟨fun h => List.cons_ne_nil m ms h.1.symm, ?_⟩
      cases hd
      cases he
      rw [List.cons_append, hput]
      split
      · rename_i hpart
        rw [← hpart, hb]
        exact .directory _ _
      · exact Alike.refl _
    | cons n ns =>
      obtain ⟨c, hc, hd⟩ := Directory.at?_cons.1 hd
      obtain ⟨c', hc', he⟩ := Directory.at?_cons.1 he
      rw [List.cons_append, hput] at hc'
      split at hc'
      · -- the way goes on below the directory that the first name stands for
        rename_i hmn
        subst hmn
        cases hb.symm.trans hc
        cases hc'
        simpa only [List.cons.injEq, true_and] using ih hq hd he
      · rename_i hmn
        cases hc.symm.trans hc'
        cases hd.symm.trans he
        exact .inr ⟨fun h => hmn (List.cons.inj h.1).1.symm, Alike.refl _⟩

/-! ## Places side by side -/

/-- Two places to which the same names of directories lead from two tops. -/
inductive Beside (top top' : Directory) : Place → Place → Prop
  | top : Beside top top' ⟨top, []⟩ ⟨top', []⟩
  | down {up up' dir dir' : Directory} {around around' : List (Text × Directory)} {name : Text}
      (h : Beside top top' ⟨up, around⟩ ⟨up', around'⟩) (hdir : up.get? name = some (.directory dir))
      (hdir' : up'.get? name = some (.directory dir')) :
      Beside top top' ⟨dir, (name, up) :: around⟩ ⟨dir', (name, up') :: around'⟩

section Beside

variable {top top' : Directory} {p p' : Place}

theorem Beside.at?_path (h : Beside top top' p p') :
    top.at? p.path = some p.dir ∧ top'.at? p.path = some p'.dir := by
  induction h with
  | top => exact ⟨rfl, rfl⟩
  | down _ hdir hdir' ih =>
    simp only [Place.path, List.map_cons, List.reverse_cons] at ih ⊢
    exact ⟨Directory.at?_append ih.1 hdir, Directory.at?_append ih.2 hdir'⟩

end Beside

/-! ## The same way -/

/-- The name under which a file would be put, and the names of the directory it is put in. -/
def Found.target? : Found → Option (List Text × Text)
  | .file p name _ | .vacant p name => some (p.path, name)
  | _ => none

section Way

variable {top top' : Directory} {p p' : Place} {part : Text} {rest : List Text}
  {target : List Text × Text}

/-- A name that is not there is where a path leads only if it is the last. -/
theorem target?_of_none
    (h : (if rest.isEmpty then Found.vacant p part else
      if rest.all List.isEmpty then .awaited else .missing).target? = some target) :
    rest.isEmpty = true ∧ target = (p.path, part) := by
  split at h
  · exact ⟨by assumption, (Option.some.inj h).symm⟩
  · split at h <;> cases h

/-- So is a file. -/
theorem target?_of_file {bytes : List UInt8}
    (h : (if rest.isEmpty then Found.file p part bytes else .blocked).target? = some target) :
    rest.isEmpty = true ∧ target = (p.path, part) := by
  split at h
  · exact ⟨by assumption, (Option.some.inj h).symm⟩
  · cases h

/-- Going up leads from places side by side to places side by side. -/
theorem Beside.up {name name' : Text} {dir dir' : Directory} {around around' : List (Text × Directory)}
    (h : Beside top top' p p') (hp : p.around = (name, dir) :: around)
    (hp' : p'.around = (name', dir') :: around') : Beside top top' ⟨dir, around⟩ ⟨dir', around'⟩ := by
  cases h with
  | top => cases hp
  | down h _ _ =>
    cases hp
    cases hp'
    exact h

theorem Beside.around_eq_nil (h : Beside top top' p p') : p.around = [] ↔ p'.around = [] := by
  cases h <;> simp

/-- A link starts anew from the top, or from where it stands. -/
theorem Beside.start (h : Beside top top' p p') (isAbsolute : Bool) :
    Beside top top' (if isAbsolute then ⟨top, []⟩ else p) (if isAbsolute then ⟨top', []⟩ else p') := by
  cases isAbsolute
  · exact h
  · exact .top

/-- A name of a directory under which a file can be put. -/
def Directory.Takes (top : Directory) (target : List Text × Text) : Prop :=
  ∃ d, top.at? target.1 = some d ∧ ∀ e, d.get? target.2 = some e → ∃ bytes, e = .file bytes

/-- What a path leads to is really there. -/
theorem followParts_takes {follow : Place → List Text → Found}
    (hfollow : ∀ p rest, Beside top top p p → (follow p rest).target? = some target →
      top.Takes target)
    (hp : Beside top top p p) (h : (followParts top follow p rest).target? = some target) :
    top.Takes target := by
  induction rest generalizing p with
  | nil => cases h
  | cons part rest ih =>
    rw [followParts] at h
    split at h
    · exact ih hp h
    split at h
    · split at h
      · exact ih hp h
      · rename_i hup
        exact ih (hp.up hup hup) h
    split at h
    · rename_i hnone
      obtain ⟨-, rfl⟩ := target?_of_none h
      exact ⟨p.dir, hp.at?_path.1, fun e he => nomatch hnone.symm.trans he⟩
    · rename_i bytes hfile
      obtain ⟨-, rfl⟩ := target?_of_file h
      refine ⟨p.dir, hp.at?_path.1, fun e he => ⟨bytes, ?_⟩⟩
      exact (Option.some.inj (hfile.symm.trans he)).symm
    · rename_i hdir
      exact ih (.down hp hdir hdir) h
    · exact hfollow _ _ (hp.start _) h

/-- A path that led to the name under which a file was put leads to the file. -/
theorem followParts_written {ms : List Text} {name : Text} {bytes : List UInt8}
    {follow follow' : Place → List Text → Found} (htakes : top.Takes (ms, name))
    (htop : top' = top.put (ms ++ [name]) (.file bytes))
    (hfollow : ∀ p p' rest, Beside top top' p p' → (follow p rest).target? = some (ms, name) →
      ∃ q', follow' p' rest = .file q' name bytes)
    (hp : Beside top top' p p') (h : (followParts top follow p rest).target? = some (ms, name)) :
    ∃ q', followParts top' follow' p' rest = .file q' name bytes := by
  induction rest generalizing p p' with
  | nil => cases h
  | cons part rest ih =>
    rw [followParts] at h ⊢
    split at h
    · rw [if_pos (by assumption)]
      exact ih hp h
    rw [if_neg (by assumption)]
    split at h
    · rw [if_pos (by assumption)]
      split at h
      · rw [hp.around_eq_nil.1 (by assumption)]
        exact ih hp h
      · rename_i hup
        split
        · rename_i hup'
          rw [hp.around_eq_nil.2 hup'] at hup
          cases hup
        · rename_i hup'
          exact ih (hp.up hup hup') h
    rw [if_neg (by assumption)]
    obtain ⟨hat, hat'⟩ := hp.at?_path
    rw [htop] at hat'
    obtain ⟨q, hq, hentry⟩ := htakes
    obtain ⟨rfl, rfl, hfile⟩ | ⟨hother, halike⟩ := get?_written hq hat hat' part
    · -- the name itself, after which the path does not go on
      cases hat.symm.trans hq
      have hrest : rest.isEmpty = true := by
        split at h
        · exact (target?_of_none h).1
        · exact (target?_of_file h).1
        · obtain ⟨_, he⟩ := hentry _ (by assumption)
          cases he
        · obtain ⟨_, he⟩ := hentry _ (by assumption)
          cases he
      rw [hfile]
      exact ⟨p', if_pos hrest⟩
    · -- any other name, under which the two trees look alike
      have hne : (ms, name) ≠ (p.path, part) := fun heq => hother (Prod.mk.inj heq.symm)
      generalize hold : p.dir.get? part = old at halike h
      generalize hnew : p'.dir.get? part = new at halike ⊢
      cases halike with
      | none => exact absurd (target?_of_none h).2 hne
      | file bytes => exact absurd (target?_of_file h).2 hne
      | link target => exact hfollow _ _ _ (hp.start _) h
      | directory d e => exact ih (.down hp hold hnew) h

/-- The same with links that are followed. -/
theorem followWithin_takes (links : Nat) (hp : Beside top top p p)
    (h : (followWithin top links p rest).target? = some target) : top.Takes target := by
  induction links generalizing p rest with
  | zero => cases h
  | succ links ih => exact followParts_takes (fun _ _ hp h => ih hp h) hp h

theorem followWithin_written {ms : List Text} {name : Text} {bytes : List UInt8}
    (htakes : top.Takes (ms, name)) (htop : top' = top.put (ms ++ [name]) (.file bytes)) (links : Nat)
    (hp : Beside top top' p p') (h : (followWithin top links p rest).target? = some (ms, name)) :
    ∃ q, followWithin top' links p' rest = .file q name bytes := by
  induction links generalizing p p' rest with
  | zero => cases h
  | succ links ih =>
    exact followParts_written htakes htop (fun _ _ _ hp h => ih hp h) hp h

/-- Names lead from places side by side to places side by side, if the two tops have directories under
the same names. -/
theorem descend_beside (names : List Text)
    (hsame : ∀ p p' n, Beside top top' p p' →
      ((∃ d, p.dir.get? n = some (.directory d)) ↔ ∃ d, p'.dir.get? n = some (.directory d)))
    (hp : Beside top top' p p') : Beside top top' (descend p names) (descend p' names) := by
  induction names generalizing p p' with
  | nil => exact hp
  | cons n names ih =>
    have hn := hsame p p' n hp
    rw [descend, descend]
    split
    · rename_i d hd
      obtain ⟨d', hd'⟩ := hn.1 ⟨d, hd⟩
      rw [hd']
      exact ih (.down hp hd hd')
    · rename_i hno
      split
      · rename_i d' hd'
        obtain ⟨d, hd⟩ := hn.2 ⟨d', hd'⟩
        exact absurd hd (hno d)
      · exact hp

/-- A file that is put where none but a file was leaves the directories. -/
theorem directory_written_iff {ms : List Text} {name : Text} {bytes : List UInt8}
    (htakes : top.Takes (ms, name)) (htop : top' = top.put (ms ++ [name]) (.file bytes)) (n : Text)
    (hp : Beside top top' p p') :
    (∃ d, p.dir.get? n = some (.directory d)) ↔ ∃ d, p'.dir.get? n = some (.directory d) := by
  obtain ⟨hat, hat'⟩ := hp.at?_path
  rw [htop] at hat'
  obtain ⟨q, hq, hentry⟩ := htakes
  obtain ⟨rfl, rfl, hfile⟩ | ⟨_, halike⟩ := get?_written hq hat hat' n
  · cases hat.symm.trans hq
    rw [hfile]
    refine ⟨fun ⟨d, hd⟩ => ?_, fun ⟨d, hd⟩ => nomatch hd⟩
    obtain ⟨bytes, he⟩ := hentry _ hd
    cases he
  · generalize p.dir.get? n = old at halike
    generalize p'.dir.get? n = new at halike
    cases halike <;> simp

end Way

/-! ## Reading what was written -/

namespace Tree

variable {t t' : Tree} {path : Text} {bytes : List UInt8}

theorem write_ok_iff : t.write path bytes = .ok t' ↔
    ∃ ms name, (t.find path).target? = some (ms, name) ∧
      t' = { t with top := t.top.put (ms ++ [name]) (.file bytes) } := by
  rw [write]
  cases t.find path <;> simp [Found.target?, eq_comm]

/-- Whether a file can be written does not depend on what is written. -/
theorem exists_write_ok (h : t.write path bytes = .ok t') (bytes' : List UInt8) :
    ∃ t'', t.write path bytes' = .ok t'' := by
  obtain ⟨ms, name, htarget, -⟩ := write_ok_iff.1 h
  exact ⟨_, write_ok_iff.2 ⟨ms, name, htarget, rfl⟩⟩

/-- A file that was written is there, with what was written. -/
theorem file?_write (h : t.write path bytes = .ok t') : t'.file? path = some bytes := by
  obtain ⟨ms, name, htarget, rfl⟩ := write_ok_iff.1 h
  rw [find] at htarget
  split at htarget
  · cases htarget
  rename_i hpath
  have htakes : t.top.Takes (ms, name) := by
    refine followWithin_takes _ ((descend_beside t.home (fun p p' n hp => ?_) .top).start _) htarget
    obtain ⟨hat, hat'⟩ := hp.at?_path
    rw [Option.some.inj (hat.symm.trans hat')]
  have hsame := fun p p' n (hp : Beside t.top (t.top.put (ms ++ [name]) (.file bytes)) p p') =>
    directory_written_iff htakes rfl n hp
  have hstart := descend_beside t.home hsame .top
  obtain ⟨q, hq⟩ := followWithin_written htakes rfl _ (hstart.start _) htarget
  rw [file?, find, if_neg hpath, hq]

end Tree

end LazyLint.Files
