import LazyLint.Linter

/-!
# What linting one source does to a linter

A linter only grows: what it makes of a source does not depend on what it found before, and stands
after it. `lint_eq_extend` says so once for every way in which linting can end.
-/

namespace LazyLint.Linter

/-- The linter with the findings of another one after its own. -/
def extend (l m : Linter) : Linter :=
  { l with
    diagnostics := l.diagnostics ++ m.diagnostics
    failures := l.failures ++ m.failures }

section Step

variable (e : Engine) (l : Linter) (file : Text)

theorem check_eq_extend (room : Nat) (tree : Ast.Node) (logs : List Log.Record) :
    l.check room file tree logs =
      { ({ config := l.config } : Linter).check room file tree logs with
        linter := l.extend (({ config := l.config } : Linter).check room file tree logs).linter } := by
  unfold check
  dsimp only
  split
  · simp [extend]
  · simp [extend, fail]
  · simp [extend]

/-- A linter makes of a source what an empty one makes of it, and keeps it after what it has. -/
theorem lint_eq_extend (source : Text) :
    l.lint e file source =
      { ({ config := l.config } : Linter).lint e file source with
        linter := l.extend (({ config := l.config } : Linter).lint e file source).linter } := by
  unfold lint
  dsimp only
  split
  · simp [extend]
  · split
    · exact check_eq_extend l file e.room _ _
    · simp [extend]
    · simp [extend, fail]

end Step

end LazyLint.Linter
