import LazyLint.Cst.Plan
import LazyLint.Cst.Refusal
import LazyLint.Engine
import LazyLint.Log

/-!
# Parsing

From source text to a lowered tree. A source is read as a module first and, if that goal refuses
it, as a script; the script goal's refusal is the one that counts.
-/

namespace LazyLint.Parse

/-- Why a source has no lowered tree. -/
inductive Failure where
  /-- A goal refuses the source. -/
  | refused (goal : Cst.Goal) (why : Cst.Refusal)
  /-- A string literal has no value. -/
  | escape (f : Escape.Fault)

def Failure.message : Failure → String
  | .refused _ why => why.message
  | .escape f => f.message

/-- The lowered tree of a concrete one, if the goal accepts it. -/
def lowerFor (goal : Cst.Goal) (src : List UInt8) (root : Cst.Node) : Except Failure Ast.Node :=
  match goal.refusal? root with
  | some why => .error (.refused goal why)
  | none => (Cst.lowerDeep src root).mapError .escape

/-- The lowered tree of a concrete one as a module or else as a script, and what is logged. -/
def lowerEither (src : List UInt8) (root : Cst.Node) :
    List Log.Record × Except Failure Ast.Node :=
  match lowerFor .module src root with
  | .ok tree => ([Log.debug "Parsed as module"], .ok tree)
  | .error (.escape f) => ([], .error (.escape f))
  | .error (.refused _ why) =>
    let retry := Log.debug
      ("Module parse failed (" ++ Text.ofString why.message ++ "); retrying as script")
    match lowerFor .script src root with
    | .ok tree => ([retry, Log.debug "Parsed as script"], .ok tree)
    | .error e => ([retry], .error e)

/-- The bytes of a source; a surrogate, which has no bytes, counts as a question mark. -/
def bytes (source : Text) : List UInt8 :=
  Utf8.encode source.toChars

def concrete (e : Engine) (source : Text) : Cst.Node :=
  e.read source.toChars

def parseFor (e : Engine) (goal : Cst.Goal) (source : Text) : Except Failure Ast.Node :=
  lowerFor goal (bytes source) (concrete e source)

/-- Parse a source as a module or else as a script. -/
def parse (e : Engine) (source : Text) : List Log.Record × Except Failure Ast.Node :=
  lowerEither (bytes source) (concrete e source)

end LazyLint.Parse
