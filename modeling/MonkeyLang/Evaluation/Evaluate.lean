import MonkeyLang.Evaluation.Layer

namespace MonkeyLang

/-! Evaluation to a limited depth. -/

mutual

/-- Evaluates a node with at most `depth` evaluations and applications inside one another. -/
def evaluate (setting : Setting) : Nat → Evaluator
  | 0, _, _ => Eval.raise .depth
  | depth + 1, tree, scope =>
      Eval.node setting (evaluate setting depth) (apply setting depth) tree scope

/-- Applies a value, under the same limit. -/
def apply (setting : Setting) : Nat → Applier
  | 0, _, _, _, _ => Eval.raise .depth
  | depth + 1, callee, arguments, name, site =>
      Eval.application setting (evaluate setting depth) (apply setting depth) callee arguments name
        site

end

/-- How deep a run may evaluate. -/
def depthLimit : Nat := 10000

namespace Setting

/-- Runs a text in a scope. -/
def execute (setting : Setting) (text : String) (scope : ScopeId) : Eval (Option Value) :=
  Eval.execute setting (evaluate setting depthLimit) text scope

/-- Runs a text in a new outermost scope, as the top-level frame. -/
def run (setting : Setting) (text : String) : Eval (Option Value) := do
  let scope ← Eval.newScope none
  Eval.enclosed .unwinding topLevel scope none (setting.execute text scope)

end Setting

end MonkeyLang
