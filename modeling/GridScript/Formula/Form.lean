/-
The form a formula takes in a script. The most readable form that fits is
chosen: a call of an aggregate helper, the expression itself, or else the
text handed to the evaluator. Which it is depends on the formula alone;
the target only says what the result is assigned to.
-/
import GridScript.Formula.Fallback
import GridScript.Formula.Inline
import GridScript.Value.Literal

namespace GridScript

namespace Formula

/-- A formula without the blanks around it and the equals sign in front. -/
def body (source : Text) : Text :=
  match Text.trim source with
  | '=' :: t => Text.trim t
  | t => Text.trim t

/-- The forms of a formula. -/
inductive Form where
  | aggregate (a : Aggregate) (arguments : List Text)
  | inline (expr : Text)
  | fallback (t : Text)

/-- The form that fits a formula. -/
def form (source : Text) : Form :=
  let expr := body source
  match aggregateCall? expr with
  | some (a, arguments) => .aggregate a arguments
  | none =>
    match inlineTokens? expr with
    | some tokens => .inline (renderInline tokens)
    | none => .fallback (fallbackText expr)

/-- The expression of a form. -/
def Form.expression : Form → Text
  | aggregate a arguments =>
    a.helperName ++ '(' :: Text.joinWith ", ".toList
      (arguments.map fun t => Script.quote (Text.lower t)) ++ [')']
  | inline expr => expr
  | fallback t => Literal.call "formula" [Script.quote t]

/-- The name to assign to inside a block of the body: a label needs its
region in front. -/
def targetName (target : Cell) : Text :=
  if target.region.isLabel then target.region.name ++ '.' :: target.ident
  else target.ident

/-- The statement that sets a formula on a cell. -/
def assignment (target : Cell) (source : Text) : Text :=
  targetName target ++ " = ".toList ++ (form source).expression

end Formula

end GridScript
