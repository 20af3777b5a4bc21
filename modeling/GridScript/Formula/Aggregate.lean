/-
The aggregates that formulas can name, and the formulas that consist of
one. Each aggregate has a name in formulas, a helper that scripts call,
for some a function of the array library, and a reducer for exported
scripts, which is an expression around the list of the operands.
-/
import GridScript.Number.Reading
import GridScript.Text.Blank

namespace GridScript

/-- A function that sums up cells. -/
inductive Aggregate where
  | sum
  | average
  | min
  | max
  | count
  | countAll
  deriving DecidableEq

namespace Aggregate

/-- Every aggregate. -/
def all : List Aggregate := [sum, average, min, max, count, countAll]

/-- The name in formulas, in upper case. -/
def formulaName : Aggregate → Text
  | sum => "SUM".toList
  | average => "AVERAGE".toList
  | min => "MIN".toList
  | max => "MAX".toList
  | count => "COUNT".toList
  | countAll => "COUNTA".toList

/-- The helper that scripts call. -/
def helperName : Aggregate → Text
  | sum => "c_sum".toList
  | average => "c_avg".toList
  | min => "c_min".toList
  | max => "c_max".toList
  | count => "c_count".toList
  | countAll => "c_counta".toList

/-- The function of the array library, where there is one. -/
def arrayName? : Aggregate → Option Text
  | sum => some "np.sum".toList
  | average => some "np.mean".toList
  | min => some "np.min".toList
  | max => some "np.max".toList
  | count => none
  | countAll => none

/-- What stands before and after the list of operands in an exported
script. -/
def reducer : Aggregate → Text × Text
  | sum => ("float(np.sum(_numbers(".toList, ")))".toList)
  | average => ("float(np.mean(_numbers(".toList, ")))".toList)
  | min => ("float(np.min(_numbers(".toList, ")))".toList)
  | max => ("float(np.max(_numbers(".toList, ")))".toList)
  | count => ("len(_numbers(".toList, "))".toList)
  | countAll => ("len(_values(".toList, "))".toList)

/-- The aggregate of a name in either case. -/
def ofName? (name : Text) : Option Aggregate :=
  all.find? fun a => a.formulaName == Text.upper name

end Aggregate

namespace Formula

/-- Can a character stand in an argument that names cells? -/
def isReferenceChar (c : Char) : Bool :=
  c.isAlphanum || c == '_' || c == '.' || c == ':' || c == '$' || c == '!'

/-- Is the text a number or something that may name cells? -/
def isAggregateArgument (t : Text) : Bool :=
  !t.isEmpty && (Number.isNumeral t || t.all isReferenceChar)

/-- An expression that is one call of an aggregate, with its arguments as
they are written. A call within a call, and grouping, are none. -/
def aggregateCall? (expr : Text) : Option (Aggregate × List Text) := do
  let (name, rest) ← Text.cutAtFirst? '(' (Text.trim expr)
  if name.isEmpty || !name.all Char.isAlpha then none
  else
    let aggregate ← Aggregate.ofName? name
    let inner ← Text.beforeLast? ')' rest
    if inner.any fun c => c == '(' || c == ')' then none
    else
      let arguments := (Text.splitOn ',' inner).map Text.trim
      if arguments.all isAggregateArgument then return (aggregate, arguments)
      else none

end Formula

end GridScript
