/-!
# Live forms: expressions

A formula field holds an arithmetic expression over numbers and the values of other
fields, which it names by their ids. This module holds the trees of such expressions
and their value for given field values.

Main definitions:

* `Expr`: expression trees. Parentheses leave no node.
* `Expr.fieldNames`: the names in an expression, each once, first occurrence first.
* `Expr.eval`: the value of an expression, or the name that has no value.
-/

namespace LiveForms

/-- The operators between two operands. -/
inductive BinaryOp where
  | add
  | subtract
  | multiply
  | divide
deriving DecidableEq, Repr

/-- The signs in front of an operand. -/
inductive UnaryOp where
  | plus
  | minus
deriving DecidableEq, Repr

/-- Expression trees. -/
inductive Expr where
  | number (value : Float)
  /-- The value of the field with id `name`. -/
  | field (name : String)
  | binary (left : Expr) (op : BinaryOp) (right : Expr)
  | unary (op : UnaryOp) (operand : Expr)
deriving DecidableEq, Repr

/-- Values given to names; a name without a value is unbound. -/
abbrev Bindings := String → Option Float

/-- The value of an operator. Division by zero gives an infinity or NaN. -/
def BinaryOp.apply : BinaryOp → Float → Float → Float
  | .add, x, y => x + y
  | .subtract, x, y => x - y
  | .multiply, x, y => x * y
  | .divide, x, y => x / y

/-- The value of a sign. -/
def UnaryOp.apply : UnaryOp → Float → Float
  | .plus, x => x
  | .minus, x => -x

/-- Why an expression has no value. -/
inductive EvalError where
  /-- A name of the expression has no value. -/
  | unbound (name : String)
deriving DecidableEq, Repr

/-- The text of an evaluation error. -/
def EvalError.message : EvalError → String
  | .unbound name => "Unbound variable: " ++ name

namespace Expr

/-- The names in `seen`, then those of the expression that are not among them. -/
def collect (seen : List String) : Expr → List String
  | .number _ => seen
  | .field name => if name ∈ seen then seen else seen ++ [name]
  | .binary left _ right => right.collect (left.collect seen)
  | .unary _ operand => operand.collect seen

/-- The names of an expression in the order of their first occurrence. -/
def fieldNames (e : Expr) : List String :=
  e.collect []

/-- The value of an expression; the leftmost unbound name is the error. -/
def eval (bindings : Bindings) : Expr → Except EvalError Float
  | .number value => .ok value
  | .field name =>
      match bindings name with
      | some value => .ok value
      | none => .error (.unbound name)
  | .binary left op right =>
      match left.eval bindings with
      | .error e => .error e
      | .ok x =>
          match right.eval bindings with
          | .error e => .error e
          | .ok y => .ok (op.apply x y)
  | .unary op operand =>
      match operand.eval bindings with
      | .error e => .error e
      | .ok x => .ok (op.apply x)

end Expr
end LiveForms
