import LiveForms.Expr.Basic
import LiveForms.Expr.Token

/-!
# Live forms: reading an expression

The grammar of expressions, from loosest to tightest binding:

    Sum      ::= Product ( ( "+" | "-" ) Product )*
    Product  ::= Signed ( ( "*" | "/" ) Signed )*
    Signed   ::= ( "+" | "-" ) Signed | Primary
    Primary  ::= Number | Name | "(" Sum ")"

Binary operators group to the left. The tokens are taken one by one; what waits for the
operand being read is kept on a stack of frames. `operand` stands where an operand has
to start, `operator` where one has just ended. A lexical error counts when the reading
reaches it, so a token that does not fit before it is reported first.

Main definitions:

* `Frame`: an open parenthesis, a sign or a left operand that waits.
* `ParseError`, and `ParseError.message`, its text.
* `Expr.parse`: the tree of a text.
-/

namespace LiveForms

/-- What waits on the stack for the operand being read. -/
inductive Frame where
  /-- An open parenthesis. -/
  | group
  | sign (op : UnaryOp)
  /-- A left operand and the operator after it. -/
  | left (operand : Expr) (op : BinaryOp)
deriving DecidableEq, Repr

/-- Why a text is no expression. -/
inductive ParseError where
  /-- The text has no token at some place. -/
  | lexical (e : LexError)
  /-- No operand starts with this token; `none` is the end of the text. -/
  | unexpected (found : Option Token)
  /-- A parenthesis is still open before this token. -/
  | unclosed (found : Option Token)
  /-- A complete expression is followed by this token. -/
  | trailing (found : Token)
  /-- A name is followed by an opening parenthesis. -/
  | call (name : String)
deriving DecidableEq, Repr

namespace ParseError

/-- A token, or the end of the text, inside a message. -/
def describe : Option Token → String
  | some t => t.describe
  | none => "Eof"

/-- The text of an error. -/
def message : ParseError → String
  | .lexical e => e.message
  | .unexpected found => "Unexpected token: " ++ describe found
  | .unclosed found => "Expected RightParen, found " ++ describe found
  | .trailing found => "Unexpected token at end: " ++ found.describe
  | .call name => "Function calls are not supported: " ++ name

end ParseError

namespace Reader

/-- Whether an operator belongs to a product rather than to a sum. -/
def isProduct : BinaryOp → Bool
  | .multiply => true
  | .divide => true
  | .add => false
  | .subtract => false

/-- Gives a finished operand to the signs and products that wait for it. -/
def settle : List Frame → Expr → List Frame × Expr
  | .sign op :: stack, e => settle stack (.unary op e)
  | .left l op :: stack, e =>
      if isProduct op then
        settle stack (.binary l op e)
      else
        (.left l op :: stack, e)
  | stack, e => (stack, e)

/-- Gives a finished product to the sum that waits for it. -/
def join : List Frame → Expr → List Frame × Expr
  | .left l op :: stack, e => (stack, .binary l op e)
  | stack, e => (stack, e)

/-- The error at a place where neither an operator nor a parenthesis can follow. -/
def stray (stack : List Frame) (found : Token) : ParseError :=
  match stack with
  | [] => .trailing found
  | _ => .unclosed (some found)

mutual

/-- Reads on where an operand has to start. -/
def operand (stop : Option LexError) (stack : List Frame) :
    List Token → Except ParseError Expr
  | [] =>
      match stop with
      | some e => .error (.lexical e)
      | none => .error (.unexpected none)
  | .number value :: ts => operator stop (settle stack (.number value)) ts
  | .name text :: ts =>
      match ts with
      | .leftParen :: _ => .error (.call text)
      | _ => operator stop (settle stack (.field text)) ts
  | .leftParen :: ts => operand stop (.group :: stack) ts
  | .plus :: ts => operand stop (.sign .plus :: stack) ts
  | .minus :: ts => operand stop (.sign .minus :: stack) ts
  | .times :: _ => .error (.unexpected (some .times))
  | .divide :: _ => .error (.unexpected (some .divide))
  | .rightParen :: _ => .error (.unexpected (some .rightParen))

/-- Reads on after an operand, given with the frames below it. -/
def operator (stop : Option LexError) (done : List Frame × Expr) :
    List Token → Except ParseError Expr
  | [] =>
      match stop with
      | some e => .error (.lexical e)
      | none =>
          match join done.1 done.2 with
          | ([], e) => .ok e
          | _ => .error (.unclosed none)
  | .times :: ts => operand stop (.left done.2 .multiply :: done.1) ts
  | .divide :: ts => operand stop (.left done.2 .divide :: done.1) ts
  | .plus :: ts =>
      let sum := join done.1 done.2
      operand stop (.left sum.2 .add :: sum.1) ts
  | .minus :: ts =>
      let sum := join done.1 done.2
      operand stop (.left sum.2 .subtract :: sum.1) ts
  | .rightParen :: ts =>
      match join done.1 done.2 with
      | (.group :: stack, e) => operator stop (settle stack e) ts
      | (stack, _) => .error (stray stack .rightParen)
  | .number value :: _ => .error (stray (join done.1 done.2).1 (.number value))
  | .name text :: _ => .error (stray (join done.1 done.2).1 (.name text))
  | .leftParen :: _ => .error (stray (join done.1 done.2).1 .leftParen)

end

end Reader

/-- The expression that a text denotes. -/
def Expr.parse (text : String) : Except ParseError Expr :=
  let (tokens, stop) := Token.run text.toList
  Reader.operand stop [] tokens

end LiveForms
