import Spreadsheet.Formula.Expr
import Spreadsheet.Formula.Fault
import Spreadsheet.Formula.Scan
import Spreadsheet.Reference.Basic

/-!
# Reading a formula

A formula is a chain of operands with binary operators between them. The chain is read first
and grouped afterwards: the operators of the tightest level are applied from left to right, then
those of the next level, and so on. An operand is a value, a reference, a range, a call, a
formula in parentheses, or an operand with a minus sign in front, which therefore binds tighter
than any binary operator.

A reference that has the form of one but lies off the grid is not an error of the text. It is
read as a lost reference, and so is a range with such an end.

Reading goes from left to right without stepping back, so the fault that is reported is the
first one in the text. Operands nest at most as deep as there are tokens, which bounds the
recursion.
-/

namespace Spreadsheet

namespace Expr

/-- Applies the operators of one level to a chain, from left to right. -/
def mergeLevel (level : Nat) (first : Expr) :
    List (BinaryOp × Expr) → Expr × List (BinaryOp × Expr)
  | [] => (first, [])
  | (op, operand) :: more =>
    if op.precedence = level then mergeLevel level (binary op first operand) more
    else
      let (operand, more) := mergeLevel level operand more
      (first, (op, operand) :: more)

/-- Applies the operators of the levels up to `level` to a chain, the tightest first. -/
def mergeLevels : Nat → Expr → List (BinaryOp × Expr) → Expr
  | 0, first, _ => first
  | level + 1, first, more =>
    let (first, more) := mergeLevel (level + 1) first more
    mergeLevels level first more

/-- The tree of a chain. -/
def ofChain (first : Expr) (more : List (BinaryOp × Expr)) : Expr :=
  mergeLevels 5 first more

end Expr

namespace Formula

/-- A reader of operands: what it found in front of the tokens, and the tokens that are left. -/
abbrev OperandReader := List Token → Except ParseFault (Expr × List Token)

/-- Takes the token `wanted` off the front. -/
def expect (wanted : Token) : List Token → Except ParseFault (List Token)
  | [] => .error (.expectedToken wanted .finish)
  | found :: rest =>
    if found = wanted then .ok rest else .error (ParseFault.foundAt (.expectedToken wanted) found)

/-- Whether a written reference has the form of one: then its last character is a digit. -/
def endsInDigit (cs : List Char) : Bool :=
  cs.getLast?.any Char.isDigit

/-- The reference that a token stands for; nothing if it lies off the grid. -/
def resolve (written : String) : Except ParseFault (Option Reference) :=
  match Reference.ofText written with
  | .ok r => .ok (some r)
  | .error cause =>
    if endsInDigit written.toList then .ok none else .error (.badReference cause written)

/-- The expression of a lone reference. -/
def loneExpr : Option Reference → Expr
  | some r => .cell r
  | none => .lost

/-- The expression of a range. -/
def rangeExpr : Option Reference → Option Reference → Expr
  | some first, some second => .range first second
  | _, _ => .lost

/-- Reads what follows a reference: the other end of a range if there is a colon. -/
def readReference (written : String) (ts : List Token) :
    Except ParseFault (Expr × List Token) := do
  let first ← resolve written
  match ts with
  | .colon :: .reference other :: rest =>
    let second ← resolve other
    return (rangeExpr first second, rest)
  | .colon :: found :: _ => .error (ParseFault.foundAt .expectedReference found)
  | [.colon] => .error (.expectedReference .finish)
  | _ => return (loneExpr first, ts)

/-- Reads operators with an operand behind each. -/
def readMore (operand : OperandReader) :
    Nat → List Token → Except ParseFault (List (BinaryOp × Expr) × List Token)
  | tries + 1, .operator op :: ts => do
    let (e, ts) ← operand ts
    let (more, ts) ← readMore operand tries ts
    return ((op, e) :: more, ts)
  | _, ts => return ([], ts)

/-- Reads a chain of operands and groups it. -/
def readChain (operand : OperandReader) (ts : List Token) :
    Except ParseFault (Expr × List Token) := do
  let (first, ts) ← operand ts
  let (more, ts) ← readMore operand ts.length ts
  return (Expr.ofChain first more, ts)

/-- Reads one or more chains with commas between them. -/
def readArguments (operand : OperandReader) :
    Nat → List Token → Except ParseFault (List Expr × List Token)
  | 0, ts => return ([], ts)
  | tries + 1, ts => do
    let (first, ts) ← readChain operand ts
    match ts with
    | .comma :: ts =>
      let (more, ts) ← readArguments operand tries ts
      return (first :: more, ts)
    | _ => return ([first], ts)

/-- Reads the arguments of a call, from the opening parenthesis to the closing one. -/
def readCall (operand : OperandReader) (ts : List Token) :
    Except ParseFault (List Expr × List Token) := do
  let ts ← expect .leftParen ts
  match ts with
  | .rightParen :: ts => return ([], ts)
  | _ =>
    let (args, ts) ← readArguments operand ts.length ts
    let ts ← expect .rightParen ts
    return (args, ts)

/-- Reads one operand, with at most `depth - 1` others nested in it. -/
def readOperand : Nat → OperandReader
  | depth + 1, token :: ts =>
    match token with
    | .number n => return (.number n, ts)
    | .text s => return (.text s, ts)
    | .boolean b => return (.boolean b, ts)
    | .lost => return (.lost, ts)
    | .reference written => readReference written ts
    | .function name => do
      let (args, ts) ← readCall (readOperand depth) ts
      return (.call name args, ts)
    | .leftParen => do
      let (e, ts) ← readChain (readOperand depth) ts
      let ts ← expect .rightParen ts
      return (e, ts)
    | .operator .subtract => do
      let (e, ts) ← readOperand depth ts
      return (.negate e, ts)
    | .finish => .error .unexpectedEnd
    | found => .error (ParseFault.foundAt .expectedOperand found)
  | _, _ => .error .unexpectedEnd

/-- The formula that a stream of tokens spells. -/
def ofTokens (ts : List Token) : Except ParseFault Expr := do
  let (e, rest) ← readChain (readOperand (ts.length + 1)) ts
  match rest with
  | [] | .finish :: _ => return e
  | found :: _ => .error (ParseFault.foundAt .trailing found)

/-- Reads a formula. The equals sign in front is optional. -/
def parse (text : String) : Except ParseFault Expr :=
  ofTokens (tokenize text)

end Formula

end Spreadsheet
