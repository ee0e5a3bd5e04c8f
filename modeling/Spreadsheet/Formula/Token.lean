import Spreadsheet.ErrorCode
import Spreadsheet.Formula.Operator
import Spreadsheet.Value

/-!
# Tokens

A formula is read token by token. What looks like a reference is not checked at this stage: its
token keeps the text as it was written, and so a token is also what an error message can show.
The end of the text is a token of its own, and so is a character that begins no token.
-/

namespace Spreadsheet

/-- A token of a formula. -/
inductive Token where
  | number (n : Float)
  | text (s : String)
  | boolean (b : Bool)
  /-- The token `#REF!`. -/
  | lost
  /-- What is read as a reference, as it was written. -/
  | reference (written : String)
  /-- A function's name, in upper case. -/
  | function (name : String)
  | operator (op : BinaryOp)
  | colon
  | comma
  | leftParen
  | rightParen
  /-- The end of the text. -/
  | finish
  /-- A character that begins no token. -/
  | stop (c : Char)
deriving DecidableEq

namespace Token

/-- Whether a token ends the stream. -/
def isEnd : Token → Bool
  | finish => true
  | stop _ => true
  | _ => false

/-- A token as messages show it. -/
def display : Token → String
  | number n => Decimal.plain n
  | text s => "\"" ++ s ++ "\""
  | boolean b => Value.booleanText b
  | lost => ErrorCode.ref.token
  | reference written => written
  | function name => name
  | operator op => op.symbol
  | colon => ":"
  | comma => ","
  | leftParen => "("
  | rightParen => ")"
  | finish => "end of formula"
  | stop c => "'" ++ c.toString ++ "'"

end Token

end Spreadsheet
