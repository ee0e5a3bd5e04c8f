import Spreadsheet.Address.Error
import Spreadsheet.Formula.Token

/-!
# What can be wrong with the text of a formula

A fault names what the reader expected and the token that it found instead. A character that
begins no token is reported as such wherever it is met.
-/

namespace Spreadsheet

/-- Why a text is no formula. -/
inductive ParseFault where
  /-- A character that begins no token. -/
  | unexpectedCharacter (c : Char)
  /-- The text ends where an operand should be. -/
  | unexpectedEnd
  /-- Something else is where an operand should be. -/
  | expectedOperand (found : Token)
  /-- Something else is where the token `wanted` should be. -/
  | expectedToken (wanted found : Token)
  /-- A colon is followed by something else than a reference. -/
  | expectedReference (found : Token)
  /-- A token is left over behind the formula. -/
  | trailing (found : Token)
  /-- What stands for a reference is not one. -/
  | badReference (cause : AddressError) (written : String)
deriving DecidableEq

namespace ParseFault

/-- The fault `fault` at the token that was found. -/
def foundAt (fault : Token → ParseFault) : Token → ParseFault
  | .stop c => unexpectedCharacter c
  | found => fault found

/-- What was expected or rejected. -/
def message : ParseFault → String
  | unexpectedCharacter c => "Unexpected character '" ++ c.toString ++ "'"
  | unexpectedEnd => "Unexpected end of formula"
  | expectedOperand _ => "Expected a value, reference, or function call"
  | expectedToken wanted _ => "Expected '" ++ wanted.display ++ "'"
  | expectedReference _ => "Expected a cell reference after ':'"
  | trailing _ => "Unexpected token after expression"
  | badReference cause _ => cause.message

/-- The offending token, as text. -/
def token : ParseFault → String
  | unexpectedCharacter c => c.toString
  | unexpectedEnd => Token.finish.display
  | expectedOperand found => found.display
  | expectedToken _ found => found.display
  | expectedReference found => found.display
  | trailing found => found.display
  | badReference _ written => written

end ParseFault

end Spreadsheet
