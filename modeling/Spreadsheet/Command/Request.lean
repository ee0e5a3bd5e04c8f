import Spreadsheet.Command.Basic

/-!
# Requests

A request is what the arguments of the command line ask for: the name of a command, what it
works on, and its options in any order. An option with a value takes it from the next argument
or behind an equals sign. Behind two dashes nothing is an option any more.
-/

namespace Spreadsheet

/-- What the command line asks for. -/
inductive Request where
  | evaluate (path : String) (style : Report.Style) (options : Options)
  | copyFormula (formula source target : String)

namespace Request

/-- The arguments sorted into what a command works on and its options. -/
structure Arguments where
  plain : List String := []
  pretty : Bool := false
  lenient : Bool := false
  source : Option String := none
  target : Option String := none

/-- The value of the option `name` if it is written together with it. -/
def joined? (name argument : String) : Option String :=
  let cs := (name ++ "=").toList
  if cs.isPrefixOf argument.toList then some (String.ofList (argument.toList.drop cs.length))
  else none

/-- Whether an argument looks like an option. -/
def isOption (argument : String) : Bool :=
  argument.toList.head? = some '-' && argument != "-"

/-- Sorts arguments; nothing if one of them is no option that there is. -/
def sort? (as : Arguments) : List String → Option Arguments
  | [] => some as
  | "--" :: rest => some { as with plain := as.plain ++ rest }
  | "--pretty" :: rest => sort? { as with pretty := true } rest
  | "-p" :: rest => sort? { as with pretty := true } rest
  | "--no-bounds" :: rest => sort? { as with lenient := true } rest
  | "--from" :: value :: rest => sort? { as with source := some value } rest
  | "--to" :: value :: rest => sort? { as with target := some value } rest
  | argument :: rest =>
    match joined? "--from" argument, joined? "--to" argument with
    | some value, _ => sort? { as with source := some value } rest
    | _, some value => sort? { as with target := some value } rest
    | none, none =>
      if isOption argument then none else sort? { as with plain := as.plain ++ [argument] } rest

/-- The request that the arguments of the command line make. -/
def ofArguments? : List String → Option Request
  | "eval" :: rest =>
    match sort? {} rest with
    | some ⟨[path], pretty, lenient, none, none⟩ =>
      some (.evaluate path (if pretty then .pretty else .compact) ⟨!lenient⟩)
    | _ => none
  | "translate" :: rest =>
    match sort? {} rest with
    | some ⟨[formula], false, false, some source, some target⟩ =>
      some (.copyFormula formula source target)
    | _ => none
  | _ => none

/-- What is said when the arguments make no request. -/
def usage : String :=
  "Usage: spreadsheet eval INPUT [--pretty] [--no-bounds]\n" ++
    "       spreadsheet translate FORMULA --from CELL --to CELL\n"

end Request

end Spreadsheet
