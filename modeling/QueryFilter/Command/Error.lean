import QueryFilter.Condition.Error
import QueryFilter.Dashboard
import QueryFilter.Json.Parser

/-! # Failed commands

Why a command ends without a result, and the wording of each reason.
-/

namespace QueryFilter

inductive ReadFailure where
  | missing
  | directory
  | notDirectory
  | nameTooLong
  | denied
  | notText
deriving DecidableEq

def ReadFailure.message : ReadFailure → String
  | .missing => "No such file or directory (os error 2)"
  | .directory => "Is a directory (os error 21)"
  | .notDirectory => "Not a directory (os error 20)"
  | .nameTooLong => "File name too long (os error 36)"
  | .denied => "Permission denied (os error 13)"
  | .notText => "stream did not contain valid UTF-8"

inductive CommandError where
  | unreadable (file : Option String) (cause : ReadFailure)
  | notJson (cause : Json.ParseError)
  | condition (cause : ConditionError)
  | relations (cause : RelationsError)
  | unknownFilter (guid : String)

def CommandError.message : CommandError → String
  | .unreadable (some file) cause => "Could not read " ++ file ++ ": " ++ cause.message
  | .unreadable none cause => "Could not read stdin: " ++ cause.message
  | .notJson cause => "Input is not valid JSON: " ++ cause.message
  | .condition cause => "Condition cannot be tested locally: " ++ cause.message
  | .relations cause => cause.message
  | .unknownFilter guid => "No filter with guid '" ++ guid ++ "'"

end QueryFilter
