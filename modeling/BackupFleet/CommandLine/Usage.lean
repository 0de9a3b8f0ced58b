/-!
# `BackupFleet.CommandLine.Usage` — words that are not understood

## Contents

* `UsageError`, `UsageError.message` — what is wrong with the words of a command line;
* `Stop` — why reading ends before all words are read.
-/

namespace BackupFleet.CommandLine

/-- What is wrong with the words. Options are told as they are written, with the name of their value. -/
inductive UsageError where
  | missingCommand
  | unknownCommand (word : String)
  | unexpectedWord (word : String)
  | unexpectedValue (value option : String)
  | missingValue (option : String)
  | invalidValue (value option reason : String)
  | repeated (option : String)
  | conflict (first second : String)
  | missingArguments
deriving DecidableEq, Repr

/-- What the user is told. -/
def UsageError.message : UsageError → String
  | missingCommand => "'bman' requires a subcommand but one was not provided"
  | unknownCommand word => "unrecognized subcommand '" ++ word ++ "'"
  | unexpectedWord word => "unexpected argument '" ++ word ++ "' found"
  | unexpectedValue value option =>
    "unexpected value '" ++ value ++ "' for '" ++ option ++ "' found; no more were expected"
  | missingValue option => "a value is required for '" ++ option ++ "' but none was supplied"
  | invalidValue value option reason =>
    "invalid value '" ++ value ++ "' for '" ++ option ++ "': " ++ reason
  | repeated option => "the argument '" ++ option ++ "' cannot be used multiple times"
  | conflict first second => "the argument '" ++ first ++ "' cannot be used with '" ++ second ++ "'"
  | missingArguments => "the following required arguments were not provided:"

/-- Why reading ends early: a mistake, no words at all, or a question about the program itself. -/
inductive Stop where
  | mistake (e : UsageError)
  | noWords
  | help
  | version
deriving DecidableEq, Repr

end BackupFleet.CommandLine
