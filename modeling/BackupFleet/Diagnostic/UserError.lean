/-!
# `BackupFleet.Diagnostic.UserError` — mistakes of the user

What a user can get wrong on the command line or in the configuration. A command reports such an error
and ends, or goes on with the next server; it never counts as a fault of the program.

## Contents

* `UserError` — the kinds;
* `UserError.message` — the wording, with a hint where there is a remedy.
-/

namespace BackupFleet

/-- A mistake that a command reports. -/
inductive UserError where
  | unknownServer (name : String)
  | inactiveServer (name : String)
  | unknownBackup (server id : String)
  | malformedRule (rule : String)
  | unknownTablespace (name : String) (known : List String)
  | remoteDestination
  | invalidTarget (reason : String)
  | lockBusy
  | lockDenied (path : String)
deriving DecidableEq, Repr

/-- The wording of an error. -/
def UserError.message : UserError → String
  | unknownServer name => "Unknown server '" ++ name ++ "'"
  | inactiveServer name => "Not active server: " ++ name
  | unknownBackup server id => "Unknown backup '" ++ id ++ "' for server '" ++ server ++ "'"
  | malformedRule rule =>
    "Invalid tablespace relocation rule '" ++ rule ++
      "'\nHINT: The valid syntax for a relocation rule is NAME:LOCATION"
  | unknownTablespace name known =>
    "Invalid tablespace name '" ++ name ++
      "'\nHINT: Please use any of the following tablespaces: " ++ ", ".intercalate known
  | remoteDestination =>
    "The destination directory parameter cannot contain the ':' character\n" ++
      "HINT: If you want to do a remote recovery you have to use the --remote-ssh-command option"
  | invalidTarget reason => "Invalid recovery target: " ++ reason
  | lockBusy => "Another cron is running"
  | lockDenied path => "Permission denied, unable to access '" ++ path ++ "'"

end BackupFleet
