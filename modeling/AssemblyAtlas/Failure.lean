import AssemblyAtlas.Assembly.Token

/-!
# Failures

What can go wrong while assemblies are read, decompiled and navigated.

* `Malformation` lists the causes for which a text is refused;
* `Failure` is the failure of an operation, with its text in `Failure.message`;
* `Failure.severity` says whether a caller may go on without the result.
-/

namespace AssemblyAtlas

open Assembly

/-- Why a text or a table of metadata is refused. -/
inductive Malformation where
  | versionFormat (text : String)
  | versionComponent (part : String)
  | keyTokenLength (text : String)
  | keyTokenDigits (text : String)
  | assemblyName
  | symbolKind (text : String)
  | symbolSeparator (text : String)
  | symbolMember (text : String)
  | symbolName (text : String)
  | other (text : String)
deriving DecidableEq

/-- The wording of a refusal. -/
def Malformation.message : Malformation → String
  | versionFormat text => "Invalid version format: " ++ text
  | versionComponent part => "Invalid version component: " ++ part
  | keyTokenLength text => "PublicKeyToken must be exactly 16 hex characters, got '" ++ text ++ "'"
  | keyTokenDigits text => "Invalid hex in PublicKeyToken '" ++ text ++ "'"
  | assemblyName => "Assembly name cannot be empty"
  | symbolKind text => "Invalid symbol key kind - " ++ text
  | symbolSeparator text => "Invalid symbol key - " ++ text
  | symbolMember text => "Symbol key without member - " ++ text
  | symbolName text => "Empty name in symbol key - " ++ text
  | other text => text

/-- Why the file system refuses an operation. -/
inductive FileFault where
  | notFound
  | permissionDenied
  | alreadyExists
  | notADirectory
  | isADirectory
  | invalidInput
  | invalidName
deriving DecidableEq

/-- The wording of a file fault. -/
def FileFault.message : FileFault → String
  | notFound => "entity not found"
  | permissionDenied => "permission denied"
  | alreadyExists => "entity already exists"
  | notADirectory => "not a directory"
  | isADirectory => "is a directory"
  | invalidInput => "invalid input parameter"
  | invalidName => "invalid filename"

/-- The short name of a file fault. -/
def FileFault.label : FileFault → String
  | notFound => "NotFound"
  | permissionDenied => "PermissionDenied"
  | alreadyExists => "AlreadyExists"
  | notADirectory => "NotADirectory"
  | isADirectory => "IsADirectory"
  | invalidInput => "InvalidInput"
  | invalidName => "InvalidFilename"

/-- The number by which the system knows a file fault. -/
def FileFault.number : FileFault → Nat
  | notFound => 2
  | permissionDenied => 13
  | alreadyExists => 17
  | notADirectory => 20
  | isADirectory => 21
  | invalidInput => 22
  | invalidName => 36

/-- The wording of the system for a file fault. A path is refused as input when no name in it can
reach the system. -/
def FileFault.systemMessage : FileFault → String
  | notFound => "No such file or directory"
  | permissionDenied => "Permission denied"
  | alreadyExists => "File exists"
  | notADirectory => "Not a directory"
  | isADirectory => "Is a directory"
  | invalidInput => "file name contained an unexpected NUL byte"
  | invalidName => "File name too long"

/-- A file fault in full, as it stands in the report of a step that had no other answer for it. A
fault that never reached the system has no number. -/
def FileFault.describe (fault : FileFault) : String :=
  let opening :=
    if fault = .invalidInput then "Error \x7b" else "Os \x7b code: " ++ toString fault.number ++ ","
  opening ++ " kind: " ++ fault.label ++ ", message: \"" ++ fault.systemMessage ++ "\" \x7d"

/-- The failure of an operation. -/
inductive Failure where
  | malformed (cause : Malformation)
  /-- Generation and lookup disagree about the generated files. -/
  | invariant (message : String)
  | outOfBounds
  | empty
  | file (fault : FileFault)
  | other (message : String)
  | typeNotFound (token : Token)
  /-- The work unit with this output path failed. -/
  | unit (path : String) (source : Failure)
  | fatal (message : String)
  | cancelled
  | locked
  /-- The nested types of the type lead back to it. The program has no such failure: it stands for a
  recursion that does not come to an end there, so nothing is said of what happens then. -/
  | endlessNesting (token : Token)
deriving DecidableEq

/-- What a failure means for the caller. -/
inductive Severity where
  /-- The caller may fall back to less. -/
  | degrade
  /-- The failure has to be reported. -/
  | fatal
  /-- The caller asked for it. -/
  | cancelled
deriving DecidableEq

/-- The name of a severity. -/
def Severity.label : Severity → String
  | degrade => "Degrade"
  | fatal => "Fatal"
  | cancelled => "Cancelled"

namespace Failure

/-- The short name of the kind of a failure. -/
def label : Failure → String
  | malformed _ => "Malformed"
  | invariant _ => "Invariant"
  | outOfBounds => "OutOfBounds"
  | empty => "Empty"
  | file _ => "FileError"
  | other _ => "Error"
  | typeNotFound _ => "TypeNotFound"
  | unit _ _ => "Decompile"
  | fatal _ => "Fatal"
  | cancelled => "Cancelled"
  | locked => "LockError"
  | endlessNesting _ => "EndlessNesting"

/-- The wording of a failure. -/
def message : Failure → String
  | malformed cause => cause.message
  | invariant message => message
  | outOfBounds => "Out of Bound read would have occurred!"
  | empty => "Provided input was empty"
  | file fault => fault.message
  | other message => message
  | typeNotFound token => "Failed to find type definition - " ++ token.display
  | unit path source => "Error decompiling for '" ++ path ++ "': " ++ source.message
  | fatal message => message
  | cancelled => "The operation was cancelled"
  | locked => "Failed to lock target"
  | endlessNesting token => "Type definition is nested in itself - " ++ token.display

/-- A cancelled unit counts as cancelled, one whose own unit was cancelled does not. -/
def severity : Failure → Severity
  | cancelled => .cancelled
  | unit _ cancelled => .cancelled
  | invariant _ | fatal _ | locked => .fatal
  | _ => .degrade

/-- The failure must be reported. -/
def isFatal (failure : Failure) : Bool :=
  failure.severity == .fatal

end Failure

end AssemblyAtlas
