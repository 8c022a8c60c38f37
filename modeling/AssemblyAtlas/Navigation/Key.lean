import AssemblyAtlas.Digest
import AssemblyAtlas.Guid
import AssemblyAtlas.Path

/-!
# Assembly keys

What tells one assembly file from another: its path and the identifier of its module. A file that
is built again has another identifier, and so another key.
-/

namespace AssemblyAtlas
namespace Navigation

open Text

/-- The path of an assembly file and the identifier of its module. -/
structure AssemblyKey where
  path : String
  mvid : Guid
deriving DecidableEq

namespace AssemblyKey

/-- The keys are of one file; paths count by their components. -/
def Same (left right : AssemblyKey) : Prop :=
  Path.Same left.path right.path ∧ left.mvid = right.mvid

instance (left right : AssemblyKey) : Decidable (Same left right) :=
  inferInstanceAs (Decidable (_ ∧ _))

/-- The text of a key. -/
def display (key : AssemblyKey) : String :=
  key.path ++ " (" ++ key.mvid.display ++ ")"

/-- The number of bytes of the digest that name a directory. -/
def directoryBytes : Nat :=
  8

/-- The name of the directory for the sources of the assembly. -/
def directoryName (key : AssemblyKey) : String :=
  let digest := Digest.sha1 (key.path.toUTF8.toList ++ key.mvid.bytes.toList)
  String.ofList ((digest.take directoryBytes).flatMap hexByte)

end AssemblyKey

end Navigation
end AssemblyAtlas
