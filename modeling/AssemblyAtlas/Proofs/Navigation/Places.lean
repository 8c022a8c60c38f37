import AssemblyAtlas.Navigation.GeneratedFile
import AssemblyAtlas.Proofs.FileName.Below
import AssemblyAtlas.Proofs.Text.Case

/-!
# Places of generated files

The sources of an assembly have a directory of their own, whose name is sixteen hexadecimal digits.
Generated files are told apart by their whole paths in lower case. Still the files of directories
with different names do not get in each other's way, whatever the paths inside.

* `AssemblyKey.mem_directoryName` and `AssemblyKey.length_directoryName` are about the names of
  directories;
* `GeneratedFile.indexKey_inj` takes the text apart by which paths are compared.
-/

namespace AssemblyAtlas

open FileName
open Text

/-! ## Digits -/

theorem Digest.length_bytesOf
    (count n : Nat) :
    (bytesOf count n).length = count := by
  induction count with
  | zero => rfl
  | succ count ih => rw [bytesOf, List.length_cons, ih]

/-- A digest has twenty bytes. -/
theorem Digest.length_sha1 (message : List UInt8) :
    (sha1 message).length = 20 := by
  simp only [sha1, List.flatMap_cons, List.flatMap_nil, List.length_append, length_bytesOf,
    List.length_nil]

namespace Navigation

/-- The small hexadecimal digits. -/
def hexDigits : List Char :=
  "0123456789abcdef".toList

theorem mem_hexByte
    {byte : UInt8}
    {c : Char}
    (isDigit : c ∈ hexByte byte) :
    c ∈ hexDigits := by
  have digits : ∀ digit < 16, Nat.digitChar digit ∈ hexDigits := by decide
  rw [hexByte, hexFixed, hexFixed, hexFixed, List.mem_cons, List.mem_singleton] at isDigit
  rcases isDigit with rfl | rfl
  · exact digits _ (Nat.mod_lt _ (by decide))
  · exact digits _ (Nat.mod_lt _ (by decide))

/-! ## Directories -/

namespace AssemblyKey

variable (key : AssemblyKey)

/-- The name of a directory has sixteen characters. -/
theorem length_directoryName :
    key.directoryName.toList.length = 16 := by
  have two (bytes : List UInt8) : (bytes.flatMap hexByte).length = 2 * bytes.length := by
    induction bytes with
    | nil => rfl
    | cons byte rest ih =>
        rw [List.flatMap_cons, List.length_append, ih, List.length_cons, hexByte]
        simp only [hexFixed, List.length_cons, List.length_nil]
        omega
  simp only [directoryName, String.toList_ofList, two, List.length_take, Digest.length_sha1,
    directoryBytes]
  decide

/-- They are hexadecimal digits. -/
theorem mem_directoryName
    {c : Char}
    (member : c ∈ key.directoryName.toList) :
    c ∈ hexDigits := by
  rw [directoryName, String.toList_ofList] at member
  obtain ⟨byte, -, isDigit⟩ := List.mem_flatMap.1 member
  exact mem_hexByte isDigit

theorem directoryName_ne_empty :
    key.directoryName ≠ "" := by
  intro empty
  have length := key.length_directoryName
  rw [empty] at length
  exact absurd length (by decide)

theorem safeSegment_directoryName :
    SafeSegment key.directoryName := by
  have all : hexDigits.all (fun c =>
      decide (isNameChar c = true ∧ c.utf8Size = 1 ∧ c ≠ '.')) = true := by
    decide +kernel
  have digits (c : Char) (isDigit : c ∈ hexDigits) :
      isNameChar c = true ∧ c.utf8Size = 1 ∧ c ≠ '.' :=
    of_decide_eq_true (List.all_eq_true.1 all c isDigit)
  have special (segment : String) (dot : '.' ∈ segment.toList) : key.directoryName ≠ segment := by
    rintro rfl
    exact (digits '.' (key.mem_directoryName dot)).2.2 rfl
  refine ⟨?_, ?_, special "." (by decide), special ".." (by decide)⟩
  · have bytes (chars : List Char) (all : ∀ c ∈ chars, c ∈ hexDigits) :
        utf8Length chars = chars.length := by
      induction chars with
      | nil => rfl
      | cons c rest ih =>
          rw [utf8Length_cons, ih fun other isOther => all other (List.mem_cons_of_mem _ isOther),
            (digits c (all c List.mem_cons_self)).2.1, List.length_cons, Nat.add_comm]
    have size := utf8ByteSize_ofList key.directoryName.toList
    rw [String.ofList_toList, bytes _ fun c => key.mem_directoryName,
      key.length_directoryName] at size
    omega
  · intro c member
    exact plain_of_isNameChar (digits c (key.mem_directoryName member)).1

/-- A directory has the same name in lower case. -/
theorem lowercase_directoryName :
    lowercase key.directoryName = key.directoryName := by
  have all : hexDigits.all (fun c =>
      decide (lowercaseChar c = [c] ∧ c.toNat ≠ 0x3a3)) = true := by
    decide +kernel
  exact lowercase_eq_self fun c member =>
    of_decide_eq_true (List.all_eq_true.1 all c (key.mem_directoryName member))

theorem isAbsolute_directoryName :
    Path.isAbsolute key.directoryName = false :=
  (key.safeSegment_directoryName.safePath key.directoryName_ne_empty).relative

end AssemblyKey

/-! ## Paths in lower case -/

/-- What is joined to a directory stands behind a text that is empty or ends in a slash. -/
theorem exists_front (directory : String) :
    ∃ front : String, (front = "" ∨ ∃ start, front = start ++ "/")
      ∧ ∀ path, Path.isAbsolute path = false → Path.join directory path = front ++ path := by
  by_cases empty : directory = ""
  · refine ⟨"", Or.inl rfl, fun path _ => ?_⟩
    rw [Path.join, if_pos (Or.inr empty), String.empty_append]
  · by_cases slash : directory.toList.getLast? = some '/'
    · obtain ⟨start, split⟩ := List.getLast?_eq_some_iff.1 slash
      refine ⟨directory, Or.inr ⟨String.ofList start, String.toList_inj.1 (by simp [split])⟩, ?_⟩
      intro path relative
      rw [Path.join, if_neg (by simp [relative, empty]), if_pos slash]
    · refine ⟨directory ++ "/", Or.inr ⟨directory, rfl⟩, fun path relative => ?_⟩
      rw [Path.join, if_neg (by simp [relative, empty]), if_neg slash]

namespace GeneratedFile

/-- In lower case, a path has the name of its directory, and behind it what is inside. -/
theorem exists_indexKey_eq (root : String) :
    ∃ front : String, ∀ (key : AssemblyKey) (path : String), Path.isAbsolute path = false →
      indexKey (Path.join (Path.join root key.directoryName) path)
        = front ++ (key.directoryName ++ ("/" ++ lowercase path)) := by
  obtain ⟨front, kind, joined⟩ := exists_front root
  have inside (key : AssemblyKey) (path : String) (relative : Path.isAbsolute path = false) :
      Path.join (Path.join root key.directoryName) path
        = front ++ key.directoryName ++ "/" ++ path := by
    have some_char := key.directoryName_ne_empty
    have last : (front ++ key.directoryName).toList.getLast? ≠ some '/' := by
      have someDigit : key.directoryName.toList ≠ [] := fun none =>
        some_char (String.toList_inj.1 none)
      rw [String.toList_append, List.getLast?_append_of_ne_nil _ someDigit]
      intro slash
      exact absurd (key.mem_directoryName (List.mem_of_getLast? slash)) (by decide)
    have notEmpty : front ++ key.directoryName ≠ "" := fun empty =>
      some_char (String.append_eq_empty_iff.1 empty).2
    rw [joined _ key.isAbsolute_directoryName, Path.join, if_neg (by simp [relative, notEmpty]),
      if_neg last]
  have small (key : AssemblyKey) : lowercase (front ++ key.directoryName)
      = lowercase front ++ key.directoryName := by
    rcases kind with rfl | ⟨start, rfl⟩
    · have nothing : lowercase "" = "" := rfl
      rw [String.empty_append, key.lowercase_directoryName, nothing, String.empty_append]
    · have bare := lowercase_append_slash start ""
      have nothing : lowercase "" = "" := rfl
      rw [String.append_empty, nothing, String.append_empty] at bare
      rw [lowercase_append_slash, key.lowercase_directoryName, bare]
  refine ⟨lowercase front, fun key path relative => ?_⟩
  rw [indexKey, inside key path relative, lowercase_append_slash, small]
  simp only [String.append_assoc]

/-- Paths that count as the same are in directories of the same name, and they are the same inside,
but for the case. -/
theorem indexKey_inj
    {root : String}
    {left right : AssemblyKey}
    {leftPath rightPath : String}
    (leftRelative : Path.isAbsolute leftPath = false)
    (rightRelative : Path.isAbsolute rightPath = false) :
    indexKey (Path.join (Path.join root left.directoryName) leftPath)
        = indexKey (Path.join (Path.join root right.directoryName) rightPath)
      ↔
    left.directoryName = right.directoryName ∧ lowercase leftPath = lowercase rightPath := by
  obtain ⟨front, keys⟩ := exists_indexKey_eq root
  rw [keys left leftPath leftRelative, keys right rightPath rightRelative]
  constructor
  · intro same
    have chars := congrArg String.toList same
    simp only [String.toList_append] at chars
    have length : left.directoryName.toList.length = right.directoryName.toList.length := by
      rw [left.length_directoryName, right.length_directoryName]
    obtain ⟨names, rest⟩ := List.append_inj (List.append_cancel_left chars) length
    exact ⟨String.toList_inj.1 names, String.toList_inj.1 (List.append_cancel_left rest)⟩
  · rintro ⟨names, inside⟩
    rw [names, inside]

end GeneratedFile

end Navigation
end AssemblyAtlas
