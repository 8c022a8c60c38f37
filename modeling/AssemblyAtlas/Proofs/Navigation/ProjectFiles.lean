import AssemblyAtlas.Navigation.ProjectFile
import AssemblyAtlas.Proofs.Assembly.IdentityText
import AssemblyAtlas.Proofs.Markup.Written

/-!
# What build tools read in a project file

Whatever the names of an assembly and of its references are, the project file is written, and it is
read as the elements that were meant: a name cannot end the element or the quotes in which it
stands, nor be read as another name. This rests on the documented behaviour of the library that
writes the file.

* `projectFile_eq_ok` says what is written, and `readsAs_projectFile` that it is read as the parts
  that its events stand for;
* `projectParts` are these parts, and `hasOnly_property` finds the properties among them;
* `projectFile_read` says what a reader learns from the file.
-/

namespace AssemblyAtlas
namespace Navigation

open Assembly
open Markup
open Text

variable {library : Library} (documented : library.Documented)

/-! ## Writing the file -/

theorem foldlM_writeEvent
    {writer : Writer}
    {state after : writer.State}
    {events : List Event}
    (written : events.foldlM writer.write state = .ok after) :
    events.foldlM (writeEvent writer) state = .ok after := by
  induction events generalizing state with
  | nil => exact congrArg Except.ok (Except.ok.inj written)
  | cons event rest ih =>
      rw [List.foldlM_cons, Success.bind_eq_ok_iff] at written ⊢
      obtain ⟨next, isNext, later⟩ := written
      exact ⟨next, by rw [writeEvent, isNext]; rfl, ih later⟩

include documented in
/-- The file can be written. It has the events, with blanks before them. -/
theorem projectFile_eq_ok
    (identity : Identity)
    (references : List Identity) :
    ∃ text pieces,
      projectFile library identity references = .ok text
        ∧ text.toList = pieceText pieces
        ∧ pieces.map (·.2) = projectEvents library identity references
        ∧ Laid ' ' false pieces := by
  have writer := documented.writer ' ' 2 (by decide)
  obtain ⟨after, pieces, written, events, laid, bytes⟩ :=
    writer.run false nofun (projectEvents library identity references)
  refine ⟨.ofList (pieceText pieces), pieces, ?_, String.toList_ofList, events, laid⟩
  rw [writer.fresh, ByteArray.empty_append] at bytes
  rw [projectFile, foldlM_writeEvent written]
  change (readUtf8 ((library.writer ' ' 2).bytes after)).mapError _ = _
  rw [bytes, readUtf8_toUTF8]
  rfl

/-! ## Reading the events -/

/-- The names of the properties do not depend on the assembly. -/
theorem map_fst_properties (identity : Identity) :
    (properties identity).map (·.1) = ["AssemblyName", "Version", "OutputType",
      "GenerateAssemblyInfo", "LangVersion", "AllowUnsafeBlocks"] :=
  rfl

theorem isPlainName_property
    {identity : Identity}
    {property : String × String}
    (isProperty : property ∈ properties identity) :
    IsPlainName property.1.toList := by
  have names : ∀ name ∈ (properties identity).map (·.1), IsPlainName name.toList := by
    rw [map_fst_properties]
    decide
  exact names _ (List.mem_map_of_mem isProperty)

include documented in
theorem quoted_value (text : String) :
    '"' ∉ (library.value text).toList := by
  rw [documented.value]
  exact not_mem_escape (by decide) _

include documented in
theorem legible_propertyEvents
    {property : String × String}
    (plain : IsPlainName property.1.toList) :
    ∀ event ∈ propertyEvents library property, event.Legible := by
  have text : (Event.text (library.content property.2)).Legible := by
    change '<' ∉ (library.content property.2).toList
    rw [documented.content]
    exact not_mem_escape (by decide) _
  simp only [propertyEvents, List.forall_mem_cons]
  exact ⟨legible_start plain .nil, text, legible_finish plain, List.forall_mem_nil _⟩

include documented in
theorem legible_itemEvents (references : List Identity) :
    ∀ event ∈ itemEvents library references, event.Legible := by
  have plain : IsPlainName "ItemGroup".toList := by decide
  rw [itemEvents]
  split_ifs
  · exact List.forall_mem_nil _
  · simp only [List.forall_mem_cons, List.forall_mem_append, List.forall_mem_map]
    refine ⟨legible_start plain .nil, fun reference _ => ?_, legible_finish plain,
      List.forall_mem_nil _⟩
    exact legible_single (by decide)
      (isBehindName_attribute (by decide) (quoted_value documented reference.name))

include documented in
/-- Every event of the file is read as what it stands for. -/
theorem legible_projectEvents
    (identity : Identity)
    (references : List Identity) :
    ∀ event ∈ projectEvents library identity references, event.Legible := by
  have project : IsPlainName "Project".toList := by decide
  have group : IsPlainName "PropertyGroup".toList := by decide
  have heading : (Event.heading "1.0" "utf-8").Legible :=
    fun _ unopened => ReadsAs.single unopened fun _ => rfl
  have properties : ∀ event ∈ (properties identity).flatMap (propertyEvents library),
      event.Legible := by
    simp only [List.forall_mem_flatMap]
    exact fun property isProperty =>
      legible_propertyEvents documented (isPlainName_property isProperty)
  simp only [projectEvents, List.cons_append, List.append_assoc, List.forall_mem_cons,
    List.forall_mem_append]
  exact ⟨heading,
    legible_start project (isBehindName_attribute (by decide) (quoted_value documented _)),
    legible_start group .nil, properties, legible_finish group,
    legible_itemEvents documented references, legible_finish project, List.forall_mem_nil _⟩

include documented in
/-- What is written is read as its parts. -/
theorem readsAs_projectFile
    {identity : Identity}
    {references : List Identity}
    {pieces : List (List Char × Event)}
    (events : pieces.map (·.2) = projectEvents library identity references)
    (laid : Laid ' ' false pieces) :
    ReadsAs (pieceText pieces) (partsOf [] pieces) := by
  have legible := legible_projectEvents documented identity references
  rw [← events] at legible
  -- The last event is the end of the project.
  obtain ⟨front, last, rfl, -, isLast⟩ := List.map_eq_append_iff.1 events
  obtain ⟨⟨blank, _⟩, _, rfl, rfl, nothing⟩ := List.map_eq_cons_iff.1 isLast
  obtain rfl := List.map_eq_nil_iff.1 nothing
  exact readsAs_partsOf (by decide) rfl laid (List.forall_mem_map.1 legible) List.not_mem_nil

/-! ## Parts of the file -/

/-- The parts of a property. Its value stands between them. -/
def propertyParts (property : String × String) : List Part :=
  [.start property.1.toList [], .finish property.1.toList]

/-- The part of a reference. -/
def referencePart (reference : Identity) : Part :=
  .single "Reference".toList (attributeText "Include".toList (escape reference.name.toList))

/-- The parts of all references. -/
def itemParts (references : List Identity) : List Part :=
  if references.isEmpty then
    []
  else
    .start "ItemGroup".toList [] ::
      (references.map referencePart ++ [.finish "ItemGroup".toList])

/-- The parts of all properties. -/
def propertyGroupParts (identity : Identity) : List Part :=
  .start "PropertyGroup".toList [] ::
    ((properties identity).flatMap propertyParts ++ [.finish "PropertyGroup".toList])

/-- The parts of a project file. -/
def projectParts (identity : Identity) (references : List Identity) : List Part :=
  .other ::
    .start "Project".toList (attributeText "Sdk".toList (escape "Microsoft.NET.Sdk".toList)) ::
    (propertyGroupParts identity ++ itemParts references ++ [.finish "Project".toList])

theorem filterMap_propertyEvents (list : List (String × String)) :
    (list.flatMap (propertyEvents library)).filterMap Event.part? = list.flatMap propertyParts := by
  rw [List.filterMap_flatMap]
  rfl

include documented in
theorem filterMap_itemEvents (references : List Identity) :
    (itemEvents library references).filterMap Event.part? = itemParts references := by
  have each (reference : Identity) :
      (referenceEvent library reference).part? = some (referencePart reference) := by
    rw [referenceEvent, Event.part?, attributeTexts_singleton, documented.value]
    rfl
  rw [itemEvents, itemParts]
  split_ifs
  · rfl
  · have items : (references.map (referenceEvent library)).filterMap Event.part?
        = references.map referencePart := by
      rw [List.filterMap_map, ← List.filterMap_eq_map]
      exact List.filterMap_congr fun reference _ => each reference
    rw [List.filterMap_cons, List.filterMap_append, items]
    rfl

include documented in
/-- The events of the file stand for these parts. -/
theorem filterMap_projectEvents
    (identity : Identity)
    (references : List Identity) :
    (projectEvents library identity references).filterMap Event.part?
      = projectParts identity references := by
  have sdk : attributeTexts [("Sdk", library.value "Microsoft.NET.Sdk")]
      = attributeText "Sdk".toList (escape "Microsoft.NET.Sdk".toList) := by
    rw [attributeTexts_singleton, documented.value]
  simp only [projectEvents, List.cons_append, List.filterMap_cons, Event.part?, sdk,
    List.filterMap_append, filterMap_propertyEvents, filterMap_itemEvents documented,
    projectParts, propertyGroupParts, List.append_assoc, List.nil_append]
  rfl

/-! ## Elements of the file -/

theorem isNested_propertyGroupParts (identity : Identity) :
    IsNested (propertyGroupParts identity) :=
  .element (.flatMap (fun _ => .element .nil _ _) _) _ _

theorem isNested_itemParts (references : List Identity) :
    IsNested (itemParts references) := by
  rw [itemParts]
  split_ifs
  · exact .nil
  · rw [List.map_eq_flatMap]
    exact .element (.flatMap (fun _ => .single _ _) _) _ _

/-- Every element of the file ends, within the element in which it was started. -/
theorem isNested_projectParts
    (identity : Identity)
    (references : List Identity) :
    IsNested (projectParts identity references) := by
  have heading : IsNested [.other] := fun _ => rfl
  exact heading.append (.element
    ((isNested_propertyGroupParts identity).append (isNested_itemParts references)) _ _)

section Tags

variable {name : List Char}

theorem tags_append (left right : List Part) :
    tags name (left ++ right) = tags name left ++ tags name right :=
  List.filterMap_append

theorem tags_propertyParts
    {list : List (String × String)}
    (absent : ∀ property ∈ list, property.1.toList ≠ name) :
    tags name (list.flatMap propertyParts) = [] := by
  induction list with
  | nil => rfl
  | cons property rest ih =>
      rw [List.forall_mem_cons] at absent
      rw [List.flatMap_cons, tags_append, ih absent.2, List.append_nil]
      simp [tags, propertyParts, Part.tagged?, absent.1]

theorem tags_referenceParts (references : List Identity) :
    tags name (references.map referencePart)
      = if "Reference".toList = name then
          references.map fun reference =>
            attributeText "Include".toList (escape reference.name.toList)
        else
          [] := by
  induction references with
  | nil => exact (ite_self _).symm
  | cons reference rest ih =>
      rw [tags] at ih ⊢
      rw [List.map_cons, List.filterMap_cons, ih, referencePart, Part.tagged?]
      split_ifs <;> rfl

theorem tags_itemParts (references : List Identity) :
    tags name (itemParts references)
      = if references.isEmpty then
          []
        else
          (if "ItemGroup".toList = name then [[]] else [])
            ++ tags name (references.map referencePart) := by
  rw [itemParts]
  split_ifs with empty isName
  · rfl
  · rw [tags, List.filterMap_cons, Part.tagged?, if_pos isName, ← tags, tags_append]
    exact congrArg ([] :: ·) (List.append_nil _)
  · rw [tags, List.filterMap_cons, Part.tagged?, if_neg isName, ← tags, tags_append]
    exact List.append_nil _

end Tags

/-- A property has a name of its own. -/
theorem ne_of_isProperty
    {identity : Identity}
    {property : String × String}
    (isProperty : property ∈ properties identity) :
    ∀ name ∈ ["Project", "PropertyGroup", "ItemGroup", "Reference"],
      name.toList ≠ property.1.toList := by
  have names : ∀ own ∈ (properties identity).map (·.1),
      ∀ name ∈ ["Project", "PropertyGroup", "ItemGroup", "Reference"],
        name.toList ≠ own.toList := by
    rw [map_fst_properties]
    decide
  exact names _ (List.mem_map_of_mem isProperty)

include documented in
/-- Every property is one element, and its value stands between its tags. -/
theorem hasOnly_property
    {identity : Identity}
    {references : List Identity}
    {pieces : List (List Char × Event)}
    (events : pieces.map (·.2) = projectEvents library identity references)
    (laid : Laid ' ' false pieces)
    {property : String × String}
    (isProperty : property ∈ properties identity) :
    HasOnly (partsOf [] pieces) property.1.toList (escape property.2.toList) := by
  obtain ⟨left, right, split⟩ := List.append_of_mem isProperty
  have distinct : ((properties identity).map (·.1)).Nodup := by
    rw [map_fst_properties]
    decide
  have others : ∀ other ∈ left ++ right, other.1.toList ≠ property.1.toList := by
    intro other isOther same
    rw [split, List.map_append, List.map_cons, List.perm_middle.nodup_iff, ← List.map_append,
      List.nodup_cons] at distinct
    rw [← String.toList_inj.1 same] at distinct
    exact distinct.1 (List.mem_map_of_mem isOther)
  have name := ne_of_isProperty isProperty
  have whole : projectEvents library identity references
      = (.heading "1.0" "utf-8" :: .start "Project" [("Sdk", library.value "Microsoft.NET.Sdk")] ::
          .start "PropertyGroup" [] :: left.flatMap (propertyEvents library))
        ++ .start property.1 [] :: .text (library.content property.2) :: .finish property.1 ::
          (right.flatMap (propertyEvents library)
            ++ .finish "PropertyGroup" ::
              (itemEvents library references ++ [.finish "Project"])) := by
    simp [projectEvents, split, propertyEvents]
  rw [← documented.content]
  refine hasOnly_partsOf (events.trans whole) laid ?_ ?_ []
  · simp only [List.filterMap_cons, Event.part?, filterMap_propertyEvents, tags, Part.tagged?,
      if_neg (name "Project" (by decide)), if_neg (name "PropertyGroup" (by decide))]
    exact tags_propertyParts fun other isOther => others other (List.mem_append_left _ isOther)
  · rw [List.filterMap_append, filterMap_propertyEvents, tags_append,
      tags_propertyParts fun other isOther => others other (List.mem_append_right _ isOther),
      List.nil_append, List.filterMap_cons, Event.part?, List.filterMap_append,
      filterMap_itemEvents documented, tags, List.filterMap_cons, Part.tagged?, ← tags, tags_append,
      tags_itemParts, tags_referenceParts, if_neg (name "ItemGroup" (by decide)),
      if_neg (name "Reference" (by decide)), List.append_nil, ite_self]
    rfl

/-- A version is written without entities. -/
theorem escape_display (version : Version) :
    escape version.display.toList = version.display.toList := by
  refine escape_eq_self fun c isChar => ?_
  rw [Version.display, String.toList_ofList] at isChar
  rcases of_mem_join isChar with dot | ⟨part, isPart, digit⟩
  · obtain rfl := List.mem_singleton.1 dot
    decide
  · obtain ⟨value, -, rfl⟩ := List.mem_map.1 isPart
    refine (digit_of_mem_decimal digit).of_forall (motive := fun c =>
      c ≠ '&' ∧ c ≠ '<' ∧ c ≠ '>' ∧ c ≠ '\'' ∧ c ≠ '"') ?_
    decide

/-- What has the name of a group of items or of a reference stands among the items. -/
theorem tags_projectParts
    (identity : Identity)
    (references : List Identity)
    {name : String}
    (isItem : name ∈ ["ItemGroup", "Reference"]) :
    tags name.toList (projectParts identity references)
      = tags name.toList (itemParts references) := by
  have others : ∀ name ∈ ["ItemGroup", "Reference"],
      "Project".toList ≠ name.toList ∧ "PropertyGroup".toList ≠ name.toList
        ∧ name ∈ ["Project", "PropertyGroup", "ItemGroup", "Reference"] := by
    decide
  obtain ⟨project, group, own⟩ := others name isItem
  have properties : tags name.toList (propertyGroupParts identity) = [] := by
    rw [propertyGroupParts, tags, List.filterMap_cons, Part.tagged?, if_neg group, ← tags,
      tags_append, tags_propertyParts fun property isProperty =>
        (ne_of_isProperty isProperty name own).symm]
    rfl
  rw [projectParts, tags, List.filterMap_cons, Part.tagged?, List.filterMap_cons, Part.tagged?,
    if_neg project, ← tags, tags_append, tags_append, properties]
  exact List.append_nil _

/-- Nothing else has the name of a reference, and each says what the reference includes. -/
theorem tags_reference
    (identity : Identity)
    (references : List Identity) :
    tags "Reference".toList (projectParts identity references)
      = references.map fun reference =>
          attributeText "Include".toList (escape reference.name.toList) := by
  have notGroup : "ItemGroup".toList ≠ "Reference".toList := by decide
  rw [tags_projectParts identity references (by decide), tags_itemParts, tags_referenceParts,
    if_neg notGroup, if_pos rfl]
  cases references <;> rfl

/-- There is a group of items if there is an item. -/
theorem tags_itemGroup
    (identity : Identity)
    (references : List Identity) :
    tags "ItemGroup".toList (projectParts identity references)
      = if references.isEmpty then [] else [[]] := by
  have notReference : "Reference".toList ≠ "ItemGroup".toList := by decide
  rw [tags_projectParts identity references (by decide), tags_itemParts, tags_referenceParts,
    if_neg notReference, if_pos rfl]
  rfl

/-! ## What is learned -/

include documented in
/-- With a library that does what its documentation says, the project file of any assembly is
written. It is read in one way only, and every element in it ends where it should. The name of the
assembly and its version are the texts of the elements that ought to have them, and what the
elements for the references include are the names of the references, in their order. There is no
group of items for no references. -/
theorem projectFile_read
    (identity : Identity)
    (references : List Identity) :
    ∃ text, projectFile library identity references = .ok text
      ∧ ∃ parts,
        (∀ read, Reads text.toList read ↔ read = parts)
          ∧ IsNested (parts.map (·.2))
          ∧ (∃ inside, HasOnly parts "AssemblyName".toList inside
            ∧ unescape? inside = some identity.name.toList)
          ∧ HasOnly parts "Version".toList identity.version.display.toList
          ∧ (tags "Reference".toList (parts.map (·.2))).map (attribute? "Include".toList)
            = references.map (some ·.name.toList)
          ∧ tags "ItemGroup".toList (parts.map (·.2)) = if references = [] then [] else [[]] := by
  obtain ⟨text, pieces, written, isText, events, laid⟩ :=
    projectFile_eq_ok documented identity references
  have reads := (readsAs_projectFile documented events laid).reads
  have parts : (partsOf [] pieces).map (·.2) = projectParts identity references := by
    rw [map_partsOf, events, filterMap_projectEvents documented]
  have isVersion : ("Version", identity.version.display) ∈ properties identity := .tail _ (.head _)
  have version := hasOnly_property documented events laid isVersion
  rw [escape_display] at version
  refine ⟨text, written, partsOf [] pieces, fun read => ?_, ?_,
    ⟨_, hasOnly_property documented events laid (.head _), unescape?_escape _⟩, version, ?_, ?_⟩
  · rw [isText]
    exact ⟨reads.unique, fun same => same ▸ reads⟩
  · rw [parts]
    exact isNested_projectParts identity references
  · have plain : IsPlainName "Include".toList := by decide
    rw [parts, tags_reference, List.map_map]
    refine List.map_congr_left fun reference _ => ?_
    exact (attribute?_single plain (not_mem_escape (by decide) _)).trans (unescape?_escape _)
  · rw [parts, tags_itemGroup]
    cases references <;> rfl

/-- An assembly whose name looks like the end of its element. -/
def tangledIdentity : Identity :=
  .ofName "A</AssemblyName><Version>&amp;\"'" ⟨1, 2, 3, 4⟩

/-- References whose names look like the end of a quoted value and like an entity. -/
def tangledReferences : List Identity :=
  [.ofName "B\"/><Reference Include='C" ⟨1, 0, 0, 0⟩, .ofName "&lt;" ⟨2, 0, 0, 0⟩]

/-- The names are read as they are. -/
theorem projectFile_read_tangledIdentity :
    ∃ text, projectFile .indenting tangledIdentity tangledReferences = .ok text
      ∧ ∃ parts,
        (∀ read, Reads text.toList read ↔ read = parts)
          ∧ IsNested (parts.map (·.2))
          ∧ (∃ inside, HasOnly parts "AssemblyName".toList inside
            ∧ unescape? inside = some "A</AssemblyName><Version>&amp;\"'".toList)
          ∧ HasOnly parts "Version".toList tangledIdentity.version.display.toList
          ∧ (tags "Reference".toList (parts.map (·.2))).map (attribute? "Include".toList)
            = [some "B\"/><Reference Include='C".toList, some "&lt;".toList]
          ∧ tags "ItemGroup".toList (parts.map (·.2)) = [[]] :=
  projectFile_read Library.documented_indenting tangledIdentity tangledReferences

end Navigation
end AssemblyAtlas
