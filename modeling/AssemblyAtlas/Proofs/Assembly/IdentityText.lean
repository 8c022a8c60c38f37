import AssemblyAtlas.Assembly.Identity
import AssemblyAtlas.Proofs.Success
import AssemblyAtlas.Proofs.Text.Bytes
import AssemblyAtlas.Proofs.Text.Digits
import AssemblyAtlas.Proofs.Text.Joined

/-!
# Texts of assembly identities

Which identities can be written and read again. A display name is cut at its commas, and what
stands between them is trimmed, so the name and the culture must lack commas and white space at
those ends that the trimming reaches. Versions and key tokens are always read again.

* `Version.parse_display` and `KeyToken.parse_display` are about the two codes inside;
* `Identity.Writable` is the condition, and `Identity.parse_display_eq_ok_iff` is about identities
  that are written first and about texts that are read first.
-/

namespace AssemblyAtlas
namespace Assembly

open Text

/-! ## Versions -/

namespace Version

theorem parsePart_decimal (part : UInt16) :
    parsePart (decimal part.toNat) = .ok part := by
  rw [parsePart, readNumeral?_decimal (Nat.le_of_lt_succ part.toNat_lt)]
  simp

/-- A version is written in digits and dots. -/
theorem plain_display
    {version : Version}
    {c : Char}
    (member : c ∈ version.display.toList) :
    isBlank c = false ∧ c ≠ ',' := by
  rw [display, String.toList_ofList] at member
  rcases of_mem_join member with dot | ⟨part, isPart, digit⟩
  · obtain rfl := List.mem_singleton.1 dot
    decide
  · obtain ⟨value, -, rfl⟩ := List.mem_map.1 isPart
    have digit := digit_of_mem_decimal digit
    exact ⟨digit.bare, digit.ne (by decide)⟩

theorem toList_display_ne_nil (version : Version) :
    version.display.toList ≠ [] := by
  intro empty
  rw [display, String.toList_ofList] at empty
  exact Nat.toDigits_ne_nil (List.append_eq_nil_iff.1 (List.append_eq_nil_iff.1 empty).1).1

/-- Every version that is written is read again. -/
theorem parse_display (version : Version) :
    parse version.display = .ok version := by
  have trimmed : trim version.display.toList = version.display.toList :=
    trim_of_forall fun c isIn => (plain_display isIn).1
  have undotted : ∀ part ∈ version.parts.map fun part => decimal part.toNat, '.' ∉ part := by
    intro part isPart dot
    obtain ⟨value, -, rfl⟩ := List.mem_map.1 isPart
    exact (digit_of_mem_decimal dot).ne (by decide) rfl
  have fields : pieces '.' version.display.toList
      = version.parts.map fun part => decimal part.toNat := by
    rw [display, String.toList_ofList]
    exact pieces_join (List.cons_ne_nil _ _) undotted
  have read : (version.parts.map fun part => decimal part.toNat).mapM parsePart
      = .ok version.parts := by
    rw [Success.mapM_eq_ok_iff, List.forall₂_map_left_iff, List.forall₂_same]
    exact fun part _ => parsePart_decimal part
  rw [parse, trimmed, fields]
  simp only [read]
  rfl

end Version

/-! ## Key tokens -/

namespace KeyToken

theorem readBytes?_flatMap (bytes : List UInt8) :
    readBytes? (bytes.flatMap hexByte) = some bytes := by
  induction bytes with
  | nil => rfl
  | cons byte rest ih =>
      have first : readNumeral? 16 0xff
          [hexDigit (byte.toNat / Nat.pow 16 1), hexDigit (byte.toNat / Nat.pow 16 0)]
            = some byte.toNat :=
        readNumeral?_hexByte byte
      rw [List.flatMap_cons, hexByte, hexFixed, hexFixed, hexFixed, List.cons_append,
        List.cons_append, List.nil_append, readBytes?, first, ih]
      simp

/-- A key token is written in digits. -/
theorem digit_of_mem_display
    {token : KeyToken}
    {c : Char}
    (member : c ∈ token.display.toList) :
    Digit c := by
  rw [display, String.toList_ofList] at member
  obtain ⟨byte, -, digit⟩ := List.mem_flatMap.1 member
  exact digit_of_mem_hexFixed digit

theorem length_toList_display (token : KeyToken) :
    token.display.toList.length = 16 := by
  have pair (byte : UInt8) : (hexByte byte).length = 2 := rfl
  rw [display, String.toList_ofList, List.length_flatMap]
  simp [pair]

/-- A text of another length is that of no key token. -/
theorem display_ne
    (token : KeyToken)
    {text : String}
    (other : text.toList.length ≠ 16) :
    token.display ≠ text :=
  fun same => other (same ▸ token.length_toList_display)

/-- Every key token that is written is read again. -/
theorem parse_display (token : KeyToken) :
    parse token.display = .ok token := by
  have trimmed : trim token.display.toList = token.display.toList :=
    trim_of_forall fun c isIn => (digit_of_mem_display isIn).bare
  have length : utf8Length token.display.toList = 16 := by
    rw [utf8Length_eq_length fun c isIn => (digit_of_mem_display isIn).ascii.2,
      length_toList_display]
  have ascii : token.display.toList.any (0x7f < ·.toNat) = false := by
    rw [List.any_eq_false]
    intro c isIn
    simpa using (digit_of_mem_display isIn).ascii.1
  have read : readBytes? token.display.toList = some token.bytes.toList := by
    rw [display, String.toList_ofList]
    exact readBytes?_flatMap _
  rw [parse, trimmed]
  simp only [length, ascii, read, ne_eq, not_true_eq_false, Bool.false_eq_true, or_self, ↓reduceIte,
    List.size_toArray, Vector.length_toList, ↓reduceDIte]
  rfl

end KeyToken

/-! ## Identities -/

namespace Identity

/-- The name is neither empty nor cut or trimmed, and neither is the culture: it may start with
white space, since its label stands before it, but the word for the neutral culture is no culture
of its own. -/
structure Writable (identity : Identity) : Prop where
  name_ne : identity.name ≠ ""
  name_starts : StartsBare identity.name.toList
  name_ends : EndsBare identity.name.toList
  name_whole : ',' ∉ identity.name.toList
  culture : ∀ culture ∈ identity.culture,
    culture ≠ "" ∧ culture ≠ "neutral" ∧ ',' ∉ culture.toList ∧ EndsBare culture.toList

/-- A value behind its label, as it stands behind a comma. -/
def labelled (label value : String) : List Char :=
  ' ' :: (label.toList ++ value.toList)

/-- The three labels with the values that stand behind them. -/
def labels (identity : Identity) : List (String × String) :=
  [("Version=", identity.version.display),
    ("Culture=", identity.culture.getD "neutral"),
    ("PublicKeyToken=", identity.keyToken.elim "null" KeyToken.display)]

theorem toList_display (identity : Identity) :
    identity.display.toList
      = join [','] (identity.name.toList
          :: identity.labels.map fun label => labelled label.1 label.2) := by
  simp [display, labels, labelled, join]

/-- What is read of a labelled value is what stands behind the label. -/
theorem trim_labelled
    {label value : String}
    (starts : StartsBare label.toList)
    (some_label : label ≠ "")
    (some_value : value ≠ "")
    (ends : EndsBare value.toList) :
    trim (labelled label value) = label.toList ++ value.toList := by
  rw [labelled, trim_blank_cons (by decide)]
  refine trim_eq_self (fun c isFirst => ?_)
    ((endsBare_append_iff (mt String.toList_eq_nil_iff.1 some_value) _).2 ends)
  obtain ⟨d, rest, chars⟩ := List.exists_cons_of_ne_nil (mt String.toList_eq_nil_iff.1 some_label)
  exact starts c (by simpa [chars] using isFirst)

/-! ### Labelled parts -/

variable (identity : Identity)

theorem readPart_version (value : String) :
    identity.readPart ("Version=".toList ++ value.toList)
      = (Version.parse value).map fun version => { identity with version := version } := by
  rw [readPart, afterLead?_append]
  cases read : Version.parse value <;> simp [read, bind, Except.bind, Except.map, pure, Except.pure]

theorem readPart_culture (value : String) :
    identity.readPart ("Culture=".toList ++ value.toList)
      = .ok (if value = "neutral" ∨ value = "" then identity
          else { identity with culture := some value }) := by
  have other : afterLead? "Version=".toList ("Culture=".toList ++ value.toList) = none := rfl
  rw [readPart, other]
  simp only [afterLead?_append, String.toList_inj, String.toList_eq_nil_iff, String.ofList_toList]
  split <;> rfl

theorem readPart_keyToken (value : String) :
    identity.readPart ("PublicKeyToken=".toList ++ value.toList)
      = if value = "null" ∨ value = "" then .ok identity
        else (KeyToken.parse value).map fun token => { identity with keyToken := some token } := by
  have version : afterLead? "Version=".toList ("PublicKeyToken=".toList ++ value.toList) = none :=
    rfl
  have culture : afterLead? "Culture=".toList ("PublicKeyToken=".toList ++ value.toList) = none :=
    rfl
  rw [readPart, version]
  simp only [culture, afterLead?_append, String.toList_inj, String.toList_eq_nil_iff,
    String.ofList_toList]
  split
  · rfl
  · cases read : KeyToken.parse value <;> rfl

/-- Reading a labelled part keeps the name and gives a culture that can be written, if any. -/
theorem Writable.readPart
    {identity other : Identity}
    (writable : identity.Writable)
    {part : List Char}
    (whole : ',' ∉ part)
    (ends : EndsBare part)
    (read : identity.readPart part = .ok other) :
    other.Writable := by
  rw [Identity.readPart] at read
  split at read
  · obtain ⟨version, -, same⟩ := Success.bind_eq_ok_iff.1 read
    obtain rfl := Except.ok.inj same
    exact { writable with }
  · split at read
    · next value found =>
        obtain rfl := eq_of_afterLead? found
        split at read
        · obtain rfl := Except.ok.inj read
          exact writable
        · next proper =>
            obtain ⟨notNeutral, notEmpty⟩ := not_or.1 proper
            obtain rfl := Except.ok.inj read
            refine { writable with culture := ?_ }
            rintro culture ⟨⟩
            rw [String.toList_ofList]
            refine ⟨mt String.ofList_eq_empty_iff.1 notEmpty, fun neutral => notNeutral ?_,
              fun comma => whole (List.mem_append_right _ comma),
              (endsBare_append_iff notEmpty _).1 ends⟩
            rw [← neutral, String.toList_ofList]
    · split at read
      · split at read
        · obtain rfl := Except.ok.inj read
          exact writable
        · obtain ⟨token, -, same⟩ := Success.bind_eq_ok_iff.1 read
          obtain rfl := Except.ok.inj same
          exact { writable with }
      · obtain rfl := Except.ok.inj read
        exact writable

theorem Writable.foldlM_readPart
    {identity other : Identity}
    (writable : identity.Writable)
    {parts : List (List Char)}
    (whole : ∀ part ∈ parts, ',' ∉ part)
    (ends : ∀ part ∈ parts, EndsBare part)
    (read : parts.foldlM Identity.readPart identity = .ok other) :
    other.Writable := by
  induction parts generalizing identity with
  | nil =>
      obtain rfl := Except.ok.inj read
      exact writable
  | cons part rest ih =>
      rw [List.foldlM_cons] at read
      obtain ⟨next, first, later⟩ := Success.bind_eq_ok_iff.1 read
      exact ih (writable.readPart (whole part List.mem_cons_self) (ends part List.mem_cons_self)
          first)
        (fun other isOther => whole other (List.mem_cons_of_mem part isOther))
        (fun other isOther => ends other (List.mem_cons_of_mem part isOther)) later

/-! ### Round trips -/

/-- An identity that was read can be written. -/
theorem writable_of_parse
    {text : String}
    {identity : Identity}
    (read : parse text = .ok identity) :
    identity.Writable := by
  have parts : ∀ part ∈ (pieces ',' text.toList).map trim,
      ',' ∉ part ∧ StartsBare part ∧ EndsBare part := by
    intro part isPart
    obtain ⟨piece, isPiece, rfl⟩ := List.mem_map.1 isPart
    exact ⟨fun comma => (of_mem_pieces isPiece (of_mem_trim comma)).2 rfl,
      startsBare_trim piece, endsBare_trim piece⟩
  rw [parse] at read
  split at read
  · cases read
  · cases read
  · next name rest some_name cut =>
      rw [cut] at parts
      obtain ⟨whole, starts, ends⟩ := parts name List.mem_cons_self
      have named : (ofName (String.ofList name) .unspecified).Writable := by
        refine ⟨mt String.ofList_eq_empty_iff.1 some_name, ?_, ?_, ?_, nofun⟩ <;>
          rwa [ofName, String.toList_ofList]
      exact named.foldlM_readPart
        (fun part isPart => (parts part (List.mem_cons_of_mem name isPart)).1)
        (fun part isPart => (parts part (List.mem_cons_of_mem name isPart)).2.2) read

/-- No value behind a label is cut or trimmed. -/
theorem Writable.value
    {identity : Identity}
    (writable : identity.Writable)
    {label : String × String}
    (member : label ∈ identity.labels) :
    label.2 ≠ "" ∧ ',' ∉ label.2.toList ∧ EndsBare label.2.toList := by
  rcases List.mem_cons.1 member with rfl | member
  · refine ⟨mt String.toList_eq_nil_iff.2 identity.version.toList_display_ne_nil,
      fun comma => (Version.plain_display comma).2 rfl, fun c isLast => ?_⟩
    exact (Version.plain_display (List.mem_of_mem_getLast? isLast)).1
  rcases List.mem_cons.1 member with rfl | member
  · cases known : identity.culture with
    | none => exact by decide
    | some culture =>
        obtain ⟨notEmpty, -, whole, ends⟩ := writable.culture culture known
        exact ⟨notEmpty, whole, ends⟩
  · obtain rfl := List.mem_singleton.1 member
    cases identity.keyToken with
    | none => exact by decide
    | some token =>
        refine ⟨token.display_ne (by decide), fun comma => ?_, fun c isLast => ?_⟩
        · exact (KeyToken.digit_of_mem_display comma).ne (by decide) rfl
        · exact (KeyToken.digit_of_mem_display (List.mem_of_mem_getLast? isLast)).bare

/-- No label is cut or trimmed. -/
theorem label_plain
    {identity : Identity}
    {label : String × String}
    (member : label ∈ identity.labels) :
    StartsBare label.1.toList ∧ label.1 ≠ "" ∧ ',' ∉ label.1.toList := by
  have first : label.1 ∈ ["Version=", "Culture=", "PublicKeyToken="] :=
    List.mem_map_of_mem (f := Prod.fst) member
  have each : ∀ word ∈ ["Version=", "Culture=", "PublicKeyToken="],
      StartsBare word.toList ∧ word ≠ "" ∧ ',' ∉ word.toList := by
    decide
  exact each label.1 first

/-- A display name is cut at its commas into the name and the labelled values. -/
theorem Writable.fields
    {identity : Identity}
    (writable : identity.Writable) :
    (pieces ',' identity.display.toList).map trim
      = identity.name.toList
          :: identity.labels.map fun label => label.1.toList ++ label.2.toList := by
  rw [toList_display, pieces_join (List.cons_ne_nil _ _)]
  · rw [List.map_cons, trim_eq_self writable.name_starts writable.name_ends, List.map_map]
    refine congrArg _ (List.map_congr_left fun label isLabel => ?_)
    obtain ⟨starts, someLabel, -⟩ := label_plain isLabel
    obtain ⟨someValue, -, ends⟩ := writable.value isLabel
    exact trim_labelled starts someLabel someValue ends
  · intro part isPart
    rcases List.mem_cons.1 isPart with rfl | isPart
    · exact writable.name_whole
    · obtain ⟨label, isLabel, rfl⟩ := List.mem_map.1 isPart
      obtain ⟨-, -, whole⟩ := label_plain isLabel
      obtain ⟨-, wholeValue, -⟩ := writable.value isLabel
      simp [labelled, whole, wholeValue]

/-- An identity that is written can be read if neither its name nor its culture is cut or
trimmed. -/
theorem Writable.parse_display
    {identity : Identity}
    (writable : identity.Writable) :
    parse identity.display = .ok identity := by
  have version : (ofName identity.name .unspecified).readPart
      ("Version=".toList ++ identity.version.display.toList)
        = .ok (ofName identity.name identity.version) := by
    rw [readPart_version, Version.parse_display]
    rfl
  have culture : (ofName identity.name identity.version).readPart
      ("Culture=".toList ++ (identity.culture.getD "neutral").toList)
        = .ok ⟨identity.name, identity.version, identity.culture, none⟩ := by
    rw [readPart_culture]
    cases known : identity.culture with
    | none => rfl
    | some culture =>
        obtain ⟨notEmpty, notNeutral, -⟩ := writable.culture culture known
        rw [Option.getD_some, if_neg (not_or.2 ⟨notNeutral, notEmpty⟩)]
        rfl
  have keyToken : Identity.readPart ⟨identity.name, identity.version, identity.culture, none⟩
      ("PublicKeyToken=".toList ++ (identity.keyToken.elim "null" KeyToken.display).toList)
        = .ok identity := by
    rw [readPart_keyToken]
    cases known : identity.keyToken with
    | none => exact congrArg Except.ok (by rw [← known])
    | some token =>
        have digits : token.display ≠ "null" ∧ token.display ≠ "" :=
          ⟨token.display_ne (by decide), token.display_ne (by decide)⟩
        rw [Option.elim_some, if_neg (not_or.2 digits), KeyToken.parse_display, Except.map,
          ← known]
  obtain ⟨c, rest, chars⟩ :=
    List.exists_cons_of_ne_nil (mt String.toList_eq_nil_iff.1 writable.name_ne)
  rw [parse, writable.fields, chars]
  change (identity.labels.map fun label => label.1.toList ++ label.2.toList).foldlM
    Identity.readPart (ofName (String.ofList (c :: rest)) .unspecified) = .ok identity
  rw [← chars, String.ofList_toList]
  exact Success.bind_eq_ok_iff.2 ⟨_, version, Success.bind_eq_ok_iff.2 ⟨_, culture,
    Success.bind_eq_ok_iff.2 ⟨_, keyToken, rfl⟩⟩⟩

/-- Exactly the writable identities are read from their own display names. Every identity that is
read from a text is writable, so it is read from its display name again. -/
theorem parse_display_eq_ok_iff :
    (∀ identity : Identity, parse identity.display = .ok identity ↔ identity.Writable)
      ∧ ∀ text identity, parse text = .ok identity →
          identity.Writable ∧ parse identity.display = .ok identity :=
  ⟨fun _ => ⟨writable_of_parse, Writable.parse_display⟩,
    fun _ _ read => ⟨writable_of_parse read, (writable_of_parse read).parse_display⟩⟩

/-- Of two versions the later one counts, and white space is lost around the parts but not behind
the label of the culture. -/
theorem parse_display_satellite :
    parse " Shop ,Version=9, Culture= de , Version=1.+2,Retargetable=Yes"
        = .ok ⟨"Shop", ⟨1, 2, 0, 0⟩, some " de", none⟩
      ∧ Writable ⟨"Shop", ⟨1, 2, 0, 0⟩, some " de", none⟩
      ∧ parse "Shop, Version=1.2.0.0, Culture= de, PublicKeyToken=null"
          = .ok ⟨"Shop", ⟨1, 2, 0, 0⟩, some " de", none⟩ := by
  have read : parse " Shop ,Version=9, Culture= de , Version=1.+2,Retargetable=Yes"
      = .ok ⟨"Shop", ⟨1, 2, 0, 0⟩, some " de", none⟩ := by
    decide
  obtain ⟨writable, again⟩ := parse_display_eq_ok_iff.2 _ _ read
  exact ⟨read, writable, again⟩

end Identity

end Assembly
end AssemblyAtlas
