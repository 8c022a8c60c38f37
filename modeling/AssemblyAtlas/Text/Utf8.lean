/-!
# Bytes that should be a text

Bytes are a text if they are well-formed UTF-8. If not, it is told where the first mistake is.
-/

namespace AssemblyAtlas
namespace Text

/-- What the further bytes of a character can be, by its first one, which is not ASCII. No character
starts with the byte if there are none. -/
def followers (lead : UInt8) : List (UInt8 × UInt8) :=
  if 0xc2 ≤ lead ∧ lead ≤ 0xdf then
    [(0x80, 0xbf)]
  else if lead = 0xe0 then
    [(0xa0, 0xbf), (0x80, 0xbf)]
  else if lead = 0xed then
    -- Surrogates have no encoding.
    [(0x80, 0x9f), (0x80, 0xbf)]
  else if 0xe1 ≤ lead ∧ lead ≤ 0xef then
    [(0x80, 0xbf), (0x80, 0xbf)]
  else if lead = 0xf0 then
    [(0x90, 0xbf), (0x80, 0xbf), (0x80, 0xbf)]
  else if 0xf1 ≤ lead ∧ lead ≤ 0xf3 then
    [(0x80, 0xbf), (0x80, 0xbf), (0x80, 0xbf)]
  else if lead = 0xf4 then
    [(0x80, 0x8f), (0x80, 0xbf), (0x80, 0xbf)]
  else
    []

/-- The wording of the first mistake in bytes, behind some bytes of the character at an index, of
which others are expected. There is no wording if there is no mistake. -/
def encodingFault (index known : Nat) : List (UInt8 × UInt8) → List UInt8 → String
  | [], [] => ""
  | _ :: _, [] => "incomplete utf-8 byte sequence from index " ++ toString index
  | (least, greatest) :: expected, byte :: rest =>
      if least ≤ byte ∧ byte ≤ greatest then
        encodingFault index (known + 1) expected rest
      else
        "invalid utf-8 sequence of " ++ toString known ++ " bytes from index " ++ toString index
  | [], byte :: rest =>
      let index := index + known
      if byte < 0x80 then
        encodingFault index 1 [] rest
      else if followers byte = [] then
        "invalid utf-8 sequence of 1 bytes from index " ++ toString index
      else
        encodingFault index 1 (followers byte) rest

/-- The text that the bytes are, or the wording of the first mistake in them. -/
def readUtf8 (bytes : ByteArray) : Except String String :=
  match String.fromUTF8? bytes with
  | some text => .ok text
  | none => .error (encodingFault 0 0 [] bytes.toList)

theorem readUtf8_toUTF8 (text : String) :
    readUtf8 text.toUTF8 = .ok text := by
  have valid : String.fromUTF8? text.toUTF8 = some text :=
    dif_pos text.isValidUTF8
  rw [readUtf8, valid]

/-- Two bytes of a character that needs a third one. -/
example : encodingFault 0 0 [] [0x61, 0xe2, 0x82, 0x61]
    = "invalid utf-8 sequence of 2 bytes from index 1" := by
  decide +kernel

end Text
end AssemblyAtlas
