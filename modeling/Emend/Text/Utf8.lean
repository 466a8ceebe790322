namespace Emend
namespace Text

/-!
# Text as bytes

The bytes of a string are its UTF-8 form.  Only well-formed UTF-8 has a
string.
-/

/-- The UTF-8 bytes of a string. -/
def utf8 (text : String) : List UInt8 :=
  text.toUTF8.data.toList

/-- The string with the given UTF-8 bytes. -/
def ofUtf8? (bytes : List UInt8) : Option String :=
  String.fromUTF8? ⟨bytes.toArray⟩

theorem ofUtf8?_utf8 (text : String) : ofUtf8? (utf8 text) = some text := by
  simp only [ofUtf8?, utf8, Array.toArray_toList, String.fromUTF8?]
  exact dif_pos text.isValidUTF8

end Text
end Emend
