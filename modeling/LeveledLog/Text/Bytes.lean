/-
Texts and the bytes that spell them.

Everything a sink receives is a byte sequence, and every limit on a text is a
limit on the number of its bytes.  `utf8` spells a text in UTF-8 and `text?`
reads a spelling back, refusing bytes that spell no text.
-/

namespace LeveledLog

abbrev Bytes := List UInt8

namespace Text

def utf8 (text : String) : Bytes :=
  text.toList.flatMap String.utf8EncodeChar

def text? (bytes : Bytes) : Option String :=
  String.fromUTF8? bytes.toByteArray

def size (text : String) : Nat :=
  (utf8 text).length

theorem utf8_toByteArray (text : String) :
    (utf8 text).toByteArray = text.toByteArray := by
  rw [← String.utf8Encode_toList]
  rfl

theorem text?_utf8 (text : String) :
    text? (utf8 text) = some text := by
  unfold text? String.fromUTF8?
  rw [utf8_toByteArray]
  simp [text.isValidUTF8, String.fromUTF8]

theorem utf8_injective {left right : String}
    (equality : utf8 left = utf8 right) :
    left = right := by
  have readings : text? (utf8 left) = text? (utf8 right) := by
    rw [equality]
  rw [text?_utf8, text?_utf8] at readings
  exact Option.some.inj readings

theorem utf8_eq_iff {left right : String} :
    utf8 left = utf8 right ↔ left = right :=
  ⟨utf8_injective, fun equality => by rw [equality]⟩

@[simp] theorem utf8_empty : utf8 "" = [] := rfl

theorem utf8_append (left right : String) :
    utf8 (left ++ right) = utf8 left ++ utf8 right := by
  simp [utf8]

theorem utf8_eq_nil_iff {text : String} :
    utf8 text = [] ↔ text = "" := by
  rw [← utf8_empty, utf8_eq_iff]

end Text

end LeveledLog
