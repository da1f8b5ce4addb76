/-
  Text as bytes: the UTF-8 form of a text, and the text of a well-formed byte list.
-/
import MicroAsm.Text.Basic

namespace MicroAsm.Text

/-- The UTF-8 bytes of `t`. -/
def toUtf8 (t : Text) : List UInt8 := t.flatMap String.utf8EncodeChar

/-- The text whose UTF-8 form is `bytes`, if there is one. -/
def ofUtf8? (bytes : List UInt8) : Option Text :=
  (String.fromUTF8? bytes.toByteArray).map String.toList

/-- Reading undoes writing. -/
theorem ofUtf8?_toUtf8 (t : Text) : ofUtf8? (toUtf8 t) = some t := by
  have hb : (toUtf8 t).toByteArray = (String.ofList t).toByteArray := rfl
  have hv : (String.ofList t).toByteArray.IsValidUTF8 := (String.ofList t).isValidUTF8
  unfold ofUtf8? String.fromUTF8?
  rw [hb, dif_pos hv]
  exact congrArg some String.toList_ofList

end MicroAsm.Text
