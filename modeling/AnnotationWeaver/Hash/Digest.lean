import AnnotationWeaver.Hash.Blake3
import AnnotationWeaver.Text.Digits

/-!
The digest of a text: the BLAKE3 hash of its UTF-8 bytes, written as 64 lower-case hexadecimal
digits.
-/
namespace AnnotationWeaver

/-- The digest of a text, in hexadecimal. -/
def digest (text : String) : String :=
  String.ofList ((Hash.Blake3.hash text.toUTF8.toList).flatMap fun b => Text.padZeros 2 (Text.hex b.toNat))

end AnnotationWeaver
