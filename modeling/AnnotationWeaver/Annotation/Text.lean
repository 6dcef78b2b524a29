import AnnotationWeaver.Annotation.Basic
import AnnotationWeaver.Decimal.Layout
import AnnotationWeaver.Text.Escape

/-!
The text of annotations and values: `@a.Q(value="x", n=3)`, members in their order. Integers narrower
than `int` carry a cast, `long` and `float` a suffix; strings and characters keep printable ASCII
only.
-/
namespace AnnotationWeaver

open Decimal (Layout)

/-- Floating-point values are plain from `0.0001` up to sixteen digits before the point. -/
def valueLayout : Layout := ⟨-4, 15, false, .up, "NaN".toList, "inf".toList⟩

def Decimal.Binary32.text (x : Decimal.Binary32) : String :=
  String.ofList (valueLayout.write .single x.bits.toNat)

def Decimal.Binary64.text (x : Decimal.Binary64) : String :=
  String.ofList (valueLayout.write .double x.bits.toNat)

/-- An integer in decimal. -/
def intText (n : Int) : String := String.ofList (Text.decimalInt n)

mutual

def Value.text (v : Value) : String :=
  match v with
  | .boolean b => if b then "true" else "false"
  | .byte n => "(byte) " ++ intText n.toInt
  | .short n => "(short) " ++ intText n.toInt
  | .int n => intText n.toInt
  | .long n => intText n.toInt ++ "L"
  | .float x => x.text ++ "f"
  | .double x => x.text
  | .char c => "'" ++ String.ofList (Text.literalChar c) ++ "'"
  | .string s => "\"" ++ String.ofList (Text.literal s.toList) ++ "\""
  | .enumConstant type constant => type.text ++ "." ++ constant
  | .classLiteral type => type.text ++ ".class"
  | .nested a => a.text
  | .array _ elements => "\x7b" ++ ", ".intercalate (Value.texts elements) ++ "\x7d"
termination_by structural v

def Value.texts (vs : List Value) : List String :=
  match vs with
  | [] => []
  | v :: rest => v.text :: Value.texts rest
termination_by structural vs

def Annotation.text (a : Annotation) : String :=
  match a with
  | ⟨type, []⟩ => "@" ++ type.text
  | ⟨type, first :: rest⟩ =>
    "@" ++ type.text ++ "(" ++ ", ".intercalate (first.text :: Member.texts rest) ++ ")"
termination_by structural a

def Member.texts (ms : List Member) : List String :=
  match ms with
  | [] => []
  | m :: rest => m.text :: Member.texts rest
termination_by structural ms

def Member.text (m : Member) : String :=
  match m with
  | ⟨name, value⟩ => name ++ "=" ++ value.text
termination_by structural m

end

end AnnotationWeaver
