import AnnotationWeaver.Corpus.Basic
import AnnotationWeaver.Json.Writer
import AnnotationWeaver.Report.Basic
import AnnotationWeaver.Wire.Encode

/-!
Reports of declarations.
-/
namespace AnnotationWeaver

def ClassDecl.report (d : ClassDecl) : Json :=
  .object [("kind", .str (Json.str d.kind.label).compact), ("annotation", .bool (d.kind == .annotationType)),
    ("super", .option TypeName.toJson d.superclass), ("interfaces", namesJson d.interfaces),
    ("annotations", annotationTexts d.annotations), ("methods", .texts (d.methods.map (·.key.text))),
    ("regular", .texts (d.regularMethods.map (·.name))), ("fields", .texts (d.fields.map (·.key.text)))]

/-- A class is reported by its name, all else by its written form. -/
def Declaration.report : Declaration → Json
  | .type d => d.name.toJson
  | .method m => .str m.toJson.compact
  | .field f => .str f.toJson.compact
  | .parameter p =>
    .object [("json", .str p.toJson.compact), ("position", countJson p.key.position.toNat),
      ("type", .str p.type.text), ("name", .option .str p.name)]

/-- What a member is as one of its class: a field's type, or a method's result. -/
def FieldDecl.report (f : FieldDecl) : Json := .arr [.str f.type.text, .bool f.isStatic]

def MethodDecl.report (m : MethodDecl) : Json :=
  .arr [.str m.returns.text, .bool m.isStatic, .bool m.isConstructor,
    .option (fun v => .str v.text) m.default?]

end AnnotationWeaver
