import AnnotationWeaver.Json.Shape
import AnnotationWeaver.Literal.Naming
import AnnotationWeaver.Toml.Reader
import AnnotationWeaver.Wire.Encode

/-!
The configuration of a build. It is read from JSON or TOML, where a missing member has its default, an
unknown one is passed over and one of a wrong type is an error.
-/
namespace AnnotationWeaver

structure Config where
  sharedLiterals : Bool
  applicationPackages : List String
  generatedPackage : String
  failOnWarnings : Bool
  deriving DecidableEq, Repr

namespace Config

def default : Config := ⟨true, [], Literal.defaultGeneratedPackage, false⟩

instance : Inhabited Config := ⟨default⟩

/-- A class belongs to the application: it is in one of the packages, or no package is given. -/
def isApplication (c : Config) (name : TypeName) : Bool :=
  c.applicationPackages.isEmpty || c.applicationPackages.any fun p => startsWithPackage p name.text

def toJson (c : Config) : Json :=
  .object [("shared_literals", .bool c.sharedLiterals), ("application_packages", .texts c.applicationPackages),
    ("generated_package", .str c.generatedPackage), ("fail_on_warnings", .bool c.failOnWarnings)]

/-- The names of the members, in order. -/
def memberNames : List String :=
  ["shared_literals", "application_packages", "generated_package", "fail_on_warnings"]

def ofJson? (j : Json) : Option Config :=
  match j.partialRecord? memberNames with
  | some [shared, packages, generated, warnings] => do
    let sharedLiterals ← Json.orElse? Json.bool? default.sharedLiterals shared
    let applicationPackages ← Json.orElse? (Json.list? Json.string?) default.applicationPackages packages
    let generatedPackage ← Json.orElse? Json.string? default.generatedPackage generated
    let failOnWarnings ← Json.orElse? Json.bool? default.failOnWarnings warnings
    return ⟨sharedLiterals, applicationPackages, generatedPackage, failOnWarnings⟩
  | _ => none

end Config

namespace Toml

def string? : Toml → Option String
  | .string s => some s
  | _ => none

def boolean? : Toml → Option Bool
  | .boolean b => some b
  | _ => none

/-- An array of texts. -/
def strings? : Toml → Option (List String)
  | .array elements => elements.mapM string?
  | _ => none

/-- A member that has a default. -/
def memberOr {α : Type} (members : List (String × Toml)) (name : String) (value : Toml → Option α)
    (default : α) : Option α :=
  match Assoc.find? name members with
  | none => some default
  | some t => value t

end Toml

/-- The configuration that a TOML document gives. -/
def Config.ofToml? (text : String) : Option Config := do
  let members ← Toml.read? text
  let sharedLiterals ← Toml.memberOr members "shared_literals" Toml.boolean? default.sharedLiterals
  let applicationPackages ←
    Toml.memberOr members "application_packages" Toml.strings? default.applicationPackages
  let generatedPackage ← Toml.memberOr members "generated_package" Toml.string? default.generatedPackage
  let failOnWarnings ← Toml.memberOr members "fail_on_warnings" Toml.boolean? default.failOnWarnings
  return ⟨sharedLiterals, applicationPackages, generatedPackage, failOnWarnings⟩

end AnnotationWeaver
