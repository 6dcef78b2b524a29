import AnnotationWeaver.Phase

/-!
The roles of callback parameters. A role says what a parameter gives access to and in which phases a
callback may declare it. A query role makes the callback run once for every match of its constraints.
-/
namespace AnnotationWeaver

inductive Role where
  | messages | scannedClasses | metaAnnotations
  | classConfig | methodConfig | fieldConfig
  | classInfo | methodInfo | fieldInfo
  | annotations | archiveConfig | types | archive | deployment | syntheticComponents
  | beanInfo | observerInfo
  | unknown (name : String)
  deriving DecidableEq, Repr

namespace Role

/-- The roles that are known. -/
def known : List Role :=
  [.messages, .scannedClasses, .metaAnnotations, .classConfig, .methodConfig, .fieldConfig, .classInfo,
    .methodInfo, .fieldInfo, .annotations, .archiveConfig, .types, .archive, .deployment,
    .syntheticComponents, .beanInfo, .observerInfo]

def text : Role → String
  | .messages => "Messages"
  | .scannedClasses => "ScannedClasses"
  | .metaAnnotations => "MetaAnnotations"
  | .classConfig => "ClassConfig"
  | .methodConfig => "MethodConfig"
  | .fieldConfig => "FieldConfig"
  | .classInfo => "ClassInfo"
  | .methodInfo => "MethodInfo"
  | .fieldInfo => "FieldInfo"
  | .annotations => "Annotations"
  | .archiveConfig => "AppArchiveConfig"
  | .types => "Types"
  | .archive => "AppArchive"
  | .deployment => "AppDeployment"
  | .syntheticComponents => "SyntheticComponents"
  | .beanInfo => "BeanInfo"
  | .observerInfo => "ObserverInfo"
  | .unknown name => "unknown parameter type " ++ name

/-- The known role with a text. -/
def ofText? (s : String) : Option Role := known.find? (·.text == s)

/-- The callback runs once for every match. -/
def isQuery : Role → Bool
  | .classConfig | .methodConfig | .fieldConfig | .classInfo | .methodInfo | .fieldInfo | .beanInfo
  | .observerInfo => true
  | _ => false

/-- The phases in which a callback may declare the role. -/
def legalPhases : Role → List Phase
  | .messages => Phase.all
  | .scannedClasses | .metaAnnotations => [.discovery]
  | .classConfig | .methodConfig | .fieldConfig | .classInfo | .methodInfo | .fieldInfo | .annotations
  | .archiveConfig => [.enhancement]
  | .types | .archive => [.enhancement, .synthesis, .validation]
  | .deployment => [.synthesis, .validation]
  | .syntheticComponents => [.synthesis]
  | .beanInfo | .observerInfo => [.validation]
  | .unknown _ => []

def isLegalIn (r : Role) (p : Phase) : Bool := r.legalPhases.contains p

end Role

end AnnotationWeaver
