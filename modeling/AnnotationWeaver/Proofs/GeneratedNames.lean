import AnnotationWeaver.Proofs.OneOffNames
import AnnotationWeaver.Proofs.SharedNames

/-!
Names of generated classes. Each is put together from a package, the simple name of something and an ending without dots, so
it is in the packages that its own package is in: no class is generated into `java.lang` unless the generated package is
there, for what would stand there is moved to that one. A name is valid if its package is; in the default package the
dot has to be left out, which one-off names do and the names of shared classes and of components do not.
-/
namespace AnnotationWeaver

/-- A package is the default one, which has no name, or has a valid name. -/
def IsPackage (package : String) : Prop := package = "" ∨ (⟨package⟩ : TypeName).isValid = true

instance (package : String) : Decidable (IsPackage package) := inferInstanceAs (Decidable (_ ∨ _))

theorem IsPackage.isValid_iff {package : String} (sound : IsPackage package) :
    (⟨package⟩ : TypeName).isValid = true ↔ package ≠ "" := by
  constructor
  · rintro valid rfl
    cases valid
  · exact sound.resolve_left

theorem TypeName.isJavaLang_eq (n : TypeName) : n.isJavaLang = startsWithPackage "java.lang" n.text :=
  Bool.false_or _

namespace Literal

theorem dot_notMem_sharedEnd : '.' ∉ (sharedMark ++ nameEnd).toList := by decide

/-- What stands right in a package is of `java.lang` exactly if the package is protected. -/
theorem isJavaLang_dotted {home simple : String} (dotless : '.' ∉ simple.toList) :
    (⟨home ++ "." ++ simple⟩ : TypeName).isJavaLang = isProtected home := by
  rw [TypeName.isJavaLang_eq, startsWithPackage_dotted dotless, isProtected]

theorem isJavaLang_sharedName (type : TypeName) (generated : String) :
    (sharedName type generated).isJavaLang = (type.isJavaLang && isProtected generated) := by
  cases moved : type.isJavaLang with
  | true =>
    have dotless : '.' ∉ (type.simple ++ (sharedMark ++ nameEnd)).toList := by
      rw [String.toList_append, List.mem_append, not_or]
      exact ⟨type.dot_notMem_simple, dot_notMem_sharedEnd⟩
    rw [sharedName_of_isJavaLang moved, String.append_assoc, String.append_assoc, isJavaLang_dotted dotless, Bool.true_and]
  | false =>
    rw [sharedName_of_not_isJavaLang moved, TypeName.isJavaLang_eq, String.append_assoc,
      startsWithPackage_append dot_notMem_sharedEnd, ← TypeName.isJavaLang_eq, moved, Bool.false_and]

theorem isJavaLang_oneOffName (a : Annotation) (target generated : String) :
    (oneOffName a target generated).isJavaLang = (isProtected target && isProtected generated) := by
  have home : isProtected (homePackage target generated) = (isProtected target && isProtected generated) := by
    rw [homePackage]
    cases test : isProtected target with
    | true => rfl
    | false => exact test
  rw [oneOffName_eq, ← home]
  split
  · next default =>
    rw [default, TypeName.isJavaLang_eq, ← String.empty_append (s := simpleOneOffName a),
      startsWithPackage_append (dot_notMem_simpleOneOffName a)]
    rfl
  · exact isJavaLang_dotted (dot_notMem_simpleOneOffName a)

/-- The name of a shared class is valid, unless its dot has nothing before it. -/
theorem isValid_sharedName_iff {type : TypeName} (valid : type.isValid = true) {generated : String}
    (sound : IsPackage generated) :
    (sharedName type generated).isValid = true ↔ (type.isJavaLang = true → generated ≠ "") := by
  cases moved : type.isJavaLang with
  | true =>
    have dotless : '.' ∉ (type.simple ++ (sharedMark ++ nameEnd)).toList := by
      rw [String.toList_append, List.mem_append, not_or]
      exact ⟨type.dot_notMem_simple, dot_notMem_sharedEnd⟩
    have filled : type.simple ++ (sharedMark ++ nameEnd) ≠ "" := by simp [sharedMark]
    have simple := (TypeName.isValid_of_notMem dotless).2 filled
    rw [sharedName_of_isJavaLang moved, String.append_assoc, String.append_assoc, TypeName.isValid_dotted, simple,
      Bool.and_true, sound.isValid_iff]
    exact ⟨fun named _ => named, fun named => named rfl⟩
  | false =>
    rw [sharedName_of_not_isJavaLang moved, String.append_assoc]
    exact iff_of_true (TypeName.isValid_append valid dot_notMem_sharedEnd) nofun

theorem isValid_oneOffName (a : Annotation) {target generated : String} (sound : IsPackage target)
    (sound' : IsPackage generated) : (oneOffName a target generated).isValid = true := by
  have home : IsPackage (homePackage target generated) := by
    rw [homePackage]
    split
    · exact sound'
    · exact sound
  have filled : simpleOneOffName a ≠ "" := by simp [simpleOneOffName, nameEnd]
  have simple := (TypeName.isValid_of_notMem (dot_notMem_simpleOneOffName a)).2 filled
  rw [oneOffName_eq]
  split
  · exact simple
  · next named => rw [TypeName.isValid_dotted, simple, Bool.and_true, home.isValid_iff.2 named]

end Literal

theorem isValid_componentsName_iff {package : String} (sound : IsPackage package) (n : Nat) :
    (componentsName package (.ofNumber n)).isValid = true ↔ package ≠ "" := by
  have digits : '.' ∉ (BuildId.ofNumber n).text.toList := by
    rw [BuildId.ofNumber, String.toList_ofList]
    exact Text.dot_notMem_base32 26 n
  rw [componentsName]
  generalize (BuildId.ofNumber n).text = id at digits
  have split : package ++ ".SyntheticComponents_" ++ id = package ++ "." ++ ("SyntheticComponents_" ++ id) := by
    rw [← String.toList_inj]
    simp
  have dotless : '.' ∉ ("SyntheticComponents_" ++ id).toList := by simpa using digits
  have simple := (TypeName.isValid_of_notMem dotless).2 (by simp)
  rw [split, TypeName.isValid_dotted, simple, Bool.and_true, sound.isValid_iff]

/-- In whatever packages, the name of a one-off class is valid; the others are unless the generated package is the
    default one and they are put there. -/
theorem generated_names_are_valid_iff (a : Annotation) (valid : a.type.isValid = true) {target generated : String}
    (sound : IsPackage target) (sound' : IsPackage generated) (n : Nat) :
    (Literal.oneOffName a target generated).isValid = true ∧
      ((Literal.sharedName a.type generated).isValid = true ↔ (a.type.isJavaLang = true → generated ≠ "")) ∧
      ((componentsName generated (.ofNumber n)).isValid = true ↔ generated ≠ "") :=
  ⟨Literal.isValid_oneOffName a sound sound', Literal.isValid_sharedName_iff valid sound',
    isValid_componentsName_iff sound' n⟩

theorem generated_names_are_valid_of_deprecated :
    (⟨"java.lang.Deprecated"⟩ : TypeName).isValid = true ∧ IsPackage "" ∧ IsPackage "anvil.generated" ∧
      (Literal.oneOffName (.marker ⟨"java.lang.Deprecated"⟩) "" "anvil.generated").isValid = true ∧
      (Literal.sharedName ⟨"java.lang.Deprecated"⟩ "anvil.generated").isValid = true ∧
      (componentsName "anvil.generated" (.ofNumber 1)).isValid = true := by
  have valid : (.marker ⟨"java.lang.Deprecated"⟩ : Annotation).type.isValid = true := by decide
  have sound : IsPackage "anvil.generated" := by decide
  obtain ⟨oneOff, shared, components⟩ := generated_names_are_valid_iff _ valid (.inl rfl) sound 1
  exact ⟨valid, .inl rfl, sound, oneOff, shared.2 fun _ => by decide, components.2 (by decide)⟩

/-- In the default package two names begin with a dot. -/
theorem generated_names_are_invalid_in_default_package :
    (⟨"java.lang.Deprecated"⟩ : TypeName).isValid = true ∧ IsPackage "" ∧
      Literal.sharedName ⟨"java.lang.Deprecated"⟩ "" = ⟨".Deprecated_Shared_AnnotationLiteral"⟩ ∧
      (Literal.sharedName ⟨"java.lang.Deprecated"⟩ "").isValid = false ∧
      (componentsName "" (.ofNumber 1)).isValid = false := by
  decide +kernel

/-! ### Classes of a compiler -/

namespace LiteralSettings

variable {c : LiteralSettings} {s : LiteralState}

/-- What is written is the class of an annotation that was compiled. -/
theorem Reached.exists_compiled (reached : c.Reached s) {k : LiteralClass} (written : k ∈ s.written) :
    c.shared = false ∧ ∃ e : Compiled, k = e.oneOffClass c := by
  induction reached with
  | fresh => exact absurd written List.not_mem_nil
  | @compiled s reached a targetPackage ih =>
    obtain ⟨trace, leads, -⟩ := yields_materializeFromCorpus a targetPackage s reached.isOrderly
    rcases leads.exists_of_mem_written written with earlier | ⟨alone, e, -, same⟩
    · exact ih earlier
    · exact ⟨alone, e, same⟩
  | taken => exact absurd written List.not_mem_nil

end LiteralSettings

/-- If the generated package is neither `java.lang` nor inside it, no class that is written or generated is in there,
    whatever was compiled for whatever packages. -/
theorem generated_classes_stay_out_of_java_lang (c : LiteralSettings) (other : c.generatedPackage ≠ "java.lang")
    (outside : (⟨c.generatedPackage⟩ : TypeName).isJavaLang = false) {s : LiteralState} (reached : c.Reached s) :
    (∀ k ∈ s.written, k.name.isJavaLang = false) ∧
      ∀ existing, ∀ k ∈ s.generate existing, k.name.isJavaLang = false := by
  have unprotected : Literal.isProtected c.generatedPackage = false := by
    rw [TypeName.isJavaLang_eq] at outside
    rw [Literal.isProtected, outside, Bool.or_false]
    exact beq_false_of_ne other
  constructor
  · intro k written
    obtain ⟨alone, e, rfl⟩ := reached.exists_compiled written
    rw [Compiled.name_oneOffClass alone, Literal.isJavaLang_oneOffName, unprotected, Bool.and_false]
  · intro existing k generated
    obtain ⟨type, name⟩ := reached.isSound.prepared.exists_type_of_generate generated
    rw [name, Literal.isJavaLang_sharedName, unprotected, Bool.and_false]

/-- An annotation type of `java.lang`, and one that has a member of it. -/
def notes : Corpus where
  outlines := [⟨⟨"java.lang.Note"⟩, .annotationType, none, [], [], [], []⟩,
    ⟨⟨"app.Tag"⟩, .annotationType, none, [], [], [⟨"note", [], .named ⟨"java.lang.Note"⟩, [], none, false⟩], []⟩]
  classes := _
  declared := rfl
  accepted := by decide +kernel

/-- A tag that is compiled for a package of `java.lang`, and the note inside it for its own. -/
theorem generated_classes_stay_out_of_java_lang_for_tags :
    let c : LiteralSettings := ⟨notes, false, "anvil.generated", fun _ => true⟩
    let tag : Annotation := ⟨⟨"app.Tag"⟩, [⟨"note", .nested (.marker ⟨"java.lang.Note"⟩)⟩]⟩
    let s := ((c.materializeFromCorpus tag "java.lang.tags").run .initial).2
    c.generatedPackage ≠ "java.lang" ∧ (⟨c.generatedPackage⟩ : TypeName).isJavaLang = false ∧ c.Reached s ∧
      s.written.map (·.annotationType) = [⟨"java.lang.Note"⟩, ⟨"app.Tag"⟩] ∧
      ∀ k ∈ s.written, k.name.isJavaLang = false := by
  intro c tag s
  have reached : c.Reached s := .compiled .fresh tag "java.lang.tags"
  have classes : s.written.map (·.annotationType) = [⟨"java.lang.Note"⟩, ⟨"app.Tag"⟩] := rfl
  have outside : (⟨c.generatedPackage⟩ : TypeName).isJavaLang = false := by decide
  refine ⟨by decide, outside, reached, classes, ?_⟩
  exact (generated_classes_stay_out_of_java_lang c (by decide) outside reached).1

end AnnotationWeaver
