import AnnotationWeaver.Proofs.TraceRuns
import Mathlib.Data.List.Nodup

/-!
Names of shared literal classes. There is one shared class for each annotation type that was met, but its name is not
made from the type's name alone: a type of `java.lang` hands only its simple name on to the generated package. So two
types clash if both are of `java.lang` and have one simple name, or if one is and the other already has that name in
the generated package. Types that do not clash have classes of different names.
-/
namespace AnnotationWeaver

/-- The shared classes of the types would have one name. -/
def TypeName.Clashes (generatedPackage : String) (t u : TypeName) : Prop :=
  match t.isJavaLang, u.isJavaLang with
  | true, true => t.simple = u.simple
  | true, false => u.text = generatedPackage ++ "." ++ t.simple
  | false, true => t.text = generatedPackage ++ "." ++ u.simple
  | false, false => False

instance (generatedPackage : String) (t u : TypeName) : Decidable (t.Clashes generatedPackage u) := by
  unfold TypeName.Clashes
  split <;> infer_instance

namespace Literal

theorem sharedName_of_isJavaLang {type : TypeName} (moved : type.isJavaLang = true) (package : String) :
    sharedName type package = ⟨package ++ "." ++ type.simple ++ sharedMark ++ nameEnd⟩ := by
  simp [sharedName, moved]

theorem sharedName_of_not_isJavaLang {type : TypeName} (stays : type.isJavaLang = false) (package : String) :
    sharedName type package = ⟨type.text ++ sharedMark ++ nameEnd⟩ := by
  simp [sharedName, stays]

theorem exists_stem_sharedName (type : TypeName) (package : String) :
    ∃ stem, (sharedName type package).text = stem ++ nameEnd := ⟨_, rfl⟩

/-- Two types have shared classes of one name exactly if they clash. -/
theorem sharedName_eq_iff {t u : TypeName} (different : t ≠ u) (package : String) :
    sharedName t package = sharedName u package ↔ t.Clashes package u := by
  have bases {s s' : String} :
      (⟨s ++ sharedMark ++ nameEnd⟩ : TypeName) = ⟨s' ++ sharedMark ++ nameEnd⟩ ↔ s = s' := by
    rw [TypeName.mk.injEq, String.append_left_inj, String.append_left_inj]
  cases first : t.isJavaLang with
  | true =>
    cases second : u.isJavaLang with
    | true =>
      rw [sharedName_of_isJavaLang first, sharedName_of_isJavaLang second, bases, String.append_right_inj]
      simp [TypeName.Clashes, first, second]
    | false =>
      rw [sharedName_of_isJavaLang first, sharedName_of_not_isJavaLang second, bases, eq_comm]
      simp [TypeName.Clashes, first, second]
  | false =>
    cases second : u.isJavaLang with
    | true =>
      rw [sharedName_of_not_isJavaLang first, sharedName_of_isJavaLang second, bases]
      simp [TypeName.Clashes, first, second]
    | false =>
      rw [sharedName_of_not_isJavaLang first, sharedName_of_not_isJavaLang second, bases]
      have unequal : t.text ≠ u.text := fun same => different (congrArg TypeName.mk same)
      simp [TypeName.Clashes, first, second, unequal]

end Literal

namespace LiteralState

theorem map_annotationType_generate (s : LiteralState) :
    (s.generate []).map (·.annotationType) = s.literals.map (·.type) := by
  simp [generate, Literal.sharedClass]

theorem map_name_generate (s : LiteralState) : (s.generate []).map (·.name) = s.literals.map (·.name) := by
  simp [generate, Literal.sharedClass]

end LiteralState

/-- The names of literals are made from their types. -/
theorem LiteralSettings.Prepared.map_name {c : LiteralSettings} {s : LiteralState} (prepared : c.Prepared s) :
    s.literals.map (·.name) = (s.literals.map (·.type)).map fun t => Literal.sharedName t c.generatedPackage := by
  rw [List.map_map]
  refine List.map_congr_left fun l listed => ?_
  exact congrArg Literal.name (prepared l listed).1

/-- What is generated is named after a type. -/
theorem LiteralSettings.Prepared.exists_type_of_generate {c : LiteralSettings} {s : LiteralState} (prepared : c.Prepared s)
    {existing : List TypeName} {k : LiteralClass} (generated : k ∈ s.generate existing) :
    ∃ type, k.name = Literal.sharedName type c.generatedPackage := by
  obtain ⟨l, kept, rfl⟩ := List.mem_map.1 generated
  exact ⟨l.type, congrArg Literal.name (prepared l (List.mem_filter.1 kept).1).1⟩

/-- Whatever a compiler was given before, it generates one shared class for each annotation type, and their names are
    pairwise distinct exactly if no two of these types clash. -/
theorem shared_class_names_nodup_iff (c : LiteralSettings) {s : LiteralState} (reached : c.Reached s) :
    ((s.generate []).map (·.annotationType)).Nodup ∧
      (((s.generate []).map (·.name)).Nodup ↔
        ∀ t ∈ (s.generate []).map (·.annotationType), ∀ u ∈ (s.generate []).map (·.annotationType),
          t ≠ u → ¬t.Clashes c.generatedPackage u) := by
  have orderly := reached.isOrderly
  rw [s.map_annotationType_generate, s.map_name_generate, orderly.prepared.map_name,
    List.nodup_map_iff_inj_on orderly.distinct]
  refine ⟨orderly.distinct, fun distinct t met u met' different clashes => ?_, fun apart t met u met' same => ?_⟩
  · exact different (distinct t met u met' ((Literal.sharedName_eq_iff different _).2 clashes))
  · by_contra different
    exact apart t met u met' different ((Literal.sharedName_eq_iff different _).1 same)

/-- Annotation types without members. -/
def markers (names : List String) : List ClassOutline :=
  names.map fun name => ⟨⟨name⟩, .annotationType, none, [], [], [], []⟩

/-- A compiler that shares the literals of a corpus. -/
def sharingCompiler (corpus : Corpus) : LiteralSettings := ⟨corpus, true, Literal.defaultGeneratedPackage, fun _ => true⟩

/-- The state of a compiler after the markers of the types of its corpus. -/
def LiteralSettings.afterMarkers (c : LiteralSettings) : LiteralState :=
  c.corpus.classes.foldl (fun s d => ((c.materializeFromCorpus (.marker d.name) "app").run s).2) .initial

theorem LiteralSettings.reached_afterMarkers (c : LiteralSettings) : c.Reached c.afterMarkers :=
  List.foldlRecOn c.corpus.classes _ .fresh fun _ reached d _ => reached.compiled (.marker d.name) "app"

/-- Types whose names have parts in common. -/
def deprecations : Corpus where
  outlines := markers ["java.lang.Deprecated", "java.language.Deprecated", "app.Deprecated"]
  classes := _
  declared := rfl
  accepted := by decide +kernel

theorem shared_class_names_nodup_in_deprecations :
    (sharingCompiler deprecations).Reached (sharingCompiler deprecations).afterMarkers ∧
      (((sharingCompiler deprecations).afterMarkers.generate []).map (·.name)).Nodup := by
  have reached := (sharingCompiler deprecations).reached_afterMarkers
  exact ⟨reached, (shared_class_names_nodup_iff _ reached).2.2 (by decide +kernel)⟩

/-- Two types of `java.lang` with one simple name. -/
def natives : Corpus where
  outlines := markers ["java.lang.Native", "java.lang.annotation.Native"]
  classes := _
  declared := rfl
  accepted := by decide +kernel

/-- Two classes are generated under one name. -/
theorem shared_class_names_repeat_in_natives :
    (sharingCompiler natives).Reached (sharingCompiler natives).afterMarkers ∧
      ((sharingCompiler natives).afterMarkers.generate []).map (·.annotationType) =
        [⟨"java.lang.Native"⟩, ⟨"java.lang.annotation.Native"⟩] ∧
      ¬(((sharingCompiler natives).afterMarkers.generate []).map (·.name)).Nodup := by
  refine ⟨(sharingCompiler natives).reached_afterMarkers, ?_⟩
  decide +kernel

end AnnotationWeaver
