import AnnotationWeaver.Build.Config
import AnnotationWeaver.Proofs.Directory
import AnnotationWeaver.Proofs.Segments
import Mathlib.Data.List.Perm.Subperm

/-!
Packages. A text that starts with another one and a dot is cut into the segments of that one and further segments, so a
name is in a package exactly if the segments of the package are the first ones of the name and not all of them. A
table that has all classes below a text finds those of a package, whatever else it lists there. The packages of a
configuration are compared as texts only: unlike elsewhere, the empty one does not hold every class.
-/
namespace AnnotationWeaver

/-! ### Segments put together -/

theorem joinDots_cons {piece : List Char} {pieces : List (List Char)} (more : pieces ≠ []) :
    joinDots (piece :: pieces) = piece ++ '.' :: joinDots pieces := by
  cases pieces with
  | nil => exact absurd rfl more
  | cons first others => rfl

theorem joinDots_append {pieces more : List (List Char)} (first : pieces ≠ []) (second : more ≠ []) :
    joinDots (pieces ++ more) = joinDots pieces ++ '.' :: joinDots more := by
  induction pieces with
  | nil => exact absurd rfl first
  | cons piece rest ih =>
    by_cases alone : rest = []
    · subst alone
      exact joinDots_cons second
    · have joined : rest ++ more ≠ [] := fun nothing => alone (List.append_eq_nil_iff.1 nothing).1
      rw [List.cons_append, joinDots_cons joined, joinDots_cons alone, ih alone, List.append_assoc, List.cons_append]

/-- The pieces of a text are put together to the text. -/
theorem joinDots_splitDots (s : List Char) : joinDots (splitDots s) = s := by
  induction s with
  | nil => rfl
  | cons c rest ih =>
    rw [splitDots]
    cases pieces : splitDots rest with
    | nil => exact absurd pieces (splitDots_ne_nil rest)
    | cons first others =>
      rw [pieces] at ih
      by_cases dot : c = '.'
      · rw [if_pos dot, joinDots_cons (List.cons_ne_nil _ _), ih, dot, List.nil_append]
      · rw [if_neg dot]
        by_cases alone : others = []
        · subst alone
          exact congrArg (c :: ·) ih
        · rw [joinDots_cons alone] at ih
          rw [joinDots_cons alone, List.cons_append, ih]

/-- The pieces of one text are the first ones of another, and not all, exactly if the other goes on with a dot. -/
theorem splitDots_prefix_iff {s t : List Char} :
    splitDots s <+: splitDots t ∧ splitDots s ≠ splitDots t ↔ ∃ rest, t = s ++ '.' :: rest := by
  constructor
  · rintro ⟨⟨more, split⟩, shorter⟩
    have further : more ≠ [] := by
      rintro rfl
      exact shorter (by rw [← split, List.append_nil])
    refine ⟨joinDots more, ?_⟩
    rw [← joinDots_splitDots t, ← split, joinDots_append (splitDots_ne_nil s) further, joinDots_splitDots]
  · rintro ⟨rest, rfl⟩
    rw [splitDots_append_dot]
    exact ⟨List.prefix_append _ _, by simp [splitDots_ne_nil rest]⟩

namespace TypeName

/-- The segments of a package are the first ones of the names inside it. -/
theorem segments_prefix_iff {package name : TypeName} :
    package.segments <+: name.segments ∧ package.segments ≠ name.segments ↔
      startsWithPackage package.text name.text = true := by
  have injective : Function.Injective String.ofList := fun _ _ => String.ofList_injective
  rw [segments, segments, List.prefix_map_iff_of_injective injective, ne_eq, (List.map_injective_iff.2 injective).eq_iff,
    startsWithPackage_iff]
  exact splitDots_prefix_iff

theorem isInPackage_of_ne {package : String} (named : package ≠ "") (name : TypeName) :
    name.isInPackage package = startsWithPackage package name.text := by
  rw [isInPackage, beq_eq_false_iff_ne.2 named, Bool.false_or]

/-- The package of no name is no valid name. -/
theorem text_ne_of_isValid {name : TypeName} (valid : name.isValid = true) : name.text ≠ "" := by
  obtain ⟨text⟩ := name
  rintro rfl
  cases valid

/-- A name is in a package that is a valid name if the segments of the package are the first ones of the name, and not
    all. -/
theorem isInPackage_iff_segments {package : TypeName} (valid : package.isValid = true) (name : TypeName) :
    name.isInPackage package.text = true ↔
      package.segments <+: name.segments ∧ package.segments ≠ name.segments := by
  rw [isInPackage_of_ne (text_ne_of_isValid valid), segments_prefix_iff]

end TypeName

/-! ### Classes of a package -/

namespace Corpus

variable {c : Corpus}

/-- A table lists the classes of a package, and where it lists nothing there is none. -/
theorem exists_below (table : NameTable c) {package : String} (named : package ≠ "") {d : ClassDecl} (member : d ∈ c.sorted)
    (inside : d.name.isInPackage package = true) :
    ∃ found, table.below? (package ++ ".") = some found ∧ d ∈ found := by
  refine table.complete _ d member ?_
  rw [TypeName.isInPackage_of_ne named, startsWithPackage, List.isPrefixOf_iff_prefix] at inside
  simpa [TypeName.chars] using inside

/-- Whatever else a table lists, the classes that it has in a package are those whose names are in it. -/
theorem classesBy_eq (table : NameTable c) (package : String) :
    c.classesBy table package = c.sorted.filter (·.name.isInPackage package) := by
  unfold classesBy
  split
  · next unnamed =>
    refine (List.filter_eq_self.2 fun d _ => ?_).symm
    simp [TypeName.isInPackage, unnamed]
  · next named =>
    cases lookup : table.below? (package ++ ".") with
    | none =>
      refine (List.filter_eq_nil_iff.2 fun d member inside => ?_).symm
      obtain ⟨found, listed, -⟩ := exists_below table named member inside
      rw [lookup] at listed
      cases listed
    | some found =>
      have kept : (found.filter (·.name.isInPackage package)).Sublist (c.sorted.filter (·.name.isInPackage package)) :=
        (table.ordered _ _ lookup).filter _
      have distinct : (c.sorted.filter (·.name.isInPackage package)).Nodup := c.nodup_sorted.of_map.filter _
      have all : c.sorted.filter (·.name.isInPackage package) ⊆ found.filter (·.name.isInPackage package) := by
        intro d member
        obtain ⟨listed, inside⟩ := List.mem_filter.1 member
        obtain ⟨found', lookup', below⟩ := exists_below table named listed inside
        obtain rfl := Option.some.inj (lookup.symm.trans lookup')
        exact List.mem_filter.2 ⟨below, inside⟩
      exact kept.eq_of_length_le (List.subperm_of_subset distinct all).length_le

end Corpus

/-! ### Packages of the application -/

/-- The packages of the application are looked at as texts: the empty one holds the names that start with a dot. -/
theorem Config.isApplication_iff {config : Config} {name : TypeName} :
    config.isApplication name = true ↔ config.applicationPackages = [] ∨
      ∃ package ∈ config.applicationPackages,
        name.isInPackage package = true ∧ (package = "" → name.chars.head? = some '.') := by
  rw [isApplication, Bool.or_eq_true, List.isEmpty_iff, List.any_eq_true]
  refine or_congr_right (exists_congr fun package => and_congr_right fun _ => ?_)
  by_cases unnamed : package = ""
  · subst unnamed
    rw [startsWithPackage_iff, List.head?_eq_some_iff]
    simp [TypeName.isInPackage, TypeName.chars]
  · rw [TypeName.isInPackage_of_ne unnamed]
    exact (and_iff_left fun empty => absurd empty unnamed).symm

/-- The tests of packages agree, but for the empty package in a configuration. A table has in a package the classes whose
    names are in it, each once and by name; a name is in a package that is a valid name exactly if the segments of the
    package are a proper prefix of those of the name; and a class belongs to the application exactly if no package is
    given or its name is in one of them, where the empty one counts only for names that start with a dot. -/
theorem package_tests_agree_for_named_packages (c : Corpus) (table : NameTable c) (config : Config) :
    (∀ package, c.classesBy table package = c.sorted.filter (·.name.isInPackage package) ∧
      ((c.classesBy table package).map (·.name)).Nodup) ∧
      (∀ package name : TypeName, package.isValid = true →
        (name.isInPackage package.text = true ↔
          package.segments <+: name.segments ∧ package.segments ≠ name.segments)) ∧
      ∀ name, config.isApplication name = true ↔ config.applicationPackages = [] ∨
        ∃ package ∈ config.applicationPackages,
          name.isInPackage package = true ∧ (package = "" → name.chars.head? = some '.') := by
  refine ⟨fun package => ⟨Corpus.classesBy_eq table package, ?_⟩,
    fun package name valid => TypeName.isInPackage_iff_segments valid name, fun name => Config.isApplication_iff⟩
  rw [Corpus.classesBy_eq]
  exact (List.filter_sublist.map _).nodup c.nodup_sorted

/-- A class, a class of a package that is called like the first one, and a class whose name only starts alike. -/
def neighbours : Corpus where
  outlines := [
    ⟨⟨"org.App"⟩, .regular, none, [], [], [], []⟩,
    ⟨⟨"org.App.Part"⟩, .regular, none, [], [], [], []⟩,
    ⟨⟨"org.Apple"⟩, .regular, none, [], [], [], []⟩]
  classes := _
  declared := rfl
  accepted := by decide +kernel

theorem package_tests_agree_among_neighbours :
    (⟨"org.App"⟩ : TypeName).isValid = true ∧
      (neighbours.classesIn "org.App").map (·.name) = [⟨"org.App.Part"⟩] ∧
      (⟨"org.App"⟩ : TypeName).segments <+: (⟨"org.App.Part"⟩ : TypeName).segments ∧
      ¬(⟨"org.App"⟩ : TypeName).segments <+: (⟨"org.Apple"⟩ : TypeName).segments := by
  have valid : (⟨"org.App"⟩ : TypeName).isValid = true := by decide +kernel
  obtain ⟨found, inside, -⟩ := package_tests_agree_for_named_packages neighbours neighbours.nameTable .default
  refine ⟨valid, ?_, ((inside ⟨"org.App"⟩ ⟨"org.App.Part"⟩ valid).1 (by decide +kernel)).1, by decide +kernel⟩
  have sorted : neighbours.sorted = neighbours.classes := List.mergeSort_of_pairwise (by decide +kernel)
  rw [Corpus.classesIn, (found "org.App").1, sorted]
  decide +kernel

/-- The empty package holds every class, but as the package of an application it holds none that has a valid name. -/
theorem application_leaves_out_default_package :
    (⟨"app.Service"⟩ : TypeName).isValid = true ∧ (⟨"app.Service"⟩ : TypeName).isInPackage "" = true ∧
      ({ Config.default with applicationPackages := [""] }).isApplication ⟨"app.Service"⟩ = false := by
  decide +kernel

end AnnotationWeaver
