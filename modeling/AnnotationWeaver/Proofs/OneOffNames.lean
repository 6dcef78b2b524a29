import AnnotationWeaver.Proofs.BuildOutput
import AnnotationWeaver.Proofs.CanonicalText
import AnnotationWeaver.Proofs.Lists
import AnnotationWeaver.Proofs.Segments

/-!
Names of one-off classes. A name holds the package that the class is put into, the simple name of the annotation type
and the digest of the canonical text, and none of these can run into another: the digest has a fixed length, and
what follows the package has no dot. A build without sharing writes one class for each time that an annotation is
compiled, so it writes a name again if the same annotation is compiled again for the same package, which
happens to annotations that stand inside others; nothing else makes it write a name twice.
-/
namespace AnnotationWeaver

/-! ### Parts of names -/

/-- A byte is written with two digits. -/
theorem hex_byte (b : UInt8) :
    (Text.padZeros 2 (Text.hex b.toNat)).length = 2 ∧ '.' ∉ Text.padZeros 2 (Text.hex b.toNat) := by
  have all : ∀ n : Fin 256, (Text.padZeros 2 (Text.hex n)).length = 2 ∧ '.' ∉ Text.padZeros 2 (Text.hex n) := by
    decide +kernel
  exact all ⟨b.toNat, b.toNat_lt⟩

theorem Hash.Blake3.length_hash (bytes : List UInt8) : (hash bytes).length = 32 := by
  have words (ws : List UInt32) : (ws.flatMap wordBytes).length = 4 * ws.length := by
    induction ws with
    | nil => rfl
    | cons w rest ih =>
      rw [List.flatMap_cons, List.length_append, ih, List.length_cons]
      exact Nat.add_comm 4 (4 * rest.length)
  have chain (n : Node) : n.compress.toList.length = 8 := by simp [Node.compress]
  rw [hash, words, chain]

theorem length_digest (text : String) : (digest text).toList.length = 64 := by
  have digits (bytes : List UInt8) :
      (bytes.flatMap fun b => Text.padZeros 2 (Text.hex b.toNat)).length = 2 * bytes.length := by
    induction bytes with
    | nil => rfl
    | cons b rest ih =>
      rw [List.flatMap_cons, List.length_append, (hex_byte b).1, ih, List.length_cons]
      omega
  rw [digest, String.toList_ofList, digits, Hash.Blake3.length_hash]

theorem dot_notMem_digest (text : String) : '.' ∉ (digest text).toList := by
  rw [digest, String.toList_ofList, List.mem_flatMap]
  rintro ⟨b, -, inside⟩
  exact (hex_byte b).2 inside

namespace Literal

/-- The package that a class is put into which is asked for in another. -/
def homePackage (targetPackage generatedPackage : String) : String :=
  if isProtected targetPackage then generatedPackage else targetPackage

/-- What a one-off name has after the package. -/
def simpleOneOffName (a : Annotation) : String := a.type.simple ++ annotationDigest a ++ nameEnd

theorem oneOffName_eq (a : Annotation) (targetPackage generatedPackage : String) :
    oneOffName a targetPackage generatedPackage =
      if homePackage targetPackage generatedPackage = "" then ⟨simpleOneOffName a⟩
      else ⟨homePackage targetPackage generatedPackage ++ "." ++ simpleOneOffName a⟩ := rfl

theorem dot_notMem_simpleOneOffName (a : Annotation) : '.' ∉ (simpleOneOffName a).toList := by
  have ending : '.' ∉ nameEnd.toList := by decide
  simp only [simpleOneOffName, String.toList_append, List.mem_append]
  rintro ((type | digest) | last)
  · exact a.type.dot_notMem_simple type
  · exact dot_notMem_digest _ digest
  · exact ending last

theorem simpleOneOffName_inj {a b : Annotation} (same : simpleOneOffName a = simpleOneOffName b) :
    a.type.simple = b.type.simple ∧ annotationDigest a = annotationDigest b := by
  have parts : a.type.simple.toList ++ (annotationDigest a).toList = b.type.simple.toList ++ (annotationDigest b).toList := by
    rw [← String.toList_append, ← String.toList_append, (String.append_left_inj _).1 same]
  have lengths : (annotationDigest a).toList.length = (annotationDigest b).toList.length :=
    (length_digest _).trans (length_digest _).symm
  obtain ⟨type, digest⟩ := List.append_inj' parts lengths
  exact ⟨String.toList_inj.1 type, String.toList_inj.1 digest⟩

theorem oneOffName_inj {a b : Annotation} {target target' generated : String}
    (same : oneOffName a target generated = oneOffName b target' generated) :
    homePackage target generated = homePackage target' generated ∧ a.type.simple = b.type.simple ∧
      annotationDigest a = annotationDigest b := by
  rw [oneOffName_eq, oneOffName_eq] at same
  generalize homePackage target generated = home at same ⊢
  generalize homePackage target' generated = home' at same ⊢
  have chars (package : String) (x : Annotation) :
      (package ++ "." ++ simpleOneOffName x).toList = package.toList ++ '.' :: (simpleOneOffName x).toList := by simp
  -- A package in front leaves a dot, which no simple name has.
  have dotted (package : String) (x y : Annotation) : package ++ "." ++ simpleOneOffName x ≠ simpleOneOffName y := by
    intro equal
    have dot : '.' ∈ (simpleOneOffName y).toList := by rw [← equal, chars]; simp
    exact dot_notMem_simpleOneOffName y dot
  by_cases none : home = ""
  · by_cases none' : home' = ""
    · rw [if_pos none, if_pos none', TypeName.mk.injEq] at same
      exact ⟨none.trans none'.symm, simpleOneOffName_inj same⟩
    · rw [if_pos none, if_neg none', TypeName.mk.injEq] at same
      exact absurd same.symm (dotted home' b a)
  · by_cases none' : home' = ""
    · rw [if_neg none, if_pos none', TypeName.mk.injEq] at same
      exact absurd same (dotted home a b)
    · rw [if_neg none, if_neg none', TypeName.mk.injEq, ← String.toList_inj, chars, chars] at same
      obtain ⟨package, simple⟩ :=
        last_separator_inj (dot_notMem_simpleOneOffName a) (dot_notMem_simpleOneOffName b) same
      exact ⟨String.toList_inj.1 package, simpleOneOffName_inj (String.toList_inj.1 simple)⟩

end Literal

theorem Text.dot_notMem_base32 (width n : Nat) : '.' ∉ base32 width n := by
  have digit : ∀ i : Fin 32, base32Alphabet.getD i '0' ≠ '.' := by decide
  induction width generalizing n with
  | zero => exact List.not_mem_nil
  | succ width ih =>
    rw [base32, List.mem_append, List.mem_singleton]
    rintro (early | same)
    · exact ih (n / 32) early
    · exact digit ⟨n % 32, Nat.mod_lt _ (by decide)⟩ same.symm

theorem Literal.exists_stem_oneOffName (a : Annotation) (target generated : String) :
    ∃ stem, (oneOffName a target generated).text = stem ++ nameEnd := by
  rw [oneOffName_eq]
  split
  · exact ⟨_, rfl⟩
  · exact ⟨_, (String.append_assoc ..).symm⟩

/-- The class of the components is called like no class of an annotation: its name ends with a digit. -/
theorem componentsName_ne_of_nameEnd (package : String) (n : Nat) (stem : String) :
    (componentsName package (.ofNumber n)).text ≠ stem ++ Literal.nameEnd := by
  have digit : ∀ i : Fin 32, Text.base32Alphabet.getD i '0' ≠ 'l' := by decide
  intro same
  have last := congrArg (fun s : String => s.toList.getLast?) same
  simp [componentsName, BuildId.ofNumber, Text.base32, Literal.nameEnd] at last
  exact digit ⟨n % 32, Nat.mod_lt _ (by decide)⟩ last

/-! ### Names of a trace -/

namespace Compiled

variable {c : LiteralSettings} {trace : List Compiled}

/-- The same annotation, compiled for the same place. -/
def Repeats (c : LiteralSettings) (e f : Compiled) : Prop :=
  e.annotation.type.simple = f.annotation.type.simple ∧
    Literal.canonicalText e.annotation = Literal.canonicalText f.annotation ∧
    Literal.homePackage e.package c.generatedPackage = Literal.homePackage f.package c.generatedPackage

instance (c : LiteralSettings) (e f : Compiled) : Decidable (e.Repeats c f) :=
  inferInstanceAs (Decidable (_ ∧ _ ∧ _))

/-- The digests of different texts are different. -/
def ToldApart (trace : List Compiled) : Prop :=
  ∀ e ∈ trace, ∀ f ∈ trace, Literal.annotationDigest e.annotation = Literal.annotationDigest f.annotation →
    Literal.canonicalText e.annotation = Literal.canonicalText f.annotation

instance (trace : List Compiled) : Decidable (ToldApart trace) :=
  inferInstanceAs (Decidable (∀ e ∈ trace, ∀ f ∈ trace, _ → _))

theorem name_oneOffClass (alone : c.shared = false) (e : Compiled) :
    (e.oneOffClass c).name = Literal.oneOffName e.annotation e.package c.generatedPackage := by
  simp [oneOffClass, Literal.oneOffClass, literal, LiteralSettings.literalFor, alone]

/-- One name stands for one annotation and place. -/
theorem repeats_of_name_eq (alone : c.shared = false) (apart : ToldApart trace) {e f : Compiled} (first : e ∈ trace)
    (second : f ∈ trace) (same : (e.oneOffClass c).name = (f.oneOffClass c).name) : e.Repeats c f := by
  rw [name_oneOffClass alone, name_oneOffClass alone] at same
  obtain ⟨home, simple, digest⟩ := Literal.oneOffName_inj same
  exact ⟨simple, apart e first f second digest, home⟩

theorem name_eq_of_repeats (alone : c.shared = false) {e f : Compiled} (repeats : e.Repeats c f) :
    (e.oneOffClass c).name = (f.oneOffClass c).name := by
  obtain ⟨simple, texts, home⟩ := repeats
  have names : Literal.simpleOneOffName e.annotation = Literal.simpleOneOffName f.annotation := by
    simp only [Literal.simpleOneOffName, Literal.annotationDigest, simple, texts]
  rw [name_oneOffClass alone, name_oneOffClass alone, Literal.oneOffName_eq, Literal.oneOffName_eq, home, names]

theorem nodup_names (alone : c.shared = false) (apart : ToldApart trace)
    (once : trace.Pairwise fun e f => ¬e.Repeats c f) : (trace.map fun e => (e.oneOffClass c).name).Nodup := by
  rw [List.Nodup, List.pairwise_map]
  exact once.imp_of_mem fun first second fresh same => fresh (repeats_of_name_eq alone apart first second same)

end Compiled

/-- A build without sharing writes one class for each time that an annotation is compiled, as the qualifiers that were asked
    for lead to it, and then the components. It writes no name twice, unless an annotation is compiled again for
    the same place. -/
theorem written_names_nodup_of_no_repeats (p : Pipeline) (alone : p.config.sharedLiterals = false) (n : Nat) (sink : Sink)
    (resolutions : Nat) {o : Outcome} (succeeds : (p.run (.ofNumber n) sink resolutions).result = .ok o) :
    ∃ built trace components,
      Each (fun r => p.literalSettings.Compiles r.qualifier r.package)
          (QualifierRequest.firsts (p.literalSettings.requests (p.run (.ofNumber n) sink resolutions).build)) built trace ∧
        o.written = trace.map (fun e => (e.oneOffClass p.literalSettings).name) ++
          ComponentsClass.writtenNames components ∧
        (Compiled.ToldApart trace → trace.Pairwise (fun e f => ¬e.Repeats p.literalSettings f) → o.written.Nodup) := by
  obtain ⟨components, s, delivers⟩ := Pipeline.run_ok succeeds
  obtain ⟨⟨trace, served⟩, named, -⟩ := delivers.served
  have alone' : p.literalSettings.shared = false := alone
  have classes : p.literalClasses s.literals = trace.map (·.oneOffClass p.literalSettings) := by
    have prepared : s.literals.literals = [] := served.leads.untouched alone'
    have written := served.leads.written
    rw [alone', if_neg Bool.false_ne_true] at written
    rw [Pipeline.literalClasses, written, LiteralState.generate, prepared]
    simp [LiteralState.initial]
  have names : o.written =
      trace.map (fun e => (e.oneOffClass p.literalSettings).name) ++ components.writtenNames := by
    rw [delivers.written_eq, classes, List.map_map]
    rfl
  refine ⟨s.built, trace, components, served.requests ▸ served.built, names, fun apart once => ?_⟩
  rw [names, List.nodup_append]
  refine ⟨Compiled.nodup_names alone' apart once, ?_, ?_⟩
  · unfold ComponentsClass.writtenNames
    split <;> simp
  · rintro name listed other last rfl
    obtain ⟨e, -, rfl⟩ := List.mem_map.1 listed
    have component : (e.oneOffClass p.literalSettings).name = components.name := by
      unfold ComponentsClass.writtenNames at last
      split at last
      · exact absurd last List.not_mem_nil
      · exact List.mem_singleton.1 last
    obtain ⟨stem, ends⟩ := Literal.exists_stem_oneOffName e.annotation e.package p.literalSettings.generatedPackage
    rw [Compiled.name_oneOffClass alone', named] at component
    exact componentsName_ne_of_nameEnd _ n stem (component ▸ ends)

/-! ### A unit, measured once and twice -/

theorem Annotation.eq_marker_of_same {type : TypeName} {a : Annotation} (same : a.same (.marker type) = true) :
    a = .marker type := by
  obtain ⟨types, members⟩ := Annotation.same_iff.1 same
  obtain ⟨paired, perm, pairs⟩ := Member.exists_pairing members
  obtain rfl := List.perm_nil.1 perm
  cases a with
  | mk t ms =>
    cases pairs
    cases types
    rfl

theorem eq_measured_of_same {type : String} {a : Annotation} (same : (a == measured type) = true) :
    a = measured type := by
  obtain ⟨types, members⟩ := Annotation.same_iff.1 same
  obtain ⟨paired, perm, pairs⟩ := Member.exists_pairing members
  obtain rfl := List.perm_singleton.1 perm
  cases a with
  | mk t ms =>
    cases pairs with
    | @cons m _ _ _ pair others =>
      cases others
      cases m with
      | mk name value =>
        obtain ⟨rfl, equal⟩ := pair
        cases value with
        | nested unit =>
          obtain rfl := Annotation.eq_marker_of_same equal
          cases types
          rfl
        | _ => cases equal

namespace Compiled

def unit : Compiled := ⟨.marker ⟨"app.Unit"⟩, "app", (measureType "app.Unit" []).declare, []⟩

def size (c : LiteralSettings) : Compiled :=
  ⟨measured "app.Size", "app", (measureType "app.Size" [unitMember]).declare, [unit.construction c]⟩

variable {c : LiteralSettings} (corpus : c.corpus = measures)
include corpus

theorem compiles_unit : c.CompilesWithin 1 unit.annotation "app" (unit.construction c) [unit] := by
  have declared : c.corpus.class? unit.annotation.type = some unit.declaration := by rw [corpus]; rfl
  have members : Each (MethodDecl.LoadsFrom (fun a => c.CompilesWithin 0 a a.type.package)
      (c.literalFor unit.declaration unit.annotation "app").name unit.annotation) unit.declaration.regularMethods [] [] :=
    .nil
  exact .intro declared members

theorem compiles_size : c.Compiles (measured "app.Size") "app" ((size c).construction c) [unit, size c] := by
  have declared : c.corpus.class? (measured "app.Size").type = some (size c).declaration := by rw [corpus]; rfl
  have fits : (Value.nested unit.annotation).fits (.named ⟨"app.Unit"⟩) = true := by decide +kernel
  have members : Each (MethodDecl.LoadsFrom (fun a => c.CompilesWithin 1 a a.type.package)
      (c.literalFor (size c).declaration (measured "app.Size") "app").name (measured "app.Size"))
      (size c).declaration.regularMethods [unit.construction c] ([unit] ++ []) :=
    .cons ⟨_, rfl, .single rfl rfl (.nested fits (compiles_unit corpus))⟩ .nil
  exact ⟨2, .intro declared members⟩

end Compiled

theorem written_names_nodup_of_size :
    let p := measuring false ["app.Size"]
    p.config.sharedLiterals = false ∧ ∃ o, (p.run (.ofNumber 1) .accepting 0).result = .ok o ∧ o.written.Nodup := by
  intro p
  have succeeds : (p.run (.ofNumber 1) .accepting 0).result.isOk = true := by decide +kernel
  have asked : (QualifierRequest.firsts (p.literalSettings.requests (p.run (.ofNumber 1) .accepting 0).build)).map
      (fun r => (r.qualifier == measured "app.Size", r.package)) = [(true, "app")] := by decide +kernel
  cases ends : (p.run (.ofNumber 1) .accepting 0).result with
  | error e =>
    rw [ends] at succeeds
    cases succeeds
  | ok o =>
    obtain ⟨built, trace, components, each, -, distinct⟩ := written_names_nodup_of_no_repeats p rfl 1 .accepting 0 ends
    obtain ⟨⟨qualifier, package⟩, requests, request⟩ := List.map_eq_singleton_iff.1 asked
    obtain ⟨same, rfl⟩ := Prod.mk.inj request
    obtain rfl := eq_measured_of_same same
    have size := Compiled.compiles_size (c := p.literalSettings) rfl
    rw [requests] at each
    obtain ⟨-, rfl⟩ := each.unique (.cons size .nil) fun _ _ _ _ _ _ first second => first.unique second
    exact ⟨rfl, o, rfl, distinct (by decide +kernel) (by decide +kernel)⟩

/-- The unit is compiled for the size and again for the weight. -/
theorem written_names_repeat_of_size_and_weight :
    let p := measuring false ["app.Size", "app.Weight"]
    p.config.sharedLiterals = false ∧
      ∃ o, (p.run (.ofNumber 1) .accepting 0).result = .ok o ∧ ¬o.written.Nodup := by
  intro p
  have written : (p.run (.ofNumber 1) .accepting 0).result.toOption.any (fun o => decide ¬o.written.Nodup) = true := by
    decide +kernel
  cases ends : (p.run (.ofNumber 1) .accepting 0).result with
  | error e =>
    rw [ends] at written
    cases written
  | ok o =>
    rw [ends] at written
    exact ⟨rfl, o, rfl, of_decide_eq_true written⟩

end AnnotationWeaver
