import AnnotationWeaver.Proofs.SharedNames
import AnnotationWeaver.Proofs.StaticReads

/-!
Names of the fields of literal classes. The static field for the default of a member is named after the member, so two of
them are named alike only if two members are. A shared class also has a field for each member, in the same namespace:
there the names clash if a member is called what the static field of a member is called, and not otherwise. A one-off
class has static fields only.
-/
namespace AnnotationWeaver

/-- A member is called what the static field for the default of a member is called. -/
def ClassDecl.FieldsClash (d : ClassDecl) : Prop :=
  ∃ m ∈ d.regularMethods, ∃ n ∈ d.regularMethods, (Literal.staticDefault? n).isSome ∧ m.name = Literal.defaultField n.name

instance (d : ClassDecl) : Decidable d.FieldsClash := by
  unfold ClassDecl.FieldsClash
  infer_instance

namespace Literal

variable (l : Literal)

/-- The members whose defaults are kept in static fields. -/
theorem map_fst_statics : l.statics.map Prod.fst = l.members.filter fun m => (staticDefault? m).isSome := by
  rw [statics, List.map_filterMap, ← List.filterMap_eq_filter]
  refine List.filterMap_congr fun m _ => ?_
  cases made : staticDefault? m <;> simp [Option.guard, made]

theorem map_name_staticFields :
    l.staticFields.map (·.name) =
      (l.members.filter fun m => (staticDefault? m).isSome).map fun m => defaultField m.name := by
  rw [← map_fst_statics, staticFields, List.map_map, List.map_map]
  rfl

/-- Static fields are named apart if the members are. -/
theorem nodup_names_staticFields (distinct : (l.members.map (·.name)).Nodup) : (l.staticFields.map (·.name)).Nodup := by
  have kept : ((l.members.filter fun m => (staticDefault? m).isSome).map (·.name)).Nodup :=
    distinct.sublist (List.filter_sublist.map _)
  have named := kept.map fun _ _ same => defaultField_inj.1 same
  rw [List.map_map] at named
  rw [map_name_staticFields]
  exact named

/-- So are all fields of the shared class, unless a member is called like a static field. -/
theorem nodup_names_sharedClass_iff (distinct : (l.members.map (·.name)).Nodup) :
    (l.sharedClass.fields.map (·.name)).Nodup ↔ ¬l.declaration.FieldsClash := by
  have names : l.sharedClass.fields.map (·.name) = l.members.map (·.name) ++ l.staticFields.map (·.name) := by
    rw [sharedClass, List.map_append, List.map_map]
    rfl
  rw [names, List.nodup_append]
  constructor
  · rintro ⟨-, -, apart⟩ ⟨m, member, n, member', kept, same⟩
    refine apart _ (List.mem_map_of_mem member) _ ?_ same
    rw [map_name_staticFields]
    exact List.mem_map_of_mem (List.mem_filter.2 ⟨member', kept⟩)
  · intro apart
    refine ⟨distinct, l.nodup_names_staticFields distinct, ?_⟩
    rintro _ member _ field rfl
    rw [map_name_staticFields] at field
    obtain ⟨n, kept, named⟩ := List.mem_map.1 field
    obtain ⟨m, listed, called⟩ := List.mem_map.1 member
    obtain ⟨member', made⟩ := List.mem_filter.1 kept
    exact apart ⟨m, listed, n, member', made, called.trans named.symm⟩

end Literal

namespace LiteralSettings

variable {c : LiteralSettings} {s : LiteralState}

/-- A class is the shared one of an annotation type, or one with nothing but its static fields. -/
theorem IsSound.fields_of_class (sound : c.IsSound s) {k : LiteralClass} (listed : k ∈ c.classes s) :
    ∃ l : Literal, k.annotationType = l.type ∧ c.corpus.class? l.type = some l.declaration ∧
      k.fields = if c.shared then l.sharedClass.fields else l.staticFields := by
  rw [classes] at listed
  split at listed
  · next sharing =>
    obtain ⟨l, prepared, rfl⟩ := mem_generate.1 listed
    exact ⟨l, rfl, (sound.prepared l prepared).2, (if_pos sharing).symm⟩
  · next alone =>
    obtain ⟨-, l, values, rfl, declared, -⟩ := sound.written k listed
    exact ⟨l, rfl, declared, (if_neg alone).symm⟩

/-- After a compilation that succeeds, the class is there of which an instance was built. -/
theorem exists_class_of_compiled (orderly : c.IsOrderly s) {s' : LiteralState} {a : Annotation} {targetPackage : String}
    {x : Construction} (compiled : (c.materializeFromCorpus a targetPackage).run s = (.ok x, s')) :
    ∃ d, c.corpus.class? a.type = some d ∧
      ∃ k ∈ c.classes s', k.annotationType = a.type ∧ x.instantiated?.map Prod.fst = some k.name := by
  obtain ⟨trace, leads, related⟩ := yields_materializeFromCorpus a targetPackage s orderly
  rw [compiled] at leads related
  obtain ⟨depth, compiles⟩ := related x rfl
  cases depth with
  | zero => exact compiles.elim
  | succ depth =>
    cases compiles with
    | @intro d values inside declared members =>
      let e : Compiled := ⟨a, targetPackage, d, values⟩
      have last : e ∈ inside ++ [e] := List.mem_append_right _ List.mem_cons_self
      have type : (e.literal c).type = a.type := by
        rw [← (Corpus.class?_eq_some_iff.1 declared).2, Compiled.literal, literalFor]
        split <;> rfl
      refine ⟨d, declared, ?_⟩
      cases sharing : c.shared with
      | true =>
        refine ⟨(e.literal c).sharedClass, ?_, type, ?_⟩
        · rw [classes, if_pos sharing]
          exact mem_generate.2 ⟨_, leads.prepared sharing e last, rfl⟩
        · rw [Compiled.construction, if_pos sharing]
          rfl
      | false =>
        have alone : ¬c.shared = true := Bool.eq_false_iff.1 sharing
        refine ⟨e.oneOffClass c, ?_, type, ?_⟩
        · rw [classes, if_neg alone, leads.written, if_neg alone]
          exact List.mem_append_right _ (List.mem_map_of_mem last)
        · rw [Compiled.construction, if_neg alone]
          rfl

end LiteralSettings

/-- After a compilation that succeeds, the class of which an instance was built is there; and if no two members of the
    annotation type are named alike, the fields of each class for this type are named apart exactly if literals are
    not shared or no member is called like the static field of a member. -/
theorem literal_field_names_nodup_iff (c : LiteralSettings) {s s' : LiteralState} (reached : c.Reached s) {a : Annotation}
    {targetPackage : String} {x : Construction}
    (compiled : (c.materializeFromCorpus a targetPackage).run s = (.ok x, s')) :
    ∃ d, c.corpus.class? a.type = some d ∧
      (∃ k ∈ c.classes s', k.annotationType = a.type ∧ x.instantiated?.map Prod.fst = some k.name) ∧
      ((d.regularMethods.map (·.name)).Nodup → ∀ k ∈ c.classes s', k.annotationType = a.type →
        ((k.fields.map (·.name)).Nodup ↔ (c.shared = true → ¬d.FieldsClash))) := by
  obtain ⟨d, declared, existing⟩ := LiteralSettings.exists_class_of_compiled reached.isOrderly compiled
  have sound : c.IsSound s' := by
    have after := (reached.compiled a targetPackage).isSound
    rwa [compiled] at after
  refine ⟨d, declared, existing, fun distinct k listed type => ?_⟩
  obtain ⟨l, own, indexed, fields⟩ := sound.fields_of_class listed
  obtain rfl : l.declaration = d := by
    rw [← own, type, declared] at indexed
    exact (Option.some.inj indexed).symm
  rw [fields]
  split
  · next sharing => simpa [sharing] using l.nodup_names_sharedClass_iff distinct
  · next alone => exact iff_of_true (l.nodup_names_staticFields distinct) fun sharing => absurd sharing alone

theorem literal_field_names_nodup_in_handlers :
    handlersCompiler.Reached .initial ∧
      (handlersCompiler.materializeFromCorpus (.marker ⟨"app.Handler"⟩) "app").run .initial = (.ok handler, handled) ∧
      ∃ k ∈ handlersCompiler.classes handled, k.annotationType = ⟨"app.Handler"⟩ ∧ (k.fields.map (·.name)).Nodup := by
  have compiled : (handlersCompiler.materializeFromCorpus (.marker ⟨"app.Handler"⟩) "app").run .initial =
    (.ok handler, handled) := rfl
  obtain ⟨d, declared, ⟨k, listed, type, -⟩, nodup⟩ := literal_field_names_nodup_iff handlersCompiler .fresh compiled
  obtain rfl := List.mem_singleton.1 (Corpus.class?_eq_some_iff.1 declared).1
  exact ⟨.fresh, compiled, k, listed, type, (nodup (by decide) k listed type).2 fun _ => by decide⟩

/-- An annotation type with a member that is called like the static field of another. -/
def relays : Corpus where
  outlines := [⟨⟨"app.Relay"⟩, .annotationType, none, [], [],
    [⟨"event", [], .named classType, [], some (.classLiteral (.named ⟨"app.Event"⟩)), false⟩,
      ⟨"event_default_value", [], .named classType, [], none, false⟩], []⟩]
  classes := _
  declared := rfl
  accepted := by decide +kernel

/-- A relay for a class of events. -/
def relay : Annotation := .set (.marker ⟨"app.Relay"⟩) "event_default_value" (.classLiteral (.named ⟨"app.Other"⟩))

/-- The relay is compiled, but its class has two fields of one name and type. -/
theorem literal_field_names_repeat_in_relays :
    (sharingCompiler relays).Reached .initial ∧ (∀ d ∈ relays.classes, (d.regularMethods.map (·.name)).Nodup) ∧
      (((sharingCompiler relays).materializeFromCorpus relay "app").run .initial).1.isOk = true ∧
      ∃ k ∈ (sharingCompiler relays).classes
          (((sharingCompiler relays).materializeFromCorpus relay "app").run .initial).2,
        k.annotationType = relay.type ∧
          k.fields = [⟨"event", .named classType, false⟩, ⟨"event_default_value", .named classType, false⟩,
            ⟨"event_default_value", .named classType, true⟩] ∧
          ¬(k.fields.map (·.name)).Nodup := by
  refine ⟨.fresh, by decide, rfl, ?_⟩
  decide +kernel

end AnnotationWeaver
