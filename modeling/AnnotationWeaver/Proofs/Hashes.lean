import AnnotationWeaver.Annotation.Hashing
import AnnotationWeaver.Proofs.Arrangement
import AnnotationWeaver.Proofs.QualifierRuns
import AnnotationWeaver.Proofs.Termination
import Mathlib.Data.List.Find

/-!
Annotations as keys. A hasher takes in of an arranged value what it takes in of the value itself, so values that are the
same are hashed alike, however they nest and in whatever order their members stand. Hence a table that looks for
keys only where the hashes are equal finds what one that compares every key finds, whatever the hash is; and what was
compiled of qualifiers is held once for each annotation and package.
-/
namespace AnnotationWeaver

/-! ### What is hashed -/

theorem Value.allHashItems_eq_flatMap (vs : List Value) : Value.allHashItems vs = vs.flatMap Value.hashItems := by
  induction vs with
  | nil => rfl
  | cons v rest ih => rw [Value.allHashItems, ih, List.flatMap_cons]

namespace Member

theorem hashEntries_eq_map (ms : List Member) : hashEntries ms = ms.map hashEntry := by
  induction ms with
  | nil => rfl
  | cons m rest ih => rw [hashEntries, ih, List.map_cons]

theorem hashEntry_eq (m : Member) : m.hashEntry = (m.name, m.value.hashItems) := by
  cases m
  rfl

end Member

/-- Members that are sorted before are hashed as they are. -/
theorem membersByName_sortedMembers (a : Annotation) :
    membersByName (Member.hashEntries (Literal.sortedMembers a)) = membersByName (Member.hashEntries a.members) := by
  have transitive (x y z : String × List HashItem) (before : decide (x.1 ≤ y.1) = true)
      (after : decide (y.1 ≤ z.1) = true) : decide (x.1 ≤ z.1) = true :=
    decide_eq_true (String.le_trans (of_decide_eq_true before) (of_decide_eq_true after))
  have total (x y : String × List HashItem) : (decide (x.1 ≤ y.1) || decide (y.1 ≤ x.1)) = true := by
    simpa using String.le_total x.1 y.1
  have entries : Member.hashEntries (Literal.sortedMembers a) =
      (Member.hashEntries a.members).mergeSort fun x y => decide (x.1 ≤ y.1) := by
    rw [Member.hashEntries_eq_map, Member.hashEntries_eq_map, Literal.sortedMembers]
    refine List.map_mergeSort fun m _ n _ => ?_
    rw [Member.hashEntry_eq, Member.hashEntry_eq]
  rw [membersByName, membersByName, entries, List.mergeSort_of_pairwise (List.pairwise_mergeSort transitive total _)]

theorem Value.passesOutward_hashItems_arranged : PassesOutward fun v => v.arranged.hashItems = v.hashItems where
  plain := fun v alone whole => by rw [arranged_of_plain alone whole]
  nested := by
    intro a inside
    have entries : Member.hashEntries (a.members.map Member.arranged) = Member.hashEntries a.members := by
      rw [Member.hashEntries_eq_map, Member.hashEntries_eq_map, List.map_map]
      refine List.map_congr_left fun m member => ?_
      rw [Function.comp_apply, Member.hashEntry_eq, Member.hashEntry_eq, Member.arranged_name, Member.arranged_value,
        inside m member]
    have lengths : (Literal.sortedMembers ⟨a.type, a.members.map Member.arranged⟩).length = a.members.length := by
      rw [(Literal.sortedMembers_perm _).length_eq, List.length_map]
    rw [arranged, hashItems, hashItems, Annotation.arranged_eq, Annotation.hashItems, lengths, membersByName_sortedMembers,
      entries]
    cases a
    rfl
  array := by
    intro kind elements inside
    have contents : allHashItems (allArranged elements) = allHashItems elements := by
      rw [allHashItems_eq_flatMap, allHashItems_eq_flatMap, allArranged_eq_map, List.flatMap_map]
      exact List.flatMap_congr inside
    rw [arranged, hashItems, hashItems, contents, allArranged_eq_map, List.length_map]

theorem Value.hashItems_arranged (v : Value) : v.arranged.hashItems = v.hashItems :=
  passesOutward_hashItems_arranged.value v

/-- Values that are the same are hashed alike. -/
theorem Value.hashItems_eq_of_same {v w : Value} (once : v.SetsOnce) (same : v.same w = true) : v.hashItems = w.hashItems := by
  rw [← v.hashItems_arranged, (same_iff_arranged_eq once w).1 same, w.hashItems_arranged]

theorem Annotation.hashItems_eq_of_same {a b : Annotation} (once : (Value.nested a).SetsOnce) (same : (a == b) = true) :
    a.hashItems = b.hashItems := by
  have nested := Value.hashItems_eq_of_same once (w := .nested b) (by rwa [Value.same])
  rw [Value.hashItems, Value.hashItems] at nested
  exact (List.cons.inj nested).2

/-! ### Equality -/

theorem Value.equivBEq : EquivBEq Value where
  rfl := Value.same_refl _
  symm := (Value.same_comm _ _).1
  trans := Value.same_trans

/-- Annotations are compared as values that hold them. -/
theorem Annotation.beq_eq_same_nested (a b : Annotation) : (a == b) = (Value.nested a).same (.nested b) := by
  rw [Value.same]
  rfl

theorem Annotation.equivBEq : EquivBEq Annotation where
  rfl := Annotation.beq_refl _
  symm := by
    intro a b same
    rw [beq_eq_same_nested] at same ⊢
    exact (Value.same_comm _ _).1 same
  trans := by
    intro a b c first second
    rw [beq_eq_same_nested] at first second ⊢
    exact Value.same_trans first second

/-! ### What was compiled of qualifiers -/

namespace QualifierRequest

/-- What a hasher takes in of a qualifier and the package that it is compiled for. -/
def hashItems (r : QualifierRequest) : List HashItem := r.qualifier.hashItems ++ [.text r.package]

theorem repeats_iff {r earlier : QualifierRequest} :
    r.repeats earlier = true ↔ (earlier.qualifier == r.qualifier) = true ∧ earlier.package = r.package := by
  rw [repeats, Bool.and_eq_true, beq_iff_eq (a := earlier.package)]

/-- Requests that repeat each other are hashed alike. -/
theorem hashItems_eq_of_repeats {r earlier : QualifierRequest} (once : (Value.nested r.qualifier).SetsOnce)
    (repeated : r.repeats earlier = true) : earlier.hashItems = r.hashItems := by
  obtain ⟨same, package⟩ := repeats_iff.1 repeated
  have back : (r.qualifier == earlier.qualifier) = true := Annotation.equivBEq.symm same
  rw [hashItems, hashItems, Annotation.hashItems_eq_of_same once back, package]

/-- Of the requests that come first none repeats an earlier one. -/
theorem pairwise_firsts (requests : List QualifierRequest) :
    (firsts requests).Pairwise fun earlier later => later.repeats earlier = false := by
  induction requests using List.reverseRecOn with
  | nil => exact .nil
  | append_singleton requests r ih =>
    rw [firsts_append_singleton]
    split
    · exact ih
    · next new =>
      rw [Bool.not_eq_true, List.any_eq_false] at new
      refine List.pairwise_append.2 ⟨ih, List.pairwise_singleton _ _, fun earlier listed later last => ?_⟩
      obtain rfl := List.mem_singleton.1 last
      exact Bool.eq_false_iff.2 (new earlier listed)

end QualifierRequest

namespace QualifierState

/-- What a hash table finds that holds what was compiled: it compares only keys whose hashes are equal. -/
def findHashed? (hash : List HashItem → UInt64) (s : QualifierState) (r : QualifierRequest) : Option Construction :=
  (s.compiled.find? fun entry =>
    hash (QualifierRequest.hashItems ⟨entry.1, entry.2.1⟩) == hash r.hashItems && r.repeats ⟨entry.1, entry.2.1⟩).map (·.2.2)

/-- A hash table finds what comparing every key finds, whatever the hash is. -/
theorem findHashed?_eq (hash : List HashItem → UInt64) (s : QualifierState) {r : QualifierRequest}
    (once : (Value.nested r.qualifier).SetsOnce) : s.findHashed? hash r = s.find? r.qualifier r.package := by
  rw [findHashed?, find?]
  refine congrArg (Option.map _) (List.find?_congr fun entry _ => ?_)
  rw [Bool.eq_iff_iff, Bool.and_eq_true, beq_iff_eq]
  exact and_iff_right_of_imp fun repeated => congrArg hash (QualifierRequest.hashItems_eq_of_repeats once repeated)

/-- What was compiled is held under distinct keys. -/
def HasDistinctKeys (s : QualifierState) : Prop :=
  s.compiled.Pairwise fun earlier later => ¬((earlier.1 == later.1) = true ∧ earlier.2.1 = later.2.1)

theorem hasDistinctKeys_of_requests {s : QualifierState} {requests : List QualifierRequest}
    (first : s.requests = QualifierRequest.firsts requests) : s.HasDistinctKeys := by
  have distinct := QualifierRequest.pairwise_firsts requests
  rw [← first, QualifierState.requests, List.pairwise_map] at distinct
  refine distinct.imp fun {earlier later} new same => ?_
  rw [QualifierRequest.repeats_iff.2 same] at new
  cases new

end QualifierState

namespace LiteralSettings

variable {c : LiteralSettings} {s : QualifierState}

/-- What answers requests from the start on holds the first ones. -/
theorem Serves.hasDistinctKeys {α : Type} {x : QualifierM α} {requests : List QualifierRequest}
    {R : List Construction → α → Prop} (serves : c.Serves [] x requests R) {y : α} (ends : x.run .initial = .ok (y, s)) :
    s.HasDistinctKeys := by
  obtain ⟨⟨trace, served⟩, -, -⟩ := serves [] .initial [] c.served_initial (List.nil_subset _) y s ends
  exact QualifierState.hasDistinctKeys_of_requests served.requests

/-- However many requests are compiled one after the other, what was compiled is held under distinct keys. -/
theorem hasDistinctKeys_of_requests {requests : List QualifierRequest} {xs : List Construction}
    (ends : (requests.mapM fun r => c.compileQualifier r.package r.qualifier).run .initial = .ok (xs, s)) :
    s.HasDistinctKeys := by
  have lasts : LastsWithMore fun (built : List Construction) (x : Construction) => x ∈ built :=
    fun _ _ _ wider member => wider member
  exact (Serves.mapM lasts requests fun r _ => serves_compileQualifier [] r.package r.qualifier).hasDistinctKeys ends

end LiteralSettings

/-- What makes a key sound that is compared by `==`: this is an equivalence, it compares arranged keys exactly, and keys
    that are equal are hashed alike. -/
structure IsSoundKey {α : Type} [BEq α] (once : α → Prop) (arranged : α → α) (hashItems : α → List HashItem) : Prop where
  equivalence : EquivBEq α
  exact : ∀ x y, once x → ((x == y) = true ↔ arranged x = arranged y)
  hashed : ∀ x y, once x → (x == y) = true → hashItems x = hashItems y

/-- Values and annotations are sound keys, if their annotations set each member once, as all do that are made by setting
    members. So a hash table finds what was compiled for equal keys, whatever the hash is, and what was compiled is held
    under distinct keys, after any requests and after all those of a build. -/
theorem annotation_equality_is_sound_for_keys (c : LiteralSettings) :
    IsSoundKey Value.SetsOnce Value.arranged Value.hashItems ∧
      IsSoundKey (fun a => (Value.nested a).SetsOnce) Annotation.arranged Annotation.hashItems ∧
      (∀ (hash : List HashItem → UInt64) (s : QualifierState) (r : QualifierRequest),
        (Value.nested r.qualifier).SetsOnce → s.findHashed? hash r = s.find? r.qualifier r.package) ∧
      (∀ (requests : List QualifierRequest) (xs : List Construction) (s : QualifierState),
        (requests.mapM fun r => c.compileQualifier r.package r.qualifier).run .initial = .ok (xs, s) → s.HasDistinctKeys) ∧
      ∀ (id : BuildId) (b : Build) (result : ComponentsClass × QualifierLiterals) (s : QualifierState),
        (c.compileBuild id b).run .initial = .ok (result, s) → s.HasDistinctKeys := by
  refine ⟨⟨Value.equivBEq, ?_, ?_⟩, { equivalence := Annotation.equivBEq, exact := ?_, hashed := ?_ }, ?_, ?_, ?_⟩
  · exact fun v w once => Value.same_iff_arranged_eq once w
  · exact fun v w => Value.hashItems_eq_of_same
  · exact fun a b once => Annotation.same_iff_arranged_eq once b
  · exact fun a b => Annotation.hashItems_eq_of_same
  · exact fun hash s r once => s.findHashed?_eq hash once
  · exact fun requests xs s => LiteralSettings.hasDistinctKeys_of_requests
  · exact fun id b result s => (LiteralSettings.serves_compileBuild id b).hasDistinctKeys

/-- A limit whose range has its bounds in one order or the other. -/
def orderedLimit (ascending : Bool) : Annotation :=
  Literal.limit (if ascending then [("min", .int 1), ("max", .int 5)] else [("max", .int 5), ("min", .int 1)])

/-- A build with a bean that is qualified by both limits. -/
def limitedBuild : Build :=
  { Build.start limits .default 0 with
    deployment := ⟨[{ Bean.ofClass "b" ⟨"app.B"⟩ ⟨"app.Dependent"⟩ with
      qualifiers := [orderedLimit true, orderedLimit false] }], []⟩ }

theorem annotation_equality_is_sound_for_limits :
    (Value.nested (orderedLimit true)).SetsOnce ∧ (orderedLimit true == orderedLimit false) = true ∧
      (orderedLimit true).arranged = (orderedLimit false).arranged ∧
      (orderedLimit true).hashItems = (orderedLimit false).hashItems ∧
      (∃ xs s, ([⟨orderedLimit true, "app"⟩, ⟨orderedLimit false, "app"⟩].mapM fun r : QualifierRequest =>
          limitsCompiler.compileQualifier r.package r.qualifier).run .initial = .ok (xs, s) ∧ s.HasDistinctKeys) ∧
      ∃ result s, (limitsCompiler.compileBuild (.ofNumber 1) limitedBuild).run .initial = .ok (result, s) ∧
        s.HasDistinctKeys := by
  have once : (Value.nested (orderedLimit true)).SetsOnce := by decide +kernel
  have same : (orderedLimit true == orderedLimit false) = true := by decide +kernel
  obtain ⟨-, sound, -, requests, build⟩ := annotation_equality_is_sound_for_keys limitsCompiler
  refine ⟨once, same, (sound.exact _ _ once).1 same, sound.hashed _ _ once same, ?_, ?_⟩
  · have succeeds : (([⟨orderedLimit true, "app"⟩, ⟨orderedLimit false, "app"⟩].mapM fun r : QualifierRequest =>
        limitsCompiler.compileQualifier r.package r.qualifier).run .initial).isOk = true := by decide +kernel
    obtain ⟨⟨xs, s⟩, ends⟩ := exists_ok_of_isOk succeeds
    exact ⟨xs, s, ends, requests _ xs s ends⟩
  · have succeeds : ((limitsCompiler.compileBuild (.ofNumber 1) limitedBuild).run .initial).isOk = true := by decide +kernel
    obtain ⟨⟨result, s⟩, ends⟩ := exists_ok_of_isOk succeeds
    exact ⟨result, s, ends, build _ _ result s ends⟩

end AnnotationWeaver
