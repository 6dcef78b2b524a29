import AnnotationWeaver.Proofs.JsonShapes
import AnnotationWeaver.Proofs.SameValues
import AnnotationWeaver.Wire.Decode
import AnnotationWeaver.Wire.Encode

/-!
The JSON forms of types, values and annotations are read back if they are portable: names of types are valid and have
no blanks at their ends, there are no floating-point numbers, and each annotation sets its members once. Every level
that is looked into is a container, so a form that is nested no deeper than the reader goes is looked into as a whole.
-/
namespace AnnotationWeaver

open Json (Restores)

/-! ## Types -/

/-- A valid name that neither starts nor ends with a blank. -/
def TypeName.isTidy (n : TypeName) : Bool :=
  n.isValid && !n.chars.head?.any Text.isBlank && !n.chars.getLast?.any Text.isBlank

theorem TypeName.parse?_of_isTidy {n : TypeName} (tidy : n.isTidy = true) : parse? n.text = some n := by
  simp only [isTidy, Bool.and_eq_true, Bool.not_eq_true'] at tidy
  have trimmed : Text.trim n.chars = n.chars := by
    rw [Text.trim, dropWhile_eq_self tidy.1.2, dropWhile_eq_self (by rw [List.head?_reverse]; exact tidy.2),
      List.reverse_reverse]
  show (if (ofChars (Text.trim n.chars)).isValid = true then some (ofChars (Text.trim n.chars)) else none) = some n
  have same : ofChars n.chars = n := congrArg TypeName.mk String.ofList_toList
  rw [trimmed, same, if_pos tidy.1.1]

theorem TypeName.restores {n : TypeName} (tidy : n.isTidy = true) (depth : Nat) :
    Restores depth TypeName.ofJson? n.toJson n where
  exact := rfl
  gives := by
    intro _
    rw [ofJson?, toJson, Json.string?, Option.bind_some, parse?_of_isTidy tidy]

theorem Primitive.restores (depth : Nat) (held : Bool) (p : Primitive) :
    Restores depth (Primitive.ofJson? held) (.str p.keyword) p := by
  unfold Primitive.ofJson?
  exact Json.restores_choice Primitive.all Primitive.keyword (by decide) (by cases p <;> decide) depth held

namespace Ty

mutual

/-- Every name in the type is tidy. -/
def isTidy (t : Ty) : Bool :=
  match t with
  | .named n => n.isTidy
  | .array component => component.isTidy
  | .parameterized raw arguments => raw.isTidy && allTidy arguments
  | _ => true
termination_by structural t

def allTidy (ts : List Ty) : Bool :=
  match ts with
  | [] => true
  | t :: rest => t.isTidy && allTidy rest
termination_by structural ts

end

theorem toJsons_eq (ts : List Ty) : toJsons ts = ts.map toJson := by
  induction ts with
  | nil => rfl
  | cons t rest ih => rw [toJsons, ih, List.map_cons]

theorem toJson_parameterized (raw : TypeName) (arguments : List Ty) :
    (parameterized raw arguments).toJson =
      .object [("kind", .str "parameterized"), ("raw", raw.toJson), ("arguments", .list toJson arguments)] := by
  rw [toJson, toJsons_eq, Json.list]

/-- A type's label, and its other members. -/
theorem inlineTagged?_toJson {label : String} {fields : List (String × Json)} (others : ∀ f ∈ fields, f.1 ≠ "kind")
    (exact : ∀ f ∈ fields, f.2.isExact = true) {i : Nat} (index : labels.idxOf? label = some i) (held : Bool) :
    (Json.object (("kind", .str label) :: fields)).inlineTagged? held "kind" labels = some (i, .object fields) := by
  rw [Json.inlineTagged?_object others (Json.isExact_object.2 exact), index]
  rfl

mutual

theorem restores (t : Ty) (tidy : t.isTidy = true) (depth : Nat) (held : Bool) :
    Restores depth (ofJsonWithin? depth held) t.toJson t := by
  cases t with
  | void =>
    rw [toJson]
    refine Restores.object (fun depth => ofJsonWithin? depth held) ?exact fun depth _ shallow => ?gives
    case exact => simp
    case gives =>
      have index : labels.idxOf? "void" = some 0 := by decide
      rw [ofJsonWithin?, inlineTagged?_toJson (by simp) (by simp) index]
      rfl
  | primitive p =>
    have inner := Primitive.restores 0 true p
    rw [toJson]
    refine Restores.object (fun depth => ofJsonWithin? depth held) ?exact fun depth _ shallow => ?gives
    case exact => simp
    case gives =>
      have index : labels.idxOf? "primitive" = some 1 := by decide
      rw [ofJsonWithin?, inlineTagged?_toJson (by simp) (by simp) index]
      simp only
      rw [Json.record?_object (by rfl) (by decide)]
      simp only [List.map, inner.gives (Nat.le_refl 0), Option.map_some]
  | named n =>
    rw [isTidy] at tidy
    have inner := TypeName.restores tidy 0
    rw [toJson]
    refine Restores.object (fun depth => ofJsonWithin? depth held) ?exact fun depth _ shallow => ?gives
    case exact => simp [inner.exact]
    case gives =>
      have index : labels.idxOf? "class" = some 2 := by decide
      rw [ofJsonWithin?, inlineTagged?_toJson (by simp) (by simp [inner.exact]) index]
      simp only
      rw [Json.record?_object (by rfl) (by decide)]
      simp only [List.map, inner.gives (Nat.le_refl 0), Option.map_some]
  | array component =>
    rw [isTidy] at tidy
    have inner := fun depth => restores component tidy depth true
    rw [toJson]
    refine Restores.object (fun depth => ofJsonWithin? depth held) ?exact fun depth _ shallow => ?gives
    case exact => simp [(inner 0).exact]
    case gives =>
      have index : labels.idxOf? "array" = some 3 := by decide
      have inside := (inner depth).gives (shallow _ (.tail _ (.head _)))
      rw [ofJsonWithin?, inlineTagged?_toJson (by simp) (by simp [(inner 0).exact]) index]
      simp only
      rw [Json.record?_object (by rfl) (by decide)]
      simp only [List.map, inside, Option.map_some]
  | parameterized raw arguments =>
    rw [isTidy, Bool.and_eq_true] at tidy
    have name := TypeName.restores tidy.1 0
    have inner := fun depth => Restores.list (restores_all arguments tidy.2 depth true)
    rw [toJson_parameterized]
    refine Restores.object (fun depth => ofJsonWithin? depth held) ?exact fun depth _ shallow => ?gives
    case exact => simp [name.exact, (inner 0).exact]
    case gives =>
      have index : labels.idxOf? "parameterized" = some 4 := by decide
      have inside := (inner depth).gives (Nat.le_succ_of_le (shallow _ (.tail _ (.tail _ (.head _)))))
      rw [ofJsonWithin?, inlineTagged?_toJson (by simp) (by simp [name.exact, (inner 0).exact]) index]
      simp only
      rw [Json.record?_object (by rfl) (by decide)]
      simp only [List.map, name.gives (Nat.le_refl 0), inside]
      rfl
termination_by structural t

theorem restores_all (ts : List Ty) (tidy : allTidy ts = true) (depth : Nat) (held : Bool) :
    ∀ t ∈ ts, Restores depth (ofJsonWithin? depth held) t.toJson t := by
  cases ts with
  | nil => simp
  | cons t rest =>
    rw [allTidy, Bool.and_eq_true] at tidy
    rw [List.forall_mem_cons]
    exact ⟨restores t tidy.1 depth held, restores_all rest tidy.2 depth held⟩
termination_by structural ts

end

end Ty

/-! ## Values and annotations -/

mutual

/-- The text of the value loses nothing: there is no floating-point number in it, every name of a type is tidy, and each
    annotation sets each of its members once. -/
def Value.isPortable (v : Value) : Bool :=
  match v with
  | .float _ => false
  | .double _ => false
  | .enumConstant type _ => type.isTidy
  | .classLiteral type => type.isTidy
  | .nested a => a.isPortable
  | .array _ elements => Value.allPortable elements
  | _ => true
termination_by structural v

def Value.allPortable (vs : List Value) : Bool :=
  match vs with
  | [] => true
  | v :: rest => v.isPortable && Value.allPortable rest
termination_by structural vs

def Annotation.isPortable (a : Annotation) : Bool :=
  match a with
  | ⟨type, members⟩ => type.isTidy && decide (members.map (·.name)).Nodup && Member.allPortable members
termination_by structural a

def Member.allPortable (ms : List Member) : Bool :=
  match ms with
  | [] => true
  | m :: rest => m.isPortable && Member.allPortable rest
termination_by structural ms

def Member.isPortable (m : Member) : Bool :=
  match m with
  | ⟨_, value⟩ => value.isPortable
termination_by structural m

end

theorem Value.allPortable_iff {vs : List Value} : Value.allPortable vs = true ↔ ∀ v ∈ vs, v.isPortable = true := by
  induction vs with
  | nil => simp [Value.allPortable]
  | cons v rest ih => simp [Value.allPortable, ih]

theorem Member.allPortable_iff {ms : List Member} :
    Member.allPortable ms = true ↔ ∀ m ∈ ms, m.value.isPortable = true := by
  induction ms with
  | nil => simp [Member.allPortable]
  | cons m rest ih =>
    cases m
    simp [Member.allPortable, Member.isPortable, ih]

theorem Annotation.isPortable_iff {a : Annotation} :
    a.isPortable = true ↔ a.type.isTidy = true ∧ a.SetsOnce ∧ ∀ m ∈ a.members, m.value.isPortable = true := by
  cases a
  simp [isPortable, SetsOnce, Member.allPortable_iff, and_assoc]

theorem Value.toJsons_eq (vs : List Value) : Value.toJsons vs = vs.map (·.toJson) := by
  induction vs with
  | nil => rfl
  | cons v rest ih => rw [Value.toJsons, ih, List.map_cons]

theorem Member.toJsons_eq (ms : List Member) : Member.toJsons ms = ms.map fun m => ⟨m.name, m.value.toJson⟩ := by
  induction ms with
  | nil => rfl
  | cons m rest ih =>
    cases m
    rw [Member.toJsons, ih, List.map_cons, Member.toJson]

theorem ValueKind.restores (depth : Nat) (held : Bool) (kind : ValueKind) :
    Restores depth (ValueKind.ofJson? held) (.str kind.label) kind := by
  unfold ValueKind.ofJson?
  exact Json.restores_choice ValueKind.all ValueKind.label (by decide) (by cases kind <;> decide) depth held

theorem Member.set_of_notMem {name : String} {value : Value} {ms : List Member} (fresh : name ∉ ms.map (·.name)) :
    Member.set name value ms = ms ++ [⟨name, value⟩] := by
  induction ms with
  | nil => rfl
  | cons m rest ih =>
    obtain ⟨other, fresh⟩ := not_or.1 (mt List.mem_cons.2 fresh)
    rw [Member.set, if_neg (Ne.symm other), ih fresh, List.cons_append]

/-- Members that are set once are set in their order. -/
theorem Annotation.ofList_members {type : TypeName} {members : List Member} (once : (members.map (·.name)).Nodup) :
    Annotation.ofList type (members.map fun m => (m.name, m.value)) = ⟨type, members⟩ := by
  have appended : ∀ after before : List Member, ((before ++ after).map (·.name)).Nodup →
      (after.map fun m => (m.name, m.value)).foldl (fun (b : Annotation) p => b.set p.1 p.2) ⟨type, before⟩ =
        ⟨type, before ++ after⟩ := by
    intro after
    induction after with
    | nil => simp
    | cons m rest ih =>
      intro before distinct
      have fresh : m.name ∉ before.map (·.name) := by
        rw [List.map_append, List.map_cons] at distinct
        exact fun earlier => (List.nodup_append.1 distinct).2.2 _ earlier _ List.mem_cons_self rfl
      have moved : before ++ m :: rest = (before ++ [⟨m.name, m.value⟩]) ++ rest := by
        cases m
        simp
      rw [moved] at distinct ⊢
      rw [← ih _ distinct, List.map_cons, List.foldl_cons, Annotation.set, Member.set_of_notMem fresh]
  exact appended members [] once

/-- The values of the members are read one by one. -/
theorem restores_members {decode : Json → Option Value} {depth : Nat} {ms : List Member}
    (each : ∀ m ∈ ms, Restores depth decode m.value.toJson m.value) :
    Restores (depth + 1) (membersOfJson? decode) (.obj (Member.toJsons ms)) (ms.map fun m => (m.name, m.value)) where
  exact := by
    rw [Json.isExact_obj, Member.toJsons_eq, List.forall_mem_map]
    exact fun m listed => (each m listed).exact
  gives := by
    intro shallow
    rw [Json.nesting_obj_le, Member.toJsons_eq, List.forall_mem_map] at shallow
    rw [membersOfJson?, Member.toJsons_eq]
    induction ms with
    | nil => rfl
    | cons m rest ih =>
      rw [List.forall_mem_cons] at each shallow
      simp [each.1.gives shallow.1, ih each.2 shallow.2]

/-- The value is read back at every depth up to the limit. -/
def Value.IsRestored (v : Value) : Prop :=
  ∀ (depth : Nat) (held : Bool), depth ≤ nestingLimit → Restores depth (Value.ofJsonWithin? depth held) v.toJson v

theorem Annotation.restores_of_members {a : Annotation} (tidy : a.type.isTidy = true) (once : a.SetsOnce)
    (inner : ∀ m ∈ a.members, m.value.IsRestored) {depth : Nat} (held : Bool) (limit : depth ≤ nestingLimit) :
    Restores depth (ofJsonWithin? depth held) a.toJson a := by
  cases a with
  | mk type members =>
    have name := TypeName.restores tidy 0
    have values (d : Nat) (below : d ≤ depth) :=
      restores_members fun m listed => inner m listed d held (Nat.le_trans below limit)
    rw [toJson]
    refine Restores.object (fun d => ofJsonWithin? d held) ?exact fun d below shallow => ?gives
    case exact => simpa [name.exact] using (values 0 (Nat.zero_le _)).exact
    case gives =>
      have inside := (values d (Nat.le_of_lt below)).gives (Nat.le_succ_of_le (shallow _ (.tail _ (.head _))))
      rw [ofJsonWithin?, Json.record?_object (by rfl) (by decide)]
      simp only [List.map, name.gives (Nat.le_refl 0), inside]
      exact congrArg some (ofList_members once)

namespace Value

/-- A value whose content is read back by what its label calls for. -/
theorem restores_tagged {α : Type} {label : String} {content : Json} {x : α} (decode : Nat → Bool → Json → Option α)
    (wrap : α → Value) (inner : ∀ d held, d ≤ nestingLimit → Restores d (decode d held) content x)
    (branch : ∀ d held, ofJsonWithin? (d + 1) held (.tagged "kind" label "value" content) =
      (decode d held content).map wrap) {depth : Nat} (held : Bool) (limit : depth ≤ nestingLimit) :
    Restores depth (ofJsonWithin? depth held) (.tagged "kind" label "value" content) (wrap x) := by
  refine Restores.object (fun d => ofJsonWithin? d held) ?exact fun d below shallow => ?gives
  case exact => simpa using (inner 0 held (Nat.zero_le _)).exact
  case gives =>
    have inside := (inner d held (Nat.le_trans (Nat.le_of_lt below) limit)).gives (shallow _ (.tail _ (.head _)))
    exact (branch d held).trans (congrArg (Option.map wrap) inside)

theorem restores_enumConstant {type : TypeName} (tidy : type.isTidy = true) (constant : String) (depth : Nat) :
    Restores depth enumConstantOfJson? (.object [("type_name", type.toJson), ("constant", .str constant)])
      (.enumConstant type constant) := by
  have name := TypeName.restores tidy 0
  refine Restores.object (fun _ => enumConstantOfJson?) ?exact fun d below shallow => ?gives
  case exact => simp [name.exact]
  case gives =>
    rw [enumConstantOfJson?, Json.members?_object (by rfl) (by decide)]
    simp only [List.map, name.gives (Nat.le_refl 0)]
    rfl

theorem toJson_array (component : ValueKind) (elements : List Value) :
    (array component elements).toJson = .tagged "kind" "array" "value"
      (.object [("component", .str component.label), ("elements", .list (·.toJson) elements)]) := by
  rw [toJson, toJsons_eq, Json.list]

theorem isRestored_array {component : ValueKind} {elements : List Value} (inner : ∀ v ∈ elements, v.IsRestored) :
    (array component elements).IsRestored := by
  intro depth held limit
  have kind := ValueKind.restores 0 held component
  have all (d : Nat) (below : d ≤ nestingLimit) := Restores.list fun v listed => inner v listed d held below
  rw [toJson_array]
  refine Restores.object (fun d => ofJsonWithin? d held) ?exact fun d below shallow => ?gives
  case exact => simp [(all 0 (Nat.zero_le _)).exact]
  case gives =>
    have content := Json.nesting_field_le (shallow _ (.tail _ (.head _))) _ (.tail _ (.head _))
    have inside := (all d (Nat.le_trans (Nat.le_of_lt below) limit)).gives (Nat.le_succ_of_le content)
    have index : (ValueKind.all.map (·.label)).idxOf? "array" = some 12 := by decide
    show ofJsonWithin? (d + 1) held (.tagged "kind" "array" "value" _) = _
    rw [ofJsonWithin?, Json.tagged, Json.tagged?_object, index]
    have last : ValueKind.all[12]? = some .array := rfl
    simp only [Option.map_some, last]
    rw [Json.members?_object (by rfl) (by decide)]
    simp only [List.map, kind.gives (Nat.le_refl 0), inside]
    rfl

theorem passesOutward_isRestored : PassesOutward fun v => v.isPortable = true → v.IsRestored where
  plain := by
    intro v alone whole portable depth held limit
    cases v with
    | float x => cases portable
    | double x => cases portable
    | nested a => cases alone
    | array kind elements => cases whole
    | boolean b =>
      exact restores_tagged (fun _ _ => Json.bool?) boolean (fun d _ _ => Json.restores_bool d b) (fun _ _ => by rfl)
        held limit
    | byte n =>
      exact restores_tagged (fun _ _ => Json.int8?) byte (fun d _ _ => Json.restores_int8 d n) (fun _ _ => by rfl)
        held limit
    | short n =>
      exact restores_tagged (fun _ _ => Json.int16?) short (fun d _ _ => Json.restores_int16 d n) (fun _ _ => by rfl)
        held limit
    | int n =>
      exact restores_tagged (fun _ _ => Json.int32?) int (fun d _ _ => Json.restores_int32 d n) (fun _ _ => by rfl)
        held limit
    | long n =>
      exact restores_tagged (fun _ _ => Json.int64?) long (fun d _ _ => Json.restores_int64 d n) (fun _ _ => by rfl)
        held limit
    | char c =>
      exact restores_tagged (fun _ _ => Json.char?) char (fun d _ _ => Json.restores_char d c) (fun _ _ => by rfl)
        held limit
    | string s =>
      exact restores_tagged (fun _ _ => Json.string?) string (fun d _ _ => Json.restores_str d s) (fun _ _ => by rfl)
        held limit
    | enumConstant type constant =>
      rw [isPortable] at portable
      exact restores_tagged (fun _ _ => enumConstantOfJson?) id (fun d _ _ => restores_enumConstant portable constant d)
        (fun _ _ => by rw [Option.map_id]; rfl) held limit
    | classLiteral type =>
      rw [isPortable] at portable
      exact restores_tagged (fun _ => Ty.ofJson?) classLiteral
        (fun d held below => (Ty.restores type portable nestingLimit held).mono below) (fun _ _ => by rfl) held limit
  nested := by
    intro a inner portable depth held limit
    rw [isPortable, Annotation.isPortable_iff] at portable
    have members : ∀ m ∈ a.members, m.value.IsRestored := fun m listed => inner m listed (portable.2.2 m listed)
    refine restores_tagged Annotation.ofJsonWithin? nested ?_ (fun _ _ => by rfl) held limit
    exact fun d held below => Annotation.restores_of_members portable.1 portable.2.1 members held below
  array := by
    intro kind elements inner portable
    rw [isPortable, allPortable_iff] at portable
    exact isRestored_array fun v listed => inner v listed (portable v listed)

theorem isRestored {v : Value} (portable : v.isPortable = true) : v.IsRestored :=
  passesOutward_isRestored.value v portable

end Value

theorem Annotation.restores {a : Annotation} (portable : a.isPortable = true) {depth : Nat} (held : Bool)
    (limit : depth ≤ nestingLimit) : Restores depth (ofJsonWithin? depth held) a.toJson a := by
  rw [isPortable_iff] at portable
  exact restores_of_members portable.1 portable.2.1 (fun m listed => Value.isRestored (portable.2.2 m listed)) held limit

end AnnotationWeaver
