import AnnotationWeaver.ModelError
import AnnotationWeaver.Proofs.MemberOrder
import AnnotationWeaver.Proofs.RoundTrips
import AnnotationWeaver.Proofs.SameValues

/-!
Homogeneous arrays. An array is made of elements that are all of its component kind. The reader takes the kind that an
array names and its elements apart one by one and does not compare them. So what it accepts is homogeneous at every depth
exactly if each array that stands in the text names the kind that all its elements are labelled with, where a member
counts only if no later one of the same name replaces it.
-/
namespace AnnotationWeaver

/-! ### Homogeneous values -/

theorem Value.arrayOf_isOk_iff {component : ValueKind} {elements : List Value} :
    (arrayOf component elements).isOk = true ↔ ∀ v ∈ elements, v.kind = component := by
  rw [arrayOf]
  cases found : elements.find? (·.kind != component) with
  | some bad =>
    have other := List.find?_some found
    simp only [bne_iff_ne] at other
    simpa [Except.isOk, Except.toBool] using ⟨bad, List.mem_of_find?_eq_some found, other⟩
  | none => simpa [Except.isOk, Except.toBool] using found

namespace Value

/-- The values that a value is made of: those of the members of an annotation, or the elements of an array. -/
def parts : Value → List Value
  | .nested a => a.members.map (·.value)
  | .array _ elements => elements
  | _ => []

/-- A value can be made of its parts: those of an array are of its component kind. -/
def isMade : Value → Bool
  | .array component elements => (arrayOf component elements).isOk
  | _ => true

end Value

mutual

/-- Each array in the value, at every depth, can be made of its elements. -/
def Value.isHomogeneous (v : Value) : Bool :=
  match v with
  | .nested a => a.isHomogeneous
  | .array component elements => (Value.array component elements).isMade && Value.allHomogeneous elements
  | _ => true
termination_by structural v

def Value.allHomogeneous (vs : List Value) : Bool :=
  match vs with
  | [] => true
  | v :: rest => v.isHomogeneous && Value.allHomogeneous rest
termination_by structural vs

def Annotation.isHomogeneous (a : Annotation) : Bool :=
  match a with
  | ⟨_, members⟩ => Member.allHomogeneous members
termination_by structural a

def Member.allHomogeneous (ms : List Member) : Bool :=
  match ms with
  | [] => true
  | m :: rest => m.isHomogeneous && Member.allHomogeneous rest
termination_by structural ms

def Member.isHomogeneous (m : Member) : Bool :=
  match m with
  | ⟨_, value⟩ => value.isHomogeneous
termination_by structural m

end

theorem Value.allHomogeneous_iff {vs : List Value} :
    Value.allHomogeneous vs = true ↔ ∀ v ∈ vs, v.isHomogeneous = true := by
  induction vs with
  | nil => simp [Value.allHomogeneous]
  | cons v rest ih => simp [Value.allHomogeneous, ih]

theorem Member.allHomogeneous_iff {ms : List Member} :
    Member.allHomogeneous ms = true ↔ ∀ m ∈ ms, m.value.isHomogeneous = true := by
  induction ms with
  | nil => simp [Member.allHomogeneous]
  | cons m rest ih =>
    cases m
    simp [Member.allHomogeneous, Member.isHomogeneous, ih]

theorem Annotation.isHomogeneous_iff {a : Annotation} :
    a.isHomogeneous = true ↔ ∀ m ∈ a.members, m.value.isHomogeneous = true := by
  cases a
  rw [isHomogeneous, Member.allHomogeneous_iff]

theorem Value.isHomogeneous_iff {v : Value} :
    v.isHomogeneous = true ↔ v.isMade = true ∧ ∀ w ∈ v.parts, w.isHomogeneous = true := by
  cases v with
  | nested a => simp [isHomogeneous, isMade, parts, Annotation.isHomogeneous_iff]
  | array component elements => simp [isHomogeneous, parts, allHomogeneous_iff]
  | _ => simp [isHomogeneous, isMade, parts]

/-- What holds of a value whenever it holds of its parts holds of every value. -/
theorem Value.forall_of_parts {P : Value → Prop} (step : ∀ v : Value, (∀ w ∈ v.parts, P w) → P v) (v : Value) : P v := by
  have passes : Value.PassesOutward P := by
    constructor
    case plain =>
      intro v alone whole
      refine step v ?_
      cases v with
      | nested a => cases alone
      | array kind elements => cases whole
      | _ => exact List.forall_mem_nil _
    case nested => exact fun a inside => step (.nested a) (List.forall_mem_map.2 inside)
    case array => exact fun kind elements inside => step (.array kind elements) inside
  exact passes.value v

/-! ### Members that are replaced -/

/-- The entries that no later one of the same name replaces. -/
def lastOfEach {α : Type} : List (String × α) → List (String × α)
  | [] => []
  | e :: rest => if e.1 ∈ rest.map (·.1) then lastOfEach rest else e :: lastOfEach rest

theorem forall₂_lastOfEach {α β : Type} {R : α → β → Prop} {xs : List (String × α)} {ys : List (String × β)}
    (related : List.Forall₂ (fun x y => x.1 = y.1 ∧ R x.2 y.2) xs ys) :
    List.Forall₂ (fun x y => x.1 = y.1 ∧ R x.2 y.2) (lastOfEach xs) (lastOfEach ys) := by
  induction related with
  | nil => exact .nil
  | @cons x y xs ys head tail ih =>
    have names : xs.map (·.1) = ys.map (·.1) := map_eq_map_iff_forall₂.2 (tail.imp fun _ _ pair => pair.1)
    rw [lastOfEach, lastOfEach, head.1, names]
    split
    · exact ih
    · exact .cons head ih

/-- A member that is set again is the new one, and the others stay. -/
theorem Member.mem_set_iff {name : String} {value : Value} {ms : List Member} (distinct : (ms.map (·.name)).Nodup)
    {m : Member} : m ∈ set name value ms ↔ m = ⟨name, value⟩ ∨ (m ∈ ms ∧ m.name ≠ name) := by
  induction ms with
  | nil => simp [set]
  | cons n rest ih =>
    obtain ⟨fresh, distinct⟩ := List.nodup_cons.1 distinct
    rw [set]
    split
    · next same =>
      subst same
      have others : m ∈ rest → m.name ≠ n.name := fun listed same => fresh (List.mem_map.2 ⟨m, listed, same⟩)
      grind
    · next other => grind

/-- An annotation that is made by setting members has those that no later one replaces. -/
theorem Annotation.mem_ofList_iff {type : TypeName} {entries : List (String × Value)} {m : Member} :
    m ∈ (ofList type entries).members ↔ (m.name, m.value) ∈ lastOfEach entries := by
  -- Of the members that were set before, those are left that no entry names.
  have general : ∀ (entries : List (String × Value)) (a : Annotation), a.SetsOnce →
      (m ∈ (entries.foldl (fun (b : Annotation) e => b.set e.1 e.2) a).members ↔
        (m.name, m.value) ∈ lastOfEach entries ∨ (m ∈ a.members ∧ m.name ∉ entries.map (·.1))) := by
    intro entries
    induction entries with
    | nil => simp [lastOfEach]
    | cons e rest ih =>
      intro a once
      have first : m = ⟨e.1, e.2⟩ ↔ (m.name, m.value) = e := by
        cases m
        cases e
        simp
      rw [List.foldl_cons, ih _ (once.set e.1 e.2), Annotation.set, Member.mem_set_iff once, lastOfEach, List.map_cons,
        List.mem_cons, first]
      split
      · next replaced => grind
      · next last => grind
  have made := general entries (marker type) (setsOnce_marker type)
  exact made.trans (or_iff_left fun set => List.not_mem_nil set.1)

theorem Annotation.mem_values_ofList_iff {type : TypeName} {entries : List (String × Value)} {v : Value} :
    v ∈ (ofList type entries).members.map (·.value) ↔ v ∈ (lastOfEach entries).map (·.2) := by
  simp only [List.mem_map, mem_ofList_iff]
  constructor
  · rintro ⟨m, listed, rfl⟩
    exact ⟨_, listed, rfl⟩
  · rintro ⟨e, listed, rfl⟩
    exact ⟨⟨e.1, e.2⟩, listed, rfl⟩

/-! ### Passages -/

/-- A part of a text that is read as a value, or as an annotation, and whether it was held back. -/
structure Passage where
  json : Json
  held : Bool

namespace Passage

/-- The kind that a value is labelled with, and its content. -/
def labelled? (t : Passage) : Option (ValueKind × Passage) := do
  let (i, content, held) ← t.json.tagged? t.held "kind" "value" (ValueKind.all.map (·.label))
  let kind ← ValueKind.all[i]?
  return (kind, ⟨content, held⟩)

def kind? (t : Passage) : Option ValueKind := t.labelled?.map (·.1)

/-- The kind that the content of an array names. -/
def named? (t : Passage) : Option ValueKind :=
  match t.json.members? ["component", "elements"] with
  | some [some c, _] => ValueKind.ofJson? t.held c
  | _ => none

/-- The elements that stand in the content of an array. -/
def elements (t : Passage) : List Passage :=
  match t.json.members? ["component", "elements"] with
  | some [_, some (.arr elements)] => elements.map fun e => ⟨e, t.held⟩
  | _ => []

/-- The values that stand in an annotation, without those that are replaced. -/
def kept (t : Passage) : List Passage :=
  match t.json.record? ["name", "values"] with
  | some [_, some (.obj members)] => (lastOfEach (members.map fun m => (m.name, ⟨m.value, t.held⟩))).map (·.2)
  | _ => []

/-- The kind that an array names. -/
def component? (t : Passage) : Option ValueKind :=
  match t.labelled? with
  | some (.array, content) => content.named?
  | _ => none

/-- The values that stand in an array or in a nested annotation. -/
def parts (t : Passage) : List Passage :=
  match t.labelled? with
  | some (.array, content) => content.elements
  | some (.nested, content) => content.kept
  | _ => []

/-- One value stands in the other, at some depth, or is it. -/
inductive StandsIn (u : Passage) : Passage → Prop
  | here : u.StandsIn u
  | part {t e : Passage} (listed : e ∈ t.parts) (deeper : u.StandsIn e) : u.StandsIn t

/-- An array names the kind that its elements are labelled with. -/
def NamesKind (t : Passage) : Prop := t.kind? = some .array → ∀ e ∈ t.parts, e.kind? = t.component?

/-- Every array that stands in the value names the kind of its elements. -/
def NamesKinds (t : Passage) : Prop := ∀ u : Passage, u.StandsIn t → u.NamesKind

theorem namesKinds_iff {t : Passage} : t.NamesKinds ↔ t.NamesKind ∧ ∀ e ∈ t.parts, e.NamesKinds := by
  constructor
  · intro all
    exact ⟨all t .here, fun e listed u deeper => all u (.part listed deeper)⟩
  · rintro ⟨outermost, inside⟩ u stands
    cases stands with
    | here => exact outermost
    | part listed deeper => exact inside _ listed u deeper

/-! ### What passages are read as -/

/-- The passage is read as the value, at some depth. -/
def Gives (t : Passage) (v : Value) : Prop := ∃ depth, Value.ofJsonWithin? depth t.held t.json = some v

/-- Passages and values of which each belongs to one of the others. -/
structure Cover (ts : List Passage) (vs : List Value) : Prop where
  read : ∀ t ∈ ts, ∃ v ∈ vs, t.Gives v
  written : ∀ v ∈ vs, ∃ t ∈ ts, t.Gives v

theorem Cover.congr {ts : List Passage} {vs ws : List Value} (cover : Cover ts vs) (same : ∀ v, v ∈ ws ↔ v ∈ vs) :
    Cover ts ws where
  read := fun t listed => (cover.read t listed).imp fun v found => found.imp_left (same v).2
  written := fun v listed => cover.written v ((same v).1 listed)

/-- What holds of values if something holds of their passages holds of all of them if this holds of all passages. -/
theorem Cover.forall_iff {ts : List Passage} {vs : List Value} {P : Value → Prop} {Q : Passage → Prop} (cover : Cover ts vs)
    (alike : ∀ v ∈ vs, ∀ t : Passage, t.Gives v → (P v ↔ Q t)) : (∀ v ∈ vs, P v) ↔ ∀ t ∈ ts, Q t := by
  constructor
  · intro all t listed
    obtain ⟨v, member, gives⟩ := cover.read t listed
    exact (alike v member t gives).1 (all v member)
  · intro all v member
    obtain ⟨t, listed, gives⟩ := cover.written v member
    exact (alike v member t gives).2 (all t listed)

theorem cover_of_forall₂ {ts : List Passage} {vs : List Value} (each : List.Forall₂ Gives ts vs) : Cover ts vs where
  read := by
    intro t listed
    obtain ⟨v, member, gives⟩ := exists_of_forall₂_right (R := fun v t => Gives t v) each.flip listed
    exact ⟨v, member, gives⟩
  written := fun v listed => exists_of_forall₂_right each listed

/-- What an annotation keeps is read as the values of its members. -/
theorem cover_kept {t : Passage} {depth : Nat} {a : Annotation}
    (read : Annotation.ofJsonWithin? depth t.held t.json = some a) : Cover t.kept (a.members.map (·.value)) := by
  cases depth with
  | zero => cases read
  | succ depth =>
    unfold Annotation.ofJsonWithin? at read
    split at read
    · next n values record =>
      obtain ⟨type, -, named⟩ := Option.bind_eq_some_iff.1 read
      obtain ⟨entries, taken, ended⟩ := Option.bind_eq_some_iff.1 named
      obtain rfl := Option.some.inj ended
      cases values with
      | obj members =>
        have each : List.Forall₂ (fun x y => x.1 = y.1 ∧ Gives x.2 y.2)
            (members.map fun m => (m.name, (⟨m.value, t.held⟩ : Passage))) entries := by
          refine List.forall₂_map_left_iff.2 ((forall₂_of_mapM_some taken).imp fun m e found => ?_)
          obtain ⟨value, gives, rfl⟩ := Option.map_eq_some_iff.1 found
          exact ⟨rfl, depth, gives⟩
        have last : Cover t.kept ((lastOfEach entries).map (·.2)) := by
          rw [kept, record]
          refine cover_of_forall₂ (List.forall₂_map_left_iff.2 (List.forall₂_map_right_iff.2 ?_))
          exact (forall₂_lastOfEach each).imp fun _ _ pair => pair.2
        exact last.congr fun v => Annotation.mem_values_ofList_iff
      | _ => cases taken
    · cases read

/-- A passage stands for a value: it is labelled with its kind, and what stands in it belongs to the parts of the value. -/
structure StandsFor (t : Passage) (v : Value) : Prop where
  kind : t.kind? = some v.kind
  component : ∀ component elements, v = .array component elements → t.component? = some component
  parts : Cover t.parts v.parts

theorem kind?_of_labelled {t content : Passage} {kind : ValueKind} (labelled : t.labelled? = some (kind, content)) :
    t.kind? = some kind := by
  rw [kind?, labelled]
  rfl

theorem standsFor_of_plain {t content : Passage} {v : Value} (labelled : t.labelled? = some (v.kind, content))
    (alone : v.nested? = none) (whole : v.elements? = none) : t.StandsFor v := by
  cases v with
  | nested a => cases alone
  | array component elements => cases whole
  | _ =>
    constructor
    case kind => exact kind?_of_labelled labelled
    case component => exact fun _ _ same => by cases same
    case parts =>
      rw [Passage.parts, labelled]
      exact cover_of_forall₂ .nil

theorem standsFor_nested {t content : Passage} {depth : Nat} {a : Annotation}
    (labelled : t.labelled? = some (.nested, content))
    (read : Annotation.ofJsonWithin? depth content.held content.json = some a) : t.StandsFor (.nested a) where
  kind := kind?_of_labelled labelled
  component := fun _ _ same => by cases same
  parts := by
    rw [Passage.parts, labelled]
    exact cover_kept read

theorem standsFor_array {t content : Passage} {depth : Nat} {named : Json} {listed : List Json} {component : ValueKind}
    {elements : List Value} (labelled : t.labelled? = some (.array, content))
    (shape : content.json.members? ["component", "elements"] = some [some named, some (.arr listed)])
    (names : ValueKind.ofJson? content.held named = some component)
    (read : listed.mapM (Value.ofJsonWithin? depth content.held) = some elements) :
    t.StandsFor (.array component elements) where
  kind := kind?_of_labelled labelled
  component := by
    intro _ _ same
    cases same
    rw [component?, labelled]
    show content.named? = _
    rw [named?, shape]
    exact names
  parts := by
    rw [Passage.parts, labelled]
    show Cover content.elements _
    rw [Passage.elements, shape]
    refine cover_of_forall₂ (List.forall₂_map_left_iff.2 ?_)
    exact (forall₂_of_mapM_some read).imp fun j v gives => ⟨depth, gives⟩

theorem exists_of_enumConstantOfJson? {j : Json} {v : Value} (read : enumConstantOfJson? j = some v) :
    ∃ type constant, v = .enumConstant type constant := by
  rw [enumConstantOfJson?] at read
  split at read
  · obtain ⟨type, -, named⟩ := Option.bind_eq_some_iff.1 read
    obtain ⟨constant, -, ended⟩ := Option.bind_eq_some_iff.1 named
    exact ⟨type, constant, (Option.some.inj ended).symm⟩
  · cases read

/-- A passage stands for the value that it is read as. -/
theorem Gives.standsFor {t : Passage} {v : Value} (gives : t.Gives v) : t.StandsFor v := by
  obtain ⟨depth, read⟩ := gives
  cases depth with
  | zero => cases read
  | succ depth =>
    rw [Value.ofJsonWithin?] at read
    cases tagged : t.json.tagged? t.held "kind" "value" (ValueKind.all.map (·.label)) with
    | none =>
      rw [tagged] at read
      cases read
    | some found =>
      obtain ⟨i, content, held⟩ := found
      rw [tagged] at read
      cases chosen : ValueKind.all[i]? with
      | none =>
        simp only [chosen] at read
        cases read
      | some kind =>
        simp only [chosen] at read
        have labelled : t.labelled? = some (kind, ⟨content, held⟩) := by
          rw [labelled?, tagged]
          simp [chosen]
        cases kind with
        | enumConstant =>
          obtain ⟨type, constant, rfl⟩ := exists_of_enumConstantOfJson? read
          exact standsFor_of_plain labelled rfl rfl
        | nested =>
          obtain ⟨a, nested, rfl⟩ := Option.map_eq_some_iff.1 read
          exact standsFor_nested labelled nested
        | array =>
          dsimp only at read
          split at read
          · next named values shape =>
            obtain ⟨component, names, listed⟩ := Option.bind_eq_some_iff.1 read
            obtain ⟨elements, taken, ended⟩ := Option.bind_eq_some_iff.1 listed
            obtain rfl := Option.some.inj ended
            cases values with
            | arr listed => exact standsFor_array labelled shape names taken
            | _ => cases taken
          · cases read
        | _ =>
          obtain ⟨_, -, rfl⟩ := Option.map_eq_some_iff.1 read
          exact standsFor_of_plain labelled rfl rfl

theorem namesKind_iff {t : Passage} {v : Value} (gives : t.Gives v) : v.isMade = true ↔ t.NamesKind := by
  obtain ⟨kind, component, parts⟩ := gives.standsFor
  rw [NamesKind, kind]
  cases v with
  | array c elements =>
    rw [component c elements rfl, Value.isMade, Value.arrayOf_isOk_iff, forall_prop_of_true (by rfl)]
    refine parts.forall_iff fun w _ e gives => ?_
    rw [gives.standsFor.kind, Option.some.injEq]
  | _ => exact ⟨fun _ array => (by cases array), fun _ => rfl⟩

/-- What is read is homogeneous exactly if every array in it names the kind of its elements. -/
theorem isHomogeneous_iff_of_gives (v : Value) : ∀ t : Passage, t.Gives v → (v.isHomogeneous = true ↔ t.NamesKinds) := by
  induction v using Value.forall_of_parts with
  | step v ih =>
    intro t gives
    rw [Value.isHomogeneous_iff, namesKinds_iff, namesKind_iff gives, gives.standsFor.parts.forall_iff ih]

end Passage

/-- A value or an annotation that the reader accepts is homogeneous, at every depth, exactly if every array that stands in
    its text names the kind that its elements are labelled with, those left out that stand in replaced members. -/
theorem read_arrays_are_homogeneous_iff (j : Json) :
    (∀ v, Value.ofJson? j = some v → (v.isHomogeneous = true ↔ (⟨j, false⟩ : Passage).NamesKinds)) ∧
      ∀ held a, Annotation.ofJson? held j = some a →
        (a.isHomogeneous = true ↔ ∀ e ∈ (⟨j, held⟩ : Passage).kept, e.NamesKinds) := by
  constructor
  · exact fun v read => Passage.isHomogeneous_iff_of_gives v ⟨j, false⟩ ⟨nestingLimit, read⟩
  · intro held a read
    refine Annotation.isHomogeneous_iff.trans ?_
    rw [← List.forall_mem_map (f := fun m : Member => m.value) (P := fun v => v.isHomogeneous = true)]
    refine (Passage.cover_kept (t := ⟨j, held⟩) read).forall_iff fun v _ e gives => ?_
    exact Passage.isHomogeneous_iff_of_gives v e gives

/-- An array of integers that holds a text. -/
def mixedArray : Value := .array .int [.string "x"]

/-- An annotation that sets a member to that array first and to an array of texts then. -/
def replacing : Json :=
  .object [("name", .str "app.Names"),
    ("values", .object [("value", mixedArray.toJson), ("value", (Value.array .string [.string "x"]).toJson)])]

theorem read_arrays_are_homogeneous_iff_when_replacing :
    (∃ v, Value.ofJson? mixedArray.toJson = some v ∧ v.isHomogeneous = false ∧
        ¬(⟨mixedArray.toJson, false⟩ : Passage).NamesKinds) ∧
      ∃ a, Annotation.ofJson? false replacing = some a ∧ a.isHomogeneous = true ∧
        ∀ e ∈ (⟨replacing, false⟩ : Passage).kept, e.NamesKinds := by
  obtain ⟨values, -⟩ := read_arrays_are_homogeneous_iff mixedArray.toJson
  obtain ⟨-, annotations⟩ := read_arrays_are_homogeneous_iff replacing
  have mixed : (Value.ofJson? mixedArray.toJson).map (·.isHomogeneous) = some false := by decide +kernel
  have replaced : (replacing |> Annotation.ofJson? false).map (·.isHomogeneous) = some true := by decide +kernel
  obtain ⟨v, read, uneven⟩ := Option.map_eq_some_iff.1 mixed
  obtain ⟨a, read', even⟩ := Option.map_eq_some_iff.1 replaced
  refine ⟨⟨v, read, uneven, fun named => ?_⟩, a, read', even, (annotations _ a read').1 even⟩
  rw [(values v read).2 named] at uneven
  cases uneven

/-- The reader accepts an array that cannot be made of its elements. -/
theorem mixed_array_is_read :
    mixedArray.toJson.compact =
        "\x7b\"kind\":\"array\",\"value\":\x7b\"component\":\"int\",\"elements\":" ++
          "[\x7b\"kind\":\"string\",\"value\":\"x\"\x7d]\x7d\x7d" ∧
      (Json.read? mixedArray.toJson.compact).bind Value.ofJson? = some mixedArray ∧
      mixedArray.isHomogeneous = false ∧
      Value.arrayOf .int [.string "x"] = .error (.mixedArray .int .string) := by
  refine ⟨by decide +kernel, ?_, rfl, rfl⟩
  exact ((Value.restores_ofJson? (by decide +kernel)).roundTrips (by decide +kernel)).compact

end AnnotationWeaver
