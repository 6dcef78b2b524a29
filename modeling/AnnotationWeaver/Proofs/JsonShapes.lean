import AnnotationWeaver.Json.Shape
import AnnotationWeaver.Proofs.JsonTexts

/-!
JSON values that something is got back from (`Restores`): the value is exact, so its text gives it back, and what reads
it finds each part where it was written. A record has each member once, a label names one choice, an integer stays
within its width, and what is absent is `null`.
-/
namespace AnnotationWeaver.Json

/-- The JSON value is exact, and if its containers are nested no deeper than `depth`, `x` is got from it. -/
structure Restores {α : Type} (depth : Nat) (decode : Json → Option α) (j : Json) (x : α) : Prop where
  exact : j.isExact = true
  gives : j.nesting ≤ depth → decode j = some x

/-! ## Records -/

variable {fields : List (String × Json)} {depth : Nat}

@[simp] theorem isExact_object : (object fields).isExact = true ↔ ∀ f ∈ fields, f.2.isExact = true := by
  rw [object, isExact_obj, List.forall_mem_map]

theorem nesting_object_le : (object fields).nesting ≤ depth + 1 ↔ ∀ f ∈ fields, f.2.nesting ≤ depth := by
  rw [object, nesting_obj_le, List.forall_mem_map]

theorem nesting_field_le (shallow : (object fields).nesting ≤ depth) : ∀ f ∈ fields, f.2.nesting ≤ depth := by
  intro f listed
  obtain ⟨depth, rfl⟩ := Nat.exists_eq_add_one.2 (Nat.lt_of_lt_of_le (Nat.succ_pos _) shallow)
  exact Nat.le_succ_of_le (nesting_object_le.1 shallow f listed)

/-- A member is found by its name, which no other has. -/
theorem member?_of_mem {members : List JsonMember} (distinct : (members.map (·.name)).Nodup) {m : JsonMember}
    (listed : m ∈ members) : member? members m.name = some (some m.value) := by
  rw [member?, filter_key_eq_singleton distinct listed]

theorem members?_object {names : List String} (named : fields.map (·.1) = names) (distinct : names.Nodup) :
    (object fields).members? names = some (fields.map fun f => some f.2) := by
  subst named
  have all : ∀ fs : List (String × Json), fs ⊆ fields →
      (fs.map (·.1)).mapM (member? (fields.map fun f => ⟨f.1, f.2⟩)) = some (fs.map fun f => some f.2) := by
    intro fs known
    induction fs with
    | nil => rfl
    | cons f rest ih =>
      obtain ⟨listed, known⟩ := List.cons_subset.1 known
      have distinct' : ((fields.map fun f => JsonMember.mk f.1 f.2).map (·.name)).Nodup := by
        rwa [List.map_map]
      have found := member?_of_mem distinct' (List.mem_map.2 ⟨f, listed, rfl⟩)
      simp [found, ih known]
  exact all fields (List.Subset.refl fields)

theorem record?_object {names : List String} (named : fields.map (·.1) = names) (distinct : names.Nodup) :
    (object fields).record? names = some (fields.map fun f => some f.2) :=
  members?_object named distinct

/-! ## Labels -/

/-- The number of a label is that of the choice it names. -/
theorem exists_idxOf?_map {α : Type} {choices : List α} {label : α → String} (distinct : (choices.map label).Nodup)
    {x : α} (listed : x ∈ choices) : ∃ i, (choices.map label).idxOf? (label x) = some i ∧ choices[i]? = some x := by
  induction choices with
  | nil => cases listed
  | cons first rest ih =>
    obtain ⟨fresh, distinct⟩ := List.nodup_cons.1 distinct
    rw [List.map_cons, List.idxOf?_cons]
    by_cases same : label first = label x
    · refine ⟨0, if_pos (by simpa using same), ?_⟩
      rcases List.mem_cons.1 listed with rfl | later
      · rfl
      · exact absurd (List.mem_map.2 ⟨x, later, same.symm⟩) fresh
    · rcases List.mem_cons.1 listed with rfl | later
      · exact absurd rfl same
      · obtain ⟨i, index, found⟩ := ih distinct later
        exact ⟨i + 1, by simp [same, index], found⟩

/-- A label names its choice. -/
theorem restores_choice {α : Type} (choices : List α) (label : α → String) (distinct : (choices.map label).Nodup)
    {x : α} (listed : x ∈ choices) (depth : Nat) (held : Bool) :
    Restores depth (fun j => (j.choice? held (choices.map label)).bind fun i => choices[i]?) (.str (label x)) x where
  exact := rfl
  gives := by
    intro _
    obtain ⟨i, index, found⟩ := exists_idxOf?_map distinct listed
    rw [choice?, index]
    exact found

theorem tagged?_object (tag content label : String) (held : Bool) (labels : List String) (value : Json) :
    (object [(tag, .str label), (content, value)]).tagged? held tag content labels =
      (labels.idxOf? label).map fun i => (i, value, held) := by
  simp [object, tagged?, choice?]

theorem inlineTagged?_object {tag label : String} (others : ∀ f ∈ fields, f.1 ≠ tag)
    (exact : (object fields).isExact = true) (held : Bool) (labels : List String) :
    (object ((tag, .str label) :: fields)).inlineTagged? held tag labels =
      (labels.idxOf? label).map fun i => (i, object fields) := by
  have sound : soundMembers (fields.map fun f => ⟨f.1, f.2⟩) = true := sound_of_isExact exact
  have rest : (fields.map fun f => JsonMember.mk f.1 f.2).filter (·.name != tag) = fields.map fun f => ⟨f.1, f.2⟩ :=
    List.filter_eq_self.2 (List.forall_mem_map.2 fun f listed => bne_iff_ne.2 (others f listed))
  have none : (fields.map fun f => JsonMember.mk f.1 f.2).filter (·.name == tag) = [] :=
    List.filter_eq_nil_iff.2 (List.forall_mem_map.2 fun f listed => by simpa using others f listed)
  simp [object, inlineTagged?, rest, none, sound, label?]

/-! ## Plain values -/

theorem restores_str (depth : Nat) (s : String) : Restores depth string? (.str s) s := ⟨rfl, fun _ => rfl⟩

theorem restores_bool (depth : Nat) (b : Bool) : Restores depth bool? (.bool b) b := ⟨rfl, fun _ => rfl⟩

theorem restores_char (depth : Nat) (c : Char) : Restores depth char? (.str c.toString) c where
  exact := rfl
  gives := by simp [char?, Char.toString]

/-- An integer of a width: its bounds are those of the width, which 64 bits hold. -/
theorem restores_within {α : Type} {decode : Int → α} {least greatest n : Int} {x : α} (low : least ≤ n)
    (high : n ≤ greatest) (wide : -2 ^ 63 ≤ least ∧ greatest < 2 ^ 64) (inverse : decode n = x) (depth : Nat) :
    Restores depth (fun j => (j.within? least greatest).map decode) (.int n) x where
  exact := by
    simp only [isExact, decide_eq_true_eq]
    exact ⟨Int.le_trans wide.1 low, Int.lt_of_le_of_lt high wide.2⟩
  gives := by
    intro _
    rw [within?, if_pos ⟨low, high⟩, Option.map_some, inverse]

theorem restores_int8 (depth : Nat) (n : Int8) : Restores depth int8? (.int n.toInt) n :=
  restores_within n.minValue_le_toInt n.toInt_le (by decide) n.ofInt_toInt depth

theorem restores_int16 (depth : Nat) (n : Int16) : Restores depth int16? (.int n.toInt) n :=
  restores_within n.minValue_le_toInt n.toInt_le (by decide) n.ofInt_toInt depth

theorem restores_int32 (depth : Nat) (n : Int32) : Restores depth int32? (.int n.toInt) n :=
  restores_within n.minValue_le_toInt n.toInt_le (by decide) n.ofInt_toInt depth

theorem restores_int64 (depth : Nat) (n : Int64) : Restores depth int64? (.int n.toInt) n :=
  restores_within n.minValue_le_toInt n.toInt_le (by decide) n.ofInt_toInt depth

theorem restores_uint16 (depth : Nat) (n : UInt16) : Restores depth uint16? (.int n.toNat) n :=
  restores_within (Int.natCast_nonneg _) (Int.ofNat_le.2 (Nat.le_sub_one_of_lt n.toNat_lt)) (by decide)
    (by simp) depth

/-! ## Lists and options -/

section

variable {α : Type} {decode : Json → Option α} {write : α → Json}

theorem Restores.list {xs : List α} (each : ∀ x ∈ xs, Restores depth decode (write x) x) :
    Restores (depth + 1) (list? decode) (.list write xs) xs where
  exact := by
    rw [Json.list, isExact_arr, List.forall_mem_map]
    exact fun x listed => (each x listed).exact
  gives := by
    intro shallow
    rw [Json.list, nesting_arr_le, List.forall_mem_map] at shallow
    rw [Json.list, list?]
    induction xs with
    | nil => rfl
    | cons x rest ih =>
      rw [List.forall_mem_cons] at each shallow
      simp [each.1.gives shallow.1, ih each.2 shallow.2]

theorem Restores.option {o : Option α} (each : ∀ x ∈ o, Restores depth decode (write x) x)
    (some_value : ∀ x, write x ≠ .null) :
    Restores depth (fun j => optional? decode (some j)) (.option write o) o := by
  cases o with
  | none => exact ⟨rfl, fun _ => rfl⟩
  | some x =>
    refine ⟨(each x rfl).exact, fun shallow => ?_⟩
    have gives := (each x rfl).gives shallow
    show optional? decode (some (write x)) = some (some x)
    rw [optional?, gives]
    · rfl
    · exact some_value x

/-- A record is got from its members. -/
theorem Restores.record {x : α} (exact : ∀ f ∈ fields, f.2.isExact = true)
    (gives : (∀ f ∈ fields, f.2.nesting ≤ depth) → decode (.object fields) = some x) :
    Restores depth decode (.object fields) x :=
  ⟨isExact_object.2 exact, fun shallow => gives (nesting_field_le shallow)⟩

/-- An object is one container around its members. -/
theorem Restores.object (decode : Nat → Json → Option α) {x : α} (exact : ∀ f ∈ fields, f.2.isExact = true)
    (gives : ∀ d, d < depth → (∀ f ∈ fields, f.2.nesting ≤ d) → decode (d + 1) (.object fields) = some x) :
    Restores depth (decode depth) (.object fields) x where
  exact := isExact_object.2 exact
  gives := by
    intro shallow
    obtain ⟨d, rfl⟩ := Nat.exists_eq_add_one.2 (Nat.lt_of_lt_of_le (Nat.succ_pos _) shallow)
    exact gives d (Nat.lt_succ_self d) (nesting_object_le.1 shallow)

theorem Restores.mono {limit : Nat} {j : Json} {x : α} (restores : Restores depth decode j x) (less : limit ≤ depth) :
    Restores limit decode j x := ⟨restores.exact, fun shallow => restores.gives (Nat.le_trans shallow less)⟩

end

end AnnotationWeaver.Json
