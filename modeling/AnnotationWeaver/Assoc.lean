/-!
Finite maps as lists of pairs, in the order in which the keys were first set. Setting a key again
replaces its value in its place.
-/
namespace AnnotationWeaver.Assoc

variable {κ β : Type} [DecidableEq κ]

/-- The value of a key. -/
def find? (key : κ) (entries : List (κ × β)) : Option β := (entries.find? (·.1 == key)).map (·.2)

/-- The map with the value of a key set. -/
def set (key : κ) (value : β) : List (κ × β) → List (κ × β)
  | [] => [(key, value)]
  | e :: rest => if e.1 = key then (key, value) :: rest else e :: set key value rest

/-- The values that a key was given, where a key may have many. -/
def listed (key : κ) (entries : List (κ × List β)) : List β := (find? key entries).getD []

/-- The map with one more value for a key. -/
def push (key : κ) (value : β) (entries : List (κ × List β)) : List (κ × List β) :=
  set key (listed key entries ++ [value]) entries

theorem find?_cons (key : κ) (e : κ × β) (rest : List (κ × β)) :
    find? key (e :: rest) = if e.1 = key then some e.2 else find? key rest := by
  by_cases same : e.1 = key
  · simp [find?, same]
  · simp [find?, same]

theorem find?_set (key other : κ) (value : β) (entries : List (κ × β)) :
    find? other (set key value entries) = if key = other then some value else find? other entries := by
  induction entries with
  | nil => simp [set, find?_cons]
  | cons e rest ih =>
    by_cases same : e.1 = key
    · by_cases sought : key = other
      · simp [set, same, find?_cons, sought]
      · simp [set, same, find?_cons, sought]
    · by_cases sought : key = other
      · subst sought
        simp [set, same, find?_cons, ih]
      · simp [set, same, find?_cons, ih, sought]

theorem find?_append (key : κ) (first second : List (κ × β)) :
    find? key (first ++ second) = (find? key first).or (find? key second) := by
  simp [find?, List.find?_append, Option.map_or]

theorem find?_isSome_iff {key : κ} {entries : List (κ × β)} :
    (find? key entries).isSome ↔ key ∈ entries.map (·.1) := by
  simp [find?]

theorem mem_of_find? {key : κ} {value : β} {entries : List (κ × β)} (found : find? key entries = some value) :
    (key, value) ∈ entries := by
  obtain ⟨e, search, rfl⟩ := Option.map_eq_some_iff.1 found
  have same : e.1 = key := by simpa using List.find?_some search
  exact same ▸ List.mem_of_find?_eq_some search

/-- Where no key occurs twice, an entry is what its key is found with. -/
theorem find?_of_mem {entries : List (κ × β)} (distinct : (entries.map (·.1)).Nodup) {e : κ × β}
    (member : e ∈ entries) : find? e.1 entries = some e.2 := by
  induction entries with
  | nil => simp at member
  | cons head rest ih =>
    obtain ⟨fresh, distinct⟩ := List.nodup_cons.1 distinct
    rw [find?_cons]
    rcases List.mem_cons.1 member with rfl | later
    · simp
    · have other : head.1 ≠ e.1 := fun same => fresh (List.mem_map.2 ⟨e, later, same.symm⟩)
      simp [other, ih distinct later]

/-- Setting a key brings in its entry only. -/
theorem mem_set {key : κ} {value : β} {entries : List (κ × β)} {e : κ × β} (member : e ∈ set key value entries) :
    e = (key, value) ∨ e ∈ entries := by
  induction entries with
  | nil => exact .inl (List.mem_singleton.1 member)
  | cons head rest ih =>
    by_cases same : head.1 = key
    · rw [set, if_pos same] at member
      exact (List.mem_cons.1 member).imp_right (List.mem_cons_of_mem _)
    · rw [set, if_neg same] at member
      rcases List.mem_cons.1 member with rfl | later
      · exact .inr List.mem_cons_self
      · exact (ih later).imp_right (List.mem_cons_of_mem _)

theorem mem_keys_set {key other : κ} {value : β} {entries : List (κ × β)} :
    other ∈ (set key value entries).map (·.1) ↔ other = key ∨ other ∈ entries.map (·.1) := by
  rw [← find?_isSome_iff, find?_set, ← find?_isSome_iff]
  by_cases same : key = other
  · simp [same]
  · simp [same, Ne.symm same]

theorem nodup_keys_set {key : κ} {value : β} {entries : List (κ × β)} (distinct : (entries.map (·.1)).Nodup) :
    ((set key value entries).map (·.1)).Nodup := by
  induction entries with
  | nil => simp [set]
  | cons head rest ih =>
    obtain ⟨fresh, distinct⟩ := List.nodup_cons.1 distinct
    by_cases same : head.1 = key
    · subst same
      rw [set, if_pos rfl]
      exact List.nodup_cons.2 ⟨fresh, distinct⟩
    · have absent : head.1 ∉ (set key value rest).map (·.1) := by
        rw [mem_keys_set]
        exact fun h => h.elim same fresh
      rw [set, if_neg same]
      exact List.nodup_cons.2 ⟨absent, ih distinct⟩

/-- A key that has no value yet comes last. -/
theorem set_of_notMem {key : κ} {value : β} {entries : List (κ × β)} (fresh : key ∉ entries.map (·.1)) :
    set key value entries = entries ++ [(key, value)] := by
  induction entries with
  | nil => rfl
  | cons head rest ih =>
    rw [List.map_cons, List.mem_cons, not_or] at fresh
    rw [set, if_neg (Ne.symm fresh.1), ih fresh.2, List.cons_append]

theorem keys_set_of_mem {key : κ} {value : β} {entries : List (κ × β)} (known : key ∈ entries.map (·.1)) :
    (set key value entries).map (·.1) = entries.map (·.1) := by
  induction entries with
  | nil => simp at known
  | cons head rest ih =>
    by_cases same : head.1 = key
    · rw [set, if_pos same, List.map_cons, List.map_cons, same]
    · have later : key ∈ rest.map (·.1) := (List.mem_cons.1 known).resolve_left (Ne.symm same)
      rw [set, if_neg same, List.map_cons, List.map_cons, ih later]

/-- What is listed by a key of its own is found as in the list. -/
theorem find?_map_keyed (name : β → κ) (key : κ) (xs : List β) :
    find? key (xs.map fun x => (name x, x)) = xs.find? fun x => name x == key := by
  rw [find?, List.find?_map, Option.map_map]
  simp [Function.comp_def]

theorem listed_push (key other : κ) (value : β) (entries : List (κ × List β)) :
    listed other (push key value entries) = listed other entries ++ if key = other then [value] else [] := by
  rw [listed, push, find?_set]
  by_cases same : key = other
  · rw [if_pos same, if_pos same, same, Option.getD_some]
  · rw [if_neg same, if_neg same, List.append_nil, listed]

end AnnotationWeaver.Assoc
