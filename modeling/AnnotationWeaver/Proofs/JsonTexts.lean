import AnnotationWeaver.Proofs.JsonTokens
import Mathlib.Data.List.DropRight

/-!
JSON text is read back. A value is exact if its text, compact or on indented lines, gives every part of it
back: its numbers are integers of 64 bits. The reader leaves out the blanks between the parts, and what follows
a part, a comma or the closing mark, ends the numbers in it. So the reader gets an exact value back from its
text as long as its containers are not nested too deep; twice the length of the text is fuel enough.
-/
namespace AnnotationWeaver.Json

/-! ## Exact values -/

mutual

/-- How deep containers are nested. -/
def nesting (j : Json) : Nat :=
  match j with
  | .arr elements => elementsNesting elements + 1
  | .obj members => membersNesting members + 1
  | _ => 0
termination_by structural j

def elementsNesting (elements : List Json) : Nat :=
  match elements with
  | [] => 0
  | j :: rest => max j.nesting (elementsNesting rest)
termination_by structural elements

def membersNesting (members : List JsonMember) : Nat :=
  match members with
  | [] => 0
  | m :: rest => max (memberNesting m) (membersNesting rest)
termination_by structural members

def memberNesting (m : JsonMember) : Nat :=
  match m with
  | ⟨_, value⟩ => value.nesting
termination_by structural m

end

mutual

/-- The text gives every part of the value back as it is: each number is an integer of 64 bits. -/
def isExact (j : Json) : Bool :=
  match j with
  | .int n => decide (Int64.minValue.toInt ≤ n ∧ n < wordLimit)
  | .single _ => false
  | .double _ => false
  | .arr elements => elementsExact elements
  | .obj members => membersExact members
  | .invalid => false
  | _ => true
termination_by structural j

def elementsExact (elements : List Json) : Bool :=
  match elements with
  | [] => true
  | j :: rest => j.isExact && elementsExact rest
termination_by structural elements

def membersExact (members : List JsonMember) : Bool :=
  match members with
  | [] => true
  | m :: rest => memberExact m && membersExact rest
termination_by structural members

def memberExact (m : JsonMember) : Bool :=
  match m with
  | ⟨_, value⟩ => value.isExact
termination_by structural m

end

theorem elementsNesting_le_iff {elements : List Json} {depth : Nat} :
    elementsNesting elements ≤ depth ↔ ∀ j ∈ elements, j.nesting ≤ depth := by
  induction elements with
  | nil => simp [elementsNesting]
  | cons j rest ih => rw [elementsNesting, Nat.max_le, ih, List.forall_mem_cons]

theorem membersNesting_le_iff {members : List JsonMember} {depth : Nat} :
    membersNesting members ≤ depth ↔ ∀ m ∈ members, m.value.nesting ≤ depth := by
  induction members with
  | nil => simp [membersNesting]
  | cons m rest ih =>
    cases m
    rw [membersNesting, memberNesting, Nat.max_le, ih, List.forall_mem_cons]

theorem elementsExact_iff {elements : List Json} : elementsExact elements = true ↔ ∀ j ∈ elements, j.isExact = true := by
  induction elements with
  | nil => simp [elementsExact]
  | cons j rest ih => simp [elementsExact, ih]

theorem membersExact_iff {members : List JsonMember} :
    membersExact members = true ↔ ∀ m ∈ members, m.value.isExact = true := by
  induction members with
  | nil => simp [membersExact]
  | cons m rest ih =>
    cases m
    simp [membersExact, memberExact, ih]

@[simp] theorem nesting_arr_le {elements : List Json} {depth : Nat} :
    (arr elements).nesting ≤ depth + 1 ↔ ∀ j ∈ elements, j.nesting ≤ depth := by
  rw [nesting, Nat.add_le_add_iff_right, elementsNesting_le_iff]

@[simp] theorem nesting_obj_le {members : List JsonMember} {depth : Nat} :
    (obj members).nesting ≤ depth + 1 ↔ ∀ m ∈ members, m.value.nesting ≤ depth := by
  rw [nesting, Nat.add_le_add_iff_right, membersNesting_le_iff]

@[simp] theorem isExact_null : null.isExact = true := rfl

@[simp] theorem isExact_bool {b : Bool} : (bool b).isExact = true := rfl

@[simp] theorem isExact_str {s : String} : (str s).isExact = true := rfl

@[simp] theorem isExact_arr {elements : List Json} : (arr elements).isExact = true ↔ ∀ j ∈ elements, j.isExact = true := by
  rw [isExact, elementsExact_iff]

@[simp] theorem isExact_obj {members : List JsonMember} :
    (obj members).isExact = true ↔ ∀ m ∈ members, m.value.isExact = true := by
  rw [isExact, membersExact_iff]

/-! ## Induction over values -/

/-- What holds of the parts of a value holds of the value, and it holds of every value without parts. -/
structure PassesOutward (P : Json → Prop) : Prop where
  plain : ∀ j : Json, j.nesting = 0 → P j
  arr : ∀ elements : List Json, (∀ j ∈ elements, P j) → P (.arr elements)
  obj : ∀ members : List JsonMember, (∀ m ∈ members, P m.value) → P (.obj members)

mutual

theorem PassesOutward.value {P : Json → Prop} (passes : PassesOutward P) (j : Json) : P j := by
  cases j with
  | arr elements => exact passes.arr elements (passes.elements elements)
  | obj members => exact passes.obj members (passes.members members)
  | _ => exact passes.plain _ rfl
termination_by structural j

theorem PassesOutward.elements {P : Json → Prop} (passes : PassesOutward P) (elements : List Json) :
    ∀ j ∈ elements, P j := by
  cases elements with
  | nil => simp
  | cons j rest =>
    rw [List.forall_mem_cons]
    exact ⟨passes.value j, passes.elements rest⟩
termination_by structural elements

theorem PassesOutward.members {P : Json → Prop} (passes : PassesOutward P) (members : List JsonMember) :
    ∀ m ∈ members, P m.value := by
  cases members with
  | nil => simp
  | cons m rest =>
    rw [List.forall_mem_cons]
    exact ⟨passes.member m, passes.members rest⟩
termination_by structural members

theorem PassesOutward.member {P : Json → Prop} (passes : PassesOutward P) (m : JsonMember) : P m.value := by
  cases m with
  | mk name value => exact passes.value value
termination_by structural m

end

theorem soundElements_iff {elements : List Json} : soundElements elements = true ↔ ∀ j ∈ elements, j.sound = true := by
  induction elements with
  | nil => simp [soundElements]
  | cons j rest ih => simp [soundElements, ih]

theorem soundMembers_iff {members : List JsonMember} :
    soundMembers members = true ↔ ∀ m ∈ members, m.value.sound = true := by
  induction members with
  | nil => simp [soundMembers]
  | cons m rest ih =>
    cases m
    simp [soundMembers, soundMember, ih]

theorem passesOutward_sound_of_isExact : PassesOutward fun j => j.isExact = true → j.sound = true where
  plain := by
    intro j plain exact
    cases j with
    | invalid => cases exact
    | arr elements => cases plain
    | obj members => cases plain
    | _ => rfl
  arr := by
    intro elements parts exact
    rw [sound, soundElements_iff]
    exact fun j member => parts j member (isExact_arr.1 exact j member)
  obj := by
    intro members parts exact
    rw [sound, soundMembers_iff]
    exact fun m member => parts m member (isExact_obj.1 exact m member)

theorem sound_of_isExact {j : Json} (exact : j.isExact = true) : j.sound = true :=
  passesOutward_sound_of_isExact.value j exact

/-! ## Blanks between the parts -/

section

variable {style : Style} {level : Nat}

theorem skipSpace_visible {c : Char} (visible : isSpace c = false) (s : List Char) : skipSpace (c :: s) = c :: s := by
  simp [skipSpace, visible]

theorem skipSpace_newline (s : List Char) : skipSpace (style.newline level ++ s) = skipSpace s := by
  refine List.dropWhile_append_of_pos ?_
  intro c member
  cases style with
  | compact => cases member
  | pretty =>
    rcases List.mem_cons.1 member with rfl | indent
    · rfl
    · rw [(List.mem_replicate.1 indent).2]
      rfl

theorem exists_decimalInt_eq_cons (n : Int) :
    ∃ c s, Text.decimalInt n = c :: s ∧ isSpace c = false ∧ c ∉ ['[', '\x7b'] ++ [']', '\x7d'] := by
  cases n with
  | negSucc n => exact ⟨'-', _, rfl, rfl, by decide⟩
  | ofNat n =>
    obtain ⟨c, s, text, digit⟩ := exists_decimal_eq_cons n
    have other (d : Char) (mark : d.isDigit = false) : c ≠ d := ne_of_isDigit digit mark
    exact ⟨c, s, text, by simp [isSpace, other], by simp [other]⟩

/-- The text of a value starts with a character that is neither blank nor closes a container. -/
theorem exists_write_eq_cons (style : Style) (level : Nat) (j : Json) (exact : j.isExact = true) :
    ∃ c s, j.write style level = c :: s ∧ isSpace c = false ∧ c ∉ [']', '\x7d'] := by
  cases j with
  | null => exact ⟨_, _, rfl, rfl, by decide⟩
  | bool b => cases b <;> exact ⟨_, _, rfl, rfl, by decide⟩
  | int n =>
    obtain ⟨c, s, text, visible, other⟩ := exists_decimalInt_eq_cons n
    exact ⟨c, s, text, visible, fun close => other (List.mem_append_right ['[', '\x7b'] close)⟩
  | single x => cases exact
  | double x => cases exact
  | str s => exact ⟨_, _, rfl, rfl, by decide⟩
  | arr elements => cases elements <;> exact ⟨_, _, rfl, rfl, by decide⟩
  | obj members => cases members <;> exact ⟨_, _, rfl, rfl, by decide⟩
  | invalid => cases exact

theorem skipSpace_skipSpace (s : List Char) : skipSpace (skipSpace s) = skipSpace s := List.dropWhile_idempotent isSpace s

/-- The reader leaves blanks out before a value, an element and a member. -/
theorem readValue_congr {s t : List Char} (same : skipSpace s = skipSpace t) (fuel depth : Nat) :
    readValue fuel depth s = readValue fuel depth t := by
  cases fuel with
  | zero => rw [readValue, readValue]
  | succ fuel => rw [readValue, same, readValue]

theorem readElements_congr {s t : List Char} (same : skipSpace s = skipSpace t) (fuel depth : Nat) :
    readElements fuel depth s = readElements fuel depth t := by
  cases fuel with
  | zero => rw [readElements, readElements]
  | succ fuel => rw [readElements, readValue_congr same, readElements]

theorem readMembers_congr {s t : List Char} (same : skipSpace s = skipSpace t) (fuel depth : Nat) :
    readMembers fuel depth s = readMembers fuel depth t := by
  cases fuel with
  | zero => rw [readMembers, readMembers]
  | succ fuel => rw [readMembers, readName, same, readMembers, readName]

/-! ## Values -/

variable {fuel depth : Nat} {tail : List Char}

/-- What follows an element or a member continues no number: a comma, or the line of the closing mark. -/
theorem endsNumber_newline {c : Char} (other : c.isDigit = false) (mark : c ∉ ['.', 'e', 'E']) (s : List Char) :
    EndsNumber (style.newline level ++ c :: s) := by
  cases style with
  | compact => exact endsNumber_cons other mark s
  | pretty => exact endsNumber_cons rfl (by decide) _

/-- A value that is no container. -/
theorem readValue_scalar {c : Char} (visible : isSpace c = false) (simple : c ∉ ['[', '\x7b']) (s : List Char) :
    readValue (fuel + 1) depth (c :: s) = readScalar (c :: s) := by
  simp only [List.mem_cons, List.not_mem_nil, or_false, not_or] at simple
  rw [readValue, skipSpace_visible visible]
  split
  · next same => exact absurd (List.cons.inj same).1 simple.1
  · next same => exact absurd (List.cons.inj same).1 simple.2
  · rfl

variable (style) in
/-- The reader gets the value back from its text, whatever the level and whatever follows. -/
def IsReadBack (j : Json) : Prop :=
  ∀ (fuel depth level : Nat) (tail : List Char), j.isExact = true → j.nesting ≤ depth →
    2 * (j.write style level).length ≤ fuel → EndsNumber tail →
    readValue fuel depth (j.write style level ++ tail) = some (j, tail)

theorem readElements_last {j : Json} {s : List Char}
    (read : readValue fuel depth s = some (j, style.newline level ++ ']' :: tail)) :
    readElements (fuel + 1) depth s = some ([j], tail) := by
  rw [readElements, read]
  dsimp only
  rw [skipSpace_newline, skipSpace_visible rfl]
  rfl

theorem readElements_more {j : Json} {js : List Json} {s after : List Char}
    (read : readValue fuel depth s = some (j, ',' :: after)) (later : readElements fuel depth after = some (js, tail)) :
    readElements (fuel + 1) depth s = some (j :: js, tail) := by
  rw [readElements, read]
  dsimp only
  rw [skipSpace_visible rfl]
  show (readElements fuel depth after).map _ = _
  rw [later]
  rfl

theorem readElements_write {first : Json} {rest : List Json} (parts : ∀ j ∈ first :: rest, IsReadBack style j)
    (exact : ∀ j ∈ first :: rest, j.isExact = true) (shallow : ∀ j ∈ first :: rest, j.nesting ≤ depth)
    (enough : 2 * ((first.write style (level + 1)).length + (writeElements style (level + 1) rest).length) < fuel) :
    readElements fuel depth
        (first.write style (level + 1) ++ (writeElements style (level + 1) rest ++ (style.newline level ++ ']' :: tail))) =
      some (first :: rest, tail) := by
  -- On what follows the first element: a step takes one unit of fuel, and the comma before the next element pays for it.
  induction rest generalizing first fuel with
  | nil =>
    obtain ⟨fuel, rfl⟩ := Nat.exists_eq_add_one.2 (Nat.zero_lt_of_lt enough)
    obtain ⟨read, -⟩ := List.forall_mem_cons.1 parts
    exact readElements_last (read fuel depth _ _ (exact _ List.mem_cons_self) (shallow _ List.mem_cons_self)
      (by omega) (endsNumber_newline rfl (by decide) tail))
  | cons second rest ih =>
    obtain ⟨fuel, rfl⟩ := Nat.exists_eq_add_one.2 (Nat.zero_lt_of_lt enough)
    rw [List.forall_mem_cons] at parts exact shallow
    simp only [writeElements, List.length_append, List.length_cons, List.cons_append, List.append_assoc] at enough ⊢
    refine readElements_more (parts.1 fuel depth _ _ exact.1 shallow.1 (by omega) (endsNumber_cons rfl (by decide) _)) ?_
    rw [readElements_congr (skipSpace_newline _)]
    exact ih parts.2 exact.2 shallow.2 (by omega)

/-- An array that is not closed at once has elements. -/
theorem readValue_array {s : List Char} (filled : (skipSpace s).head? ≠ some ']') :
    readValue (fuel + 1) depth ('[' :: s) =
      (readElements fuel (depth - 1) s).map fun r => (if depth = 0 then .invalid else .arr r.1, r.2) := by
  rw [readValue, skipSpace_visible rfl]
  split
  · next same =>
    obtain rfl := (List.cons.inj same).2
    split
    · next close => exact absurd (congrArg List.head? close) filled
    · rw [readElements_congr (skipSpace_skipSpace s)]
  · next same => cases same
  · next same _ => exact absurd rfl (same s)

theorem isReadBack_arr {elements : List Json} (parts : ∀ j ∈ elements, IsReadBack style j) :
    IsReadBack style (arr elements) := by
  intro fuel depth level tail exact shallow enough ends
  obtain ⟨depth, rfl⟩ := Nat.exists_eq_add_one.2 (Nat.lt_of_lt_of_le (Nat.succ_pos _) shallow)
  rw [isExact_arr] at exact
  rw [nesting_arr_le] at shallow
  cases elements with
  | nil =>
    obtain ⟨fuel, rfl⟩ := Nat.exists_eq_add_one.2 (Nat.lt_of_lt_of_le (Nat.succ_pos _) enough)
    rfl
  | cons first rest =>
    simp only [write, List.length_append, List.length_cons, List.cons_append, List.append_assoc, List.nil_append]
      at enough ⊢
    obtain ⟨fuel, rfl⟩ := Nat.exists_eq_add_one.2 (Nat.lt_of_lt_of_le (Nat.succ_pos _) enough)
    rw [readValue_array, readElements_congr (skipSpace_newline _), Nat.add_sub_cancel,
      readElements_write parts exact shallow (by omega)]
    · rfl
    · obtain ⟨c, s, text, visible, other⟩ := exists_write_eq_cons style (level + 1) first (exact _ List.mem_cons_self)
      rw [skipSpace_newline, text, List.cons_append, skipSpace_visible visible]
      exact fun close => other (List.mem_cons.2 (.inl (Option.some.inj close)))

/-! ## Objects -/

theorem readName_write (name : String) (rest : List Char) :
    readName (writeString name ++ (style.colon ++ rest)) = some (some name, style.colon.tail ++ rest) := by
  have colon : style.colon = ':' :: style.colon.tail := by cases style <;> rfl
  have read := readString_escaped name (style.colon ++ rest)
  rw [readName, writeString]
  simp only [List.cons_append, List.append_assoc, List.nil_append]
  rw [skipSpace_visible rfl]
  split
  · next same =>
    obtain rfl := (List.cons.inj same).2
    rw [read]
    dsimp only
    rw [colon, List.cons_append, skipSpace_visible rfl]
    rfl
  · next other => exact absurd rfl (other _)

/-- The members read from the text of an object. -/
def namedMembers (members : List JsonMember) : List (Option String × Json) := members.map fun m => (some m.name, m.value)

theorem ofMembers_namedMembers (members : List JsonMember) : ofMembers (namedMembers members) = .obj members := by
  have named : (namedMembers members).mapM (fun p => p.1.map (JsonMember.mk · p.2)) = some members := by
    induction members with
    | nil => rfl
    | cons m rest ih =>
      rw [namedMembers] at ih ⊢
      cases m
      simp [ih]
  rw [ofMembers, named]

theorem skipSpace_colon (s : List Char) : skipSpace (style.colon.tail ++ s) = skipSpace s := by
  cases style <;> rfl

theorem readMembers_last {m : JsonMember} {s value : List Char} (name : readName s = some (some m.name, value))
    (read : readValue fuel depth value = some (m.value, style.newline level ++ '\x7d' :: tail)) :
    readMembers (fuel + 1) depth s = some (namedMembers [m], tail) := by
  rw [readMembers, name]
  dsimp only
  rw [read]
  dsimp only
  rw [skipSpace_newline, skipSpace_visible rfl]
  rfl

theorem readMembers_more {m : JsonMember} {ms : List JsonMember} {s value after : List Char}
    (name : readName s = some (some m.name, value)) (read : readValue fuel depth value = some (m.value, ',' :: after))
    (later : readMembers fuel depth after = some (namedMembers ms, tail)) :
    readMembers (fuel + 1) depth s = some (namedMembers (m :: ms), tail) := by
  rw [readMembers, name]
  dsimp only
  rw [read]
  dsimp only
  rw [skipSpace_visible rfl]
  show (readMembers fuel depth after).map _ = _
  rw [later]
  rfl

theorem readMembers_write {first : JsonMember} {rest : List JsonMember}
    (parts : ∀ m ∈ first :: rest, IsReadBack style m.value) (exact : ∀ m ∈ first :: rest, m.value.isExact = true)
    (shallow : ∀ m ∈ first :: rest, m.value.nesting ≤ depth)
    (enough : 2 * ((writeMember style (level + 1) first).length + (writeMembers style (level + 1) rest).length) < fuel) :
    readMembers fuel depth
        (writeMember style (level + 1) first ++
          (writeMembers style (level + 1) rest ++ (style.newline level ++ '\x7d' :: tail))) =
      some (namedMembers (first :: rest), tail) := by
  -- As for elements; the blank after the name is left out before its value.
  induction rest generalizing first fuel with
  | nil =>
    obtain ⟨fuel, rfl⟩ := Nat.exists_eq_add_one.2 (Nat.zero_lt_of_lt enough)
    obtain ⟨read, -⟩ := List.forall_mem_cons.1 parts
    cases first with
    | mk name value =>
      simp only [writeMember, writeMembers, List.length_append, List.append_assoc, List.nil_append] at enough ⊢
      have first := read fuel depth (level + 1) (style.newline level ++ '\x7d' :: tail) (exact _ List.mem_cons_self)
        (shallow _ List.mem_cons_self) (by dsimp only; omega) (endsNumber_newline rfl (by decide) tail)
      exact readMembers_last (m := ⟨name, value⟩) (readName_write name _)
        ((readValue_congr (skipSpace_colon _) fuel depth).trans first)
  | cons second rest ih =>
    obtain ⟨fuel, rfl⟩ := Nat.exists_eq_add_one.2 (Nat.zero_lt_of_lt enough)
    rw [List.forall_mem_cons] at parts exact shallow
    cases first with
    | mk name value =>
      simp only [writeMember, writeMembers, List.length_append, List.length_cons, List.cons_append, List.append_assoc]
        at enough ⊢
      have first := parts.1 fuel depth (level + 1) (',' :: (style.newline (level + 1) ++
        (writeMember style (level + 1) second ++ (writeMembers style (level + 1) rest ++
          (style.newline level ++ '\x7d' :: tail)))))
        exact.1 shallow.1 (by dsimp only; omega) (endsNumber_cons rfl (by decide) _)
      refine readMembers_more (m := ⟨name, value⟩) (readName_write name _)
        ((readValue_congr (skipSpace_colon _) fuel depth).trans first) ?_
      rw [readMembers_congr (skipSpace_newline _)]
      exact ih parts.2 exact.2 shallow.2 (by omega)

/-- An object that is not closed at once has members. -/
theorem readValue_object {s : List Char} (filled : (skipSpace s).head? ≠ some '\x7d') :
    readValue (fuel + 1) depth ('\x7b' :: s) =
      (readMembers fuel (depth - 1) s).map fun r => (if depth = 0 then .invalid else ofMembers r.1, r.2) := by
  rw [readValue, skipSpace_visible rfl]
  split
  · next same => cases same
  · next same =>
    obtain rfl := (List.cons.inj same).2
    split
    · next close => exact absurd (congrArg List.head? close) filled
    · rw [readMembers_congr (skipSpace_skipSpace s)]
  · next _ same => exact absurd rfl (same s)

theorem isReadBack_obj {members : List JsonMember} (parts : ∀ m ∈ members, IsReadBack style m.value) :
    IsReadBack style (obj members) := by
  intro fuel depth level tail exact shallow enough ends
  obtain ⟨depth, rfl⟩ := Nat.exists_eq_add_one.2 (Nat.lt_of_lt_of_le (Nat.succ_pos _) shallow)
  rw [isExact_obj] at exact
  rw [nesting_obj_le] at shallow
  cases members with
  | nil =>
    obtain ⟨fuel, rfl⟩ := Nat.exists_eq_add_one.2 (Nat.lt_of_lt_of_le (Nat.succ_pos _) enough)
    rfl
  | cons first rest =>
    simp only [write, List.length_append, List.length_cons, List.cons_append, List.append_assoc, List.nil_append]
      at enough ⊢
    obtain ⟨fuel, rfl⟩ := Nat.exists_eq_add_one.2 (Nat.lt_of_lt_of_le (Nat.succ_pos _) enough)
    rw [readValue_object, readMembers_congr (skipSpace_newline _), Nat.add_sub_cancel,
      readMembers_write parts exact shallow (by omega)]
    · simp [ofMembers_namedMembers]
    · rw [skipSpace_newline]
      cases first
      simp [writeMember, writeString, skipSpace_visible (show isSpace '"' = false from rfl)]

/-! ## Whole texts -/

/-- A value without parts, if the reader takes it as such. -/
theorem isReadBack_scalar {j : Json} (read : j.isExact = true → ∀ level tail, EndsNumber tail →
      ∃ c s, j.write style level = c :: s ∧ isSpace c = false ∧ c ∉ ['[', '\x7b'] ∧
        readScalar (j.write style level ++ tail) = some (j, tail)) : IsReadBack style j := by
  intro fuel depth level tail exact _ enough ends
  obtain ⟨c, s, text, visible, simple, read⟩ := read exact level tail ends
  rw [text] at enough read ⊢
  obtain ⟨fuel, rfl⟩ := Nat.exists_eq_add_one.2 (Nat.lt_of_lt_of_le (Nat.succ_pos _) enough)
  exact (readValue_scalar visible simple _).trans read

theorem isReadBack_int (n : Int) : IsReadBack style (int n) := by
  refine isReadBack_scalar fun exact level tail ends => ?_
  obtain ⟨least, fits⟩ : Int64.minValue.toInt ≤ n ∧ n < wordLimit := by simpa [isExact] using exact
  obtain ⟨c, s, text, visible, other⟩ := exists_decimalInt_eq_cons n
  exact ⟨c, s, text, visible, fun opens => other (List.mem_append_left [']', '\x7d'] opens), readScalar_int least fits ends⟩

theorem isReadBack_str (text : String) : IsReadBack style (str text) := by
  refine isReadBack_scalar fun _ level tail _ => ⟨'"', _, rfl, rfl, by decide, ?_⟩
  rw [write, writeString, List.append_assoc, List.cons_append, List.singleton_append, readScalar, readString_escaped]
  rfl

end

theorem passesOutward_isReadBack (style : Style) : PassesOutward (IsReadBack style) where
  plain := by
    intro j plain
    cases j with
    | null => exact isReadBack_scalar fun _ _ _ _ => ⟨'n', _, rfl, rfl, by decide, rfl⟩
    | bool b =>
      cases b with
      | true => exact isReadBack_scalar fun _ _ _ _ => ⟨'t', _, rfl, rfl, by decide, rfl⟩
      | false => exact isReadBack_scalar fun _ _ _ _ => ⟨'f', _, rfl, rfl, by decide, rfl⟩
    | int n => exact isReadBack_int n
    | str text => exact isReadBack_str text
    | arr elements => cases plain
    | obj members => cases plain
    | single x => exact isReadBack_scalar fun inexact => by cases inexact
    | double x => exact isReadBack_scalar fun inexact => by cases inexact
    | invalid => exact isReadBack_scalar fun inexact => by cases inexact
  arr := fun _ => isReadBack_arr
  obj := fun _ => isReadBack_obj

/-- The text of an exact value, compact or pretty, is read as this value, if containers are not nested too deep. -/
theorem read?_write (style : Style) {j : Json} (exact : j.isExact = true) (shallow : j.nesting ≤ depthLimit) :
    read? (String.ofList (j.write style 0)) = some j := by
  have read := (passesOutward_isReadBack style).value j (2 * (j.write style 0).length + 2) depthLimit 0 [] exact shallow
    (by omega) (fun c first => by cases first)
  rw [List.append_nil] at read
  rw [read?, String.toList_ofList, read]
  rfl

end AnnotationWeaver.Json
