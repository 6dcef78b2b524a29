import AnnotationWeaver.Proofs.EscapedTexts
import AnnotationWeaver.Proofs.LegibleWords

/-!
Legible annotations are read back from their texts. Where the text of a value begins, its mark is seen, or that it is a
word; where it ends is seen as well, since words hold no marks, escapes hold no quotes of their own, and what is opened
is closed. So a text is that of one legible value only, whatever follows it, and annotations with equal canonical texts set
the same members to the same values.
-/
namespace AnnotationWeaver

/-! ### Values where something follows -/

/-- What follows a value: nothing, or what closes it. -/
def Stops (rest : List Char) : Prop := ∀ c ∈ rest.head?, c ∈ closers

theorem stops_cons {c : Char} (closer : c ∈ closers) (rest : List Char) : Stops (c :: rest) := by
  intro first head
  cases head
  exact closer

theorem IsWord.append_inj {w w' x y : List Char} (word : IsWord w) (word' : IsWord w') (stops : Stops x) (stops' : Stops y)
    (same : w ++ x = w' ++ y) : w = w' ∧ x = y := by
  have plain {u : List Char} (word : IsWord u) (c) (member : c ∈ u) : marks.contains c = false := by
    simpa using word.unmarked c member
  have ends {z : List Char} (stops : Stops z) (c) (head : c ∈ z.head?) : marks.contains c = true := by
    have marked : c ∈ marks := List.mem_append_left _ (stops c head)
    simpa using marked
  exact word_append_inj (marks.contains ·) (plain word) (plain word') (ends stops) (ends stops') same

/-- The mark with which the text of a value begins; words have none. -/
def Value.opener? : Value → Option Char
  | .byte _ => some '('
  | .short _ => some '('
  | .char _ => some '\''
  | .string _ => some '"'
  | .nested _ => some '@'
  | .array _ _ => some '\x7b'
  | _ => none

theorem Value.exists_word? {v : Value} (unopened : v.opener? = none) : ∃ s, v.word? = some s := by
  cases v <;> first | exact ⟨_, rfl⟩ | cases unopened

section

variable {κ : TypeName → String → ValueKind}

/-- Where the text of a value begins, its mark is seen. -/
theorem Value.exists_text_eq_cons {k : ValueKind} {v : Value} (legible : v.isLegible κ k = true) :
    ∃ c rest, v.text.toList = c :: rest ∧ c ∉ closers ∧ v.opener? = if c ∈ marks then some c else none := by
  cases opener : v.opener? with
  | none =>
    obtain ⟨s, word⟩ := exists_word? opener
    have isWord := (kindOfWord_of_word? legible word).1
    rw [toList_text_of_word? word]
    cases s with
    | nil => exact absurd rfl isWord.some_char
    | cons c rest =>
      have unmarked := isWord.unmarked c List.mem_cons_self
      exact ⟨c, rest, rfl, fun closer => unmarked (List.mem_append_left _ closer), by rw [if_neg unmarked]⟩
  | some c =>
    have begins : ∃ rest, v.text.toList = c :: rest := by
      cases v with
      | nested a =>
        cases opener
        cases a with
        | mk type members => exact ⟨_, by rw [text, Annotation.text_eq]; simp; rfl⟩
      | _ => cases opener <;> exact ⟨_, by simp [text]; rfl⟩
    obtain ⟨rest, begins⟩ := begins
    have mark : c ∉ closers ∧ c ∈ marks := by
      cases v <;> cases opener <;> decide
    exact ⟨c, rest, begins, mark.1, by rw [if_pos mark.2]⟩

theorem Value.opener?_eq {k : ValueKind} {v w : Value} (legible : v.isLegible κ k = true)
    (legible' : w.isLegible κ k = true) {x y : List Char} (same : v.text.toList ++ x = w.text.toList ++ y) :
    v.opener? = w.opener? := by
  obtain ⟨c, rest, begins, -, opener⟩ := exists_text_eq_cons legible
  obtain ⟨c', rest', begins', -, opener'⟩ := exists_text_eq_cons legible'
  rw [begins, begins'] at same
  rw [opener, opener', (List.cons.inj same).1]

theorem Member.allLegible_iff {type : TypeName} {ms : List Member} :
    Member.allLegible κ type ms = true ↔ ∀ m ∈ ms, m.isLegible κ type = true := by
  induction ms with
  | nil => simp [allLegible]
  | cons m rest ih => simp [allLegible, ih]

theorem Value.allLegible_iff {k : ValueKind} {vs : List Value} :
    Value.allLegible κ k vs = true ↔ ∀ v ∈ vs, v.isLegible κ k = true := by
  induction vs with
  | nil => simp [allLegible]
  | cons v rest ih => simp [allLegible, ih]

/-- No value begins with what closes one. -/
theorem Value.text_append_ne {k : ValueKind} {v : Value} (legible : v.isLegible κ k = true) {close : Char}
    (closer : close ∈ closers) (x y : List Char) : v.text.toList ++ x ≠ close :: y := by
  obtain ⟨c, rest, begins, opened, -⟩ := exists_text_eq_cons legible
  rw [begins]
  intro same
  exact opened ((List.cons.inj same).1 ▸ closer)

/-! ### Texts of several parts -/

/-- Texts with separators between them. -/
def joined (ts : List String) : List Char := (", ".intercalate ts).toList

/-- Texts with a separator in front of each. -/
def separated (ts : List String) : List Char := ts.flatMap fun t => ',' :: ' ' :: t.toList

theorem joined_cons (t : String) (rest : List String) : joined (t :: rest) = t.toList ++ separated rest := by
  unfold joined
  induction rest generalizing t with
  | nil => simp [separated]
  | cons u rest ih =>
    have separator : (", " : String).toList = [',', ' '] := by decide
    rw [String.intercalate_cons_cons, String.toList_append, String.toList_append, ih, separator]
    simp [separated]

theorem stops_separated (ts : List String) {close : Char} (closer : close ∈ closers) (x : List Char) :
    Stops (separated ts ++ close :: x) := by
  cases ts with
  | nil => exact stops_cons closer x
  | cons t rest => exact stops_cons (by decide) _

section

variable {α : Type} {text : α → String} {close : Char} (closer : close ∈ closers) {xs ys : List α}
  (one : ∀ v ∈ xs, ∀ w ∈ ys, ∀ x y, Stops x → Stops y → (text v).toList ++ x = (text w).toList ++ y →
    v = w ∧ x = y)
include closer one

/-- If each part is read back from its text, so are the parts behind separators, up to what closes them. -/
theorem separated_append_inj (other : close ≠ ',') {x y : List Char}
    (same : separated (xs.map text) ++ close :: x = separated (ys.map text) ++ close :: y) : xs = ys ∧ x = y := by
  induction xs generalizing ys with
  | nil =>
    cases ys with
    | nil => exact ⟨rfl, (List.cons.inj same).2⟩
    | cons w others => exact absurd (List.cons.inj same).1 other
  | cons v rest ih =>
    cases ys with
    | nil => exact absurd (List.cons.inj same).1.symm other
    | cons w others =>
      have parts : (text v).toList ++ (separated (rest.map text) ++ close :: x) =
          (text w).toList ++ (separated (others.map text) ++ close :: y) := by simpa [separated] using same
      obtain ⟨rfl, later⟩ := one v List.mem_cons_self w List.mem_cons_self _ _ (stops_separated _ closer x)
        (stops_separated _ closer y) parts
      obtain ⟨rfl, after⟩ := ih (fun v inside w inside' =>
        one v (List.mem_cons_of_mem _ inside) w (List.mem_cons_of_mem _ inside')) later
      exact ⟨rfl, after⟩

/-- The same where no separator stands in front of the first part, if no part begins with what closes them. -/
theorem joined_append_inj (other : close ≠ ',') (begins : ∀ v ∈ xs, ∀ x y, (text v).toList ++ x ≠ close :: y)
    (begins' : ∀ w ∈ ys, ∀ x y, (text w).toList ++ x ≠ close :: y) {x y : List Char}
    (same : joined (xs.map text) ++ close :: x = joined (ys.map text) ++ close :: y) : xs = ys ∧ x = y := by
  cases xs with
  | nil =>
    cases ys with
    | nil => exact ⟨rfl, (List.cons.inj same).2⟩
    | cons w others =>
      rw [List.map_cons, joined_cons, List.append_assoc] at same
      exact absurd same.symm (begins' w List.mem_cons_self _ _)
  | cons v rest =>
    rw [List.map_cons, joined_cons, List.append_assoc] at same
    cases ys with
    | nil => exact absurd same (begins v List.mem_cons_self _ _)
    | cons w others =>
      rw [List.map_cons, joined_cons, List.append_assoc] at same
      obtain ⟨rfl, later⟩ := one v List.mem_cons_self w List.mem_cons_self _ _ (stops_separated _ closer x)
        (stops_separated _ closer y) same
      obtain ⟨rfl, after⟩ := separated_append_inj closer (fun v inside w inside' =>
        one v (List.mem_cons_of_mem _ inside) w (List.mem_cons_of_mem _ inside')) other later
      exact ⟨rfl, after⟩

end

theorem Value.texts_eq_map (vs : List Value) : Value.texts vs = vs.map Value.text := by
  induction vs with
  | nil => rfl
  | cons v rest ih => rw [Value.texts, ih, List.map_cons]

theorem toList_text_array (component : ValueKind) (elements : List Value) :
    (Value.array component elements).text.toList = '\x7b' :: (joined (elements.map Value.text) ++ ['\x7d']) := by
  simp [Value.text, Value.texts_eq_map, joined]

/-- The members of an annotation, in brackets if there are any. -/
def bracketed (ms : List Member) : List Char :=
  if ms = [] then [] else '(' :: (joined (ms.map Member.text) ++ [')'])

theorem toList_text_nested (type : TypeName) (ms : List Member) :
    (⟨type, ms⟩ : Annotation).text.toList = '@' :: (type.chars ++ bracketed ms) := by
  rw [bracketed, Annotation.text_eq, Member.texts_eq_map]
  split <;> simp [TypeName.chars, joined]

theorem punctuation_of_head?_bracketed {ms : List Member} {x : List Char} (stops : Stops x) (c : Char)
    (head : c ∈ (bracketed ms ++ x).head?) : c ∈ punctuation := by
  unfold bracketed at head
  split at head
  · exact List.mem_append_left _ (List.mem_append_left _ (stops c head))
  · cases head
    decide

/-- An open bracket shows that there are members, since nothing that follows an annotation begins with one. -/
theorem bracketed_append {ms ns : List Member} {x y : List Char} (stops : Stops x) (ends : Stops y)
    (same : bracketed ms ++ x = bracketed ns ++ y) :
    ms = [] ∧ ns = [] ∧ x = y ∨ joined (ms.map Member.text) ++ ')' :: x = joined (ns.map Member.text) ++ ')' :: y := by
  have opens : '(' ∉ closers := by decide
  unfold bracketed at same
  by_cases marker : ms = []
  · by_cases marker' : ns = []
    · rw [if_pos marker, if_pos marker'] at same
      exact .inl ⟨marker, marker', same⟩
    · rw [if_pos marker, if_neg marker'] at same
      obtain rfl : x = _ := same
      exact absurd (stops '(' rfl) opens
  · by_cases marker' : ns = []
    · rw [if_neg marker, if_pos marker'] at same
      obtain rfl : _ = y := same
      exact absurd (ends '(' rfl) opens
    · rw [if_neg marker, if_neg marker'] at same
      exact .inr (by simpa using same)

theorem toList_text_member (m : Member) : m.text.toList = m.name.toList ++ '=' :: m.value.text.toList := by
  rw [Member.text_eq]
  simp

/-- A plain name ends at the first punctuation behind it. -/
theorem plain_append_inj {s t : String} (plain : isPlain s = true) (plain' : isPlain t = true) {x y : List Char}
    (stops : ∀ c ∈ x.head?, c ∈ punctuation) (stops' : ∀ c ∈ y.head?, c ∈ punctuation)
    (same : s.toList ++ x = t.toList ++ y) : s = t ∧ x = y := by
  have name {u : String} (plain : isPlain u = true) (c) (member : c ∈ u.toList) : punctuation.contains c = false := by
    simpa using notMem_punctuation plain member
  obtain ⟨names, rest⟩ := word_append_inj (punctuation.contains ·) (name plain) (name plain')
    (fun c head => by simpa using stops c head) (fun c head => by simpa using stops' c head) same
  exact ⟨String.toList_inj.1 names, rest⟩

theorem Member.text_append_ne {type : TypeName} {m : Member} (legible : m.isLegible κ type = true) (x y : List Char) :
    m.text.toList ++ x ≠ ')' :: y := by
  cases m with
  | mk name value =>
    rw [isLegible, Bool.and_eq_true] at legible
    rw [toList_text_member, List.append_assoc]
    intro same
    have nameless : isPlain "" = true := by decide
    obtain ⟨-, after⟩ :=
      plain_append_inj legible.1 nameless (by simp [punctuation]) (by simp [punctuation, marks, closers]) same
    exact absurd (List.cons.inj after).1 (by decide)

theorem decimalInt_append_inj {m n : Int} {x y : List Char} (stops : Stops x) (stops' : Stops y)
    (same : Text.decimalInt m ++ x = Text.decimalInt n ++ y) : m = n ∧ x = y := by
  obtain ⟨digits, rest⟩ := (kindOfWord_int m).1.append_inj (kindOfWord_int n).1 stops stops' same
  exact ⟨decimalInt_inj digits, rest⟩

/-- Values that hold no others are read back one by one. -/
theorem Value.text_append_inj_of_single {k : ValueKind} {v w : Value} (legible : v.isLegible κ k = true)
    (legible' : w.isLegible κ k = true) (single : v.nested? = none) (plain : v.elements? = none) {x y : List Char}
    (stops : Stops x) (stops' : Stops y) (same : v.text.toList ++ x = w.text.toList ++ y) : v = w ∧ x = y := by
  have opener := opener?_eq legible legible' same
  cases mark : v.opener? with
  | none =>
    obtain ⟨s, word⟩ := exists_word? mark
    obtain ⟨t, word'⟩ := exists_word? (opener ▸ mark)
    rw [toList_text_of_word? word, toList_text_of_word? word'] at same
    have isWord := (kindOfWord_of_word? legible word).1
    have isWord' := (kindOfWord_of_word? legible' word').1
    obtain ⟨rfl, rest⟩ := isWord.append_inj isWord' stops stops' same
    exact ⟨eq_of_word? legible legible' word word', rest⟩
  | some c =>
    -- Bytes and shorts have one mark, and differ in the letter behind it; each of the other marks belongs to one kind.
    cases v with
    | byte n =>
      cases w with
      | byte n' =>
        have digits : Text.decimalInt n.toInt ++ x = Text.decimalInt n'.toInt ++ y := by simpa [text, intText] using same
        obtain ⟨equal, rest⟩ := decimalInt_append_inj stops stops' digits
        exact ⟨congrArg byte (Int8.toInt_inj.1 equal), rest⟩
      | short n' => simp [text] at same
      | _ => cases opener
    | short n =>
      cases w with
      | short n' =>
        have digits : Text.decimalInt n.toInt ++ x = Text.decimalInt n'.toInt ++ y := by simpa [text, intText] using same
        obtain ⟨equal, rest⟩ := decimalInt_append_inj stops stops' digits
        exact ⟨congrArg short (Int16.toInt_inj.1 equal), rest⟩
      | byte n' => simp [text] at same
      | _ => cases opener
    | char c =>
      cases w with
      | char d =>
        have escapes : Text.literalChar c ++ '\'' :: x = Text.literalChar d ++ '\'' :: y := by simpa [text] using same
        obtain ⟨rfl, rest⟩ := Text.literalChar_append_inj escapes
        exact ⟨rfl, (List.cons.inj rest).2⟩
      | _ => cases opener
    | string s =>
      cases w with
      | string t =>
        have escapes : Text.literal s.toList ++ '"' :: x = Text.literal t.toList ++ '"' :: y := by simpa [text] using same
        obtain ⟨equal, rest⟩ := Text.literal_append_inj escapes
        exact ⟨congrArg string (String.toList_inj.1 equal), rest⟩
      | _ => cases opener
    | nested a => cases single
    | array component elements => cases plain
    | _ => cases mark

mutual

/-- The text of a legible value ends in one way, whatever closes it, and is that of no other value. -/
theorem Value.text_append_inj {k : ValueKind} {v w : Value} (legible : v.isLegible κ k = true)
    (legible' : w.isLegible κ k = true) {x y : List Char} (stops : Stops x) (stops' : Stops y)
    (same : v.text.toList ++ x = w.text.toList ++ y) : v = w ∧ x = y := by
  cases v with
  | nested a =>
    have opener := Value.opener?_eq legible legible' same
    cases w with
    | nested b =>
      rw [Value.isLegible] at legible legible'
      obtain ⟨rfl, rest⟩ := Annotation.text_append_inj legible legible' stops stops' same
      exact ⟨rfl, rest⟩
    | _ => cases opener
  | array component elements =>
    have opener := Value.opener?_eq legible legible' same
    cases w with
    | array component' elements' =>
      rw [Value.isLegible, Bool.and_eq_true] at legible legible'
      rw [toList_text_array, toList_text_array] at same
      have parts : joined (elements.map Value.text) ++ '\x7d' :: x = joined (elements'.map Value.text) ++ '\x7d' :: y := by
        simpa using same
      have each := Value.allLegible_iff.1 legible.2
      have each' := Value.allLegible_iff.1 legible'.2
      have one (v) (inside : v ∈ elements) (w) (inside' : w ∈ elements') (x y) (stops : Stops x) (stops' : Stops y)
          (texts : v.text.toList ++ x = w.text.toList ++ y) : v = w ∧ x = y :=
        Value.text_append_inj (each v inside) (each' w inside') stops stops' texts
      obtain ⟨rfl, rest⟩ := joined_append_inj (by decide) one (by decide)
        (fun v inside => Value.text_append_ne (each v inside) (by decide))
        (fun w inside => Value.text_append_ne (each' w inside) (by decide)) parts
      have components := (beq_iff_eq.1 legible.1).trans (beq_iff_eq.1 legible'.1).symm
      exact ⟨by rw [components], rest⟩
    | _ => cases opener
  | _ => exact Value.text_append_inj_of_single legible legible' rfl rfl stops stops' same
termination_by sizeOf v

theorem Annotation.text_append_inj {a b : Annotation} (legible : a.isLegible κ = true)
    (legible' : b.isLegible κ = true) {x y : List Char} (stops : Stops x) (stops' : Stops y)
    (same : a.text.toList ++ x = b.text.toList ++ y) : a = b ∧ x = y := by
  cases a with
  | mk type members =>
    cases b with
    | mk type' members' =>
      simp only [Bool.and_eq_true, Annotation.isLegible] at legible legible'
      rw [toList_text_nested, toList_text_nested, List.cons_append, List.cons_append, List.append_assoc,
        List.append_assoc] at same
      obtain ⟨types, later⟩ := plain_append_inj legible.1.1 legible'.1.1 (punctuation_of_head?_bracketed stops)
        (punctuation_of_head?_bracketed stops') (List.cons.inj same).2
      obtain rfl : type = type' := congrArg TypeName.mk types
      have each := Member.allLegible_iff.1 legible.2
      have each' := Member.allLegible_iff.1 legible'.2
      have one (m) (inside : m ∈ members) (n) (inside' : n ∈ members') (x y) (stops : Stops x) (stops' : Stops y)
          (texts : m.text.toList ++ x = n.text.toList ++ y) : m = n ∧ x = y :=
        Member.text_append_inj (each m inside) (each' n inside') stops stops' texts
      obtain ⟨rfl, rfl, rest⟩ | parts := bracketed_append stops stops' later
      · exact ⟨rfl, rest⟩
      · obtain ⟨rfl, rest⟩ := joined_append_inj (by decide) one (by decide)
          (fun m inside => Member.text_append_ne (each m inside))
          (fun n inside => Member.text_append_ne (each' n inside)) parts
        exact ⟨rfl, rest⟩
termination_by sizeOf a

theorem Member.text_append_inj {type : TypeName} {m n : Member} (legible : m.isLegible κ type = true)
    (legible' : n.isLegible κ type = true) {x y : List Char} (stops : Stops x) (stops' : Stops y)
    (same : m.text.toList ++ x = n.text.toList ++ y) : m = n ∧ x = y := by
  cases m with
  | mk name value =>
    cases n with
    | mk name' value' =>
      rw [Member.isLegible, Bool.and_eq_true] at legible legible'
      rw [toList_text_member, toList_text_member, List.append_assoc, List.append_assoc] at same
      obtain ⟨rfl, later⟩ := plain_append_inj legible.1 legible'.1 (by simp [punctuation]) (by simp [punctuation]) same
      obtain ⟨rfl, after⟩ := Value.text_append_inj legible.2 legible'.2 stops stops' (List.cons.inj later).2
      exact ⟨rfl, after⟩
termination_by sizeOf m

end

/-! ### Canonical texts -/

namespace Annotation

theorem isLegible_iff {a : Annotation} :
    a.isLegible κ = true ↔
      isPlain a.type.text = true ∧ a.SetsOnce ∧ ∀ m ∈ a.members, m.isLegible κ a.type = true := by
  cases a with
  | mk type members =>
    simp only [isLegible, Bool.and_eq_true, decide_eq_true_iff, Member.allLegible_iff, and_assoc]
    rfl

/-- The value of a member of a legible annotation. -/
theorem isLegible_of_value? {a : Annotation} (legible : a.isLegible κ = true) {name : String} {v : Value}
    (found : a.value? name = some v) : v.isLegible κ (κ a.type name) = true := by
  obtain ⟨m, search, rfl⟩ := Option.map_eq_some_iff.1 found
  have member := (isLegible_iff.1 legible).2.2 m (List.mem_of_find?_eq_some search)
  have named : m.name = name := by simpa using List.find?_some search
  cases m with
  | mk name' value =>
    rw [Member.isLegible, Bool.and_eq_true] at member
    exact named ▸ member.2

end Annotation

namespace Literal

theorem toList_canonicalText (a : Annotation) :
    (canonicalText a).toList = '@' :: (a.type.chars ++ '(' :: (joined ((sortedMembers a).map Member.text) ++ [')'])) := by
  simp [canonicalText, joined, Member.texts_eq_map, TypeName.chars]

/-- Legible annotations with one canonical text are of one type and set the same values. -/
theorem value?_eq_of_canonicalText {a b : Annotation} (legible : a.isLegible κ = true) (legible' : b.isLegible κ = true)
    (same : canonicalText a = canonicalText b) : a.type = b.type ∧ ∀ name, a.value? name = b.value? name := by
  obtain ⟨plain, once, members⟩ := Annotation.isLegible_iff.1 legible
  obtain ⟨plain', once', members'⟩ := Annotation.isLegible_iff.1 legible'
  have chars := congrArg String.toList same
  rw [toList_canonicalText, toList_canonicalText] at chars
  obtain ⟨types, later⟩ :=
    plain_append_inj plain plain' (by simp [punctuation, marks]) (by simp [punctuation, marks]) (List.cons.inj chars).2
  have type : a.type = b.type := congrArg TypeName.mk types
  have sorted (m) (listed : m ∈ sortedMembers a) : m.isLegible κ a.type = true :=
    members m ((sortedMembers_perm a).mem_iff.1 listed)
  have sorted' (m) (listed : m ∈ sortedMembers b) : m.isLegible κ a.type = true :=
    type ▸ members' m ((sortedMembers_perm b).mem_iff.1 listed)
  obtain ⟨equal, -⟩ := joined_append_inj (by decide)
    (fun m listed n listed' _ _ => Member.text_append_inj (sorted m listed) (sorted' n listed')) (by decide)
    (fun m listed => Member.text_append_ne (sorted m listed)) (fun n listed => Member.text_append_ne (sorted' n listed))
    (List.cons.inj later).2
  refine ⟨type, fun name => ?_⟩
  have perm : a.members.Perm b.members := (sortedMembers_perm a).symm.trans (equal ▸ sortedMembers_perm b)
  exact Member.lookup?_perm perm once name

end Literal

end

end AnnotationWeaver
