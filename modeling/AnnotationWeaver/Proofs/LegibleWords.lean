import AnnotationWeaver.Proofs.FloatTexts
import AnnotationWeaver.Proofs.OneOffNames

/-!
Legible annotations, and their values that are written as words. Names stand in a text as they are, and of an array only
the elements are written, so the text alone does not tell annotations apart: a name may hold what looks like the end of
a value, and nothing says of which kind an empty array is. An annotation is legible if its names are free of
punctuation and its empty arrays are of the kinds that its members call for. A word then shows by its first and its
last characters of which kind the value is, and the value is read back from it.
-/
namespace AnnotationWeaver

open Decimal (BinaryFormat)

/-! ### Legible annotations -/

/-- What may stand right behind a value. -/
def closers : List Char := [',', ')', '\x7d']

/-- What separates, opens and closes the parts of a text. -/
def marks : List Char := closers ++ ['(', '\x7b', '@', '"', '\'']

def punctuation : List Char := marks ++ ['[', ']', '=']

/-- No character of the name is punctuation. -/
def isPlain (name : String) : Bool := name.toList.all fun c => !punctuation.contains c

/-- The character begins numbers. -/
def beginsNumber (c : Char) : Bool := c.isDigit || c == '-'

/-- A plain name that does not look like a number. -/
def TypeName.isLegible (n : TypeName) : Bool := isPlain n.text && n.chars.head?.any fun c => !beginsNumber c

/-- The texts of the types that have no name. -/
def keywords : List String := "void" :: Primitive.all.map (·.keyword)

/-- A type without arguments whose name is that of no other type. -/
def Ty.isLegible (t : Ty) : Bool :=
  match t with
  | .void => true
  | .primitive _ => true
  | .named n => n.isLegible && !keywords.contains n.text
  | .array component => component.isLegible
  | .parameterized _ _ => false
termination_by structural t

/-- The constant of an enumeration is legible in its text: it neither has parts nor reads like a class. -/
def isLegibleConstant (constant : String) : Bool := isPlain constant && !constant.toList.contains '.' && constant != "class"

section

/- The kinds of the empty arrays that the members of annotation types hold. -/
variable (κ : TypeName → String → ValueKind)

mutual

/-- The value is legible where an empty array is of the kind `k`. Only the usual pattern stands for NaN. -/
def Value.isLegible (k : ValueKind) (v : Value) : Bool :=
  match v with
  | .float x => decide (BinaryFormat.single.decode x.bits.toNat = .nan → x.bits = 0x7FC00000)
  | .double x => decide (BinaryFormat.double.decode x.bits.toNat = .nan → x.bits = 0x7FF8000000000000)
  | .enumConstant type constant => type.isLegible && isLegibleConstant constant
  | .classLiteral type => type.isLegible
  | .nested a => a.isLegible
  | .array component elements =>
    component == (elements.head?.map Value.kind).getD k && Value.allLegible k elements
  | _ => true
termination_by structural v

def Value.allLegible (k : ValueKind) (vs : List Value) : Bool :=
  match vs with
  | [] => true
  | v :: rest => v.isLegible k && Value.allLegible k rest
termination_by structural vs

/-- The names in the annotation are legible, and the members are set once. -/
def Annotation.isLegible (a : Annotation) : Bool :=
  match a with
  | ⟨type, members⟩ =>
    isPlain type.text && decide (members.map (·.name)).Nodup && Member.allLegible type members
termination_by structural a

def Member.allLegible (type : TypeName) (ms : List Member) : Bool :=
  match ms with
  | [] => true
  | m :: rest => m.isLegible type && Member.allLegible type rest
termination_by structural ms

def Member.isLegible (type : TypeName) (m : Member) : Bool :=
  match m with
  | ⟨name, value⟩ => isPlain name && value.isLegible (κ type name)
termination_by structural m

end

end

/-! ### Words -/

/-- A text in one piece. -/
structure IsWord (w : List Char) : Prop where
  some_char : w ≠ []
  unmarked : ∀ c ∈ w, c ∉ marks

/-- The words that stand for one value. -/
def specialWords : List (List Char × ValueKind) :=
  [("true".toList, .boolean), ("false".toList, .boolean), ("NaN".toList, .double), ("inf".toList, .double),
    ("-inf".toList, .double), ("NaNf".toList, .float), ("inff".toList, .float), ("-inff".toList, .float)]

/-- The kind of the value that a word stands for. -/
def kindOfWord (w : List Char) : ValueKind :=
  match specialWords.lookup w with
  | some kind => kind
  | none =>
    if w.head?.any beginsNumber then
      if w.getLast? = some 'L' then .long
      else if w.getLast? = some 'f' then .float
      else if '.' ∈ w ∨ 'e' ∈ w then .double
      else .int
    else if ".class".toList.isSuffixOf w then .classLiteral
    else .enumConstant

/-- The values that are written as words. -/
def Value.word? : Value → Option (List Char)
  | .boolean b => some (if b then "true".toList else "false".toList)
  | .int n => some (Text.decimalInt n.toInt)
  | .long n => some (Text.decimalInt n.toInt ++ ['L'])
  | .float x => some (valueLayout.write .single x.bits.toNat ++ ['f'])
  | .double x => some (valueLayout.write .double x.bits.toNat)
  | .enumConstant type constant => some (type.chars ++ '.' :: constant.toList)
  | .classLiteral type => some (type.text.toList ++ ".class".toList)
  | _ => none

theorem Value.toList_text_of_word? {v : Value} {w : List Char} (word : v.word? = some w) : v.text.toList = w := by
  cases v with
  | boolean b =>
    cases word
    cases b <;> rfl
  | _ =>
    cases word <;> simp [Value.text, intText, Decimal.Binary32.text, Decimal.Binary64.text, TypeName.chars]

/-- A word with a digit or a point is not special. -/
theorem lookup_specialWords {w : List Char} {c : Char} (member : c ∈ w) (other : c.isDigit = true ∨ c = '.') :
    specialWords.lookup w = none := by
  have letters : specialWords.all (fun p => p.1.all fun d => !d.isDigit && d != '.') = true := by decide +kernel
  simp only [List.all_eq_true, Bool.and_eq_true, Bool.not_eq_true', bne_iff_ne] at letters
  rw [List.lookup_eq_none_iff]
  intro p listed
  rw [bne_iff_ne]
  rintro rfl
  obtain ⟨letter, undotted⟩ := letters p listed c member
  rcases other with digit | dot
  · rw [letter] at digit
    cases digit
  · exact undotted dot

theorem kindOfWord_of_number {w : List Char} {first digit : Char} (head : w.head? = some first)
    (begins : beginsNumber first = true) (member : digit ∈ w) (isDigit : digit.isDigit = true) :
    kindOfWord w =
      if w.getLast? = some 'L' then .long
      else if w.getLast? = some 'f' then .float
      else if '.' ∈ w ∨ 'e' ∈ w then .double
      else .int := by
  simp [kindOfWord, lookup_specialWords member (.inl isDigit), head, begins]

theorem kindOfWord_of_name {w : List Char} {first : Char} (head : w.head? = some first)
    (begins : beginsNumber first = false) (dot : '.' ∈ w) :
    kindOfWord w = if ".class".toList.isSuffixOf w then .classLiteral else .enumConstant := by
  simp [kindOfWord, lookup_specialWords dot (.inr rfl), head, begins]

theorem kindOfWord_special {p : List Char × ValueKind} (listed : p ∈ specialWords) :
    IsWord p.1 ∧ kindOfWord p.1 = p.2 := by
  have all : specialWords.all (fun p => (p.1 != [] && p.1.all fun c => !marks.contains c) && kindOfWord p.1 == p.2) =
      true := by decide +kernel
  simp only [List.all_eq_true, Bool.and_eq_true, Bool.not_eq_true', bne_iff_ne, beq_iff_eq, List.contains_eq_mem,
    decide_eq_false_iff_not] at all
  exact ⟨⟨(all p listed).1.1, (all p listed).1.2⟩, (all p listed).2⟩

theorem notMem_marks_of_isDigit {c : Char} (digit : c.isDigit = true) : c ∉ marks := by
  have symbols : ∀ m ∈ marks, m.isDigit = false := by simp [marks, closers]
  intro marked
  rw [symbols c marked] at digit
  cases digit

/-- The texts of numbers, with what stands behind some of them. -/
theorem isWord_of_number {w : List Char} {first : Char} (head : w.head? = some first)
    (chars : ∀ c ∈ w, c.isDigit = true ∨ c ∈ ['.', 'e', '-', 'L', 'f']) : IsWord w := by
  have others : ∀ c ∈ ['.', 'e', '-', 'L', 'f'], c ∉ marks := by simp [marks, closers]
  refine ⟨?_, fun c member => (chars c member).elim notMem_marks_of_isDigit (others c)⟩
  rintro rfl
  cases head

theorem head?_decimalInt (n : Int) :
    ∃ first, (Text.decimalInt n).head? = some first ∧ beginsNumber first = true := by
  cases n with
  | ofNat n =>
    obtain ⟨first, head, digit⟩ := Decimal.isDigit_of_head?_decimal n
    exact ⟨first, head, by simp [beginsNumber, digit]⟩
  | negSucc n => exact ⟨'-', rfl, rfl⟩

theorem exists_digit_decimalInt (n : Int) : ∃ digit ∈ Text.decimalInt n, digit.isDigit = true := by
  have some_digit (m : Nat) : ∃ digit ∈ Text.decimal m, digit.isDigit = true := by
    obtain ⟨first, head, digit⟩ := Decimal.isDigit_of_head?_decimal m
    exact ⟨first, List.mem_of_mem_head? head, digit⟩
  cases n with
  | ofNat n => exact some_digit n
  | negSucc n =>
    obtain ⟨digit, member, isDigit⟩ := some_digit (n + 1)
    exact ⟨digit, List.mem_cons_of_mem _ member, isDigit⟩

theorem notMem_decimalInt {c : Char} (other : c.isDigit = false) (unsigned : c ≠ '-') (n : Int) :
    c ∉ Text.decimalInt n := by
  intro member
  rcases Decimal.chars_decimalInt member with digit | sign
  · rw [other] at digit
    cases digit
  · exact unsigned sign

theorem kindOfWord_int (n : Int) : IsWord (Text.decimalInt n) ∧ kindOfWord (Text.decimalInt n) = .int := by
  obtain ⟨first, head, begins⟩ := head?_decimalInt n
  obtain ⟨digit, member, isDigit⟩ := exists_digit_decimalInt n
  have absent (c : Char) (other : c.isDigit = false) (unsigned : c ≠ '-') : c ∉ Text.decimalInt n :=
    notMem_decimalInt other unsigned n
  have last (c : Char) (other : c.isDigit = false) (unsigned : c ≠ '-') : (Text.decimalInt n).getLast? ≠ some c :=
    fun ends => absent c other unsigned (List.mem_of_getLast? ends)
  constructor
  · refine isWord_of_number head fun c inside => (Decimal.chars_decimalInt inside).imp_right ?_
    rintro rfl
    decide
  · rw [kindOfWord_of_number head begins member isDigit, if_neg (last 'L' rfl (by decide)),
      if_neg (last 'f' rfl (by decide)), if_neg]
    rintro (point | exponent)
    · exact absent '.' rfl (by decide) point
    · exact absent 'e' rfl (by decide) exponent

theorem kindOfWord_long (n : Int) :
    IsWord (Text.decimalInt n ++ ['L']) ∧ kindOfWord (Text.decimalInt n ++ ['L']) = .long := by
  obtain ⟨first, head, begins⟩ := head?_decimalInt n
  obtain ⟨digit, member, isDigit⟩ := exists_digit_decimalInt n
  have head' : (Text.decimalInt n ++ ['L']).head? = some first := by simp [head]
  constructor
  · refine isWord_of_number head' fun c inside => ?_
    rcases List.mem_append.1 inside with number | suffix
    · exact (Decimal.chars_decimalInt number).imp_right (by rintro rfl; decide)
    · exact .inr (by rw [List.mem_singleton.1 suffix]; decide)
  · rw [kindOfWord_of_number head' begins (List.mem_append_left _ member) isDigit, if_pos (by simp)]

/-- What is known of the text of a finite number. -/
theorem signed_number {s : List Char} (text : Decimal.IsNumberText s) (negative : Bool) :
    (∃ first, (Decimal.signed negative s).head? = some first ∧ beginsNumber first = true) ∧
      (∃ digit ∈ Decimal.signed negative s, digit.isDigit = true) ∧
      (∀ c ∈ Decimal.signed negative s, c.isDigit = true ∨ c ∈ ['.', 'e', '-']) ∧
      ('.' ∈ Decimal.signed negative s ∨ 'e' ∈ Decimal.signed negative s) := by
  obtain ⟨first, head, digit⟩ := text.starts
  have inside := List.mem_of_mem_head? head
  cases negative with
  | false => exact ⟨⟨first, head, by simp [beginsNumber, digit]⟩, ⟨first, inside, digit⟩, text.chars, text.marked⟩
  | true =>
    refine ⟨⟨'-', rfl, rfl⟩, ⟨first, List.mem_cons_of_mem _ inside, digit⟩, fun c member => ?_,
      text.marked.imp (List.mem_cons_of_mem _) (List.mem_cons_of_mem _)⟩
    rcases List.mem_cons.1 member with rfl | later
    · exact .inr (by decide)
    · exact text.chars c later

theorem kindOfWord_float (f : BinaryFormat) (bits : Nat) :
    IsWord (valueLayout.write f bits ++ ['f']) ∧ kindOfWord (valueLayout.write f bits ++ ['f']) = .float := by
  obtain ⟨-, text⟩ | ⟨negative, -, text⟩ | ⟨negative, m, q, -, text⟩ := valueLayout.write_eq f bits <;> rw [text]
  · exact kindOfWord_special (by decide : ("NaNf".toList, ValueKind.float) ∈ specialWords)
  · cases negative with
    | false => exact kindOfWord_special (by decide : ("inff".toList, ValueKind.float) ∈ specialWords)
    | true => exact kindOfWord_special (by decide : ("-inff".toList, ValueKind.float) ∈ specialWords)
  · obtain ⟨⟨first, head, begins⟩, ⟨digit, member, isDigit⟩, chars, -⟩ :=
      signed_number (Decimal.isNumberText_value f m q) negative
    generalize Decimal.signed negative (valueLayout.magnitude f m q) = w at head member chars
    have head' : (w ++ ['f']).head? = some first := by simp [head]
    constructor
    · refine isWord_of_number head' fun c inside => ?_
      rcases List.mem_append.1 inside with number | suffix
      · exact (chars c number).imp_right (by simp +contextual [or_imp])
      · exact .inr (by rw [List.mem_singleton.1 suffix]; decide)
    · rw [kindOfWord_of_number head' begins (List.mem_append_left _ member) isDigit, if_neg (by simp), if_pos (by simp)]

theorem kindOfWord_double (f : BinaryFormat) (bits : Nat) :
    IsWord (valueLayout.write f bits) ∧ kindOfWord (valueLayout.write f bits) = .double := by
  obtain ⟨-, text⟩ | ⟨negative, -, text⟩ | ⟨negative, m, q, -, text⟩ := valueLayout.write_eq f bits <;> rw [text]
  · exact kindOfWord_special (by decide : ("NaN".toList, ValueKind.double) ∈ specialWords)
  · cases negative with
    | false => exact kindOfWord_special (by decide : ("inf".toList, ValueKind.double) ∈ specialWords)
    | true => exact kindOfWord_special (by decide : ("-inf".toList, ValueKind.double) ∈ specialWords)
  · obtain ⟨⟨first, head, begins⟩, ⟨digit, member, isDigit⟩, chars, marked⟩ :=
      signed_number (Decimal.isNumberText_value f m q) negative
    generalize Decimal.signed negative (valueLayout.magnitude f m q) = w at head member chars marked
    have last (c : Char) (other : c.isDigit = false) (unused : c ∉ ['.', 'e', '-']) : w.getLast? ≠ some c := by
      intro ends
      rcases chars c (List.mem_of_getLast? ends) with digit | symbol
      · rw [other] at digit
        cases digit
      · exact unused symbol
    constructor
    · exact isWord_of_number head fun c inside => (chars c inside).imp_right (by simp +contextual [or_imp])
    · rw [kindOfWord_of_number head begins member isDigit, if_neg (last 'L' rfl (by decide)),
        if_neg (last 'f' rfl (by decide)), if_pos marked]

/-! ### Words with names -/

theorem notMem_punctuation {name : String} (plain : isPlain name = true) {c : Char} (member : c ∈ name.toList) :
    c ∉ punctuation := by
  have all := List.all_eq_true.1 plain c member
  simpa using all

theorem notMem_marks {name : String} (plain : isPlain name = true) {c : Char} (member : c ∈ name.toList) : c ∉ marks :=
  fun marked => notMem_punctuation plain member (List.mem_append_left _ marked)

theorem TypeName.head?_of_isLegible {n : TypeName} (legible : n.isLegible = true) :
    isPlain n.text = true ∧ ∃ first, n.chars.head? = some first ∧ beginsNumber first = false := by
  rw [isLegible, Bool.and_eq_true] at legible
  refine ⟨legible.1, ?_⟩
  cases head : n.chars.head? with
  | none => simp [head] at legible
  | some first => exact ⟨first, rfl, by simpa [head] using legible.2⟩

theorem keyword_unmarked {s : String} (known : s ∈ keywords) :
    (∀ c ∈ s.toList, c ∉ marks) ∧ ∃ first, s.toList.head? = some first ∧ beginsNumber first = false := by
  have all : keywords.all (fun s => (s.toList.all fun c => !marks.contains c) &&
      s.toList.head?.any fun c => !beginsNumber c) = true := by decide +kernel
  have both := List.all_eq_true.1 all s known
  rw [Bool.and_eq_true, Option.any_eq_true] at both
  obtain ⟨unmarked, first, head, begins⟩ := both
  exact ⟨by simpa using unmarked, first, head, by simpa using begins⟩

theorem Primitive.keyword_mem (p : Primitive) : p.keyword ∈ keywords := by
  cases p <;> decide

/-- The text of a type is in one piece and does not begin like a number. -/
theorem Ty.text_of_isLegible {t : Ty} (legible : t.isLegible = true) :
    (∀ c ∈ t.text.toList, c ∉ marks) ∧ ∃ first, t.text.toList.head? = some first ∧ beginsNumber first = false := by
  cases t with
  | void => exact keyword_unmarked (by decide)
  | primitive p => exact keyword_unmarked p.keyword_mem
  | named n =>
    rw [isLegible, Bool.and_eq_true] at legible
    obtain ⟨plain, head⟩ := TypeName.head?_of_isLegible legible.1
    exact ⟨fun c member => notMem_marks plain member, head⟩
  | array component =>
    rw [isLegible] at legible
    obtain ⟨unmarked, first, head, begins⟩ := text_of_isLegible legible
    rw [text, String.toList_append]
    refine ⟨fun c member => ?_, first, by simp [head], begins⟩
    rcases List.mem_append.1 member with inside | bracket
    · exact unmarked c inside
    · have brackets : c = '[' ∨ c = ']' := by simpa using bracket
      rcases brackets with rfl | rfl <;> decide
  | parameterized raw arguments => cases legible
termination_by structural t

theorem kindOfWord_enumConstant {type : TypeName} {constant : String} (legible : type.isLegible = true)
    (legible' : isLegibleConstant constant = true) :
    IsWord (type.chars ++ '.' :: constant.toList) ∧ kindOfWord (type.chars ++ '.' :: constant.toList) = .enumConstant := by
  obtain ⟨plain, first, head, begins⟩ := TypeName.head?_of_isLegible legible
  simp only [isLegibleConstant, Bool.and_eq_true, Bool.not_eq_true', bne_iff_ne] at legible'
  obtain ⟨⟨plain', undotted⟩, named⟩ := legible'
  constructor
  · refine ⟨by simp, fun c member => ?_⟩
    rcases List.mem_append.1 member with inside | later
    · exact notMem_marks plain inside
    · rcases List.mem_cons.1 later with rfl | inside
      · decide
      · exact notMem_marks plain' inside
  · rw [kindOfWord_of_name (by simp [head]) begins (by simp), if_neg]
    intro suffix
    obtain ⟨before, whole⟩ := List.isSuffixOf_iff_suffix.1 suffix
    have classText : ".class".toList = '.' :: "class".toList := by decide
    rw [classText] at whole
    have last := (last_separator_inj (by decide) (by simpa using undotted) whole).2
    exact named (String.toList_inj.1 last).symm

theorem kindOfWord_classLiteral {type : Ty} (legible : type.isLegible = true) :
    IsWord (type.text.toList ++ ".class".toList) ∧ kindOfWord (type.text.toList ++ ".class".toList) = .classLiteral := by
  obtain ⟨unmarked, first, head, begins⟩ := Ty.text_of_isLegible legible
  constructor
  · refine ⟨by simp, fun c member => ?_⟩
    rcases List.mem_append.1 member with inside | later
    · exact unmarked c inside
    · have ending : (".class".toList.all fun c => !marks.contains c) = true := by decide +kernel
      simpa using List.all_eq_true.1 ending c later
  · have suffix := List.isSuffixOf_iff_suffix.2 (List.suffix_append type.text.toList ".class".toList)
    rw [kindOfWord_of_name (by simp [head]) begins (by simp), if_pos suffix]

/-! ### Equal words -/

/-- The types that have no name. -/
def Ty.unnamed : List Ty := .void :: Primitive.all.map .primitive

theorem Ty.text_mem_keywords : ∀ t ∈ unnamed, t.text ∈ keywords := by decide +kernel

theorem Ty.unnamed_inj : ∀ t ∈ unnamed, ∀ u ∈ unnamed, t.text = u.text → t = u := by decide +kernel

/-- What a legible type is that is no array. -/
theorem Ty.unnamed_or_named {t : Ty} (legible : t.isLegible = true) (single : t.component? = none) :
    t ∈ unnamed ∨ ∃ n, t = .named n ∧ isPlain n.text = true ∧ n.text ∉ keywords := by
  cases t with
  | void => exact .inl List.mem_cons_self
  | primitive p => exact .inl (by cases p <;> decide)
  | named n =>
    rw [isLegible, Bool.and_eq_true] at legible
    exact .inr ⟨n, rfl, (TypeName.head?_of_isLegible legible.1).1, by simpa using legible.2⟩
  | array component => cases single
  | parameterized raw arguments => cases legible

theorem Ty.bracket_notMem_text {t : Ty} (legible : t.isLegible = true) (single : t.component? = none) :
    ']' ∉ t.text.toList := by
  obtain known | ⟨n, rfl, plain, -⟩ := unnamed_or_named legible single
  · have all : unnamed.all (fun t => !t.text.toList.contains ']') = true := by decide +kernel
    simpa using List.all_eq_true.1 all t known
  · intro bracket
    exact notMem_punctuation plain bracket (by decide)

theorem Ty.bracket_mem_text (component : Ty) : ']' ∈ (Ty.array component).text.toList := by simp [text]

theorem Ty.eq_of_text_of_single {t u : Ty} (legible : t.isLegible = true) (legible' : u.isLegible = true)
    (single : t.component? = none) (single' : u.component? = none) (same : t.text = u.text) : t = u := by
  obtain known | ⟨n, rfl, -, fresh⟩ := unnamed_or_named legible single <;>
    obtain known' | ⟨n', rfl, -, fresh'⟩ := unnamed_or_named legible' single'
  · exact unnamed_inj t known u known' same
  · have keyword := text_mem_keywords t known
    rw [same] at keyword
    exact absurd keyword fresh'
  · have keyword := text_mem_keywords u known'
    rw [← same] at keyword
    exact absurd keyword fresh
  · exact congrArg Ty.named (congrArg TypeName.mk same)

/-- A legible type is known from its text. -/
theorem Ty.eq_of_text {t u : Ty} (legible : t.isLegible = true) (legible' : u.isLegible = true)
    (same : t.text = u.text) : t = u := by
  cases t with
  | array component =>
    have bracket := same ▸ bracket_mem_text component
    cases u with
    | array component' =>
      rw [isLegible] at legible legible'
      rw [text, text] at same
      rw [eq_of_text legible legible' ((String.append_left_inj _).1 same)]
    | _ => exact absurd bracket (bracket_notMem_text legible' rfl)
  | _ =>
    cases u with
    | array component => exact absurd (same ▸ bracket_mem_text component) (bracket_notMem_text legible rfl)
    | _ => exact eq_of_text_of_single legible legible' rfl rfl same
termination_by structural t

theorem decimalInt_inj {m n : Int} (same : Text.decimalInt m = Text.decimalInt n) : m = n := by
  rw [← Decimal.readInt_decimalInt m, same, Decimal.readInt_decimalInt]

section

variable {κ : TypeName → String → ValueKind} {k : ValueKind} {v w : Value}

/-- A word is in one piece and shows the kind of the value. -/
theorem Value.kindOfWord_of_word? (legible : v.isLegible κ k = true) {s : List Char} (word : v.word? = some s) :
    IsWord s ∧ kindOfWord s = v.kind := by
  cases v with
  | boolean b =>
    cases word
    cases b with
    | false => exact kindOfWord_special (by decide : ("false".toList, ValueKind.boolean) ∈ specialWords)
    | true => exact kindOfWord_special (by decide : ("true".toList, ValueKind.boolean) ∈ specialWords)
  | int n =>
    cases word
    exact kindOfWord_int n.toInt
  | long n =>
    cases word
    exact kindOfWord_long n.toInt
  | float x =>
    cases word
    exact kindOfWord_float .single x.bits.toNat
  | double x =>
    cases word
    exact kindOfWord_double .double x.bits.toNat
  | enumConstant type constant =>
    cases word
    rw [isLegible, Bool.and_eq_true] at legible
    exact kindOfWord_enumConstant legible.1 legible.2
  | classLiteral type =>
    cases word
    rw [isLegible] at legible
    exact kindOfWord_classLiteral legible
  | _ => cases word

/-- Words of one kind are equal only if the values are. -/
theorem Value.eq_of_word? (legible : v.isLegible κ k = true) (legible' : w.isLegible κ k = true) {s : List Char}
    (word : v.word? = some s) (word' : w.word? = some s) : v = w := by
  have kinds : v.kind = w.kind := (kindOfWord_of_word? legible word).2.symm.trans (kindOfWord_of_word? legible' word').2
  have words := word.trans word'.symm
  cases v with
  | boolean b =>
    cases w with
    | boolean b' =>
      have texts : (if b then "true".toList else "false".toList) = if b' then "true".toList else "false".toList :=
        Option.some.inj words
      revert texts
      cases b <;> cases b' <;> simp
    | _ => cases kinds
  | int n =>
    cases w with
    | int n' => rw [Int32.toInt_inj.1 (decimalInt_inj (Option.some.inj words))]
    | _ => cases kinds
  | long n =>
    cases w with
    | long n' => rw [Int64.toInt_inj.1 (decimalInt_inj (List.append_cancel_right (Option.some.inj words)))]
    | _ => cases kinds
  | float x =>
    cases w with
    | float y =>
      rw [isLegible, decide_eq_true_iff] at legible legible'
      have bits := Decimal.eq_of_write BinaryFormat.moderate_single x.bits.toNat_lt y.bits.toNat_lt
        (fun nan => congrArg UInt32.toNat (legible nan)) (fun nan => congrArg UInt32.toNat (legible' nan))
        (List.append_cancel_right (Option.some.inj words))
      exact congrArg Value.float (congrArg Decimal.Binary32.mk (UInt32.toNat_inj.1 bits))
    | _ => cases kinds
  | double x =>
    cases w with
    | double y =>
      rw [isLegible, decide_eq_true_iff] at legible legible'
      have bits := Decimal.eq_of_write BinaryFormat.moderate_double x.bits.toNat_lt y.bits.toNat_lt
        (fun nan => congrArg UInt64.toNat (legible nan)) (fun nan => congrArg UInt64.toNat (legible' nan))
        (Option.some.inj words)
      exact congrArg Value.double (congrArg Decimal.Binary64.mk (UInt64.toNat_inj.1 bits))
    | _ => cases kinds
  | enumConstant type constant =>
    cases w with
    | enumConstant type' constant' =>
      simp only [isLegible, isLegibleConstant, Bool.and_eq_true, Bool.not_eq_true'] at legible legible'
      obtain ⟨before, after⟩ :=
        last_separator_inj (by simpa using legible.2.1.2) (by simpa using legible'.2.1.2) (Option.some.inj words)
      have types : type = type' := congrArg TypeName.mk (String.toList_inj.1 before)
      rw [types, String.toList_inj.1 after]
    | _ => cases kinds
  | classLiteral type =>
    cases w with
    | classLiteral type' =>
      rw [isLegible] at legible legible'
      have texts := List.append_cancel_right (Option.some.inj words)
      rw [Ty.eq_of_text legible legible' (String.toList_inj.1 texts)]
    | _ => cases kinds
  | _ => cases word

end

end AnnotationWeaver
