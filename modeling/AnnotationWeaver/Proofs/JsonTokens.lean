import AnnotationWeaver.Json.Reader
import AnnotationWeaver.Json.Writer
import AnnotationWeaver.Proofs.EscapedTexts
import AnnotationWeaver.Proofs.FloatTexts

/-!
Strings and integers in JSON text. A string is read up to its closing quote: every escape that is written is
one that the reader knows, and no character of a string is a surrogate. An integer is read up to the first
character that does not continue a number; it stays an integer as long as its digits fit 64 bits.
-/
namespace AnnotationWeaver.Json

/-! ## Strings -/

theorem padZeros_hex {n : Nat} (byte : n < 256) :
    Text.padZeros 4 (Text.hex n) = ['0', '0', Nat.digitChar (n / 16), Nat.digitChar (n % 16)] := by
  obtain ⟨small, digits⟩ | ⟨large, digits⟩ := Text.hex_step n
  · rw [digits, Nat.div_eq_of_lt small, Nat.mod_eq_of_lt small]
    rfl
  · obtain ⟨-, first⟩ | ⟨larger, -⟩ := Text.hex_step (n / 16)
    · rw [digits, first]
      rfl
    · omega

theorem hexValue?_digitChar {d : Nat} (small : d < 16) : Text.hexValue? (Nat.digitChar d) = some d := by
  have all : ∀ i : Fin 16, Text.hexValue? (Nat.digitChar i) = some i.val := by decide
  exact all ⟨d, small⟩

/-- The unit of a character that is escaped by its number. -/
theorem readUnit_hex {n : Nat} (byte : n < 256) :
    readUnit '0' '0' (Nat.digitChar (n / 16)) (Nat.digitChar (n % 16)) = some n := by
  have zero : Text.hexValue? '0' = some 0 := by decide
  have value : n / 16 * 16 + n % 16 = n := Nat.div_add_mod' n 16
  simp [readUnit, zero, hexValue?_digitChar (show n / 16 < 16 by omega),
    hexValue?_digitChar (Nat.mod_lt n (by decide)), value]

/-- A character that stands for itself. -/
theorem readUnits_plain {c : Char} (quote : c ≠ '"') (escape : c ≠ '\\') (printed : ¬ c.toNat < 0x20) (rest : List Char) :
    readUnits (c :: rest) = readUnits.unit c.toNat rest := by
  rw [readUnits, readUnits.unit, if_neg (not_or.2 ⟨escape, printed⟩)]
  · exact quote
  all_goals intros; contradiction

/-- What is written for a character is read as the character: each escape is one that the reader knows. -/
theorem readUnits_writeChar (c : Char) (rest : List Char) :
    readUnits (writeChar c ++ rest) = readUnits.unit c.toNat rest := by
  unfold writeChar
  split
  · next special => obtain rfl | rfl := special <;> exact readUnits.eq_def _
  split
  · next line => exact line ▸ readUnits.eq_def _
  split
  · next carriage => exact carriage ▸ readUnits.eq_def _
  split
  · next tab => exact tab ▸ readUnits.eq_def _
  split
  · next backspace => exact backspace ▸ readUnits.eq_def _
  split
  · next feed => exact feed ▸ readUnits.eq_def _
  split
  · next control =>
    have byte : c.toNat < 256 := Nat.lt_trans control (by decide)
    rw [padZeros_hex byte]
    show readUnits ('\\' :: 'u' :: _ :: _ :: _ :: _ :: rest) = _
    rw [readUnits, readUnit_hex byte, readUnits.unit]
  · next special _ _ _ _ _ printed =>
    rw [not_or] at special
    exact readUnits_plain special.1 special.2 printed rest

theorem readUnits_escaped (s rest : List Char) :
    readUnits (s.flatMap writeChar ++ '"' :: rest) = some (s.map (·.toNat), rest) := by
  induction s with
  | nil => exact readUnits.eq_def _
  | cons c s ih =>
    rw [List.flatMap_cons, List.append_assoc, readUnits_writeChar, readUnits.unit, ih]
    rfl

/-- No character is a surrogate. -/
theorem not_surrogate (c : Char) : isTrailing c.toNat = false ∧ isLeading c.toNat = false := by
  have valid : c.toNat < 0xD800 ∨ 0xDFFF < c.toNat ∧ c.toNat < 0x110000 := c.valid
  simp only [isTrailing, isLeading, Bool.and_eq_false_iff, decide_eq_false_iff_not]
  omega

theorem joinUnits_chars (s : List Char) : joinUnits (s.map (·.toNat)) = some s := by
  induction s with
  | nil => rfl
  | cons c s ih =>
    obtain ⟨trailing, leading⟩ := not_surrogate c
    rw [List.map_cons, joinUnits.eq_def]
    simp [trailing, leading, ih]

theorem readString_escaped (s : String) (rest : List Char) :
    readString (s.toList.flatMap writeChar ++ '"' :: rest) = some (some s, rest) := by
  simp [readString, readUnits_escaped, joinUnits_chars]

/-! ## Integers -/

/-- The values of digits. -/
def digitValues (s : List Char) : List Nat := s.map fun c => c.toNat - '0'.toNat

/-- No number goes on with this text. -/
def EndsNumber (s : List Char) : Prop := ∀ c ∈ s.head?, c.isDigit = false ∧ c ∉ ['.', 'e', 'E']

theorem decimalValue?_of_isDigit {c : Char} (digit : c.isDigit = true) :
    Text.decimalValue? c = some (c.toNat - '0'.toNat) := by
  simp only [Char.isDigit, Bool.and_eq_true, decide_eq_true_eq] at digit
  exact if_pos digit

theorem decimalValue?_of_not_isDigit {c : Char} (other : c.isDigit = false) : Text.decimalValue? c = none := by
  simp only [Char.isDigit, Bool.and_eq_false_iff, decide_eq_false_iff_not] at other
  exact if_neg (not_and_or.2 other)

theorem readDigits_append {s rest : List Char} (digits : ∀ c ∈ s, c.isDigit = true)
    (ends : ∀ c ∈ rest.head?, c.isDigit = false) : readDigits (s ++ rest) = (digitValues s, rest) := by
  induction s with
  | nil =>
    cases rest with
    | nil => rfl
    | cons c rest => simp [readDigits, decimalValue?_of_not_isDigit (ends c rfl), digitValues]
  | cons c s ih =>
    obtain ⟨digit, digits⟩ := List.forall_mem_cons.1 digits
    simp [readDigits, decimalValue?_of_isDigit digit, ih digits, digitValues]

/-- Digits only make a number greater. -/
theorem le_foldl_digits (digits : List Nat) (n : Nat) : n ≤ digits.foldl (fun n d => 10 * n + d) n := by
  induction digits generalizing n with
  | nil => exact Nat.le_refl n
  | cons d rest ih => exact Nat.le_trans (by omega) (ih (10 * n + d))

theorem takeWhole_of_lt {digits : List Nat} {n : Nat} (fits : digits.foldl (fun n d => 10 * n + d) n < wordLimit) :
    takeWhole false ⟨n, 0⟩ digits = (false, ⟨digits.foldl (fun n d => 10 * n + d) n, 0⟩) := by
  induction digits generalizing n with
  | nil => rfl
  | cons d rest ih =>
    have first : 10 * n + d < wordLimit := Nat.lt_of_le_of_lt (le_foldl_digits rest _) fits
    rw [takeWhole, if_pos first]
    exact ih fits

theorem foldl_digitValues (n : Nat) : (digitValues (Text.decimal n)).foldl (fun n d => 10 * n + d) 0 = n := by
  rw [digitValues, List.foldl_map]
  exact Nat.ofDigitChars_ten_toDigits

/-- The digits of a number; the first one is zero in zero alone, which has no other. -/
theorem digitValues_decimal (n : Nat) :
    ∃ d rest, digitValues (Text.decimal n) = d :: rest ∧ (d = 0 → n = 0 ∧ rest = []) := by
  -- The first digit of a long number is that of the number without its last digit.
  induction n using Nat.strongRecOn with
  | ind n ih =>
    rcases Nat.lt_or_ge n 10 with small | large
    · have value : ∀ i : Fin 10, (Nat.digitChar i).toNat - '0'.toNat = i.val := by decide
      refine ⟨n, [], ?_, fun zero => ⟨zero, rfl⟩⟩
      rw [Text.decimal, Text.digits, Nat.toDigits_of_lt_base small]
      exact congrArg (fun d => [d]) (value ⟨n, small⟩)
    · obtain ⟨d, rest, digits, zero⟩ := ih (n / 10) (Nat.div_lt_self (by omega) (by decide))
      refine ⟨d, rest ++ digitValues [Nat.digitChar (n % 10)], ?_, fun leading => ?_⟩
      · rw [Text.decimal, Text.digits, Nat.toDigits_of_base_le (by decide) large]
        rw [Text.decimal, Text.digits] at digits
        rw [digitValues, List.map_append, ← digitValues, digits]
        rfl
      · have := (zero leading).1
        omega

theorem readWhole_decimal (n : Nat) {rest : List Char} (ends : EndsNumber rest) :
    readWhole (Text.decimal n ++ rest) = some (digitValues (Text.decimal n), rest) := by
  have digits : ∀ c ∈ Text.decimal n, c.isDigit = true := fun _ => Decimal.isDigit_of_mem_decimal
  rw [readWhole, readDigits_append digits fun c first => (ends c first).1]
  obtain ⟨d, others, shape, zero⟩ := digitValues_decimal n
  rw [shape]
  cases d with
  | zero =>
    rw [(zero rfl).2]
    rfl
  | succ d => rfl

theorem readFraction_of_endsNumber {rest : List Char} (ends : EndsNumber rest) : readFraction rest = some ([], rest) := by
  cases rest with
  | nil => rfl
  | cons c rest =>
    have other : c ≠ '.' := by
      rintro rfl
      exact (ends _ rfl).2 (by decide)
    rw [readFraction]
    rintro _ same
    exact other (List.cons.inj same).1

theorem readExponent_of_endsNumber {rest : List Char} (ends : EndsNumber rest) :
    readExponent rest = some (none, rest) := by
  cases rest with
  | nil => rfl
  | cons c rest =>
    have other : ¬ (c = 'e' ∨ c = 'E') := by
      rintro (rfl | rfl) <;> exact (ends _ rfl).2 (by decide)
    rw [readExponent.eq_def]
    exact if_neg other

theorem readNumber_decimal (negative : Bool) {n : Nat} (fits : n < wordLimit)
    (least : negative = true → 0 < n ∧ n ≤ Int64.minValue.toInt.natAbs) {rest : List Char} (ends : EndsNumber rest) :
    readNumber negative (Text.decimal n ++ rest) = some (.int (if negative then -n else n), rest) := by
  have whole : takeWhole false ⟨0, 0⟩ (digitValues (Text.decimal n)) = (false, ⟨n, 0⟩) := by
    rw [takeWhole_of_lt (by rwa [foldl_digitValues]), foldl_digitValues]
  have value : NumberText.value ⟨negative, digitValues (Text.decimal n), [], none⟩ =
      .int (if negative then -n else n) := by
    cases negative with
    | false => simp [NumberText.value, whole, takeFraction]
    | true =>
      have bounds := least rfl
      simp only [NumberText.value, whole, takeFraction, bounds, and_self, not_true, if_true, if_false,
        Bool.false_eq_true]
  simp [readNumber, readWhole_decimal n ends, readFraction_of_endsNumber ends, readExponent_of_endsNumber ends, value]

/-- A text that starts as no number goes on. -/
theorem endsNumber_cons {c : Char} (other : c.isDigit = false) (mark : c ∉ ['.', 'e', 'E']) (s : List Char) :
    EndsNumber (c :: s) := by
  intro d first
  cases first
  exact ⟨other, mark⟩

theorem ne_of_isDigit {c d : Char} (digit : c.isDigit = true) (other : d.isDigit = false) : c ≠ d := by
  rintro rfl
  rw [digit] at other
  cases other

theorem exists_decimal_eq_cons (n : Nat) : ∃ c s, Text.decimal n = c :: s ∧ c.isDigit = true := by
  obtain ⟨c, head, digit⟩ := Decimal.isDigit_of_head?_decimal n
  obtain ⟨s, text⟩ := List.head?_eq_some_iff.1 head
  exact ⟨c, s, text, digit⟩

/-- A number that starts with a digit is no other value. -/
theorem readScalar_of_isDigit {c : Char} (digit : c.isDigit = true) (s : List Char) :
    readScalar (c :: s) = readNumber false (c :: s) := by
  unfold readScalar
  split
  all_goals first | rfl | (next same => exact absurd (List.cons.inj same).1 (ne_of_isDigit digit rfl))

theorem readScalar_int {n : Int} (least : Int64.minValue.toInt ≤ n) (fits : n < wordLimit) {rest : List Char}
    (ends : EndsNumber rest) : readScalar (Text.decimalInt n ++ rest) = some (.int n, rest) := by
  cases n with
  | ofNat n =>
    obtain ⟨c, s, text, digit⟩ := exists_decimal_eq_cons n
    have read := readNumber_decimal false (Int.ofNat_lt.1 fits) (fun h => by cases h) ends
    rw [Text.decimalInt]
    rw [text] at read ⊢
    rw [List.cons_append, readScalar_of_isDigit digit]
    exact read
  | negSucc n =>
    have bounds : n + 1 ≤ Int64.minValue.toInt.natAbs := by omega
    have small : n + 1 < wordLimit := Nat.lt_of_le_of_lt bounds (by decide)
    exact readNumber_decimal true small (fun _ => ⟨Nat.succ_pos n, bounds⟩) ends

end AnnotationWeaver.Json
