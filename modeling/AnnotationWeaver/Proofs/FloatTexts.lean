import AnnotationWeaver.Annotation.Text
import AnnotationWeaver.Proofs.Decimals
import Mathlib.Data.List.TakeWhile

/-!
Texts of floating-point numbers. A text that is laid out from digits and an exponent is read back by hand: as the digits
before and after the point, times a power of ten. What is read is the shortest decimal of the number, which belongs to one
number alone, so different numbers have different texts. The texts of NaN are all the same.
-/
namespace AnnotationWeaver.Decimal

/-! ### Bit patterns -/

namespace BinaryFormat

variable {f : BinaryFormat} {bits bits' : Nat}

/-- The sign, the exponent field and the stored fraction of a pattern. -/
def parts (f : BinaryFormat) (bits : Nat) : Bool × Nat × Nat :=
  (bits / f.signBit % 2 == 1, bits / 2 ^ f.fraction % 2 ^ f.exponent, bits % 2 ^ f.fraction)

theorem eq_of_parts (small : bits < 2 * f.signBit) (small' : bits' < 2 * f.signBit)
    (same : f.parts bits = f.parts bits') : bits = bits' := by
  have whole (b : Nat) (small : b < 2 * f.signBit) :
      b = ((if b / f.signBit % 2 == 1 then 1 else 0) * 2 ^ f.exponent + b / 2 ^ f.fraction % 2 ^ f.exponent) * 2 ^ f.fraction
        + b % 2 ^ f.fraction := by
    have signBit : f.signBit = 2 ^ f.fraction * 2 ^ f.exponent := by
      rw [signBit, Nat.one_shiftLeft, ← Nat.pow_add, Nat.add_comm]
    have top : b / f.signBit < 2 := Nat.div_lt_of_lt_mul (by omega)
    have sign : (if b / f.signBit % 2 == 1 then 1 else 0) = b / f.signBit := by
      rcases Nat.le_one_iff_eq_zero_or_eq_one.1 (Nat.le_of_lt_succ top) with h | h <;> simp [h]
    rw [sign, signBit, ← Nat.div_div_eq_div_mul, Nat.div_add_mod', Nat.div_add_mod']
  simp only [parts, Prod.mk.injEq] at same
  rw [whole bits small, whole bits' small', same.1, same.2.1, same.2.2]

theorem stored_lt (f : BinaryFormat) (bits : Nat) : (f.parts bits).2.2 < 2 ^ f.fraction :=
  Nat.mod_lt _ (Nat.two_pow_pos _)

theorem field_lt (f : BinaryFormat) (bits : Nat) : (f.parts bits).2.1 < 2 ^ f.exponent :=
  Nat.mod_lt _ (Nat.two_pow_pos _)

theorem decode_eq (f : BinaryFormat) (bits : Nat) :
    f.decode bits =
      if (f.parts bits).2.1 = 2 ^ f.exponent - 1 then
        if (f.parts bits).2.2 = 0 then .infinite (f.parts bits).1 else .nan
      else if (f.parts bits).2.1 = 0 then .finite (f.parts bits).1 (f.parts bits).2.2 f.leastExponent
      else .finite (f.parts bits).1 (2 ^ f.fraction + (f.parts bits).2.2)
        (f.leastExponent + ((f.parts bits).2.1 - 1 : Nat)) := by
  simp only [decode, parts, Nat.one_shiftLeft, Nat.shiftRight_eq_div_pow]
  rfl

/-- A number has one pattern. -/
theorem decode_inj (small : bits < 2 * f.signBit) (small' : bits' < 2 * f.signBit)
    (same : f.decode bits = f.decode bits') (number : f.decode bits ≠ .nan) : bits = bits' := by
  refine eq_of_parts small small' ?_
  have stored := f.stored_lt bits
  have stored' := f.stored_lt bits'
  rw [decode_eq] at number
  rw [decode_eq, decode_eq] at same
  generalize f.parts bits = p at *
  generalize f.parts bits' = p' at *
  obtain ⟨sign, field, m⟩ := p
  obtain ⟨sign', field', m'⟩ := p'
  simp only at stored stored' same number
  have triple (signs : sign = sign') (fields : field = field') (fractions : m = m') :
      (sign, field, m) = (sign', field', m') := by rw [signs, fields, fractions]
  -- The kinds agree, and where both are finite, so do the cases: a normal fraction has its first bit set, a stored one not.
  split_ifs at same number <;>
    simp only [Binary.finite.injEq, Binary.infinite.injEq, reduceCtorEq, ne_eq, not_true] at same number
  all_goals exact triple (by simp [same]) (by omega) (by omega)

/-- A finite number is zero or normal. -/
theorem decode_finite {negative : Bool} {m : Nat} {q : Int} (decoded : f.decode bits = .finite negative m q) :
    (m = 0 ∧ q = f.leastExponent ∨ f.Normal m q) ∧ q < f.leastExponent + (1 <<< f.exponent : Nat) := by
  have stored := f.stored_lt bits
  have field := f.field_lt bits
  rw [decode_eq] at decoded
  rw [Nat.one_shiftLeft]
  have width := Nat.two_pow_pos f.exponent
  split_ifs at decoded with top full zero
  · obtain ⟨-, rfl, rfl⟩ := Binary.finite.inj decoded
    refine ⟨?_, by omega⟩
    rcases Nat.eq_zero_or_pos (f.parts bits).2.2 with none | positive
    · exact .inl ⟨none, rfl⟩
    · exact .inr ⟨positive, by rw [Nat.pow_succ]; omega, le_rfl, fun less => absurd less (lt_irrefl _)⟩
  · obtain ⟨-, rfl, rfl⟩ := Binary.finite.inj decoded
    refine ⟨.inr ⟨?_, ?_, ?_, ?_⟩, by omega⟩
    · have := Nat.two_pow_pos f.fraction
      omega
    · rw [Nat.pow_succ]
      omega
    · omega
    · exact fun _ => Nat.le_add_right _ _

end BinaryFormat

/-! ### Reading back -/

/-- The number that a row of digits writes. -/
def digitsValue (s : List Char) : Nat := Nat.ofDigitChars 10 s 0

/-- The integer that digits write, with a minus sign in front or without. -/
def readInt (s : List Char) : Int :=
  if s.head? = some '-' then -digitsValue s.tail else digitsValue s

/-- What stands before a separator, and what stands after it. -/
def cutAt (separator : Char) (s : List Char) : List Char × List Char :=
  (s.takeWhile (· != separator), (s.dropWhile (· != separator)).tail)

/-- The number that digits with a point among them write. -/
def readPoint (s : List Char) : ℚ :=
  digitsValue ((cutAt '.' s).1 ++ (cutAt '.' s).2) / 10 ^ (cutAt '.' s).2.length

/-- The number that digits with a point and an exponent write. -/
def readNumber (s : List Char) : ℚ := readPoint (cutAt 'e' s).1 * 10 ^ readInt (cutAt 'e' s).2

theorem cutAt_append {separator : Char} {before after : List Char} (first : separator ∉ before) :
    cutAt separator (before ++ separator :: after) = (before, after) := by
  have kept (c) (member : c ∈ before) : (c != separator) = true := by
    simpa using fun same : c = separator => first (same ▸ member)
  simp [cutAt, List.takeWhile_append_of_pos kept, List.dropWhile_append_of_pos kept]

theorem cutAt_of_notMem {separator : Char} {s : List Char} (absent : separator ∉ s) : cutAt separator s = (s, []) := by
  have kept (c) (member : c ∈ s) : (c != separator) = true := by
    simpa using fun same : c = separator => absent (same ▸ member)
  simp [cutAt, List.takeWhile_eq_self_iff.2 kept, List.dropWhile_eq_nil_iff.2 kept]

theorem digitsValue_append (s t : List Char) : digitsValue (s ++ t) = 10 ^ t.length * digitsValue s + digitsValue t := by
  rw [digitsValue, Nat.ofDigitChars_append, Nat.ofDigitChars_eq_ofDigitChars_zero]
  rfl

theorem digitsValue_replicate (n : Nat) : digitsValue (List.replicate n '0') = 0 := by
  simp [digitsValue, Nat.ofDigitChars_replicate_zero]

theorem digitsValue_decimal (n : Nat) : digitsValue (Text.decimal n) = n := Nat.ofDigitChars_ten_toDigits

theorem isDigit_of_mem_decimal {n : Nat} {c : Char} (member : c ∈ Text.decimal n) : c.isDigit = true :=
  Nat.isDigit_of_mem_toDigits (by decide) (by decide) member

theorem notMem_decimal {c : Char} (other : c.isDigit = false) (n : Nat) : c ∉ Text.decimal n := by
  intro member
  simp [isDigit_of_mem_decimal member] at other

theorem readInt_decimalInt (n : Int) : readInt (Text.decimalInt n) = n := by
  cases n with
  | ofNat n =>
    have unsigned : (Text.decimal n).head? ≠ some '-' :=
      fun signed => notMem_decimal (by decide) n (List.mem_of_mem_head? signed)
    simp [readInt, Text.decimalInt, unsigned, digitsValue_decimal]
  | negSucc n =>
    simp [readInt, Text.decimalInt, digitsValue_decimal, Int.negSucc_eq]

theorem readNumber_of_notMem {s : List Char} (plain : 'e' ∉ s) : readNumber s = readPoint s := by
  rw [readNumber, cutAt_of_notMem plain]
  simp [readInt, digitsValue]

theorem readPoint_append {before after : List Char} (first : '.' ∉ before) :
    readPoint (before ++ '.' :: after) = digitsValue (before ++ after) / 10 ^ after.length := by
  rw [readPoint, cutAt_append first]

/-- Moving the point over the digits behind it. -/
theorem div_pow_eq_zpow (n : Nat) {digits : Nat} {scale : Int} (same : (digits : Int) = -scale) :
    (n : ℚ) / 10 ^ digits = n * 10 ^ scale := by
  rw [div_eq_mul_inv, ← zpow_natCast, same, zpow_neg, inv_inv]

theorem readNumber_plain (s : Scaled) :
    readNumber (plain (Text.decimal s.digits) (s.scale + (Text.decimal s.digits).length)) = s.value := by
  have noPoint := notMem_decimal (c := '.') (by decide) s.digits
  have noExponent := notMem_decimal (c := 'e') (by decide) s.digits
  have reads := digitsValue_decimal s.digits
  generalize Text.decimal s.digits = digits at noPoint noExponent reads
  have zero : digitsValue ['0'] = 0 := rfl
  unfold plain Scaled.value
  split
  · next small =>
    have cut : ['0', '.'] ++ List.replicate (-(s.scale + digits.length)).toNat '0' ++ digits =
        ['0'] ++ '.' :: (List.replicate (-(s.scale + digits.length)).toNat '0' ++ digits) := rfl
    rw [readNumber_of_notMem (by simp [noExponent]), cut, readPoint_append (by decide), digitsValue_append,
      digitsValue_append, digitsValue_replicate, reads, zero, Nat.mul_zero, Nat.mul_zero, Nat.zero_add, Nat.zero_add]
    exact div_pow_eq_zpow _ (by rw [List.length_append, List.length_replicate]; omega)
  · split
    · next large short =>
      have zeros : ((s.scale + digits.length).toNat - digits.length : Nat) = s.scale := by omega
      generalize (s.scale + digits.length).toNat - digits.length = count at zeros
      have cut : digits ++ List.replicate count '0' ++ ['.', '0'] = (digits ++ List.replicate count '0') ++ '.' :: ['0'] :=
        rfl
      rw [readNumber_of_notMem (by simp [noExponent]), cut, readPoint_append (by simp [noPoint]), digitsValue_append,
        digitsValue_append, digitsValue_replicate, reads, zero, List.length_replicate, ← zeros, zpow_natCast]
      push_cast
      simp
      ring
    · next large long =>
      have inside (c : Char) (absent : c ∉ digits) :
          c ∉ digits.take (s.scale + digits.length).toNat ∧ c ∉ digits.drop (s.scale + digits.length).toNat :=
        ⟨fun member => absent (List.mem_of_mem_take member), fun member => absent (List.mem_of_mem_drop member)⟩
      rw [readNumber_of_notMem (by simp [inside 'e' noExponent]), readPoint_append (inside '.' noPoint).1,
        List.take_append_drop, reads]
      exact div_pow_eq_zpow _ (by rw [List.length_drop]; omega)

theorem readNumber_append {mantissa : List Char} (first : 'e' ∉ mantissa) (exponent : Int) :
    readNumber (mantissa ++ ['e'] ++ Text.decimalInt exponent) = readPoint mantissa * 10 ^ exponent := by
  rw [List.append_assoc, List.singleton_append, readNumber, cutAt_append first, readInt_decimalInt]

theorem readNumber_scientific {layout : Layout} (unsigned : layout.plus = false) (s : Scaled) :
    readNumber (layout.scientific (Text.decimal s.digits) (s.scale + (Text.decimal s.digits).length - 1)) = s.value := by
  have noPoint := notMem_decimal (c := '.') (by decide) s.digits
  have noExponent := notMem_decimal (c := 'e') (by decide) s.digits
  have some_digit : Text.decimal s.digits ≠ [] := Nat.toDigits_ne_nil
  have reads := digitsValue_decimal s.digits
  generalize Text.decimal s.digits = digits at noPoint noExponent some_digit reads
  have sign (exponent : Int) : (if 0 ≤ exponent ∧ layout.plus = true then ['+'] else []) = ([] : List Char) := by
    simp [unsigned]
  unfold Layout.scientific Scaled.value
  rw [sign]
  cases digits with
  | nil => exact absurd rfl some_digit
  | cons first others =>
    cases others with
    | nil =>
      have exponent : s.scale + ([first].length : Nat) - 1 = s.scale := by simp
      have point : readPoint [first] = s.digits := by
        rw [readPoint, cutAt_of_notMem noPoint]
        simp [reads]
      refine (readNumber_append noExponent _).trans ?_
      rw [point, exponent]
    | cons second rest =>
      have exponent : s.scale + ((first :: second :: rest).length : Nat) - 1 = s.scale + (second :: rest).length := by
        simp
        omega
      have cut : first :: '.' :: second :: rest = [first] ++ '.' :: (second :: rest) := rfl
      have digits : [first] ++ second :: rest = first :: second :: rest := rfl
      refine (readNumber_append (by simp_all) _).trans ?_
      dsimp only
      rw [cut, readPoint_append (by simp_all), digits, reads, exponent, zpow_add₀ (by norm_num), zpow_natCast]
      field_simp

/-- A layout writes a decimal so that it is read back. -/
theorem readNumber_scaled {layout : Layout} (unsigned : layout.plus = false) (s : Scaled) :
    readNumber (layout.scaled s) = s.value := by
  unfold Layout.scaled
  dsimp only
  split
  · rw [Int.sub_add_cancel]
    exact readNumber_plain s
  · exact readNumber_scientific unsigned s

/-! ### The characters of a text -/

/-- A number that is written with a point or with an exponent, without a sign. -/
structure IsNumberText (s : List Char) : Prop where
  chars : ∀ c ∈ s, c.isDigit = true ∨ c ∈ ['.', 'e', '-']
  marked : '.' ∈ s ∨ 'e' ∈ s
  starts : ∃ c, s.head? = some c ∧ c.isDigit = true

theorem isDigit_of_head?_decimal (n : Nat) : ∃ c, (Text.decimal n).head? = some c ∧ c.isDigit = true := by
  cases digits : Text.decimal n with
  | nil => exact absurd digits Nat.toDigits_ne_nil
  | cons c rest => exact ⟨c, rfl, isDigit_of_mem_decimal (digits ▸ List.mem_cons_self)⟩

theorem chars_decimalInt {n : Int} {c : Char} (member : c ∈ Text.decimalInt n) : c.isDigit = true ∨ c = '-' := by
  cases n with
  | ofNat n => exact .inl (isDigit_of_mem_decimal member)
  | negSucc n => exact (List.mem_cons.1 member).symm.imp isDigit_of_mem_decimal id

theorem isNumberText_plain (n : Nat) (whole : Int) : IsNumberText (plain (Text.decimal n) whole) := by
  have digits (c) (member : c ∈ Text.decimal n) : c.isDigit = true := isDigit_of_mem_decimal member
  obtain ⟨first, head, digit⟩ := isDigit_of_head?_decimal n
  generalize Text.decimal n = ds at digits head
  have zero : '0'.isDigit = true := rfl
  unfold plain
  split
  · refine ⟨fun c member => ?_, .inl (by simp), '0', rfl, zero⟩
    simp only [List.mem_append, List.mem_cons, List.mem_replicate, List.not_mem_nil, or_false] at member
    obtain ((rfl | rfl) | ⟨-, rfl⟩) | inside := member
    · exact .inl zero
    · exact .inr (by decide)
    · exact .inl zero
    · exact .inl (digits c inside)
  · split
    · refine ⟨fun c member => ?_, .inl (by simp), first, by simp [head], digit⟩
      simp only [List.mem_append, List.mem_cons, List.mem_replicate, List.not_mem_nil, or_false] at member
      obtain (inside | ⟨-, rfl⟩) | rfl | rfl := member
      · exact .inl (digits c inside)
      · exact .inl zero
      · exact .inr (by decide)
      · exact .inl zero
    · next large _ =>
      have some_digit : whole.toNat ≠ 0 := by omega
      refine ⟨fun c member => ?_, .inl (by simp), first, by simp [List.head?_take, some_digit, head], digit⟩
      simp only [List.mem_append, List.mem_cons] at member
      obtain before | rfl | after := member
      · exact .inl (digits c (List.mem_of_mem_take before))
      · exact .inr (by decide)
      · exact .inl (digits c (List.mem_of_mem_drop after))

theorem isNumberText_scientific {layout : Layout} (unsigned : layout.plus = false) (n : Nat) (exponent : Int) :
    IsNumberText (layout.scientific (Text.decimal n) exponent) := by
  have digits (c) (member : c ∈ Text.decimal n) : c.isDigit = true := isDigit_of_mem_decimal member
  obtain ⟨first, head, digit⟩ := isDigit_of_head?_decimal n
  generalize Text.decimal n = ds at digits head
  have sign : (if 0 ≤ exponent ∧ layout.plus = true then ['+'] else []) = ([] : List Char) := by simp [unsigned]
  unfold Layout.scientific
  rw [sign]
  have ends (c) (member : c ∈ 'e' :: Text.decimalInt exponent) : c.isDigit = true ∨ c ∈ ['.', 'e', '-'] := by
    rcases List.mem_cons.1 member with rfl | inside
    · exact .inr (by decide)
    · exact (chars_decimalInt inside).imp_right (by rintro rfl; decide)
  have whole (mantissa : List Char) (starts : mantissa.head? = some first)
      (inside : ∀ c ∈ mantissa, c.isDigit = true ∨ c ∈ ['.', 'e', '-']) :
      IsNumberText (mantissa ++ ['e'] ++ Text.decimalInt exponent) := by
    refine ⟨fun c member => ?_, .inr (by simp), first, by simp [starts], digit⟩
    rw [List.append_assoc] at member
    exact (List.mem_append.1 member).elim (inside c) (ends c)
  cases ds with
  | nil => cases head
  | cons d others =>
    cases others with
    | nil => exact whole [d] head fun c member => .inl (digits c member)
    | cons second rest =>
      refine whole (d :: '.' :: second :: rest) head fun c member => ?_
      rcases List.mem_cons.1 member with rfl | member
      · exact .inl (digits _ List.mem_cons_self)
      · rcases List.mem_cons.1 member with rfl | member
        · exact .inr (by decide)
        · exact .inl (digits c (List.mem_cons_of_mem _ member))

theorem isNumberText_scaled {layout : Layout} (unsigned : layout.plus = false) (s : Scaled) :
    IsNumberText (layout.scaled s) := by
  unfold Layout.scaled
  dsimp only
  split
  · exact isNumberText_plain _ _
  · exact isNumberText_scientific unsigned _ _

/-! ### Whole texts -/

/-- A text with its sign. -/
def signed (negative : Bool) (s : List Char) : List Char := if negative then '-' :: s else s

/-- The text of a number without its sign. -/
def Layout.magnitude (layout : Layout) (f : BinaryFormat) (m : Nat) (q : Int) : List Char :=
  if m = 0 then ['0', '.', '0'] else layout.scaled (f.shortest layout.tie m q)

section

variable {layout : Layout} (unsigned : layout.plus = false) {f : BinaryFormat}
include unsigned

theorem isNumberText_magnitude (m : Nat) (q : Int) : IsNumberText (layout.magnitude f m q) := by
  unfold Layout.magnitude
  split
  · exact isNumberText_plain 0 1
  · exact isNumberText_scaled unsigned _

omit unsigned in
theorem BinaryFormat.Normal.value_pos {m : Nat} {q : Int} (normal : f.Normal m q) {x : ℚ}
    (holds : (f.interval m q).Holds x) : 0 < x := by
  have low : 0 < (f.interval m q).low := by
    have := normal.positive
    simp only [interval]
    split <;> omega
  have ends : (0 : ℚ) < (f.interval m q).low * 2 ^ (f.interval m q).place := by positivity
  exact ends.trans_le holds.low_le.1

/-- A number is read from its text. -/
theorem magnitude_inj (moderate : f.Moderate) {bits bits' : Nat} {negative negative' : Bool} {m m' : Nat} {q q' : Int}
    (decoded : f.decode bits = .finite negative m q) (decoded' : f.decode bits' = .finite negative' m' q')
    (same : layout.magnitude f m q = layout.magnitude f m' q') : m = m' ∧ q = q' := by
  have zero : readNumber ['0', '.', '0'] = 0 := by
    rw [readNumber_of_notMem (by simp)]
    simp [readPoint, cutAt, digitsValue, Nat.ofDigitChars]
  have read {b : Nat} {sign : Bool} {n : Nat} {e : Int} (decoded : f.decode b = .finite sign n e) :
      n = 0 ∧ e = f.leastExponent ∧ readNumber (layout.magnitude f n e) = 0 ∨
        f.Normal n e ∧ (f.interval n e).Holds (readNumber (layout.magnitude f n e)) := by
    obtain ⟨⟨rfl, least⟩ | normal, top⟩ := BinaryFormat.decode_finite decoded
    · exact .inl ⟨rfl, least, by rw [Layout.magnitude, if_pos rfl, zero]⟩
    · have holds := BinaryFormat.holds_shortest moderate normal top layout.tie
      rw [← readNumber_scaled unsigned] at holds
      exact .inr ⟨normal, by rwa [Layout.magnitude, if_neg normal.positive.ne']⟩
  rcases read decoded with ⟨none, least, nothing⟩ | ⟨normal, holds⟩
  · rcases read decoded' with ⟨none', least', -⟩ | ⟨normal', holds'⟩
    · exact ⟨none.trans none'.symm, least.trans least'.symm⟩
    · rw [← same, nothing] at holds'
      exact absurd (normal'.value_pos holds') (lt_irrefl _)
  · rcases read decoded' with ⟨none', least', nothing⟩ | ⟨normal', holds'⟩
    · rw [same, nothing] at holds
      exact absurd (normal.value_pos holds) (lt_irrefl _)
    · rw [← same] at holds'
      exact BinaryFormat.eq_of_holds normal normal' holds holds'

end

/-- What a layout writes for the kinds of numbers. -/
theorem Layout.write_eq (layout : Layout) (f : BinaryFormat) (bits : Nat) :
    (f.decode bits = .nan ∧ layout.write f bits = layout.nan) ∨
      (∃ negative, f.decode bits = .infinite negative ∧ layout.write f bits = signed negative layout.infinity) ∨
      ∃ negative m q, f.decode bits = .finite negative m q ∧
        layout.write f bits = signed negative (layout.magnitude f m q) := by
  unfold Layout.write
  cases decoded : f.decode bits with
  | nan => exact .inl ⟨rfl, rfl⟩
  | infinite negative => exact .inr (.inl ⟨negative, rfl, rfl⟩)
  | finite negative m q => exact .inr (.inr ⟨negative, m, q, rfl, rfl⟩)

theorem signed_inj {negative negative' : Bool} {s t : List Char} (first : s.head? ≠ some '-') (first' : t.head? ≠ some '-')
    (same : signed negative s = signed negative' t) : negative = negative' ∧ s = t := by
  cases negative <;> cases negative' <;> simp only [signed, if_true, if_false, Bool.false_eq_true] at same
  · exact ⟨rfl, same⟩
  · exact absurd (congrArg List.head? same) first
  · exact absurd (congrArg List.head? same).symm first'
  · exact ⟨rfl, (List.cons.inj same).2⟩

namespace IsNumberText

variable {s : List Char} (text : IsNumberText s)
include text

theorem head?_ne : s.head? ≠ some '-' := by
  obtain ⟨c, head, digit⟩ := text.starts
  rw [head]
  rintro ⟨⟩
  cases digit

theorem notMem_signed (negative : Bool) {c : Char} (letter : c.isDigit = false) (other : c ∉ ['.', 'e', '-']) :
    c ∉ signed negative s := by
  have absent : c ∉ s := fun member => (text.chars c member).elim (by simp [letter]) other
  have sign : c ≠ '-' := fun same => other (by simp [same])
  cases negative <;> simp [signed, absent, sign]

end IsNumberText

theorem isNumberText_value (f : BinaryFormat) (m : Nat) (q : Int) : IsNumberText (valueLayout.magnitude f m q) :=
  isNumberText_magnitude rfl m q

/-- Different numbers have different texts. -/
theorem write_inj {f : BinaryFormat} (moderate : f.Moderate) {bits bits' : Nat} (small : bits < 2 * f.signBit)
    (small' : bits' < 2 * f.signBit) (same : valueLayout.write f bits = valueLayout.write f bits') :
    bits = bits' ∨ f.decode bits = .nan ∧ f.decode bits' = .nan := by
  -- Each kind of text has letters of its own, and a finite number has none of them.
  have nanLetter (negative : Bool) : 'N' ∉ signed negative valueLayout.infinity := by cases negative <;> decide
  have noNan (negative : Bool) (m : Nat) (q : Int) : 'N' ∉ signed negative (valueLayout.magnitude f m q) :=
    (isNumberText_value f m q).notMem_signed negative rfl (by decide)
  have noInfinity (negative : Bool) (m : Nat) (q : Int) : 'i' ∉ signed negative (valueLayout.magnitude f m q) :=
    (isNumberText_value f m q).notMem_signed negative rfl (by decide)
  have nan : 'N' ∈ valueLayout.nan := by decide
  have infinity (negative : Bool) : 'i' ∈ signed negative valueLayout.infinity := by cases negative <;> decide
  obtain ⟨decoded, text⟩ | ⟨negative, decoded, text⟩ | ⟨negative, m, q, decoded, text⟩ := valueLayout.write_eq f bits <;>
    obtain ⟨decoded', text'⟩ | ⟨negative', decoded', text'⟩ | ⟨negative', m', q', decoded', text'⟩ :=
      valueLayout.write_eq f bits' <;>
    rw [text, text'] at same
  · exact .inr ⟨decoded, decoded'⟩
  · exact absurd (same ▸ nan) (nanLetter negative')
  · exact absurd (same ▸ nan) (noNan negative' m' q')
  · exact absurd (same ▸ nan) (nanLetter negative)
  · obtain ⟨rfl, -⟩ := signed_inj (by decide) (by decide) same
    exact .inl (BinaryFormat.decode_inj small small' (decoded.trans decoded'.symm) (by simp [decoded]))
  · exact absurd (same ▸ infinity negative) (noInfinity negative' m' q')
  · exact absurd (same ▸ nan) (noNan negative m q)
  · exact absurd (same ▸ infinity negative') (noInfinity negative m q)
  · obtain ⟨rfl, equal⟩ := signed_inj (isNumberText_value f m q).head?_ne (isNumberText_value f m' q').head?_ne same
    obtain ⟨rfl, rfl⟩ := magnitude_inj rfl moderate decoded decoded' equal
    exact .inl (BinaryFormat.decode_inj small small' (decoded.trans decoded'.symm) (by simp [decoded]))

/-- Where one pattern stands for NaN, the text gives the pattern back. -/
theorem eq_of_write {f : BinaryFormat} (moderate : f.Moderate) {bits bits' nan : Nat} (small : bits < 2 * f.signBit)
    (small' : bits' < 2 * f.signBit) (usual : f.decode bits = .nan → bits = nan)
    (usual' : f.decode bits' = .nan → bits' = nan) (same : valueLayout.write f bits = valueLayout.write f bits') :
    bits = bits' := by
  rcases write_inj moderate small small' same with equal | ⟨nan, nan'⟩
  · exact equal
  · exact (usual nan).trans (usual' nan').symm

end AnnotationWeaver.Decimal
