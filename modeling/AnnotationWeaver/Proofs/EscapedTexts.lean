import AnnotationWeaver.Proofs.Lists
import AnnotationWeaver.Text.Escape

/-!
Escaped texts are read back without knowing where they end: no escape is the beginning of another, and none begins with a
quote, so the first quote that is not part of an escape ends the text.
-/
namespace AnnotationWeaver.Text

/-- Hexadecimal digits, from the last one on. -/
theorem hex_step (n : Nat) :
    n < 16 ∧ hex n = [Nat.digitChar n] ∨ 16 ≤ n ∧ hex n = hex (n / 16) ++ [Nat.digitChar (n % 16)] := by
  rcases Nat.lt_or_ge n 16 with small | large
  · exact .inl ⟨small, Nat.toDigits_of_lt_base small⟩
  · exact .inr ⟨large, Nat.toDigits_of_base_le (by decide) large⟩

theorem digitChar_inj {m n : Nat} (small : m < 16) (small' : n < 16) (same : Nat.digitChar m = Nat.digitChar n) :
    m = n := by
  have all : ∀ i j : Fin 16, Nat.digitChar i = Nat.digitChar j → i = j := by decide
  exact congrArg Fin.val (all ⟨m, small⟩ ⟨n, small'⟩ same)

theorem hex_ne_nil (n : Nat) : hex n ≠ [] := Nat.toDigits_ne_nil

theorem hex_inj {m n : Nat} (same : hex m = hex n) : m = n := by
  induction m using Nat.strongRecOn generalizing n with
  | ind m ih =>
    obtain ⟨small, one⟩ | ⟨large, more⟩ := hex_step m
    · obtain ⟨small', one'⟩ | ⟨large', more'⟩ := hex_step n
      · rw [one, one'] at same
        exact digitChar_inj small small' (List.cons.inj same).1
      · rw [one, more'] at same
        have digits : [] ++ [Nat.digitChar m] = hex (n / 16) ++ [Nat.digitChar (n % 16)] := same
        exact absurd (List.append_inj' digits rfl).1.symm (hex_ne_nil _)
    · obtain ⟨small', one'⟩ | ⟨large', more'⟩ := hex_step n
      · rw [more, one'] at same
        have digits : hex (m / 16) ++ [Nat.digitChar (m % 16)] = [] ++ [Nat.digitChar n] := same
        exact absurd (List.append_inj' digits rfl).1 (hex_ne_nil _)
      · rw [more, more'] at same
        obtain ⟨first, last⟩ := List.append_inj' same rfl
        have quotient := ih (m / 16) (Nat.div_lt_self (by omega) (by decide)) first
        have rest := digitChar_inj (Nat.mod_lt _ (by decide)) (Nat.mod_lt _ (by decide)) (List.cons.inj last).1
        omega

theorem brace_notMem_hex (n : Nat) : '\x7d' ∉ hex n := by
  have digits : ∀ i : Fin 16, '\x7d' ≠ Nat.digitChar i := by decide
  induction n using Nat.strongRecOn with
  | ind n ih =>
    obtain ⟨small, one⟩ | ⟨large, more⟩ := hex_step n
    · rw [one, List.mem_singleton]
      exact digits ⟨n, small⟩
    · rw [more, List.mem_append, List.mem_singleton]
      rintro (before | last)
      · exact ih (n / 16) (Nat.div_lt_self (by omega) (by decide)) before
      · exact digits ⟨n % 16, Nat.mod_lt _ (by decide)⟩ last

/-- The characters that are escaped by a letter, and the letters. -/
def letters : List (Char × Char) :=
  [('\t', 't'), ('\r', 'r'), ('\n', 'n'), ('\'', '\''), ('"', '"'), ('\\', '\\')]

/-- How a character is written. -/
theorem literalChar_cases (c : Char) :
    (∃ letter, (c, letter) ∈ letters ∧ literalChar c = ['\\', letter]) ∨
      ((c ≠ '\\' ∧ c ≠ '"' ∧ c ≠ '\'') ∧ literalChar c = [c]) ∨ literalChar c = byNumber c := by
  unfold literalChar
  split
  · next tab => exact .inl ⟨'t', by simp [tab, letters], rfl⟩
  · split
    · next carriage => exact .inl ⟨'r', by simp [carriage, letters], rfl⟩
    · split
      · next line => exact .inl ⟨'n', by simp [line, letters], rfl⟩
      · split
        · next quote => exact .inl ⟨c, by obtain rfl | rfl | rfl := quote <;> decide, rfl⟩
        · next other =>
          rw [not_or, not_or] at other
          split
          · exact .inr (.inl ⟨⟨other.2.2, other.2.1, other.1⟩, rfl⟩)
          · exact .inr (.inr rfl)

theorem letter_inj {c d letter : Char} (first : (c, letter) ∈ letters) (second : (d, letter) ∈ letters) : c = d := by
  have all : ∀ p ∈ letters, ∀ q ∈ letters, p.2 = q.2 → p.1 = q.1 := by decide
  exact all _ first _ second rfl

theorem letter_ne_u {c letter : Char} (listed : (c, letter) ∈ letters) : letter ≠ 'u' := by
  have all : ∀ p ∈ letters, p.2 ≠ 'u' := by decide
  exact all _ listed

theorem byNumber_append (c : Char) (x : List Char) :
    byNumber c ++ x = '\\' :: 'u' :: '\x7b' :: (hex c.toNat ++ '\x7d' :: x) := by
  simp [byNumber]

/-- No escape is the beginning of another. -/
theorem literalChar_append_inj {c d : Char} {x y : List Char} (same : literalChar c ++ x = literalChar d ++ y) :
    c = d ∧ x = y := by
  obtain ⟨letter, listed, escape⟩ | ⟨plain, escape⟩ | escape := literalChar_cases c <;>
    obtain ⟨letter', listed', escape'⟩ | ⟨plain', escape'⟩ | escape' := literalChar_cases d <;>
    rw [escape, escape'] at same
  · obtain ⟨rfl, rfl⟩ : letter = letter' ∧ x = y := by simpa using same
    exact ⟨letter_inj listed listed', rfl⟩
  · exact absurd (List.cons.inj same).1.symm plain'.1
  · rw [byNumber_append] at same
    exact absurd (List.cons.inj (List.cons.inj same).2).1 (letter_ne_u listed)
  · exact absurd (List.cons.inj same).1 plain.1
  · exact List.cons.inj same
  · rw [byNumber_append] at same
    exact absurd (List.cons.inj same).1 plain.1
  · rw [byNumber_append] at same
    exact absurd (List.cons.inj (List.cons.inj same).2).1.symm (letter_ne_u listed')
  · rw [byNumber_append] at same
    exact absurd (List.cons.inj same).1.symm plain'.1
  · rw [byNumber_append, byNumber_append] at same
    have digits : hex c.toNat ++ '\x7d' :: x = hex d.toNat ++ '\x7d' :: y := by simpa using same
    obtain ⟨number, rest⟩ := first_separator_inj (brace_notMem_hex _) (brace_notMem_hex _) digits
    exact ⟨Char.toNat_inj.1 (hex_inj number), rest⟩

/-- What escapes a character is no quote. -/
theorem exists_literalChar_eq_cons (c : Char) : ∃ first rest, literalChar c = first :: rest ∧ first ≠ '"' := by
  obtain ⟨letter, -, escape⟩ | ⟨plain, escape⟩ | escape := literalChar_cases c
  · exact ⟨_, _, escape, by decide⟩
  · exact ⟨_, _, escape, plain.2.1⟩
  · exact ⟨_, _, escape, by decide⟩

theorem literal_append_inj {s t x y : List Char} (same : literal s ++ '"' :: x = literal t ++ '"' :: y) :
    s = t ∧ x = y := by
  induction s generalizing t with
  | nil =>
    cases t with
    | nil => exact ⟨rfl, (List.cons.inj same).2⟩
    | cons d others =>
      obtain ⟨first, rest, escape, other⟩ := exists_literalChar_eq_cons d
      simp only [literal, List.flatMap_nil, List.flatMap_cons, escape] at same
      exact absurd (List.cons.inj same).1.symm other
  | cons c rest ih =>
    cases t with
    | nil =>
      obtain ⟨first, rest, escape, other⟩ := exists_literalChar_eq_cons c
      simp only [literal, List.flatMap_nil, List.flatMap_cons, escape] at same
      exact absurd (List.cons.inj same).1 other
    | cons d others =>
      simp only [literal, List.flatMap_cons, List.append_assoc] at same
      obtain ⟨rfl, later⟩ := literalChar_append_inj same
      obtain ⟨rfl, rfl⟩ := ih later
      exact ⟨rfl, rfl⟩

end AnnotationWeaver.Text
