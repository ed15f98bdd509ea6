import StyleMonitor.Decimal

/-!
# Numerals

The numeral of a number has the value of the number, and no zeros in front. What is read as a number
is one or more digits, or a plus sign and digits.
-/

namespace StyleMonitor.Decimal

variable {n : Nat} {c : Char} {s : List Char}

theorem toList_text (n : Nat) : (text n).toList = Nat.toDigits 10 n := by
  rw [text, Nat.repr_eq_ofList_toDigits, String.toList_ofList]

theorem isDigit_of_mem_text (member : c ∈ (text n).toList) : isDigit c = true := by
  rw [toList_text] at member
  have digit := Nat.isDigit_of_mem_toDigits (by decide) (by decide) member
  simp only [Char.isDigit, Bool.and_eq_true, decide_eq_true_eq] at digit
  rw [isDigit, Bool.and_eq_true]
  exact ⟨decide_eq_true digit.1, decide_eq_true digit.2⟩

theorem valueFrom_eq (high : Nat) (digits : List Char) :
    valueFrom high digits = Nat.ofDigitChars 10 digits high := by
  induction digits generalizing high with
  | nil => rfl
  | cons c rest ih => exact (ih _).trans Nat.ofDigitChars_cons.symm

@[simp] theorem valueFrom_text (n : Nat) : valueFrom 0 (text n).toList = n := by
  rw [toList_text, valueFrom_eq, Nat.ofDigitChars_toDigits (by decide) (by decide)]

theorem text_ne_nil (n : Nat) : (text n).toList ≠ [] := by
  rw [toList_text]
  exact Nat.toDigits_ne_nil

/-- Only the numeral of zero starts with a zero. -/
theorem eq_zero_of_text {rest : List Char} (h : (text n).toList = '0' :: rest) : n = 0 := by
  rw [toList_text] at h
  induction n using Nat.strongRecOn generalizing rest with
  | ind n ih =>
    by_cases small : n < 10
    · rw [Nat.toDigits_of_lt_base small] at h
      exact Nat.digitChar_eq_zero.mp (List.cons.inj h).1
    · rw [Nat.toDigits_of_base_le (by decide) (by omega)] at h
      cases front : Nat.toDigits 10 (n / 10) with
      | nil => exact absurd front Nat.toDigits_ne_nil
      | cons first more =>
        rw [front] at h
        obtain rfl : first = '0' := (List.cons.inj h).1
        have := ih (n / 10) (by omega) front
        omega

theorem isDigit_iff : isDigit c = true ↔ '0' ≤ c ∧ c ≤ '9' := by
  simp [isDigit]

/-- One or more digits and their value, with or without a plus sign in front. -/
def Signed (s : List Char) (n : Nat) : Prop :=
  ∃ sign digits, s = sign ++ digits ∧ (sign = [] ∨ sign = ['+']) ∧ digits ≠ [] ∧
    (∀ c ∈ digits, '0' ≤ c ∧ c ≤ '9') ∧ n = Nat.ofDigitChars 10 digits 0

theorem value?_eq_some_iff : value? s = some n ↔
    s ≠ [] ∧ (∀ c ∈ s, '0' ≤ c ∧ c ≤ '9') ∧ n = Nat.ofDigitChars 10 s 0 := by
  simp only [value?, List.all_eq_true, isDigit_iff, valueFrom_eq]
  split
  · next numeral =>
    rw [Option.some.injEq, eq_comm]
    exact ⟨fun equal => ⟨numeral.1, numeral.2, equal⟩, fun all => all.2.2⟩
  · next no =>
    constructor
    · rintro ⟨⟩
    · rintro ⟨some, digits, -⟩
      exact absurd ⟨some, digits⟩ no

theorem signedValue?_eq_some_iff : signedValue? s = some n ↔ Signed s n := by
  unfold signedValue?
  split
  · next rest =>
    rw [value?_eq_some_iff]
    constructor
    · rintro ⟨some, digits, rfl⟩
      exact ⟨['+'], rest, rfl, Or.inr rfl, some, digits, rfl⟩
    · rintro ⟨sign, digits, equal, rfl | rfl, some, all, rfl⟩
      · have plus := all '+' (by rw [← List.nil_append digits, ← equal]; exact List.mem_cons_self)
        exact absurd plus (by decide)
      · obtain rfl := (List.cons.inj equal).2
        exact ⟨some, all, rfl⟩
  · next unsigned =>
    rw [value?_eq_some_iff]
    constructor
    · rintro ⟨some, digits, rfl⟩
      exact ⟨[], s, rfl, Or.inl rfl, some, digits, rfl⟩
    · rintro ⟨sign, digits, rfl, rfl | rfl, some, all, rfl⟩
      · exact ⟨some, all, rfl⟩
      · exact absurd rfl (unsigned digits)

theorem signed_text (n : Nat) : Signed (text n).toList n := by
  refine ⟨[], (text n).toList, rfl, Or.inl rfl, text_ne_nil n, fun c member =>
    isDigit_iff.mp (isDigit_of_mem_text member), ?_⟩
  rw [← valueFrom_eq, valueFrom_text]

end StyleMonitor.Decimal
