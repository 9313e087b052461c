import Mathlib.Data.Char
import Mathlib.Tactic.Positivity
import Mathlib.Tactic.Ring

/-! # Decimal digit strings

Strings of decimal digits read as numbers by `Nat.ofDigitChars 10`, most significant digit first.
Between strings of one length the lexicographic order is the numeric order; a prefix of a string
is the number with its last digits cut off. Padding with zeros on the left changes the length and
not the number. -/

namespace Decimal

open List
/-- The number a digit string spells. -/
def value (l : List Char) : Nat := Nat.ofDigitChars 10 l 0

/-- Every character is one of `0` to `9`. -/
def Digits (l : List Char) : Prop := ∀ c ∈ l, c.isDigit

variable {c : Char} {l m : List Char}

theorem Digits.head (h : Digits (c :: l)) : c.isDigit := h c (by simp)

theorem Digits.tail (h : Digits (c :: l)) : Digits l :=
  fun d hd => h d (mem_cons_of_mem _ hd)

theorem Digits.take (h : Digits l) (k : Nat) : Digits (l.take k) :=
  fun c hc => h c (mem_of_mem_take hc)

/-- The numeral of one digit character. -/
def digitVal (c : Char) : Nat := c.toNat - '0'.toNat

theorem digitVal_lt (h : c.isDigit) : digitVal c < 10 := by
  simp only [Char.isDigit, Bool.and_eq_true, decide_eq_true_eq, UInt32.le_iff_toNat_le] at h
  simp only [digitVal, Char.toNat]
  have h2 : c.val.toNat ≤ 57 := h.2
  have h0 : '0'.val.toNat = 48 := rfl
  omega

theorem digitVal_lt_iff {d : Char} (hc : c.isDigit) (hd : d.isDigit) :
    digitVal c < digitVal d ↔ c < d := by
  simp only [Char.isDigit, Bool.and_eq_true, decide_eq_true_eq, UInt32.le_iff_toNat_le] at hc hd
  have hc1 : 48 ≤ c.val.toNat := hc.1
  have hd1 : 48 ≤ d.val.toNat := hd.1
  simp only [digitVal, Char.toNat, Char.lt_def, UInt32.lt_iff_toNat_lt]
  have h0 : '0'.val.toNat = 48 := rfl
  omega

theorem digitVal_inj {d : Char} (hc : c.isDigit) (hd : d.isDigit) (h : digitVal c = digitVal d) :
    c = d := by
  have h1 := digitVal_lt_iff hc hd
  have h2 := digitVal_lt_iff hd hc
  rcases lt_trichotomy c d with hlt | heq | hgt
  · exact absurd (h1.mpr hlt) (by omega)
  · exact heq
  · exact absurd (h2.mpr hgt) (by omega)

@[simp] theorem value_nil : value [] = 0 := rfl

theorem value_cons (c : Char) (l : List Char) :
    value (c :: l) = digitVal c * 10 ^ l.length + value l := by
  simp only [value, digitVal, Nat.ofDigitChars_cons]
  rw [Nat.ofDigitChars_eq_ofDigitChars_zero]
  ring

theorem value_append (l m : List Char) : value (l ++ m) = value l * 10 ^ m.length + value m := by
  simp only [value, Nat.ofDigitChars_append]
  rw [Nat.ofDigitChars_eq_ofDigitChars_zero]
  ring

theorem value_lt (h : Digits l) : value l < 10 ^ l.length := by
  induction l with
  | nil => simp
  | cons c l ih =>
    have hc := digitVal_lt h.head
    have hl := ih h.tail
    have hmul : (digitVal c + 1) * 10 ^ l.length ≤ 10 * 10 ^ l.length :=
      Nat.mul_le_mul_right _ (by omega)
    rw [value_cons, length_cons, pow_succ']
    rw [Nat.add_mul] at hmul
    omega

/-- Cutting a digit string after its first `k` digits divides the number. -/
theorem value_take (h : Digits l) (k : Nat) : value (l.take k) = value l / 10 ^ (l.length - k) := by
  have hsplit := value_append (l.take k) (l.drop k)
  rw [take_append_drop, length_drop] at hsplit
  have hlt : value (l.drop k) < 10 ^ (l.length - k) := by
    have hd : Digits (l.drop k) := fun c hc => h c (mem_of_mem_drop hc)
    simpa using value_lt hd
  rw [hsplit, Nat.mul_comm, Nat.mul_add_div (by positivity), Nat.div_eq_of_lt hlt, Nat.add_zero]

/-! ## Order -/

/-- Between digit strings of one length, byte order is numeric order. -/
theorem lt_iff_value_lt (hl : Digits l) (hm : Digits m) (hlen : l.length = m.length) :
    l < m ↔ value l < value m := by
  induction l generalizing m with
  | nil =>
    have hnil : m = [] := length_eq_zero_iff.mp hlen.symm
    subst hnil
    simp
  | cons c l ih =>
    cases m with
    | nil => simp at hlen
    | cons d m =>
      have hlen' : l.length = m.length := by simpa using hlen
      have hcd := digitVal_lt_iff hl.head hm.head
      have hlv := value_lt hl.tail
      have hmv := value_lt hm.tail
      rw [cons_lt_cons_iff, ih hl.tail hm.tail hlen', value_cons, value_cons, hlen']
      rw [hlen'] at hlv
      rcases lt_trichotomy (digitVal c) (digitVal d) with h | h | h
      · have hmul : (digitVal c + 1) * 10 ^ m.length ≤ digitVal d * 10 ^ m.length :=
          Nat.mul_le_mul_right _ h
        rw [Nat.add_mul] at hmul
        simp only [hcd.mp h, true_or, true_iff]
        omega
      · have hcd' : c = d := digitVal_inj hl.head hm.head h
        subst hcd'
        simp
      · have hmul : (digitVal d + 1) * 10 ^ m.length ≤ digitVal c * 10 ^ m.length :=
          Nat.mul_le_mul_right _ h
        rw [Nat.add_mul] at hmul
        have hne : c ≠ d := by
          rintro rfl
          omega
        have hnlt : ¬ c < d := fun hlt => by
          have := hcd.mpr hlt
          omega
        simp only [hnlt, hne, false_and, or_self, false_iff]
        omega

theorem value_inj (hl : Digits l) (hm : Digits m) (hlen : l.length = m.length)
    (h : value l = value m) : l = m := by
  have hlm := lt_iff_value_lt hl hm hlen
  have hml := lt_iff_value_lt hm hl hlen.symm
  rcases lt_trichotomy l m with hlt | heq | hgt
  · exact absurd (hlm.mp hlt) (by omega)
  · exact heq
  · exact absurd (hml.mp hgt) (by omega)

/-- A shorter string is compared with the first characters of the longer one, and comes first when
    these are the same. -/
theorem lt_iff_take (hlen : l.length < m.length) :
    l < m ↔ l < m.take l.length ∨ l = m.take l.length := by
  induction l generalizing m with
  | nil =>
    cases m with
    | nil => simp at hlen
    | cons => simp
  | cons c l ih =>
    cases m with
    | nil => simp at hlen
    | cons d m =>
      have hlen' : l.length < m.length := by simpa using hlen
      simp only [length_cons, take_succ_cons]
      rw [cons_lt_cons_iff, cons_lt_cons_iff, ih hlen', List.cons.injEq]
      tauto

/-! ## Lengths of decimal numbers -/

theorem length_toDigits_mono {m n : Nat} (h : m ≤ n) :
    (Nat.toDigits 10 m).length ≤ (Nat.toDigits 10 n).length := by
  rw [Nat.length_toDigits_le_iff (by decide) Nat.length_toDigits_pos]
  exact lt_of_le_of_lt h
    ((Nat.length_toDigits_le_iff (by decide) Nat.length_toDigits_pos).mp le_rfl)

/-- Cutting the digits behind the `k`-th off a longer number leaves exactly `k` digits. -/
theorem length_toDigits_div {n k : Nat} (hk : 0 < k) (h : k < (Nat.toDigits 10 n).length) :
    (Nat.toDigits 10 (n / 10 ^ ((Nat.toDigits 10 n).length - k))).length = k := by
  obtain ⟨d, hd⟩ : ∃ d, d = (Nat.toDigits 10 n).length := ⟨_, rfl⟩
  rw [← hd] at h ⊢
  have hupper : n < 10 ^ d :=
    (Nat.length_toDigits_le_iff (by decide) (by omega)).mp (by omega)
  have hlower : 10 ^ (d - 1) ≤ n := by
    by_contra hlt
    have := (Nat.length_toDigits_le_iff (b := 10) (k := d - 1) (by decide) (by omega)).mpr
      (Nat.lt_of_not_le hlt)
    omega
  apply le_antisymm
  · rw [Nat.length_toDigits_le_iff (by decide) hk, Nat.div_lt_iff_lt_mul (by positivity), ← pow_add]
    rwa [show k + (d - k) = d by omega]
  · by_contra hlt
    rcases Nat.eq_or_lt_of_le hk with hk1 | hk1
    · have := @Nat.length_toDigits_pos 10 (n / 10 ^ (d - k))
      omega
    · have hle : (Nat.toDigits 10 (n / 10 ^ (d - k))).length ≤ k - 1 := by omega
      rw [Nat.length_toDigits_le_iff (by decide) (by omega),
        Nat.div_lt_iff_lt_mul (by positivity), ← pow_add, show k - 1 + (d - k) = d - 1 by omega]
        at hle
      omega

theorem toDigits_inj {m n : Nat} (h : Nat.toDigits 10 m = Nat.toDigits 10 n) : m = n := by
  have hm : Nat.ofDigitChars 10 (Nat.toDigits 10 m) 0 = m := by simp
  rw [← hm, h]
  simp

/-! ## Padded decimal numbers -/

/-- The decimal digits of `n`, padded with zeros to at least `w` characters. -/
def padded (w n : Nat) : List Char := (Nat.toDigits 10 n).leftpad w '0'

theorem digits_toDigits (n : Nat) : Digits (Nat.toDigits 10 n) :=
  fun _ hc => Nat.isDigit_of_mem_toDigits (by decide) (by decide) hc

theorem digits_padded (w n : Nat) : Digits (padded w n) := by
  intro c hc
  rw [padded, List.leftpad, mem_append] at hc
  rcases hc with hc | hc
  · rw [eq_of_mem_replicate hc]
    decide
  · exact digits_toDigits n c hc

theorem length_padded (w n : Nat) : (padded w n).length = max w (Nat.toDigits 10 n).length := by
  simp only [padded, List.leftpad, length_append, length_replicate]
  omega

@[simp] theorem value_padded (w n : Nat) : value (padded w n) = n := by
  simp [value, padded, List.leftpad, Nat.ofDigitChars_append, Nat.ofDigitChars_replicate_zero]

end Decimal
