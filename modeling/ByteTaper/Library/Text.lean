import Mathlib.Data.List.Basic

/-! # Texts and separators

Byte strings are lists of characters, one `Char` for each byte. The lemmas say how a text cut at a
separator can be cut again: a separator that does not occur in a part marks the end of that part,
and every other cut lies behind it. -/

/-- A byte string: one character for each byte. -/
abbrev Text := List Char

namespace Text

open List
/-- The bytes of a string literal. Irreducible, so that unification never decodes a literal. -/
@[irreducible] def lit (s : String) : Text := s.toList

instance lawfulBEq : LawfulBEq Text := inferInstance

/-- What holds of all characters of a text is decided along the text, not by going through all
    characters that there are. -/
instance (priority := 2000) decidableForallMem (p : Char → Prop) [DecidablePred p] (t : Text) :
    Decidable (∀ c ∈ t, p c) := List.decidableBAll p t

variable {α : Type} {x y r s : List α} {sep : α}

/-- If the separator is not in the first part `x`, any other cut of the same text is either the
    same cut or lies strictly behind it. -/
theorem append_sep_cases (hx : sep ∉ x) (h : x ++ sep :: y = r ++ sep :: s) :
    (r = x ∧ s = y) ∨ ∃ r', r = x ++ sep :: r' ∧ y = r' ++ sep :: s := by
  rcases append_eq_append_iff.mp h with ⟨as, hr, hy⟩ | ⟨bs, hx', hs⟩
  · cases as with
    | nil => exact Or.inl ⟨by simpa using hr, by simpa using hy.symm⟩
    | cons a as =>
      simp only [cons_append, List.cons.injEq] at hy
      obtain ⟨rfl, hy⟩ := hy
      exact Or.inr ⟨as, hr, hy⟩
  · cases bs with
    | nil => exact Or.inl ⟨by simpa using hx'.symm, by simpa using hs⟩
    | cons =>
      obtain ⟨rfl, -⟩ := hs
      exact absurd (by simp [hx'] : sep ∈ x) hx

/-- A separator that occurs in neither first part cuts a text in one way only. -/
theorem append_sep_inj (hx : sep ∉ x) (hr : sep ∉ r) (h : x ++ sep :: y = r ++ sep :: s) :
    x = r ∧ y = s := by
  rcases append_sep_cases hx h with ⟨h1, h2⟩ | ⟨r', h1, -⟩
  · exact ⟨h1.symm, h2.symm⟩
  · exact absurd (by simp [h1]) hr

/-- The first index at which `sep` stands splits the text around it. -/
theorem split_of_findIdx [BEq α] [LawfulBEq α] {l : List α} {i : Nat}
    (h : l.findIdx? (· == sep) = some i) :
    l = l.take i ++ sep :: l.drop (i + 1) ∧ sep ∉ l.take i := by
  rw [findIdx?_eq_some_iff_getElem] at h
  obtain ⟨hlt, hsep, hbef⟩ := h
  have hget : l[i] = sep := eq_of_beq hsep
  refine ⟨?_, ?_⟩
  · rw [← hget, ← drop_eq_getElem_cons hlt, take_append_drop]
  · intro hmem
    obtain ⟨j, hj, hjs⟩ := mem_iff_getElem.mp hmem
    have hji : j < i := by
      have := hj
      simp only [length_take] at this
      omega
    have hne := hbef j hji
    rw [getElem_take] at hjs
    simp [hjs] at hne

/-- A common beginning does not change the byte order. -/
theorem append_lt_append_left_iff {x y z : Text} : x ++ y < x ++ z ↔ y < z := by
  induction x with
  | nil => simp
  | cons c x ih => simp [ih]

end Text

export Text (lit)
