import Mathlib.Algebra.GroupWithZero.Nat
import Mathlib.Data.List.Basic
import Mathlib.Data.List.Flatten

/-! # Parts joined with a separator

A text that joins parts with a separator can be read back if no part holds the separator. In
general it fixes the segments between the separators only; the parts are fixed as soon as one also
knows how many separators stand in each of them. -/

namespace Separated

open List
variable {α : Type} [BEq α] [LawfulBEq α]

omit [LawfulBEq α] in
theorem length_splitOn (a : α) (x : List α) : (x.splitOn a).length = x.count a + 1 := by
  induction x with
  | nil => simp [splitOn_eq_splitOnP]
  | cons c x ih =>
    rw [splitOn_cons_eq_if_modifyHead, count_cons]
    split <;> simp [ih]

variable {a : α} {x : List α} {parts parts' : List (List α)}

theorem splitOn_inj {y : List α} (h : x.splitOn a = y.splitOn a) : x = y := by
  have hx : [a].intercalate (x.splitOn a) = x := intercalate_splitOn a
  rw [← hx, h, intercalate_splitOn]

/-- The segments of a joined text are those of its parts. -/
theorem splitOn_intercalate_of_ne_nil (a : α) (h : parts ≠ []) :
    ([a].intercalate parts).splitOn a = parts.flatMap (splitOn a) := by
  induction parts with
  | nil => exact absurd rfl h
  | cons x parts ih =>
    cases parts with
    | nil => simp
    | cons =>
      rw [intercalate_cons_cons, append_assoc, singleton_append,
        splitOn_append_cons_self, ih (by simp)]
      rfl

theorem intercalate_eq_iff (a : α) (h : parts ≠ []) (h' : parts' ≠ []) :
    [a].intercalate parts = [a].intercalate parts' ↔
      parts.flatMap (splitOn a) = parts'.flatMap (splitOn a) := by
  rw [← splitOn_intercalate_of_ne_nil a h, ← splitOn_intercalate_of_ne_nil a h']
  exact ⟨fun heq => by rw [heq], splitOn_inj⟩

/-- Segments and the number of separators in each part fix the parts. -/
theorem eq_of_segments (hsegs : parts.flatMap (splitOn a) = parts'.flatMap (splitOn a))
    (hcnt : parts.map (List.count a) = parts'.map (List.count a)) : parts = parts' := by
  induction parts generalizing parts' with
  | nil => simpa using hcnt
  | cons x _ ih =>
    cases parts' with
    | nil => simp at hcnt
    | cons y =>
      simp only [map_cons, List.cons.injEq] at hcnt
      have hlen : (x.splitOn a).length = (y.splitOn a).length := by
        rw [length_splitOn, length_splitOn, hcnt.1]
      obtain ⟨hhead, htail⟩ := append_inj hsegs hlen
      rw [splitOn_inj hhead, ih htail hcnt.2]

/-- The joined text and the number of separators in each part fix the parts; the numbers also tell
    no part from one empty part, which are joined to the same text. -/
theorem eq_of_intercalate (htext : [a].intercalate parts = [a].intercalate parts')
    (hcnt : parts.map (List.count a) = parts'.map (List.count a)) : parts = parts' := by
  have hempty : parts = [] ↔ parts' = [] := by
    rw [← map_eq_nil_iff (f := List.count a), hcnt, map_eq_nil_iff]
  by_cases h : parts = []
  · rw [h, hempty.mp h]
  · exact eq_of_segments ((intercalate_eq_iff a h (mt hempty.mpr h)).mp htext) hcnt

omit [BEq α] [LawfulBEq α] in
theorem length_intercalate (a : α) (parts : List (List α)) :
    ([a].intercalate parts).length = (parts.map List.length).sum + (parts.length - 1) := by
  induction parts with
  | nil => rfl
  | cons _ rest ih =>
    cases rest with
    | nil => simp
    | cons =>
      rw [intercalate_cons_cons, length_append, ih]
      simp only [length_append, length_cons, length_nil, map_cons, sum_cons]
      omega

/-- Some of the segments of a text, joined again, are not longer than the text. -/
theorem length_intercalate_splitOn_le (a : α) (h : parts.Sublist (x.splitOn a)) :
    ([a].intercalate parts).length ≤ x.length := by
  have hwhole : ([a].intercalate (x.splitOn a)).length = x.length := by
    rw [intercalate_splitOn]
  have hsum : (parts.map List.length).sum ≤ ((x.splitOn a).map List.length).sum := by
    rw [← length_flatten, ← length_flatten]
    exact h.flatten.length_le
  rw [length_intercalate] at hwhole ⊢
  have hcnt := h.length_le
  omega

omit [BEq α] [LawfulBEq α] in
/-- Texts of the same lengths are fixed by their concatenation, whatever is in them. -/
theorem eq_of_intercalate_of_length (h : [a].intercalate parts = [a].intercalate parts')
    (hlen : parts.map List.length = parts'.map List.length) : parts = parts' := by
  induction parts generalizing parts' with
  | nil => simpa using hlen.symm
  | cons _ rest ih =>
    cases parts' with
    | nil => simp at hlen
    | cons _ rest' =>
      simp only [map_cons, List.cons.injEq] at hlen
      cases rest with
      | nil =>
        obtain rfl : rest' = [] := by simpa using hlen.2.symm
        simpa using h
      | cons =>
        cases rest' with
        | nil => simp at hlen
        | cons =>
          obtain ⟨hpart, hrest⟩ := append_inj h hlen.1
          rw [hpart, ih (append_cancel_left hrest) hlen.2]

omit [BEq α] [LawfulBEq α] in
/-- A text that is followed by one separator and, elsewhere, by another one ends where it does. -/
theorem eq_of_two_separators {b : α} (hab : a ≠ b) {y u v u' v' : List α}
    (h : x ++ a :: u = y ++ a :: v) (h' : x ++ b :: u' = y ++ b :: v') : x = y := by
  induction x generalizing y with
  | nil =>
    cases y with
    | nil => rfl
    | cons => exact absurd ((List.cons.inj h).1.trans (List.cons.inj h').1.symm) hab
  | cons c x ih =>
    cases y with
    | nil => exact absurd ((List.cons.inj h).1.symm.trans (List.cons.inj h').1) hab
    | cons =>
      rw [(List.cons.inj h).1, ih (List.cons.inj h).2 (List.cons.inj h').2]

omit [BEq α] [LawfulBEq α] in
/-- What is in a joined text is a separator or in one of the parts. -/
theorem mem_intercalate {c : α} (h : c ∈ [a].intercalate parts) : c = a ∨ ∃ x ∈ parts, c ∈ x := by
  induction parts with
  | nil => simp at h
  | cons x parts ih =>
    cases parts with
    | nil => exact .inr ⟨x, mem_cons_self, by simpa using h⟩
    | cons =>
      rw [intercalate_cons_cons, mem_append, mem_append] at h
      rcases h with h | h
      · rcases h with h | h
        · exact .inr ⟨x, mem_cons_self, h⟩
        · exact .inl (mem_singleton.mp h)
      · refine (ih h).imp id ?_
        rintro ⟨z, hz, hc⟩
        exact ⟨z, mem_cons_of_mem _ hz, hc⟩

omit [BEq α] [LawfulBEq α] in
theorem mem_intercalate_of_mem {c : α} (hx : x ∈ parts) (hc : c ∈ x) :
    c ∈ [a].intercalate parts := by
  induction parts with
  | nil => cases hx
  | cons y parts ih =>
    cases parts with
    | nil =>
      rw [mem_singleton.mp hx] at hc
      simpa using hc
    | cons =>
      rw [intercalate_cons_cons, mem_append, mem_append]
      rcases mem_cons.mp hx with rfl | hx
      · exact .inl (.inl hc)
      · exact .inr (ih hx)

theorem mem_of_mem_splitOn {c : α} {segment : List α} (hseg : segment ∈ x.splitOn a)
    (hc : c ∈ segment) : c ∈ x := by
  have hx : [a].intercalate (x.splitOn a) = x := intercalate_splitOn a
  exact hx ▸ mem_intercalate_of_mem hseg hc

theorem not_mem_of_mem_splitOn {segment : List α} (h : segment ∈ x.splitOn a) : a ∉ segment := by
  induction x generalizing segment with
  | nil =>
    simp only [splitOn_nil, mem_singleton] at h
    simp [h]
  | cons c x ih =>
    rw [splitOn_cons_eq_if_modifyHead] at h
    split at h
    next =>
      rcases mem_cons.mp h with rfl | h
      · simp
      · exact ih h
    next hc =>
      cases hsplit : x.splitOn a with
      | nil =>
        rw [hsplit] at h
        cases h
      | cons first =>
        rw [hsplit, modifyHead_cons] at h
        rcases mem_cons.mp h with rfl | h
        · have hfst : a ∉ first := ih (by simp [hsplit])
          simp only [mem_cons, not_or]
          exact ⟨fun heq => hc (by simp [heq]), hfst⟩
        · exact ih (by simp [hsplit, h])

/-- Parts that are not empty and hold no separator can be read back. -/
theorem intercalate_inj (h : ∀ x ∈ parts, x ≠ [] ∧ a ∉ x) (h' : ∀ x ∈ parts', x ≠ [] ∧ a ∉ x)
    (heq : [a].intercalate parts = [a].intercalate parts') : parts = parts' := by
  have hsegs : ∀ xs : List (List α), (∀ x ∈ xs, x ≠ [] ∧ a ∉ x) → xs.flatMap (splitOn a) = xs := by
    intro xs hxs
    induction xs with
    | nil => rfl
    | cons x _ ih =>
      rw [flatMap_cons, splitOn_eq_singleton (hxs x mem_cons_self).2,
        ih fun y hy => hxs y (mem_cons_of_mem _ hy), singleton_append]
  have hnil : ∀ xs : List (List α), (∀ x ∈ xs, x ≠ [] ∧ a ∉ x) → [a].intercalate xs = [] →
      xs = [] := by
    intro xs hxs hempty
    cases xs with
    | nil => rfl
    | cons x xs =>
      obtain ⟨c, hc⟩ := exists_mem_of_ne_nil x (hxs x mem_cons_self).1
      have hmem : c ∈ [a].intercalate (x :: xs) := mem_intercalate_of_mem mem_cons_self hc
      rw [hempty] at hmem
      cases hmem
  by_cases hparts : parts = []
  · rw [hparts] at heq ⊢
    exact (hnil parts' h' heq.symm).symm
  · have hparts' : parts' ≠ [] := by
      rintro rfl
      exact hparts (hnil parts h heq)
    have hflat := (intercalate_eq_iff a hparts hparts').mp heq
    rwa [hsegs parts h, hsegs parts' h'] at hflat

/-! ## The segment behind a separator -/

theorem head_splitOn (a : α) (x : List α) : (x.splitOn a).head? = some (x.takeWhile (· != a)) := by
  induction x with
  | nil => simp
  | cons c x ih =>
    rw [splitOn_cons_eq_if_modifyHead]
    by_cases hc : c = a
    · simp [hc]
    · have hne : (c == a) = false := by simpa using hc
      simp [hne, hc, head?_modifyHead, ih]

/-- The number of separators before a separator says which segment stands behind it. -/
theorem splitOn_getElem?_behind (a : α) (x y : List α) :
    ((x ++ a :: y).splitOn a)[x.count a + 1]? = some (y.takeWhile (· != a)) := by
  rw [splitOn_append_cons_self, getElem?_append_right (Nat.le_of_eq (length_splitOn a x)),
    length_splitOn, Nat.sub_self, ← head?_eq_getElem?, head_splitOn]

end Separated
