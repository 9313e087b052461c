import Mathlib.Data.List.FinRange

/-! # Keyed entries in sharded slots

A table of `m` shards with `n` slots each, in which every key has a home shard and is looked for by
scanning the slots of that shard in order. `content` says what a slot holds, if it holds something. In a
`Keyed` table an entry is in the home shard of its key and no key is in two slots, so that scanning for a
key finds the entry with it. -/

namespace ShardedSlots

open Function
variable {m n : Nat} {σ ε κ : Type}

abbrev Table (m n : Nat) (σ : Type) := Fin m → Fin n → σ

def set (table : Table m n σ) (s : Fin m) (i : Fin n) (slot : σ) : Table m n σ :=
  Function.update table s (Function.update (table s) i slot)

theorem set_same (table : Table m n σ) (s : Fin m) (i : Fin n) (slot : σ) :
    set table s i slot s i = slot := by
  simp [set]

variable {s s' : Fin m} {i : Fin n}

theorem set_other (table : Table m n σ) {i' : Fin n} (slot : σ) (h : s' = s → i' ≠ i) :
    set table s i slot s' i' = table s' i' := by
  unfold set
  by_cases hs : s' = s
  · subst hs
    rw [update_self, update_of_ne (h rfl)]
  · rw [update_of_ne hs]

/-- A slot after a write is the written one, or is as it was. -/
theorem set_cases (table : Table m n σ) (s : Fin m) (i : Fin n) (slot : σ) (s' : Fin m) (i' : Fin n) :
    (s' = s ∧ i' = i ∧ set table s i slot s' i' = slot) ∨
      ((s' = s → i' ≠ i) ∧ set table s i slot s' i' = table s' i') := by
  by_cases hsame : s' = s ∧ i' = i
  · obtain ⟨rfl, rfl⟩ := hsame
    exact .inl ⟨rfl, rfl, set_same table s' i' slot⟩
  · have hother : s' = s → i' ≠ i := fun hs hi => hsame ⟨hs, hi⟩
    exact .inr ⟨hother, set_other table slot hother⟩

/-- The first slot of a shard with a property. -/
def scan (row : Fin n → σ) (p : σ → Bool) : Option (Fin n) :=
  (List.finRange n).find? fun i => p (row i)

theorem scan_some {row : Fin n → σ} {p : σ → Bool} (h : scan row p = some i) : p (row i) := by
  have hfound := List.find?_some h
  exact hfound

theorem scan_none {row : Fin n → σ} {p : σ → Bool} (h : scan row p = none) (i : Fin n) :
    p (row i) = false := by
  have := List.find?_eq_none.mp h i (List.mem_finRange i)
  simpa using this

variable (content : σ → Option ε) (key : ε → κ) (home : κ → Fin m)

/-- Every entry is in the home shard of its key, and no key is in two slots. -/
structure Keyed (table : Table m n σ) : Prop where
  home : ∀ s i e, content (table s i) = some e → home (key e) = s
  unique : ∀ s i j e e', content (table s i) = some e → content (table s j) = some e' →
    key e = key e' → i = j

variable {content key home} {table : Table m n σ}

section

variable (h : Keyed content key home table)

include h

theorem Keyed.ext {i' : Fin n} {e e' : ε} (he : content (table s i) = some e)
    (he' : content (table s' i') = some e') (hkey : key e = key e') : s = s' ∧ i = i' ∧ e = e' := by
  obtain rfl : s = s' := by rw [← h.home s i e he, ← h.home s' i' e' he', hkey]
  obtain rfl := h.unique s i i' e e' he he' hkey
  rw [he] at he'
  exact ⟨rfl, rfl, Option.some.inj he'⟩

/-- A slot of the home shard can be written for a key that is nowhere else. -/
theorem Keyed.set {slot : σ} (hslot : ∀ e, content slot = some e → home (key e) = s ∧
      ∀ j e', content (table s j) = some e' → key e' = key e → j = i) :
    Keyed content key home (set table s i slot) := by
  constructor
  · intro s' j e he
    rcases set_cases table s i slot s' j with ⟨rfl, rfl, hset⟩ | ⟨-, hset⟩ <;> rw [hset] at he
    · exact (hslot e he).1
    · exact h.home s' j e he
  · intro s' j j' e e' he he' hkey
    rcases set_cases table s i slot s' j with ⟨rfl, rfl, hset⟩ | ⟨hj, hset⟩ <;> rw [hset] at he
    · by_contra hne
      rw [set_other _ _ fun _ hi => hne hi.symm] at he'
      exact hne ((hslot e he).2 j' e' he' hkey.symm).symm
    · rcases set_cases table s i slot s' j' with ⟨rfl, rfl, hset'⟩ | ⟨-, hset'⟩ <;> rw [hset'] at he'
      · exact (hslot e' he').2 j e he hkey
      · exact h.unique s' j j' e e' he he' hkey

/-- Entries can be dropped anywhere. -/
theorem Keyed.sub {table' : Table m n σ}
    (hsub : ∀ s i e, content (table' s i) = some e → content (table s i) = some e) :
    Keyed content key home table' where
  home s i e he := h.home s i e (hsub s i e he)
  unique s i j e e' he he' := h.unique s i j e e' (hsub s i e he) (hsub s j e' he')

end

/-- What is in the table after a slot was written: what was written, and what was elsewhere before. -/
theorem content_set {j : Fin n} {slot : σ} {e : ε}
    (he : content (ShardedSlots.set table s i slot s' j) = some e) :
    (s' = s ∧ j = i ∧ content slot = some e) ∨
      ((s' = s → j ≠ i) ∧ content (table s' j) = some e) := by
  rcases set_cases table s i slot s' j with ⟨hs, hj, hset⟩ | ⟨hother, hset⟩ <;> rw [hset] at he
  · exact .inl ⟨hs, hj, he⟩
  · exact .inr ⟨hother, he⟩

end ShardedSlots
