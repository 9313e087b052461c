import Mathlib.Algebra.GroupWithZero.Nat
import Mathlib.Data.Fintype.Card

/-! # Open addressing with linear probing

A table with a fixed number of slots. An entry goes to the first free slot from the one its key starts
at, and a key is looked for from that slot on up to the first free one. Probing goes on around the end
of the table, so it does not stop in a full table: `none` stands for that. Inserting fewer entries than
there are slots always works, and looking for a key then finds the first entry that was inserted with
it (`find_insertAll`). -/

namespace OpenAddressing

open List Function Option
variable {κ ε : Type} [DecidableEq κ] {n : Nat} [NeZero n] (key : ε → κ) (start : κ → Fin n)

/-- Each slot holds at most one entry. -/
abbrev Table (ε : Type) (n : Nat) := Fin n → Option ε

/-- The first free slot from a slot on, within some number of steps. -/
def freeSlot (table : Table ε n) : Nat → Fin n → Option (Fin n)
  | 0, _ => none
  | steps + 1, slot => if (table slot).isNone then some slot else freeSlot table steps (slot + 1)

def insert (table : Table ε n) (entry : ε) : Option (Table ε n) :=
  (freeSlot table n (start (key entry))).map fun slot => Function.update table slot (some entry)

def insertAll (table : Table ε n) : List ε → Option (Table ε n)
  | [] => some table
  | entry :: entries => (insert key start table entry).bind fun table => insertAll table entries

def findFrom (table : Table ε n) (k : κ) : Nat → Fin n → Option (Option ε)
  | 0, _ => none
  | steps + 1, slot =>
    match table slot with
    | none => some none
    | some entry => if key entry = k then some (some entry) else findFrom table k steps (slot + 1)

def find (table : Table ε n) (k : κ) : Option (Option ε) := findFrom key table k n (start k)

/-! ## Walking along the table -/

/-- The slot that is some steps further on. -/
def walk (slot : Fin n) (j : Nat) : Fin n := Fin.ofNat n (slot.val + j)

theorem walk_zero (slot : Fin n) : walk slot 0 = slot := by
  apply Fin.ext
  simp [walk]

theorem walk_succ (slot : Fin n) (j : Nat) : walk (slot + 1) j = walk slot (j + 1) := by
  apply Fin.ext
  simp only [walk, Fin.val_ofNat, Fin.val_add, Fin.val_one', Nat.add_mod_mod, Nat.mod_add_mod]
  congr 1
  omega

theorem exists_walk (slot target : Fin n) : ∃ j < n, walk slot j = target := by
  have hslot := slot.isLt
  have htgt := target.isLt
  refine ⟨(target.val + (n - slot.val)) % n, Nat.mod_lt _ (by omega), ?_⟩
  apply Fin.ext
  have hsum : slot.val + (target.val + (n - slot.val)) = target.val + n := by omega
  simp [walk, hsum, Nat.mod_eq_of_lt htgt]

section

variable {table : Table ε n} {steps j : Nat} {slot : Fin n} (hj : j < steps)

include hj

theorem freeSlot_spec (hfree : table (walk slot j) = none) :
    ∃ i ≤ j, freeSlot table steps slot = some (walk slot i) ∧
      table (walk slot i) = none ∧ ∀ i' < i, table (walk slot i') ≠ none := by
  induction steps generalizing j slot with
  | zero => omega
  | succ _ ih =>
    rw [freeSlot]
    split
    next hnone =>
      refine ⟨0, by omega, by rw [walk_zero], by simpa [walk_zero] using hnone, by omega⟩
    next hsome =>
      cases j with
      | zero =>
        rw [walk_zero] at hfree
        simp [hfree] at hsome
      | succ =>
        rw [← walk_succ] at hfree
        obtain ⟨i, hi, hslot, hnone, hbef⟩ := ih (by omega) hfree
        rw [walk_succ] at hslot hnone
        refine ⟨i + 1, by omega, hslot, hnone, ?_⟩
        intro i' hi'
        cases i' with
        | zero => simpa [walk_zero] using hsome
        | succ i' =>
          rw [← walk_succ]
          exact hbef i' (by omega)

theorem findFrom_spec {k : κ} {result : Option ε}
    (hbef : ∀ i < j, ∃ entry, table (walk slot i) = some entry ∧ key entry ≠ k)
    (hslot : table (walk slot j) = result) (hres : ∀ entry ∈ result, key entry = k) :
    findFrom key table k steps slot = some result := by
  induction steps generalizing j slot with
  | zero => omega
  | succ _ ih =>
    rw [findFrom]
    cases j with
    | zero =>
      rw [walk_zero] at hslot
      rw [hslot]
      cases result with
      | none => rfl
      | some entry => simp [hres entry rfl]
    | succ =>
      obtain ⟨entry, hent, hne⟩ := hbef 0 (by omega)
      rw [walk_zero] at hent
      simp only [hent, if_neg hne]
      refine ih (Nat.lt_of_succ_lt_succ hj) ?_ (by rwa [walk_succ])
      intro i hi
      rw [walk_succ]
      exact hbef (i + 1) (by omega)

end

/-! ## What a table holds -/

/-- The first entry for a key on its walk, or that there is none at all. -/
def FirstFor (table : Table ε n) (k : κ) : Option ε → Prop
  | none => ∀ slot entry, table slot = some entry → key entry ≠ k
  | some entry => ∃ j < n, table (walk (start k) j) = some entry ∧ key entry = k ∧
      ∀ i < j, ∃ entry', table (walk (start k) i) = some entry' ∧ key entry' ≠ k

structure Holds (table : Table ε n) (entries : List ε) : Prop where
  count : (Finset.univ.filter fun slot => (table slot).isSome).card = entries.length
  first : ∀ k, FirstFor key start table k (entries.find? fun entry => key entry = k)

theorem holds_empty : Holds key start (fun _ : Fin n => (none : Option ε)) [] where
  count := by simp
  first := by
    intro k slot entry h
    cases h

variable {key start} {table : Table ε n} {entries : List ε}

omit [NeZero n] in
theorem exists_free (h : (Finset.univ.filter fun i => (table i).isSome).card < n) :
    ∃ i, table i = none := by
  obtain ⟨i, -, hi⟩ := Finset.exists_mem_notMem_of_card_lt_card
    (h.trans_eq (Fintype.card_fin n).symm)
  exact ⟨i, by simpa using hi⟩

omit [NeZero n] in
theorem occupied_update {slot : Fin n} (entry : ε) (hfree : table slot = none) :
    (Finset.univ.filter fun i => (update table slot (some entry) i).isSome).card =
      (Finset.univ.filter fun i => (table i).isSome).card + 1 := by
  have hinsert : (Finset.univ.filter fun i => (update table slot (some entry) i).isSome) =
      Insert.insert slot (Finset.univ.filter fun i => (table i).isSome) := by
    ext i
    by_cases hi : i = slot
    · simp [hi]
    · simp [hi]
  rw [hinsert, Finset.card_insert_of_notMem (by simp [hfree])]

section

variable (h : Holds key start table entries) (hlength : entries.length < n)

include h hlength

/-- Probing for a free slot stops. -/
theorem Holds.freeSlot (slot : Fin n) :
    ∃ i < n, freeSlot table n slot = some (walk slot i) ∧ table (walk slot i) = none ∧
      ∀ i' < i, table (walk slot i') ≠ none := by
  obtain ⟨target, hnone⟩ := exists_free (h.count ▸ hlength)
  obtain ⟨j, hj, hwalk⟩ := exists_walk slot target
  obtain ⟨i, hi, hfree⟩ := freeSlot_spec hj (hwalk ▸ hnone)
  exact ⟨i, by omega, hfree⟩

theorem Holds.find (k : κ) :
    find key start table k = some (entries.find? fun entry => key entry = k) := by
  have hfst := h.first k
  cases hfind : entries.find? fun entry => key entry = k with
  | some =>
    rw [hfind] at hfst
    obtain ⟨j, hj, hslot, hkey, hbef⟩ := hfst
    exact findFrom_spec key hj hbef hslot (by simpa using hkey)
  | none =>
    rw [hfind] at hfst
    obtain ⟨j, hj, -, hslot, hbef⟩ := h.freeSlot hlength (start k)
    refine findFrom_spec key hj (fun i hi => ?_) hslot (by simp)
    obtain ⟨entry, hent⟩ := ne_none_iff_exists'.mp (hbef i hi)
    exact ⟨entry, hent, hfst _ entry hent⟩

theorem Holds.insert (entry : ε) : ∃ table', insert key start table entry = some table' ∧
      Holds key start table' (entries ++ [entry]) := by
  obtain ⟨j, hj, hslot, hfree, hbef⟩ := h.freeSlot hlength (start (key entry))
  refine ⟨update table (walk (start (key entry)) j) (some entry), ?_, ?_, ?_⟩
  · rw [OpenAddressing.insert, hslot, map_some]
  · rw [occupied_update _ hfree, h.count, length_append, length_singleton]
  · intro k
    -- A slot that was taken keeps its entry.
    have hkeep : ∀ {slot entry'}, table slot = some entry' →
        update table (walk (start (key entry)) j) (some entry) slot = some entry' := by
      intro slot entry' hent'
      rw [update_of_ne ?_, hent']
      rintro rfl
      rw [hfree] at hent'
      cases hent'
    have hfst := h.first k
    rw [find?_append]
    cases hfind : entries.find? fun entry => key entry = k with
    | some =>
      rw [hfind] at hfst
      obtain ⟨i, hi, hent', hkey, hothers⟩ := hfst
      refine ⟨i, hi, hkeep hent', hkey, fun i' hi' => ?_⟩
      obtain ⟨other, hother, hne⟩ := hothers i' hi'
      exact ⟨other, hkeep hother, hne⟩
    | none =>
      rw [hfind] at hfst
      by_cases hk : key entry = k
      · subst hk
        have hent : [entry].find? (fun e => key e = key entry) = some entry := by simp
        rw [none_or, hent]
        refine ⟨j, hj, update_self .., rfl, fun i hi => ?_⟩
        obtain ⟨other, hother⟩ := ne_none_iff_exists'.mp (hbef i hi)
        exact ⟨other, hkeep hother, hfst _ other hother⟩
      · simp only [none_or, find?_cons, decide_eq_false hk, find?_nil]
        intro slot entry' hent'
        by_cases hslot : slot = walk (start (key entry)) j
        · rw [hslot, update_self] at hent'
          rwa [← Option.some.inj hent']
        · rw [update_of_ne hslot] at hent'
          exact hfst slot entry' hent'

end

theorem Holds.insertAll {more : List ε} (h : Holds key start table entries)
    (hlength : entries.length + more.length ≤ n) :
    ∃ table', insertAll key start table more = some table' ∧
      Holds key start table' (entries ++ more) := by
  induction more generalizing table entries with
  | nil => exact ⟨table, rfl, by simpa using h⟩
  | cons entry more ih =>
    rw [length_cons] at hlength
    obtain ⟨table', hinsert, hholds⟩ := h.insert (by omega) entry
    have hroom : (entries ++ [entry]).length + more.length ≤ n := by
      rw [length_append, length_singleton]
      omega
    obtain ⟨table'', hmore, hholds'⟩ := ih hholds hroom
    refine ⟨table'', ?_, by simpa using hholds'⟩
    rw [OpenAddressing.insertAll, hinsert, bind_some, hmore]

variable (key start)

/-- Entries that leave a slot free are found again, the first one for each key. -/
theorem find_insertAll (hlength : entries.length < n) :
    ∃ table, insertAll key start (fun _ : Fin n => none) entries = some table ∧
      ∀ k, find key start table k = some (entries.find? fun entry => key entry = k) := by
  have hroom : ([] : List ε).length + entries.length ≤ n := by simpa using hlength.le
  obtain ⟨table, hinsert, hholds⟩ := (holds_empty key start).insertAll hroom
  exact ⟨table, hinsert, fun k => hholds.find (by simpa using hlength) k⟩

end OpenAddressing
