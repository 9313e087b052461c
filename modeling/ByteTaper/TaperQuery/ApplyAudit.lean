import Mathlib.Data.List.DropRight

/-! # The history of apply attempts

`TqApplyAuditStore` of `tq_apply_audit.cpp`: the last records, each with its number. A full store
drops its oldest record before it takes the next one. Without any capacity there is none to drop. -/

namespace ByteTaper.TaperQuery

open List

/-- A record; the store numbers it and does not look at the rest. -/
structure TqApplyAuditRecord (α : Type) where
  sequence : UInt64 := 0
  attempt : α

structure TqApplyAuditStore (α : Type) where
  capacity : Nat := 128
  deque : List (TqApplyAuditRecord α) := []
  sequence : UInt64 := 0

namespace TqApplyAuditStore

variable {α : Type} {records : List (TqApplyAuditRecord α)} {capacity : Nat}

/-- The deque with room for a record; `none` where `pop_front` is called on an empty one. -/
def evict (capacity : Nat) (deque : List α) : Option (List α) :=
  if capacity ≤ deque.length then deque.tail? else some deque

/-- The store after a call, which returns its `sequence`. -/
def append (store : TqApplyAuditStore α) (record : TqApplyAuditRecord α) :
    Option (TqApplyAuditStore α) := do
  let sequence := store.sequence + 1
  let deque ← evict store.capacity store.deque
  return { store with deque := deque ++ [{ record with sequence }], sequence }

def recent (store : TqApplyAuditStore α) (limit : Nat) : List (TqApplyAuditRecord α) :=
  store.deque.drop (store.deque.length - min limit store.deque.length)

/-- The records with their numbers, from one on. -/
def numbered (records : List (TqApplyAuditRecord α)) : List (TqApplyAuditRecord α) :=
  records.mapIdx fun i record => { record with sequence := .ofNat (i + 1) }

/-- The calls leave the last records that fit, and `recent` gives the last of these. -/
def KeepsLast (capacity : Nat) (records : List (TqApplyAuditRecord α)) : Prop :=
  ∃ store, records.foldlM append { capacity } = some store ∧
    store.deque = (numbered records).rtake capacity ∧
    ∀ limit, store.recent limit = (numbered records).rtake (min limit capacity)

theorem evict_rtake (l : List α) (n : Nat) : evict (n + 1) (l.rtake (n + 1)) = some (l.rtake n) := by
  unfold evict rtake
  rw [length_drop]
  split
  next =>
    rw [drop_eq_getElem_cons (by omega), show l.length - n = l.length - (n + 1) + 1 by omega]
    rfl
  next => rw [show l.length - (n + 1) = 0 by omega, show l.length - n = 0 by omega]

/-- A store with room for one record at least holds the last ones after every call. -/
theorem foldlM_append (records : List (TqApplyAuditRecord α)) (n : Nat) :
    records.foldlM append { capacity := n + 1 } =
      some ⟨n + 1, (numbered records).rtake (n + 1), .ofNat records.length⟩ := by
  induction records using reverseRecOn with
  | nil => simp [numbered, rtake]
  | append_singleton records record ih =>
    simp [ih, append, evict_rtake, numbered, mapIdx_append, rtake_concat_succ]

theorem recent_rtake (l : List (TqApplyAuditRecord α)) (sequence : UInt64) (limit : Nat) :
    recent ⟨capacity, l.rtake capacity, sequence⟩ limit = l.rtake (min limit capacity) := by
  simp only [recent, rtake, drop_drop, length_drop]
  congr 1
  omega

theorem keepsLast_iff : KeepsLast capacity records ↔ records = [] ∨ 0 < capacity := by
  cases capacity with
  | zero =>
    cases records with
    | nil => simp [KeepsLast, numbered, recent]
    | cons => simp [KeepsLast, append, evict]
  | succ n =>
    simp only [Nat.zero_lt_succ, or_true, iff_true]
    exact ⟨_, foldlM_append records n, rfl, recent_rtake _ _⟩

/-- Without capacity the first call already fails. -/
theorem append_without_capacity : ¬KeepsLast 0 [{ attempt := () }] := by
  simp [KeepsLast, append, evict]

end TqApplyAuditStore

end ByteTaper.TaperQuery
