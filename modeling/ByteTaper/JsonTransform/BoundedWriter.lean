import ByteTaper.Library.Text
import Mathlib.Logic.Function.Basic

/-! # The bounded writer

`BoundedWriter` of `filter_flat_json.cpp` drops the characters that find no room in its buffer, while
its length goes on and can be rolled back into range. -/

namespace ByteTaper.JsonTransform

open List

/-- `output` is the memory behind the pointer, if it is not null. The indices written to are kept. -/
structure BoundedWriter where
  output : Option (Nat → Char)
  capacity : Nat
  length : Nat := 0
  touched : List Nat := []

namespace BoundedWriter

/-! ## The writer -/

section

variable (w : BoundedWriter)

def hasBuffer : Bool := w.output.isSome && 0 < w.capacity

def store (i : Nat) (c : Char) : BoundedWriter :=
  { w with output := w.output.map (Function.update · i c), touched := i :: w.touched }

/-- A new writer, after `initialize`. -/
def initialized (output : Option (Nat → Char)) (capacity : Nat) : BoundedWriter :=
  let w : BoundedWriter := { output, capacity }
  if w.hasBuffer then w.store 0 '\x00' else w

def terminatorIndex : Nat := if w.length < w.capacity then w.length else w.capacity - 1

def terminate : BoundedWriter := if w.hasBuffer then w.store w.terminatorIndex '\x00' else w

def appendChar (c : Char) : BoundedWriter :=
  let w := if w.hasBuffer && w.length + 1 < w.capacity then w.store w.length c else w
  { w with length := w.length + 1 }.terminate

/-- `append_cstr` and `append_slice`, for the characters that they read. -/
def append (text : Text) : BoundedWriter := text.foldl appendChar w

def fitsCapacity : Bool := 0 < w.capacity && w.length + 1 ≤ w.capacity

def checkpoint : Nat := w.length

def rollback (checkpointLength : Nat) : BoundedWriter :=
  { w with length := checkpointLength }.terminate

end

/-- A rollback goes to a checkpoint, counted from the last one. -/
inductive Call where
  | append (text : Text)
  | checkpoint
  | rollback (back : Nat)

/-- A call on an object, beside the checkpoints so far. One that lies behind the end, where an earlier
    rollback has left it, cannot be gone back to. -/
def Call.run {σ : Type} (append : σ → Text → σ) (checkpoint : σ → Nat) (rollback : σ → Nat → σ) :
    σ × List Nat → Call → σ × List Nat
  | (s, marks), .append text => (append s text, marks)
  | (s, marks), .checkpoint => (s, checkpoint s :: marks)
  | (s, marks), .rollback back =>
    match marks[back]? with
    | some mark => (if mark ≤ checkpoint s then rollback s mark else s, marks)
    | none => (s, marks)

def call := Call.run append checkpoint rollback

/-- The same on a string without bounds. -/
def idealCall := Call.run (fun ideal text : Text => ideal ++ text) List.length fun ideal n => ideal.take n

/-! ## The string that it holds -/

/-- The buffer has the characters of the string that it has room for. -/
structure Carries (capacity : Nat) (w : BoundedWriter) (ideal : Text) : Prop where
  sized : w.capacity = capacity
  touched : ∀ i ∈ w.touched, w.output.isSome ∧ i < capacity
  length : w.length = ideal.length
  text : ∀ memory ∈ w.output, ∀ i (h : i < ideal.length), i + 1 < capacity → memory i = ideal[i]

/-- And a terminator behind them. -/
structure Holds (capacity : Nat) (w : BoundedWriter) (ideal : Text) : Prop
    extends Carries capacity w ideal where
  terminator : ∀ memory ∈ w.output, 0 < capacity → memory w.terminatorIndex = '\x00'

variable {w : BoundedWriter} {capacity : Nat} {ideal : Text}

theorem hasBuffer_iff : w.hasBuffer ↔ w.output.isSome ∧ 0 < w.capacity := by simp [hasBuffer]

section

variable (h : Carries capacity w ideal)

include h

/-- Writing behind the string, or at the end of the buffer, does not change what it has. -/
theorem Carries.store {i : Nat} (hbuf : w.hasBuffer) (hi : i < capacity)
    (hfree : ideal.length ≤ i ∨ i + 1 = capacity) (c : Char) :
    Carries capacity (w.store i c) ideal := by
  refine ⟨h.sized, ?_, h.length, fun memory hmem j hlt hj => ?_⟩
  · simpa [BoundedWriter.store, hi, (hasBuffer_iff.mp hbuf).1] using h.touched
  · obtain ⟨before, hbefore, rfl⟩ := Option.map_eq_some_iff.mp hmem
    rw [Function.update_of_ne (by omega)]
    exact h.text before hbefore j hlt hj

theorem Carries.terminate : Holds capacity w.terminate ideal := by
  unfold BoundedWriter.terminate
  split
  next hbuf =>
    have hidx : w.terminatorIndex < capacity ∧
        (ideal.length ≤ w.terminatorIndex ∨ w.terminatorIndex + 1 = capacity) := by
      have hpos := (hasBuffer_iff.mp hbuf).2
      rw [← h.length, ← h.sized, terminatorIndex]
      split <;> omega
    refine ⟨h.store hbuf hidx.1 hidx.2 _, fun memory hmem _ => ?_⟩
    obtain ⟨before, -, rfl⟩ := Option.map_eq_some_iff.mp hmem
    exact Function.update_self ..
  next hbuf =>
    refine ⟨h, fun memory hmem hpos => absurd (hasBuffer_iff.mpr ⟨?_, h.sized ▸ hpos⟩) hbuf⟩
    exact Option.isSome_of_mem hmem

theorem Carries.appendChar (c : Char) : Holds capacity (w.appendChar c) (ideal ++ [c]) := by
  refine Carries.terminate ?_
  split
  next hroom =>
    simp only [Bool.and_eq_true, decide_eq_true_eq, h.sized] at hroom
    have hstore := h.store hroom.1 (i := w.length) (by omega) (.inl (Nat.le_of_eq h.length.symm)) c
    refine ⟨h.sized, hstore.touched, by simp [BoundedWriter.store, h.length], ?_⟩
    intro memory hmem i hi hlt
    obtain hi | rfl : i < ideal.length ∨ i = ideal.length := by simp at hi; omega
    · rw [getElem_append_left hi]
      exact hstore.text memory hmem i hi hlt
    · obtain ⟨before, -, rfl⟩ := Option.map_eq_some_iff.mp hmem
      simp [h.length]
  next hroom =>
    refine ⟨h.sized, h.touched, by simp [h.length], fun memory hmem i hi hlt => ?_⟩
    have hfull : ¬w.length + 1 < capacity := fun hlt' => hroom (by
      simp [hasBuffer_iff, Option.isSome_of_mem hmem, h.sized, hlt']; omega)
    have hi : i < ideal.length := by have := h.length; omega
    rw [getElem_append_left hi]
    exact h.text memory hmem i hi hlt

theorem Carries.rollback {n : Nat} (hn : n ≤ ideal.length) :
    Holds capacity (w.rollback n) (ideal.take n) := by
  refine Carries.terminate ⟨h.sized, h.touched, by simp [hn], fun memory hmem i hi hlt => ?_⟩
  rw [getElem_take]
  exact h.text memory hmem i _ hlt

end

section

variable (h : Holds capacity w ideal)

include h

theorem Holds.append (text : Text) : Holds capacity (w.append text) (ideal ++ text) := by
  induction text generalizing w ideal with
  | nil => simpa [BoundedWriter.append] using h
  | cons c text ih => simpa [BoundedWriter.append] using ih (h.appendChar c)

theorem Holds.buffer {memory : Nat → Char} (hfits : w.fitsCapacity) (hmem : memory ∈ w.output) :
    (range (w.length + 1)).map memory = ideal ++ ['\x00'] := by
  simp only [fitsCapacity, Bool.and_eq_true, decide_eq_true_eq, h.sized] at hfits
  have hlast := h.terminator memory hmem hfits.1
  rw [terminatorIndex, h.sized, if_pos (by omega)] at hlast
  have htext : (range w.length).map memory = ideal := by
    refine ext_getElem (by simpa using h.length) fun i hi hi' => ?_
    rw [getElem_map, getElem_range]
    exact h.text memory hmem i hi' (by rw [h.length] at hfits; omega)
  rw [range_succ, map_append, htext, map_singleton, hlast]

end

/-! ## Whole runs -/

/-- The writer holds the string, and the checkpoints agree. -/
def Refines (capacity : Nat) (run : BoundedWriter × List Nat) (ideal : Text × List Nat) : Prop :=
  Holds capacity run.1 ideal.1 ∧ run.2 = ideal.2

theorem Refines.call {run ideal} (h : Refines capacity run ideal) (c : Call) :
    Refines capacity (call run c) (idealCall ideal c) := by
  obtain ⟨w, marks⟩ := run
  obtain ⟨ideal, _⟩ := ideal
  obtain ⟨h, rfl⟩ : Holds capacity w ideal ∧ marks = _ := h
  cases c with
  | append text => exact ⟨h.append text, rfl⟩
  | checkpoint => exact ⟨h, congrArg (· :: marks) h.length⟩
  | rollback back =>
    simp only [BoundedWriter.call, idealCall, Call.run]
    match marks[back]? with
    | none => exact ⟨h, rfl⟩
    | some mark =>
      simp only [checkpoint, h.length]
      split
      next hle => exact ⟨h.rollback hle, rfl⟩
      next => exact ⟨h, rfl⟩

theorem refines_initialized (output : Option (Nat → Char)) :
    Refines capacity (initialized output capacity, []) ([], []) := by
  have hzero : terminatorIndex { output, capacity } = 0 := by
    simp only [terminatorIndex]
    split <;> omega
  have hterm : Holds capacity (terminate { output, capacity }) [] :=
    Carries.terminate ⟨rfl, nofun, rfl, nofun⟩
  rw [BoundedWriter.terminate, hzero] at hterm
  exact ⟨hterm, rfl⟩

/-- Through any calls the writer is a string without bounds, whatever was dropped in between. -/
theorem refines_string (output : Option (Nat → Char)) (capacity : Nat) (calls : List Call) :
    let w := (calls.foldl call (initialized output capacity, [])).1
    let ideal := (calls.foldl idealCall ([], [])).1
    (∀ i ∈ w.touched, w.output.isSome ∧ i < capacity) ∧ w.length = ideal.length ∧
      (w.fitsCapacity → ∀ memory ∈ w.output,
        (range (w.length + 1)).map memory = ideal ++ ['\x00']) := by
  intro w ideal
  obtain ⟨hrun, -⟩ : Refines capacity _ _ :=
    foldl_rel (refines_initialized output) fun c _ _ _ h => h.call c
  exact ⟨hrun.touched, hrun.length, fun hfits _ => hrun.buffer hfits⟩

end BoundedWriter

end ByteTaper.JsonTransform
