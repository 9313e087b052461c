import Mathlib.Data.List.Basic
import Mathlib.Tactic.IntervalCases

/-! # The keyed hash

`siphash24_bytes` of `hash/hash.cpp` and the reference SipHash-2-4. The code runs the two halves of a
round side by side and builds the last word by a falling switch; the reference runs one step after
another over the words of the padded message. -/

namespace ByteTaper.Hash

open List

structure HashSeed where
  k0 : UInt64
  k1 : UInt64

structure SipState where
  v0 : UInt64
  v1 : UInt64
  v2 : UInt64
  v3 : UInt64

def rotl (x b : UInt64) : UInt64 := x <<< b ||| x >>> (64 - b)

def sipround (s : SipState) : SipState :=
  let v0 := s.v0 + s.v1
  let v2 := s.v2 + s.v3
  let v1 := rotl s.v1 13
  let v3 := rotl s.v3 16
  let v1 := v1 ^^^ v0
  let v3 := v3 ^^^ v2
  let v0 := rotl v0 32
  let v2 := v2 + v1
  let v0 := v0 + v3
  let v1 := rotl v1 17
  let v3 := rotl v3 21
  let v1 := v1 ^^^ v2
  let v3 := v3 ^^^ v0
  let v2 := rotl v2 32
  ⟨v0, v1, v2, v3⟩

def byteAt (m : List UInt8) (i : ℕ) : UInt64 := (m[i]?.getD 0).toUInt64

def initial (seed : HashSeed) : SipState :=
  ⟨seed.k0 ^^^ 0x736f6d6570736575, seed.k1 ^^^ 0x646f72616e646f6d,
    seed.k0 ^^^ 0x6c7967656e657261, seed.k1 ^^^ 0x7465646279746573⟩

def absorb (s : SipState) (mi : UInt64) : SipState :=
  let s := sipround (sipround { s with v3 := s.v3 ^^^ mi })
  { s with v0 := s.v0 ^^^ mi }

def finish (s : SipState) : UInt64 :=
  let s := sipround (sipround (sipround (sipround { s with v2 := s.v2 ^^^ 0xff })))
  s.v0 ^^^ s.v1 ^^^ s.v2 ^^^ s.v3

/-- `acc` with the bytes at the indices `is` past `offset` put at their places. -/
def orBytes (m : List UInt8) (offset : ℕ) (is : List ℕ) (acc : UInt64) : UInt64 :=
  is.foldl (fun mi i => mi ||| byteAt m (offset + i) <<< UInt64.ofNat (i * 8)) acc

/-- `siphash24_bytes`; a null pointer is `none`, and the switch enters at the last byte. -/
def siphash24Bytes (data : Option (List UInt8)) (seed : HashSeed) : UInt64 :=
  let m := data.getD []
  let left := m.length % 8
  let s := (List.range (m.length / 8)).foldl
    (fun s k => absorb s (orBytes m (k * 8) (List.range 8) 0)) (initial seed)
  let last := orBytes m (m.length / 8 * 8) (List.range left).reverse
    (UInt64.ofNat (m.length % 256) <<< 56)
  finish (absorb s last)

/-! ## The reference -/

/-- The words of "somepseudorandomlygeneratedbytes" with the key. -/
def referenceInit (seed : HashSeed) : SipState where
  v0 := 0x736f6d6570736575 ^^^ seed.k0
  v1 := 0x646f72616e646f6d ^^^ seed.k1
  v2 := 0x6c7967656e657261 ^^^ seed.k0
  v3 := 0x7465646279746573 ^^^ seed.k1

/-- `SIPROUND` of the reference, step by step. -/
def referenceRound (s : SipState) : SipState :=
  let s := { s with v0 := s.v0 + s.v1 }
  let s := { s with v1 := rotl s.v1 13 }
  let s := { s with v1 := s.v1 ^^^ s.v0 }
  let s := { s with v0 := rotl s.v0 32 }
  let s := { s with v2 := s.v2 + s.v3 }
  let s := { s with v3 := rotl s.v3 16 }
  let s := { s with v3 := s.v3 ^^^ s.v2 }
  let s := { s with v0 := s.v0 + s.v3 }
  let s := { s with v3 := rotl s.v3 21 }
  let s := { s with v3 := s.v3 ^^^ s.v0 }
  let s := { s with v2 := s.v2 + s.v1 }
  let s := { s with v1 := rotl s.v1 17 }
  let s := { s with v1 := s.v1 ^^^ s.v2 }
  { s with v2 := rotl s.v2 32 }

/-- The message, zeros up to the last byte of a word, and the length modulo 256 there. -/
def padded (m : List UInt8) : List UInt8 :=
  m ++ List.replicate (7 - m.length % 8) 0 ++ [UInt8.ofNat m.length]

/-- The little-endian word at a position. -/
def wordAt (p : List UInt8) (i : ℕ) : UInt64 :=
  byteAt p i ||| byteAt p (i + 1) <<< 8 ||| byteAt p (i + 2) <<< 16 ||| byteAt p (i + 3) <<< 24 |||
    byteAt p (i + 4) <<< 32 ||| byteAt p (i + 5) <<< 40 ||| byteAt p (i + 6) <<< 48 |||
    byteAt p (i + 7) <<< 56

/-- `c` rounds between the two exclusive ors of a word. -/
def compress (c : ℕ) (s : SipState) (mi : UInt64) : SipState :=
  let s := referenceRound^[c] { s with v3 := mi ^^^ s.v3 }
  { s with v0 := mi ^^^ s.v0 }

/-- `d` rounds at the end. -/
def finalize (d : ℕ) (s : SipState) : UInt64 :=
  let s := referenceRound^[d] { s with v2 := 0xff ^^^ s.v2 }
  s.v0 ^^^ s.v1 ^^^ s.v2 ^^^ s.v3

/-- SipHash-2-4: two rounds a word of the padded message, four at the end. -/
def sipHash24 (seed : HashSeed) (m : List UInt8) : UInt64 :=
  finalize 4 <| (List.range ((padded m).length / 8)).foldl
    (fun s k => compress 2 s (wordAt (padded m) (k * 8))) (referenceInit seed)

theorem sipround_eq : sipround = referenceRound := rfl

theorem initial_eq : initial = referenceInit := by
  funext seed
  simp only [initial, referenceInit, UInt64.xor_comm seed.k0, UInt64.xor_comm seed.k1]

theorem absorb_eq : absorb = compress 2 := by
  funext s mi
  simp only [absorb, compress, sipround_eq, UInt64.xor_comm _ mi]
  rfl

theorem finish_eq : finish = finalize 4 := by
  funext s
  simp only [finish, finalize, sipround_eq, UInt64.xor_comm _ 0xff]
  rfl

theorem orBytes_range (m : List UInt8) (offset : ℕ) :
    orBytes m offset (List.range 8) 0 = wordAt m offset := by
  simp [orBytes, wordAt, range_succ]

theorem byteAt_padded (m : List UInt8) {i : ℕ} (h : i < m.length) :
    byteAt (padded m) i = byteAt m i := by
  simp [byteAt, padded, getElem?_append_left, h]

theorem wordAt_padded (m : List UInt8) {i : ℕ} (h : i + 7 < m.length) :
    wordAt (padded m) i = wordAt m i := by
  simp (disch := omega) only [wordAt, byteAt_padded]

/-- The bytes of the last word: what is left of the message, zeros, the length. -/
theorem byteAt_padded_last (m : List UInt8) {i : ℕ} (h : i < 8) :
    byteAt (padded m) (m.length / 8 * 8 + i) =
      if i < m.length % 8 then byteAt m (m.length / 8 * 8 + i)
      else if i < 7 then 0 else UInt64.ofNat (m.length % 256) := by
  have hmod := Nat.div_add_mod' m.length 8
  split
  · exact byteAt_padded m (by omega)
  · rw [byteAt, padded, append_assoc, getElem?_append_right (by omega)]
    split
    · rw [getElem?_append_left (by simp; omega), getElem?_replicate_of_lt (by omega)]
      rfl
    · rw [getElem?_append_right (by simp; omega), length_replicate,
        show m.length / 8 * 8 + i - m.length - (7 - m.length % 8) = 0 by omega]
      apply UInt64.toNat_inj.mp
      simp
      omega

theorem last_eq (m : List UInt8) : orBytes m (m.length / 8 * 8) (List.range (m.length % 8)).reverse
      (UInt64.ofNat (m.length % 256) <<< 56) = wordAt (padded m) (m.length / 8 * 8) := by
  have hbytes := fun i h => byteAt_padded_last m (i := i) h
  have h0 := hbytes 0 (by decide)
  rw [Nat.add_zero] at h0
  simp only [wordAt, h0, hbytes, Nat.reduceLT]
  -- the switch has a case for each number of bytes that are left
  have hleft : m.length % 8 < 8 := Nat.mod_lt _ (by decide)
  generalize m.length % 8 = left at hleft ⊢
  have hswap : ∀ a b c : UInt64, a ||| (b ||| c) = b ||| (a ||| c) := by
    intro a b c
    rw [← UInt64.or_assoc, UInt64.or_comm a, UInt64.or_assoc]
  interval_cases left <;>
    simp [orBytes, range_succ, UInt64.or_assoc, UInt64.or_comm, hswap]

/-- For every seed and every byte string the code gives the hash of the reference. -/
theorem siphash24Bytes_eq_sipHash24 (data : Option (List UInt8)) (seed : HashSeed) :
    siphash24Bytes data seed = sipHash24 seed (data.getD []) := by
  generalize hm : data.getD [] = m
  have hlen : (padded m).length / 8 = m.length / 8 + 1 := by
    simp [padded]
    omega
  have hwords : ∀ s, ∀ k ∈ List.range (m.length / 8),
      absorb s (orBytes m (k * 8) (List.range 8) 0) = absorb s (wordAt (padded m) (k * 8)) := by
    intro s k hk
    rw [mem_range] at hk
    rw [orBytes_range, wordAt_padded m (by omega)]
  rw [siphash24Bytes, hm, last_eq, foldl_ext _ _ _ hwords, sipHash24, hlen,
    range_succ (n := m.length / 8), foldl_append, ← initial_eq, ← absorb_eq, ← finish_eq]
  rfl

example : sipHash24 ⟨0x0706050403020100, 0x0f0e0d0c0b0a0908⟩ ((List.range 15).map UInt8.ofNat) =
    0xa129ca6149be45e5 := by decide +kernel

end ByteTaper.Hash
