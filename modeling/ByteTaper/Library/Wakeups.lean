import Mathlib.Data.Fintype.Card

/-! # Waking up the consumer of an item

Items with work are passed to their consumers through ready queues. An item is idle, queued or being
processed. Whoever makes an item queued pushes it into the ready queue of its consumer afterwards, in a
step of its own, and the consumer takes it out before it begins to process it. So the wake-up of a
queued item is at any time in one place: with a producer, in the ready queue, or with the consumer. -/

inductive Phase where
  | idle | queued | processing

/-- What a consumer is doing for which item: it has taken it from its ready queue, processes it, or has
    to put it back. -/
inductive Consumer (σ : Type) where
  | idle
  | taken (s : σ)
  | busy (s : σ)
  | returning (s : σ)

def Consumer.item? {σ : Type} : Consumer σ → Option σ
  | .idle => none
  | .taken s | .busy s | .returning s => some s

/-- The consumer is not about any other item. -/
def Consumer.Only {σ : Type} (c : Consumer σ) (s : σ) : Prop := ∀ t, c.item? = some t → t = s

/-- Items `σ`, producers `π` and consumers `ω`; a producer may have an item to push. -/
@[ext] structure Wakeups (σ π ω : Type) where
  phase : σ → Phase
  work : σ → Bool
  ready : ω → List σ
  producers : π → Option σ
  consumers : ω → Consumer σ

namespace Wakeups

open Function List Consumer Fintype
variable {σ π ω : Type}

section Protocol

variable [DecidableEq σ] [DecidableEq π] [DecidableEq ω] (owner : σ → ω) (room : Nat)

/-- Push the item into the ready queue of its consumer, if there is room. -/
def pushed (W : Wakeups σ π ω) (s : σ) : ω → List σ :=
  if room ≤ (W.ready (owner s)).length then W.ready
  else Function.update W.ready (owner s) (W.ready (owner s) ++ [s])

inductive Step (W : Wakeups σ π ω) : Wakeups σ π ω → Prop where
  /-- Work comes to or goes from an item that is not idle. -/
  | touch (s : σ) (work : Bool) (h : W.phase s ≠ .idle) :
      Step W { W with work := Function.update W.work s work }
  | wake (p : π) (s : σ) (hp : W.producers p = none) (h : W.phase s = .idle) :
      Step W { W with
        phase := Function.update W.phase s .queued
        work := Function.update W.work s true
        producers := Function.update W.producers p (some s) }
  | push (p : π) (s : σ) (hp : W.producers p = some s) :
      Step W { W with
        ready := W.pushed owner room s, producers := Function.update W.producers p none }
  | take (w : ω) (s : σ) (rest : List σ) (hw : W.consumers w = .idle)
      (hready : W.ready w = s :: rest) :
      Step W { W with
        ready := Function.update W.ready w rest
        consumers := Function.update W.consumers w (.taken s) }
  | begin (w : ω) (s : σ) (hw : W.consumers w = .taken s) (howner : owner s = w)
      (h : W.phase s = .queued) :
      Step W { W with
        phase := Function.update W.phase s .processing
        consumers := Function.update W.consumers w (.busy s) }
  | drop (w : ω) (s : σ) (hw : W.consumers w = .taken s)
      (h : ¬(owner s = w ∧ W.phase s = .queued)) :
      Step W { W with consumers := Function.update W.consumers w .idle }
  | requeue (w : ω) (s : σ) (hw : W.consumers w = .busy s) (h : W.work s = true) :
      Step W { W with
        phase := Function.update W.phase s .queued
        consumers := Function.update W.consumers w (.returning s) }
  | clear (w : ω) (s : σ) (hw : W.consumers w = .busy s) (h : W.work s = false) :
      Step W { W with
        phase := Function.update W.phase s .idle
        consumers := Function.update W.consumers w .idle }
  | giveBack (w : ω) (s : σ) (hw : W.consumers w = .returning s) :
      Step W { W with
        ready := W.pushed owner room s, consumers := Function.update W.consumers w .idle }

/-! ## Where the wake-up of an item is -/

inductive Place (π : Type) where
  | ready
  | producer (p : π)
  | consumer

def At (W : Wakeups σ π ω) (s : σ) : Place π → Prop
  | .ready => s ∈ W.ready (owner s)
  | .producer p => W.producers p = some s
  | .consumer => W.consumers (owner s) = .taken s ∨ W.consumers (owner s) = .returning s

/-- An item is queued just if its wake-up is somewhere, and then it is in one place only. -/
structure SoundAt (W : Wakeups σ π ω) (s : σ) : Prop where
  queued_iff : W.phase s = .queued ↔ ∃ place, W.At owner s place
  unique : ∀ place place', W.At owner s place → W.At owner s place' → place = place'
  busy_iff : W.phase s = .processing ↔ W.consumers (owner s) = .busy s
  work : W.work s = true → W.phase s ≠ .idle

structure Sound (W : Wakeups σ π ω) : Prop where
  items : ∀ s, W.SoundAt owner s
  mine : ∀ w, ∀ s ∈ W.ready w, owner s = w
  nodup : ∀ w, (W.ready w).Nodup
  consumer_owner : ∀ w s, (W.consumers w).item? = some s → owner s = w

end Protocol

variable {owner : σ → ω} {room : Nat} {W W' : Wakeups σ π ω}

/-! ## Items that a step is not about -/

/-- The two states agree on an item. -/
structure AgreeOn (owner : σ → ω) (W W' : Wakeups σ π ω) (s : σ) : Prop where
  phase : W'.phase s = W.phase s
  work : W'.work s = W.work s
  ready : s ∈ W'.ready (owner s) ↔ s ∈ W.ready (owner s)
  producers : ∀ p, W'.producers p = some s ↔ W.producers p = some s
  consumers : ∀ c : Consumer σ, c.item? = some s →
    (W'.consumers (owner s) = c ↔ W.consumers (owner s) = c)

variable {s : σ}

theorem AgreeOn.at_iff (h : AgreeOn owner W W' s) (place : Place π) :
    W'.At owner s place ↔ W.At owner s place := by
  cases place with
  | ready => exact h.ready
  | producer p => exact h.producers p
  | consumer => exact or_congr (h.consumers _ rfl) (h.consumers _ rfl)

theorem SoundAt.of_agree (h : W.SoundAt owner s) (hagree : AgreeOn owner W W' s) :
    W'.SoundAt owner s where
  queued_iff := by simp [hagree.phase, hagree.at_iff, h.queued_iff]
  unique place place' hplace hplace' :=
    h.unique place place' ((hagree.at_iff place).mp hplace) ((hagree.at_iff place').mp hplace')
  busy_iff := by rw [hagree.phase, hagree.consumers _ rfl, h.busy_iff]
  work := by
    rw [hagree.work, hagree.phase]
    exact h.work

/-- The wake-up of an item is in the given place and nowhere else. -/
theorem SoundAt.of_place (place : Place π) (hphase : W.phase s = .queued)
    (hplace : ∀ place', W.At owner s place' ↔ place' = place)
    (hbusy : W.consumers (owner s) ≠ .busy s) : W.SoundAt owner s where
  queued_iff := iff_of_true hphase ⟨place, (hplace place).mpr rfl⟩
  unique place' place'' h h' := ((hplace place').mp h).trans ((hplace place'').mp h').symm
  busy_iff := iff_of_false (by rw [hphase]; exact nofun) hbusy
  work _ := by
    rw [hphase]
    exact nofun

/-- The wake-up of an item is nowhere. -/
theorem SoundAt.of_nowhere (hphase : W.phase s ≠ .queued) (hplace : ∀ place, ¬W.At owner s place)
    (hbusy : W.phase s = .processing ↔ W.consumers (owner s) = .busy s)
    (hwork : W.work s → W.phase s ≠ .idle) : W.SoundAt owner s where
  queued_iff := iff_of_false hphase fun ⟨place, h⟩ => hplace place h
  unique place _ h := absurd h (hplace place)
  busy_iff := hbusy
  work := hwork

/-! ## What a step leaves alone -/

theorem consumers_frame [DecidableEq ω] {w : ω} {t : σ} {c' : Consumer σ} (ht : t ≠ s)
    (hold : (W.consumers w).Only s) (hnew : c'.Only s) (c : Consumer σ) (hc : c.item? = some t) :
    update W.consumers w c' (owner t) = c ↔ W.consumers (owner t) = c := by
  by_cases hw : owner t = w
  · rw [hw, update_self]
    exact iff_of_false (fun h => ht (hnew t (h ▸ hc))) fun h => ht (hold t (h ▸ hc))
  · rw [update_of_ne hw]

theorem producers_frame [DecidableEq π] {p : π} {t : σ} {x : Option σ} (ht : t ≠ s)
    (hold : ∀ t, W.producers p = some t → t = s) (hnew : ∀ t, x = some t → t = s) (p' : π) :
    update W.producers p x p' = some t ↔ W.producers p' = some t := by
  by_cases hp : p' = p
  · rw [hp, update_self]
    exact iff_of_false (fun h => ht (hnew t h)) fun h => ht (hold t h)
  · rw [update_of_ne hp]

theorem pushed_frame [DecidableEq ω] {t : σ} (ht : t ≠ s) (w : ω) :
    t ∈ W.pushed owner room s w ↔ t ∈ W.ready w := by
  unfold pushed
  split
  · rfl
  by_cases hw : w = owner s
  · rw [hw, update_self]
    simp [ht]
  · rw [update_of_ne hw]

theorem consumer_owner_update [DecidableEq ω] {w : ω} {c : Consumer σ}
    (h : ∀ w s, (W.consumers w).item? = some s → owner s = w)
    (hc : ∀ s, c.item? = some s → owner s = w) (w' : ω) (s : σ)
    (hs : (update W.consumers w c w').item? = some s) : owner s = w' := by
  by_cases hw : w' = w
  · subst hw
    rw [update_self] at hs
    exact hc s hs
  · rw [update_of_ne hw] at hs
    exact h w' s hs

/-! ## Pushing -/

section

variable (h : W.Sound owner) (hs : s ∉ W.ready (owner s))

include h hs

/-- There is room for an item that is not in its ready queue. -/
theorem Sound.length_lt [Fintype σ] : (W.ready (owner s)).length < card σ := by
  have hnodup : (s :: W.ready (owner s)).Nodup := nodup_cons.mpr ⟨hs, h.nodup (owner s)⟩
  exact hnodup.length_le_card

theorem Sound.pushed_eq [Fintype σ] [DecidableEq ω] (hroom : card σ ≤ room) :
    W.pushed owner room s = update W.ready (owner s) (W.ready (owner s) ++ [s]) := by
  have hlt := h.length_lt hs
  exact if_neg (by omega)

theorem Sound.mine_pushed [Fintype σ] [DecidableEq ω] (hroom : card σ ≤ room) :
    (∀ w, ∀ t ∈ W.pushed owner room s w, owner t = w) ∧ ∀ w, (W.pushed owner room s w).Nodup := by
  rw [h.pushed_eq hs hroom]
  refine ⟨fun w t ht => ?_, fun w => ?_⟩
  · by_cases hw : w = owner s
    · rw [hw, update_self, mem_append, mem_singleton] at ht
      rcases ht with ht | rfl
      · rw [hw]
        exact h.mine _ t ht
      · exact hw.symm
    · rw [update_of_ne hw] at ht
      exact h.mine w t ht
  · by_cases hw : w = owner s
    · rw [hw, update_self]
      exact (h.nodup _).append (nodup_singleton s) (by simpa using hs)
    · rw [update_of_ne hw]
      exact h.nodup w

end

/-! ## Every step keeps the invariant -/

theorem SoundAt.nowhere (h : W.SoundAt owner s) (hphase : W.phase s ≠ .queued) (place : Place π) :
    ¬W.At owner s place :=
  fun hplace => hphase (h.queued_iff.mpr ⟨place, hplace⟩)

theorem SoundAt.not_busy (h : W.SoundAt owner s) (hphase : W.phase s ≠ .processing) :
    W.consumers (owner s) ≠ .busy s :=
  fun hbusy => hphase (h.busy_iff.mpr hbusy)

/-- A consumer that has taken an item finds it queued. -/
theorem Sound.taken_queued (h : W.Sound owner) {w : ω} (hw : W.consumers w = .taken s) :
    owner s = w ∧ W.phase s = .queued := by
  have hown : owner s = w := h.consumer_owner w s (by rw [hw]; rfl)
  exact ⟨hown, (h.items s).queued_iff.mpr ⟨.consumer, .inl (by rw [hown, hw])⟩⟩

/-- A consumer processes an item that is in processing, and its wake-up is nowhere. -/
theorem Sound.busy_processing (h : W.Sound owner) {w : ω} (hw : W.consumers w = .busy s) :
    owner s = w ∧ W.phase s = .processing := by
  have hown : owner s = w := h.consumer_owner w s (by rw [hw]; rfl)
  exact ⟨hown, (h.items s).busy_iff.mpr (by rw [hown, hw])⟩

open SoundAt

section Steps

variable [DecidableEq σ] {w : ω}

theorem Sound.touch (h : W.Sound owner) (work : Bool) (hphase : W.phase s ≠ .idle) :
    Sound owner { W with work := update W.work s work } := by
  refine ⟨fun t => ⟨(h.items t).queued_iff, (h.items t).unique, (h.items t).busy_iff, ?_⟩, h.mine,
    h.nodup, h.consumer_owner⟩
  by_cases ht : t = s
  · subst ht
    exact fun _ => hphase
  · simpa [ht] using (h.items t).work

theorem Sound.wake [DecidableEq π] (h : W.Sound owner) {p : π} (hp : W.producers p = none)
    (hidle : W.phase s = .idle) :
    Sound owner { W with
      phase := update W.phase s .queued
      work := update W.work s true
      producers := update W.producers p (some s) } := by
  refine ⟨fun t => ?_, h.mine, h.nodup, h.consumer_owner⟩
  by_cases ht : t = s
  · subst ht
    have hnowhere := (h.items t).nowhere (by rw [hidle]; exact nofun)
    refine of_place (.producer p) (update_self ..) (fun place => ?_)
      ((h.items t).not_busy (by rw [hidle]; exact nofun))
    cases place with
    | ready => exact iff_of_false (hnowhere .ready) nofun
    | consumer => exact iff_of_false (hnowhere .consumer) nofun
    | producer p' =>
      by_cases hpp : p' = p
      · exact iff_of_true (by simp [At, hpp]) (by rw [hpp])
      · refine iff_of_false (fun hat => hnowhere (.producer p') ?_) (by simpa using hpp)
        simpa [At, hpp] using hat
  · refine (h.items t).of_agree ⟨?_, ?_, Iff.rfl, ?_, fun _ _ => Iff.rfl⟩
    · exact update_of_ne ht _ _
    · exact update_of_ne ht _ _
    · exact producers_frame ht (by simp [hp]) (by simp)

variable [DecidableEq ω]

section

variable (h : W.Sound owner)

include h

theorem Sound.push [DecidableEq π] [Fintype σ] (hroom : card σ ≤ room) {p : π}
    (hp : W.producers p = some s) :
    Sound owner { W with
      ready := W.pushed owner room s, producers := update W.producers p none } := by
  have hat : W.At owner s (.producer p) := hp
  have hnot : ∀ place, place ≠ .producer p → ¬W.At owner s place :=
    fun place hne hplace => hne ((h.items s).unique _ _ hplace hat)
  have hready : s ∉ W.ready (owner s) := hnot .ready nofun
  obtain ⟨hmine, hnodup⟩ := h.mine_pushed hready hroom
  refine ⟨fun t => ?_, hmine, hnodup, h.consumer_owner⟩
  by_cases ht : t = s
  · subst ht
    have hqueued := (h.items t).queued_iff.mpr ⟨_, hat⟩
    refine of_place .ready hqueued (fun place => ?_)
      ((h.items t).not_busy (by rw [hqueued]; exact nofun))
    cases place with
    | ready => exact iff_of_true (by simp [At, h.pushed_eq hready hroom]) rfl
    | consumer => exact iff_of_false (hnot .consumer nofun) nofun
    | producer p' =>
      refine iff_of_false (fun hat' => ?_) nofun
      by_cases hpp : p' = p
      · simp [At, hpp] at hat'
      · exact hnot (.producer p') (by simpa using hpp) (by simpa [At, hpp] using hat')
  · refine (h.items t).of_agree ⟨rfl, rfl, pushed_frame ht _, ?_, fun _ _ => Iff.rfl⟩
    exact producers_frame ht (fun t' ht' => by rw [hp] at ht'; cases ht'; rfl) nofun

theorem Sound.take {rest : List σ} (hw : W.consumers w = .idle) (hready : W.ready w = s :: rest) :
    Sound owner { W with
      ready := update W.ready w rest
      consumers := update W.consumers w (.taken s) } := by
  have hown : owner s = w := h.mine w s (by simp [hready])
  have hat : W.At owner s .ready := by simp [At, hown, hready]
  have hnot : ∀ place, place ≠ .ready → ¬W.At owner s place :=
    fun place hne hplace => hne ((h.items s).unique _ _ hplace hat)
  have hnodup := h.nodup w
  rw [hready, nodup_cons] at hnodup
  have hsublist : ∀ w', (update W.ready w rest w').Sublist (W.ready w') := by
    intro w'
    by_cases hw' : w' = w
    · subst hw'
      simp [hready]
    · simp [hw']
  refine ⟨fun t => ?_, fun w' t ht => ?_, fun w' => ?_, ?_⟩
  · by_cases ht : t = s
    · subst ht
      refine of_place .consumer ((h.items t).queued_iff.mpr ⟨_, hat⟩)
        (fun place => ?_) (by simp [hown])
      cases place with
      | ready => exact iff_of_false (by simpa [At, hown] using hnodup.1) nofun
      | consumer => exact iff_of_true (by simp [At, hown]) rfl
      | producer p' => exact iff_of_false (hnot (.producer p') nofun) nofun
    · refine (h.items t).of_agree ⟨rfl, rfl, ?_, fun _ => Iff.rfl, ?_⟩
      · by_cases htw : owner t = w
        · simp [htw, hready, ht]
        · simp [htw]
      · exact consumers_frame ht (by simp [Only, hw, item?]) (by simp [Only, item?])
  · exact h.mine w' t ((hsublist w').subset ht)
  · exact (h.nodup w').sublist (hsublist w')
  · exact consumer_owner_update h.consumer_owner (by simp [item?, hown])

/-- A consumer goes on with its item, or leaves it: it is enough to look at that item. -/
theorem Sound.goOn {c : Consumer σ} {phase : Phase} (hw : (W.consumers w).item? = some s)
    (hc : c.Only s)
    (hs : SoundAt owner { W with
      phase := update W.phase s phase
      consumers := update W.consumers w c } s) :
    Sound owner { W with
      phase := update W.phase s phase
      consumers := update W.consumers w c } := by
  have hown : ∀ t, c.item? = some t → owner t = w := fun t ht => hc t ht ▸ h.consumer_owner w s hw
  refine ⟨fun t => ?_, h.mine, h.nodup, consumer_owner_update h.consumer_owner hown⟩
  by_cases ht : t = s
  · exact ht ▸ hs
  · refine (h.items t).of_agree ⟨?_, rfl, Iff.rfl, fun _ => Iff.rfl, ?_⟩
    · exact update_of_ne ht _ _
    · exact consumers_frame ht (by simp [Only, hw]) hc

theorem Sound.begin (hw : W.consumers w = .taken s) : Sound owner { W with
      phase := update W.phase s .processing
      consumers := update W.consumers w (.busy s) } := by
  have hown : owner s = w := (h.taken_queued hw).1
  have hnot : ∀ place, place ≠ .consumer → ¬W.At owner s place :=
    fun place hne hplace => hne ((h.items s).unique _ _ hplace (.inl (by rw [hown, hw])))
  refine h.goOn (by rw [hw]; rfl) (by simp [Only, item?]) ?_
  refine of_nowhere (by simp) (fun place => ?_) (by simp [hown]) (by simp)
  cases place with
  | ready => exact hnot .ready nofun
  | producer p => exact hnot (.producer p) nofun
  | consumer => simp [At, hown]

theorem Sound.requeue (hw : W.consumers w = .busy s) : Sound owner { W with
      phase := update W.phase s .queued
      consumers := update W.consumers w (.returning s) } := by
  obtain ⟨hown, hphase⟩ := h.busy_processing hw
  have hnowhere := (h.items s).nowhere (by rw [hphase]; exact nofun)
  refine h.goOn (by rw [hw]; rfl) (by simp [Only, item?]) ?_
  refine of_place .consumer (update_self ..) (fun place => ?_) (by simp [hown])
  cases place with
  | ready => exact iff_of_false (hnowhere .ready) nofun
  | producer p => exact iff_of_false (hnowhere (.producer p)) nofun
  | consumer => exact iff_of_true (by simp [At, hown]) rfl

theorem Sound.clear (hw : W.consumers w = .busy s) (hwork : W.work s = false) : Sound owner { W with
      phase := update W.phase s .idle
      consumers := update W.consumers w .idle } := by
  obtain ⟨hown, hphase⟩ := h.busy_processing hw
  have hnowhere := (h.items s).nowhere (by rw [hphase]; exact nofun)
  refine h.goOn (by rw [hw]; rfl) nofun ?_
  refine of_nowhere (by simp) (fun place => ?_) (by simp [hown]) (by simp [hwork])
  cases place with
  | ready => exact hnowhere .ready
  | producer p => exact hnowhere (.producer p)
  | consumer => simp [At, hown]

theorem Sound.giveBack [Fintype σ] (hroom : card σ ≤ room) (hw : W.consumers w = .returning s) :
    Sound owner { W with
      ready := W.pushed owner room s, consumers := update W.consumers w .idle } := by
  have hown : owner s = w := h.consumer_owner w s (by rw [hw]; rfl)
  have hat : W.At owner s .consumer := .inr (by rw [hown, hw])
  have hnot : ∀ place, place ≠ .consumer → ¬W.At owner s place :=
    fun place hne hplace => hne ((h.items s).unique _ _ hplace hat)
  have hready : s ∉ W.ready (owner s) := hnot .ready nofun
  obtain ⟨hmine, hnodup⟩ := h.mine_pushed hready hroom
  refine ⟨fun t => ?_, hmine, hnodup, consumer_owner_update h.consumer_owner (by
    simp [item?])⟩
  by_cases ht : t = s
  · subst ht
    refine of_place .ready ((h.items t).queued_iff.mpr ⟨_, hat⟩) (fun place => ?_) (by simp [hown])
    cases place with
    | ready => exact iff_of_true (by simp [At, h.pushed_eq hready hroom]) rfl
    | producer p => exact iff_of_false (hnot (.producer p) nofun) nofun
    | consumer => exact iff_of_false (by simp [At, hown]) nofun
  · refine (h.items t).of_agree ⟨rfl, rfl, pushed_frame ht _, fun _ => Iff.rfl, ?_⟩
    exact consumers_frame ht (by simp [Only, hw, item?]) (by simp [Only, item?])

theorem Sound.step [DecidableEq π] [Fintype σ] (hroom : card σ ≤ room)
    (hstep : W.Step owner room W') : W'.Sound owner := by
  cases hstep with
  | touch s work hphase => exact h.touch work hphase
  | wake p s hp hidle => exact h.wake hp hidle
  | push p s hp => exact h.push hroom hp
  | take _ _ _ hw hready => exact h.take hw hready
  | begin w s hw => exact h.begin hw
  | drop w s hw hnot => exact absurd (h.taken_queued hw) hnot
  | requeue w s hw => exact h.requeue hw
  | clear w s hw hwork => exact h.clear hw hwork
  | giveBack w s hw => exact h.giveBack hroom hw

end

end Steps

end Wakeups
