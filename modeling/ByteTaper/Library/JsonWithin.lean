import ByteTaper.Library.JsonLeaf

/-! # Parts of JSON trees

A tree lies within another one if it comes from it by leaving out members and elements at any depth,
with the order and the scalars of what stays. `without` leaves out the members and elements whose path
is named, and keeps containers that become empty. A tree that keeps some leaves only (`keepOnly`) has
everything but what is named within it just if every other value keeps one of its leaves
(`Members.within_keepOnly_iff`). -/

namespace Json

open Value
mutual

inductive Value.Within : Value → Value → Prop
  | scalar (x : Scalar) : Value.Within (.scalar x) (.scalar x)
  | array {items items' : Items} : items.Within items' → Value.Within (.array items) (.array items')
  | object {members members' : Members} :
      members.Within members' → Value.Within (.object members) (.object members')

inductive Items.Within : Items → Items → Prop
  | nil : Items.Within .nil .nil
  | skip {v : Value} {items items' : Items} :
      items.Within items' → Items.Within items (.cons v items')
  | cons {v v' : Value} {items items' : Items} :
      v.Within v' → items.Within items' → Items.Within (.cons v items) (.cons v' items')

inductive Members.Within : Members → Members → Prop
  | nil : Members.Within .nil .nil
  | skip {key : Key} {v : Value} {members members' : Members} :
      members.Within members' → Members.Within members (.cons key v members')
  | cons {key : Key} {v v' : Value} {members members' : Members} :
      v.Within v' → members.Within members' →
        Members.Within (.cons key v members) (.cons key v' members')

end

mutual

def Value.without (named : List Step → Bool) : Value → Value
  | .scalar x => .scalar x
  | .array items => .array (items.without named)
  | .object members => .object (members.without named)

def Items.without (named : List Step → Bool) : Items → Items
  | .nil => .nil
  | .cons v rest =>
    if named [.element] then rest.without named
    else .cons (v.without fun p => named (.element :: p)) (rest.without named)

def Members.without (named : List Step → Bool) : Members → Members
  | .nil => .nil
  | .cons key v rest =>
    if named [.key key] then rest.without named
    else .cons key (v.without fun p => named (.key key :: p)) (rest.without named)

end

/-! ## Order -/

theorem Items.Within.length_le : ∀ {items items' : Items}, items.Within items' →
    items.length ≤ items'.length
  | _, _, .nil => Nat.le_refl _
  | _, _, .skip h => Nat.le_succ_of_le h.length_le
  | _, _, .cons _ h => Nat.succ_le_succ h.length_le

theorem Members.Within.length_le : ∀ {members members' : Members}, members.Within members' →
    members.length ≤ members'.length
  | _, _, .nil => Nat.le_refl _
  | _, _, .skip h => Nat.le_succ_of_le h.length_le
  | _, _, .cons _ h => Nat.succ_le_succ h.length_le

mutual

theorem Value.Within.antisymm : ∀ {v v' : Value}, v.Within v' → v'.Within v → v = v'
  | _, _, .scalar x, _ => rfl
  | _, _, .array h, .array h' => by rw [h.antisymm h']
  | _, _, .object h, .object h' => by rw [h.antisymm h']

-- Nothing is skipped in either direction, since the list would then be longer than itself.
theorem Items.Within.antisymm : ∀ {items items' : Items}, items.Within items' →
    items'.Within items → items = items'
  | _, _, .nil, _ => rfl
  | _, _, .skip h, h' => absurd h'.length_le (Nat.not_lt_of_le h.length_le)
  | _, _, .cons _ h, .skip h' => absurd h'.length_le (Nat.not_lt_of_le h.length_le)
  | _, _, .cons hv h, .cons hv' h' => by rw [hv.antisymm hv', h.antisymm h']

theorem Members.Within.antisymm : ∀ {members members' : Members}, members.Within members' →
    members'.Within members → members = members'
  | _, _, .nil, _ => rfl
  | _, _, .skip h, h' => absurd h'.length_le (Nat.not_lt_of_le h.length_le)
  | _, _, .cons _ h, .skip h' => absurd h'.length_le (Nat.not_lt_of_le h.length_le)
  | _, _, .cons hv h, .cons hv' h' => by rw [hv.antisymm hv', h.antisymm h']

end

mutual

theorem Value.Within.without : ∀ {v v' : Value} (named : List Step → Bool), v.Within v' →
    (v.without named).Within (v'.without named)
  | _, _, _, .scalar x => .scalar x
  | _, _, named, .array h => .array (h.without named)
  | _, _, named, .object h => .object (h.without named)

/-- Paths say the same in both trees, so what is named goes from both. -/
theorem Items.Within.without : ∀ {items items' : Items} (named : List Step → Bool),
    items.Within items' → (items.without named).Within (items'.without named)
  | _, _, _, .nil => .nil
  | _, _, named, .skip h => by
      rw [Items.without]
      split
      · exact h.without named
      · exact .skip (h.without named)
  | _, _, named, .cons hv h => by
      rw [Items.without, Items.without]
      split
      · exact h.without named
      · exact .cons (hv.without _) (h.without named)

theorem Members.Within.without : ∀ {members members' : Members} (named : List Step → Bool),
    members.Within members' → (members.without named).Within (members'.without named)
  | _, _, _, .nil => .nil
  | _, _, named, .skip h => by
      rw [Members.without]
      split
      · exact h.without named
      · exact .skip (h.without named)
  | _, _, named, .cons hv h => by
      rw [Members.without, Members.without]
      split
      · exact h.without named
      · exact .cons (hv.without _) (h.without named)

end

/-! ## What is left lies within the tree -/

mutual

theorem Value.without_within : ∀ (v : Value) (named : List Step → Bool), (v.without named).Within v
  | .scalar x, _ => .scalar x
  | .array items, named => .array (items.without_within named)
  | .object members, named => .object (members.without_within named)

theorem Items.without_within : ∀ (items : Items) (named : List Step → Bool),
    (items.without named).Within items
  | .nil, _ => .nil
  | .cons v rest, named => by
      rw [Items.without]
      split
      · exact .skip (rest.without_within named)
      · exact .cons (v.without_within _) (rest.without_within named)

theorem Members.without_within : ∀ (members : Members) (named : List Step → Bool),
    (members.without named).Within members
  | .nil, _ => .nil
  | .cons key v rest, named => by
      rw [Members.without]
      split
      · exact .skip (rest.without_within named)
      · exact .cons (v.without_within _) (rest.without_within named)

end

mutual

theorem Value.without_without : ∀ (v : Value) (named : List Step → Bool),
    (v.without named).without named = v.without named
  | .scalar _, _ => rfl
  | .array items, named => by rw [without, without, items.without_without]
  | .object members, named => by rw [without, without, members.without_without]

theorem Items.without_without : ∀ (items : Items) (named : List Step → Bool),
    (items.without named).without named = items.without named
  | .nil, _ => rfl
  | .cons v rest, named => by
      cases hnamed : named [.element] with
      | true => simp only [Items.without, hnamed, if_true, rest.without_without]
      | false =>
        simp [Items.without, hnamed, v.without_without, rest.without_without]

theorem Members.without_without : ∀ (members : Members) (named : List Step → Bool),
    (members.without named).without named = members.without named
  | .nil, _ => rfl
  | .cons key v rest, named => by
      cases hnamed : named [.key key] with
      | true => simp only [Members.without, hnamed, if_true, rest.without_without]
      | false =>
        simp [Members.without, hnamed, v.without_without, rest.without_without]

end

variable {keep : Keep} {v' : Value} {occurs : List Step → Value → Prop}
  {named : List Step → Bool}

theorem eq_of_kept_container {empty keep gone : Bool} {v w : Value} (hempty : empty → v = w)
    (h : (if empty then if keep then some v else none else if gone then none else some w) = some v') :
    v' = w := by
  cases empty <;> cases keep <;> cases gone <;> simp_all

/-- A container that stays has what is kept of its content. -/
theorem Value.eq_of_keepOnly_array {items : Items}
    (h : (array items).keepOnly keep = some v') : v' = .array (items.keepOnly keep) := by
  exact eq_of_kept_container (fun hempty => by rw [Items.isEmpty_iff.mp hempty]; rfl) h

theorem Value.eq_of_keepOnly_object {members : Members}
    (h : (object members).keepOnly keep = some v') :
    v' = .object (members.keepOnly keep) := by
  exact eq_of_kept_container (fun hempty => by rw [Members.isEmpty_iff.mp hempty]; rfl) h

mutual

theorem Value.keepOnly_within : ∀ (v : Value) {keep : Keep} {v' : Value},
    v.keepOnly keep = some v' → v'.Within v
  | .scalar x, keep, v', h => by
      obtain ⟨-, rfl⟩ : keep [] .scalar ∧ scalar x = v' := by
        simpa [keepOnly] using h
      exact .scalar x
  | .array items, keep, v', h => by
      rw [eq_of_keepOnly_array h]
      exact .array (items.keepOnly_within keep)
  | .object members, keep, v', h => by
      rw [eq_of_keepOnly_object h]
      exact .object (members.keepOnly_within keep)

theorem Items.keepOnly_within : ∀ (items : Items) (keep : Keep), (items.keepOnly keep).Within items
  | .nil, _ => .nil
  | .cons v rest, keep => by
      rw [Items.keepOnly]
      split
      · exact .skip (rest.keepOnly_within keep)
      next v' hv => exact .cons (v.keepOnly_within hv) (rest.keepOnly_within keep)

theorem Members.keepOnly_within : ∀ (members : Members) (keep : Keep),
    (members.keepOnly keep).Within members
  | .nil, _ => .nil
  | .cons key v rest, keep => by
      rw [Members.keepOnly]
      split
      · exact .skip (rest.keepOnly_within keep)
      next v' hv => exact .cons (v.keepOnly_within hv) (rest.keepOnly_within keep)

end

/-! ## Everything but what is named -/

mutual

/-- The value stands at the path, which may be that of several values. -/
def Value.Occurs : Value → List Step → Value → Prop
  | .scalar x, p, w => p = [] ∧ w = .scalar x
  | .array items, p, w => (p = [] ∧ w = .array items) ∨ items.Occurs p w
  | .object members, p, w => (p = [] ∧ w = .object members) ∨ members.Occurs p w

def Items.Occurs : Items → List Step → Value → Prop
  | .nil, _, _ => False
  | .cons v rest, p, w => (∃ p', p = .element :: p' ∧ v.Occurs p' w) ∨ rest.Occurs p w

def Members.Occurs : Members → List Step → Value → Prop
  | .nil, _, _ => False
  | .cons key v rest, p, w => (∃ p', p = .key key :: p' ∧ v.Occurs p' w) ∨ rest.Occurs p w

end

/-- The path or one on the way to it is named. -/
def namedOnWay (named : List Step → Bool) : List Step → Bool
  | [] => false
  | step :: rest => named [step] || namedOnWay (fun p => named (step :: p)) rest

/-- Of every value that is not named, nor below something named, a leaf is kept. -/
def Spared (occurs : List Step → Value → Prop) (named : List Step → Bool)
    (keep : List Step → AnchorKind → Bool) : Prop :=
  ∀ p w, occurs p w → namedOnWay named p = false →
    ∃ q kind, w.Leaf q kind ∧ keep (p ++ q) kind = true

theorem Value.keepOnly_isSome {v : Value} (h : ∃ q kind, v.Leaf q kind ∧ keep q kind) :
    ∃ v', v.keepOnly keep = some v' := by
  obtain ⟨q, kind, hleaf⟩ := h
  obtain ⟨v', hv', -⟩ := (v.leaf_keepOnly keep q kind).mpr hleaf
  exact ⟨v', hv'⟩

theorem Value.exists_kept_leaf {v : Value} (h : v.keepOnly keep = some v') :
    ∃ q kind, v.Leaf q kind ∧ keep q kind := by
  obtain ⟨q, kind, hleaf⟩ := v'.exists_leaf
  exact ⟨q, kind, (v.leaf_keepOnly keep q kind).mp ⟨v', h, hleaf⟩⟩

theorem Spared.or_iff {occurs'} : Spared (fun p w => occurs p w ∨ occurs' p w) named keep ↔
      Spared occurs named keep ∧ Spared occurs' named keep := by
  simp [Spared, or_imp, forall_and]

theorem Spared.root_iff {v : Value} :
    Spared (fun p w => p = [] ∧ w = v) named keep ↔ ∃ q kind, v.Leaf q kind ∧ keep q kind := by
  simp [Spared, namedOnWay]

/-- Behind a step, everything is asked of the value there unless the step itself is named. -/
theorem Spared.step_iff {step : Step} :
    Spared (fun p w => ∃ p', p = step :: p' ∧ occurs p' w) named keep ↔ named [step] ∨
        Spared occurs (fun p => named (step :: p)) fun p kind => keep (step :: p) kind := by
  constructor
  · intro h
    cases hnamed : named [step] with
    | true => exact .inl rfl
    | false =>
      refine .inr fun p w hp hway => h (step :: p) w ⟨p, rfl, hp⟩ ?_
      simp [namedOnWay, hnamed, hway]
  · rintro h p w ⟨p', rfl, hp⟩ hway
    obtain ⟨hnamed, hway⟩ : named [step] = false ∧
        namedOnWay (fun p => named (step :: p)) p' = false := by
      simpa [namedOnWay] using hway
    rcases h with h | h
    · exact absurd h (by simp [hnamed])
    · exact h p' w hp hway

open Spared

mutual

theorem Value.without_keepOnly_iff : ∀ (v : Value) (named : List Step → Bool) (keep : Keep),
    (v.keepOnly keep).map (·.without named) = some (v.without named) ↔ Spared v.Occurs named keep
  | .scalar x, named, keep => by
      refine Iff.trans ?_ root_iff.symm
      constructor
      · intro h
        obtain ⟨v', hv', -⟩ := Option.map_eq_some_iff.mp h
        exact exists_kept_leaf hv'
      · intro h
        obtain ⟨v', hv'⟩ := keepOnly_isSome h
        cases keepOnly_within _ hv'
        rw [hv', Option.map_some]
  | .array items, named, keep => by
      refine Iff.trans ?_ (or_iff.trans (and_congr_left' root_iff)).symm
      rw [← items.without_keepOnly_iff named keep]
      constructor
      · intro h
        obtain ⟨v', hv', heq⟩ := Option.map_eq_some_iff.mp h
        refine ⟨exists_kept_leaf hv', ?_⟩
        rw [eq_of_keepOnly_array hv'] at heq
        exact array.inj heq
      · intro ⟨hleaf, hitems⟩
        obtain ⟨v', hv'⟩ := keepOnly_isSome hleaf
        rw [hv', eq_of_keepOnly_array hv', Option.map_some, without, hitems, without]
  | .object members, named, keep => by
      refine Iff.trans ?_ (or_iff.trans (and_congr_left' root_iff)).symm
      rw [← members.without_keepOnly_iff named keep]
      constructor
      · intro h
        obtain ⟨v', hv', heq⟩ := Option.map_eq_some_iff.mp h
        refine ⟨exists_kept_leaf hv', ?_⟩
        rw [eq_of_keepOnly_object hv'] at heq
        exact object.inj heq
      · intro ⟨hleaf, hmems⟩
        obtain ⟨v', hv'⟩ := keepOnly_isSome hleaf
        rw [hv', eq_of_keepOnly_object hv', Option.map_some, without, hmems, without]

theorem Items.without_keepOnly_iff : ∀ (items : Items) (named : List Step → Bool) (keep : Keep),
    (items.keepOnly keep).without named = items.without named ↔ Spared items.Occurs named keep
  | .nil, named, keep => by simp [Spared, Items.keepOnly, Items.Occurs]
  | .cons v rest, named, keep => by
      refine Iff.trans ?_ (or_iff.trans (and_congr_left' step_iff)).symm
      rw [← rest.without_keepOnly_iff named keep, ← v.without_keepOnly_iff, Items.keepOnly]
      cases hnamed : named [.element] with
      | true => split <;> simp [Items.without, hnamed]
      | false =>
        split
        next hv =>
          have hle := ((rest.keepOnly_within keep).without named).length_le
          simp only [hv, Items.without, hnamed, Bool.false_eq_true, if_false, Option.map_none,
            reduceCtorEq, or_self, false_and, iff_false]
          intro heq
          rw [heq] at hle
          exact absurd hle (Nat.not_succ_le_self _)
        next v' hv => simp [hv, Items.without, hnamed]

theorem Members.without_keepOnly_iff : ∀ (members : Members) (named : List Step → Bool)
    (keep : Keep),
    (members.keepOnly keep).without named = members.without named ↔ Spared members.Occurs named keep
  | .nil, named, keep => by simp [Spared, Members.keepOnly, Members.Occurs]
  | .cons key v rest, named, keep => by
      refine Iff.trans ?_ (or_iff.trans (and_congr_left' step_iff)).symm
      rw [← rest.without_keepOnly_iff named keep, ← v.without_keepOnly_iff, Members.keepOnly]
      cases hnamed : named [.key key] with
      | true => split <;> simp [Members.without, hnamed]
      | false =>
        split
        next hv =>
          have hle := ((rest.keepOnly_within keep).without named).length_le
          simp only [hv, Members.without, hnamed, Bool.false_eq_true, if_false, Option.map_none,
            reduceCtorEq, or_self, false_and, iff_false]
          intro heq
          rw [heq] at hle
          exact absurd hle (Nat.not_succ_le_self _)
        next v' hv => simp [hv, Members.without, hnamed]

end

/-- Everything but what is named lies within what is kept just if nothing of it was dropped. -/
theorem Members.within_keepOnly_iff (members : Members) (named : List Step → Bool) (keep : Keep) :
    (members.without named).Within (members.keepOnly keep) ↔
      Spared members.Occurs named keep := by
  rw [← members.without_keepOnly_iff named keep]
  constructor
  · intro h
    have hle := h.without named
    rw [members.without_without] at hle
    exact ((members.keepOnly_within keep).without named).antisymm hle
  · intro h
    rw [← h]
    exact (members.keepOnly keep).without_within named

/-! ## Objects of scalars -/

theorem flatMembers_without (entries : List (Key × Scalar)) (named : List Step → Bool) :
    (flatMembers entries).without named =
      flatMembers (entries.filter fun entry => !named [.key entry.1]) := by
  induction entries with
  | nil => rfl
  | cons entry _ ih =>
    obtain ⟨key, x⟩ := entry
    rw [flatMembers, Members.without, ih, List.filter_cons]
    cases named [.key key] <;> rfl

theorem flatMembers_within_iff {entries entries'} :
    (flatMembers entries).Within (flatMembers entries') ↔ entries.Sublist entries' := by
  constructor
  · intro h
    induction entries' generalizing entries with
    | nil =>
      cases entries with
      | nil => exact .slnil
      | cons => cases h
    | cons entry' _ ih =>
      cases entries with
      | nil => exact List.nil_sublist _
      | cons entry =>
        obtain ⟨key, x⟩ := entry
        obtain ⟨key', x'⟩ := entry'
        cases h with
        | skip h => exact .cons _ (ih h)
        | cons hv h =>
          cases hv
          exact .cons_cons _ (ih h)
  · intro h
    induction h with
    | slnil => exact .nil
    | cons _ _ ih => exact .skip ih
    | cons_cons _ _ ih => exact .cons (.scalar _) ih

end Json
