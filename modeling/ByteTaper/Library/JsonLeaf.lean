import ByteTaper.Library.JsonPath

/-! # Leaves of JSON trees

The leaves of a tree are its scalars and its empty objects and arrays. `keepOnly` drops leaves, and with
them the containers that lose their last one. What it leaves is given by the leaves that are kept, and
two ways to keep leaves give the same tree just if they agree on every leaf (`keepOnly_eq_iff`). -/

namespace Json

open Items
mutual

/-- An empty array is the only array that is a leaf. -/
def Value.Leaf : Value → List Step → AnchorKind → Prop
  | .scalar _, p, kind => p = [] ∧ kind = .scalar
  | .array items, p, kind =>
    (items.isEmpty = true ∧ p = [] ∧ kind = .array) ∨ items.Leaf p kind
  | .object members, p, kind =>
    (members.isEmpty = true ∧ p = [] ∧ kind = .emptyObject) ∨ members.Leaf p kind

def Items.Leaf : Items → List Step → AnchorKind → Prop
  | .nil, _, _ => False
  | .cons v rest, p, kind => (∃ p', p = .element :: p' ∧ v.Leaf p' kind) ∨ rest.Leaf p kind

def Members.Leaf : Members → List Step → AnchorKind → Prop
  | .nil, _, _ => False
  | .cons key v rest, p, kind => (∃ p', p = .key key :: p' ∧ v.Leaf p' kind) ∨ rest.Leaf p kind

end

mutual

def Value.keepOnly (keep : List Step → AnchorKind → Bool) : Value → Option Value
  | .scalar x => if keep [] .scalar then some (.scalar x) else none
  | .array items =>
    if items.isEmpty then if keep [] .array then some (.array items) else none
    else
      let items' := items.keepOnly keep
      if items'.isEmpty then none else some (.array items')
  | .object members =>
    if members.isEmpty then if keep [] .emptyObject then some (.object members) else none
    else
      let members' := members.keepOnly keep
      if members'.isEmpty then none else some (.object members')

def Items.keepOnly (keep : List Step → AnchorKind → Bool) : Items → Items
  | .nil => .nil
  | .cons v rest =>
    match v.keepOnly fun p kind => keep (.element :: p) kind with
    | none => rest.keepOnly keep
    | some v' => .cons v' (rest.keepOnly keep)

def Members.keepOnly (keep : List Step → AnchorKind → Bool) : Members → Members
  | .nil => .nil
  | .cons key v rest =>
    match v.keepOnly fun p kind => keep (.key key :: p) kind with
    | none => rest.keepOnly keep
    | some v' => .cons key v' (rest.keepOnly keep)

end

/-! ## Leaves exist -/

mutual

theorem Value.exists_leaf : ∀ v : Value, ∃ p kind, v.Leaf p kind
  | .scalar _ => ⟨[], .scalar, rfl, rfl⟩
  | .array .nil => ⟨[], .array, .inl ⟨rfl, rfl, rfl⟩⟩
  | .array (.cons v rest) => by
      obtain ⟨p, kind, h⟩ := v.exists_leaf
      exact ⟨.element :: p, kind, .inr (.inl ⟨p, rfl, h⟩)⟩
  | .object .nil => ⟨[], .emptyObject, .inl ⟨rfl, rfl, rfl⟩⟩
  | .object (.cons key v rest) => by
      obtain ⟨p, kind, h⟩ := v.exists_leaf
      exact ⟨.key key :: p, kind, .inr (.inl ⟨p, rfl, h⟩)⟩

end

/-! ## What is left has the leaves that are kept -/

/-- A leaf of a value that may be gone. -/
def LeafOf (kept : Option Value) (p : List Step) (kind : AnchorKind) : Prop :=
  ∃ v, kept = some v ∧ v.Leaf p kind

variable {p : List Step} {kind : AnchorKind} {v : Value} {keep : Keep}

theorem leafOf_none : ¬ LeafOf none p kind := by
  rintro ⟨v, h, -⟩
  cases h

theorem leafOf_some : LeafOf (some v) p kind ↔ v.Leaf p kind := by
  simp [LeafOf]

/-- A value that is a leaf itself. -/
theorem leafOf_if {k : AnchorKind} (hleaf : v.Leaf p kind ↔ p = [] ∧ kind = k) :
    LeafOf (if keep [] k then some v else none) p kind ↔ v.Leaf p kind ∧ keep p kind := by
  split
  next hkeep =>
    rw [leafOf_some]
    refine ⟨fun h => ⟨h, ?_⟩, And.left⟩
    rw [(hleaf.mp h).1, (hleaf.mp h).2]
    exact hkeep
  next hkeep =>
    refine ⟨fun h => absurd h leafOf_none, fun ⟨h, hk⟩ => absurd ?_ hkeep⟩
    rwa [(hleaf.mp h).1, (hleaf.mp h).2] at hk

theorem Items.leaf_consIf {kept : Option Value} {rest : Items} : (match kept with
      | none => rest
      | some v => .cons v rest : Items).Leaf p kind ↔
      (∃ p', p = .element :: p' ∧ LeafOf kept p' kind) ∨ rest.Leaf p kind := by
  cases kept <;> simp [Items.Leaf, LeafOf]

theorem Members.leaf_consIf {key : Key} {kept : Option Value} {rest : Members} : (match kept with
      | none => rest
      | some v => .cons key v rest : Members).Leaf p kind ↔
      (∃ p', p = .key key :: p' ∧ LeafOf kept p' kind) ∨ rest.Leaf p kind := by
  cases kept <;> simp [Members.Leaf, LeafOf]

/-- Leaves behind a step, kept one by one. -/
theorem exists_leaf_and {step : Step} {leaf : List Step → Prop} (keep : List Step → Bool) :
    (∃ p', p = step :: p' ∧ leaf p' ∧ keep (step :: p')) ↔
      (∃ p', p = step :: p' ∧ leaf p') ∧ keep p := by
  constructor
  · intro ⟨p', hp, hleaf, hkeep⟩
    exact ⟨⟨p', hp, hleaf⟩, hp ▸ hkeep⟩
  · intro ⟨⟨p', hp, hleaf⟩, hkeep⟩
    exact ⟨p', hp, hleaf, hp ▸ hkeep⟩

mutual

theorem Value.leaf_keepOnly : ∀ (v : Value) (keep : Keep) (p : List Step) (kind : AnchorKind),
    LeafOf (v.keepOnly keep) p kind ↔ v.Leaf p kind ∧ keep p kind
  | .scalar x, keep, p, kind => leafOf_if Iff.rfl
  | .array items, keep, p, kind => by
      have ih := Items.leaf_keepOnly items keep p kind
      rw [Value.keepOnly]
      cases hitems : items.isEmpty with
      | true =>
        refine leafOf_if ?_
        simp [Value.Leaf, isEmpty_iff.mp hitems, Items.Leaf, isEmpty]
      | false =>
        have hleaf : (Value.array items).Leaf p kind ↔ items.Leaf p kind := by
          simp [Value.Leaf, hitems]
        simp only [Bool.false_eq_true, if_false, hleaf, ← ih]
        split
        next hempty => simp [leafOf_none, isEmpty_iff.mp hempty, Items.Leaf]
        next hempty => simp [leafOf_some, Value.Leaf, hempty]
  | .object members, keep, p, kind => by
      have ih := Members.leaf_keepOnly members keep p kind
      rw [Value.keepOnly]
      cases hmems : members.isEmpty with
      | true =>
        refine leafOf_if ?_
        simp [Value.Leaf, Members.isEmpty_iff.mp hmems, Members.Leaf, Members.isEmpty]
      | false =>
        have hleaf : (Value.object members).Leaf p kind ↔ members.Leaf p kind := by
          simp [Value.Leaf, hmems]
        simp only [Bool.false_eq_true, if_false, hleaf, ← ih]
        split
        next hempty => simp [leafOf_none, Members.isEmpty_iff.mp hempty, Members.Leaf]
        next hempty => simp [leafOf_some, Value.Leaf, hempty]

theorem Items.leaf_keepOnly : ∀ (items : Items) (keep : Keep) (p : List Step) (kind : AnchorKind),
    (items.keepOnly keep).Leaf p kind ↔ items.Leaf p kind ∧ keep p kind
  | .nil, keep, p, kind => by simp [Items.keepOnly, Items.Leaf]
  | .cons v rest, keep, p, kind => by
      rw [Items.keepOnly, Items.leaf_consIf, Items.leaf_keepOnly rest keep p kind, Items.Leaf,
        or_and_right]
      simp only [v.leaf_keepOnly]
      refine or_congr_left ?_
      exact exists_leaf_and fun p => keep p kind

theorem Members.leaf_keepOnly : ∀ (members : Members) (keep : Keep)
    (p : List Step) (kind : AnchorKind),
    (members.keepOnly keep).Leaf p kind ↔ members.Leaf p kind ∧ keep p kind
  | .nil, keep, p, kind => by simp [Members.keepOnly, Members.Leaf]
  | .cons key v rest, keep, p, kind => by
      rw [Members.keepOnly, Members.leaf_consIf, Members.leaf_keepOnly rest keep p kind,
        Members.Leaf, or_and_right]
      simp only [v.leaf_keepOnly]
      refine or_congr_left ?_
      exact exists_leaf_and fun p => keep p kind

end

/-! ## When two ways to keep leaves agree -/

mutual

theorem Value.keepOnly_congr : ∀ (v : Value) {keep keep' : Keep},
    (∀ p kind, v.Leaf p kind → keep p kind = keep' p kind) → v.keepOnly keep = v.keepOnly keep'
  | .scalar x, keep, keep', h => by
      rw [Value.keepOnly, Value.keepOnly, h [] .scalar ⟨rfl, rfl⟩]
  | .array items, keep, keep', h => by
      rw [Value.keepOnly, Value.keepOnly, items.keepOnly_congr fun p kind hp => h p kind (.inr hp)]
      cases hitems : items.isEmpty with
      | true => simp only [if_true, h [] .array (.inl ⟨hitems, rfl, rfl⟩)]
      | false => rfl
  | .object members, keep, keep', h => by
      rw [Value.keepOnly, Value.keepOnly,
        members.keepOnly_congr fun p kind hp => h p kind (.inr hp)]
      cases hmems : members.isEmpty with
      | true => simp only [if_true, h [] .emptyObject (.inl ⟨hmems, rfl, rfl⟩)]
      | false => rfl

theorem Items.keepOnly_congr : ∀ (items : Items) {keep keep' : Keep},
    (∀ p kind, items.Leaf p kind → keep p kind = keep' p kind) →
    items.keepOnly keep = items.keepOnly keep'
  | .nil, _, _, _ => rfl
  | .cons v rest, keep, keep', h => by
      rw [Items.keepOnly, Items.keepOnly, rest.keepOnly_congr fun p kind hp => h p kind (.inr hp),
        v.keepOnly_congr fun p kind hp => h (.element :: p) kind (.inl ⟨p, rfl, hp⟩)]

theorem Members.keepOnly_congr : ∀ (members : Members) {keep keep' : Keep},
    (∀ p kind, members.Leaf p kind → keep p kind = keep' p kind) →
    members.keepOnly keep = members.keepOnly keep'
  | .nil, _, _, _ => rfl
  | .cons key v rest, keep, keep', h => by
      rw [Members.keepOnly, Members.keepOnly,
        rest.keepOnly_congr fun p kind hp => h p kind (.inr hp),
        v.keepOnly_congr fun p kind hp => h (.key key :: p) kind (.inl ⟨p, rfl, hp⟩)]

end

theorem Members.keepOnly_eq_iff {members : Members} {keep' : Keep} :
    members.keepOnly keep = members.keepOnly keep' ↔
      ∀ p kind, members.Leaf p kind → keep p kind = keep' p kind := by
  refine ⟨?_, members.keepOnly_congr⟩
  intro heq p kind hleaf
  have hkeep := members.leaf_keepOnly keep p kind
  rw [heq, members.leaf_keepOnly keep' p kind, and_congr_right_iff] at hkeep
  exact Bool.eq_iff_iff.mpr (hkeep hleaf).symm

/-! ## Leaves and anchors -/

/-- Arrays are kept for their own sake only with everything in them. -/
def KeepsArraysWhole (keep : List Step → AnchorKind → Bool) : Prop :=
  ∀ p, keep p .array = true → ∀ q kind, keep (p ++ .element :: q) kind = true

theorem KeepsArraysWhole.step (h : KeepsArraysWhole keep) (step : Step) :
    KeepsArraysWhole fun p kind => keep (step :: p) kind :=
  fun p hp q kind => h (step :: p) hp q kind

mutual

/-- Then keeping anchors is keeping leaves. -/
theorem Value.keepAnchors_eq_keepOnly : ∀ (v : Value) {keep : Keep},
    KeepsArraysWhole keep → v.keepAnchors keep = v.keepOnly keep
  | .scalar _, _, _ => rfl
  | .array items, keep, h => by
      have ih := items.keepAnchors_eq_keepOnly h
      rw [Value.keepAnchors, Value.keepOnly, ← ih]
      cases hself : keep [] .array with
      | true =>
        have hall : ∀ p kind, items.Anchor p kind → keep p kind := by
          intro p kind hp
          obtain ⟨p', rfl⟩ := items.anchor_head hp
          exact h [] hself p' kind
        rw [items.keepAnchors_congr hall, items.keepAnchors_all]
        cases items <;> simp [isEmpty]
      | false =>
        cases items with
        | nil => simp [isEmpty, keepAnchors]
        | cons v rest =>
          generalize (Items.cons v rest).keepAnchors keep = items'
          cases items' <;> simp [isEmpty]
  | .object members, keep, h => by
      rw [Value.keepAnchors, Value.keepOnly, members.keepAnchors_eq_keepOnly h]
      cases members with
      | nil => simp [Members.isEmpty, Members.keepOnly]
      | cons key v rest =>
        generalize (Members.cons key v rest).keepOnly keep = members'
        cases members' <;> simp [Members.isEmpty]

theorem Items.keepAnchors_eq_keepOnly : ∀ (items : Items) {keep : Keep},
    KeepsArraysWhole keep → items.keepAnchors keep = items.keepOnly keep
  | .nil, _, _ => rfl
  | .cons v rest, keep, h => by
      have hv := v.keepAnchors_eq_keepOnly (h.step .element)
      have hrest := rest.keepAnchors_eq_keepOnly h
      cases hkept : v.keepOnly fun p kind => keep (.element :: p) kind <;>
        simp [keepAnchors, Items.keepOnly, hv, hkept, hrest]

theorem Members.keepAnchors_eq_keepOnly : ∀ (members : Members)
    {keep : Keep}, KeepsArraysWhole keep →
    members.keepAnchors keep = members.keepOnly keep
  | .nil, _, _ => rfl
  | .cons key v rest, keep, h => by
      have hv := v.keepAnchors_eq_keepOnly (h.step (.key key))
      have hrest := rest.keepAnchors_eq_keepOnly h
      cases hkept : v.keepOnly fun p kind => keep (.key key :: p) kind <;>
        simp [Members.keepAnchors, Members.keepOnly, hv, hkept, hrest]

end

theorem Value.keepOnly_whole (h : ∀ p kind, v.Leaf p kind → keep p kind) :
    v.keepOnly keep = some v := by
  rw [v.keepOnly_congr h, ← v.keepAnchors_eq_keepOnly fun _ _ _ _ => rfl, v.keepAnchors_all]

end Json
