import ByteTaper.Library.Json

/-! # Paths into JSON trees

A path is a list of steps, each of which enters a member or an element. `HasMember` says which paths
lead to members. An anchor is a place that a filter can keep for its own sake: a scalar, an empty
object or an array. Every member has an anchor at its place or below it, and a path to an anchor
passes through nothing but members and elements, so what a filter leaves of a tree is said by the
anchors that it keeps (`HasMember` through `Anchor`: `Value.hasMember_iff`). -/

namespace Json

open List Value
inductive Step where
  | key (key : Key)
  | element

/-- A step behind another one. -/
def Step.text : Step → Text
  | .key k => '.' :: Key.decode k
  | .element => ['[', ']']

/-- The dotted path: decoded keys, with `[]` for the elements of an array. -/
def pathText : List Step → Text
  | [] => []
  | .key key :: rest => Key.decode key ++ rest.flatMap Step.text
  | .element :: rest => ['[', ']'] ++ rest.flatMap Step.text

/-- The path is the name, or the name with more steps behind it. -/
def AtOrBelow (name path : Text) : Prop :=
  path = name ∨ ∃ t, path = name ++ '.' :: t ∨ path = name ++ '[' :: t

instance (name path : Text) : Decidable (AtOrBelow name path) :=
  decidable_of_iff (path = name ∨ (name ++ ['.']) <+: path ∨ (name ++ ['[']) <+: path) <| by
    simp [AtOrBelow, List.IsPrefix, exists_or, eq_comm]

def EndsInKey (p : List Step) : Prop := ∃ q key, p = q ++ [.key key]

inductive AnchorKind where
  | scalar | emptyObject | array
deriving DecidableEq

mutual

def Value.HasMember : Value → List Step → Prop
  | .scalar _, _ => False
  | .array items, p => items.HasMember p
  | .object members, p => members.HasMember p

def Items.HasMember : Items → List Step → Prop
  | .nil, _ => False
  | .cons v rest, p => (∃ p', p = .element :: p' ∧ v.HasMember p') ∨ rest.HasMember p

def Members.HasMember : Members → List Step → Prop
  | .nil, _ => False
  | .cons key v rest, p =>
    (∃ p', p = .key key :: p' ∧ (p' = [] ∨ v.HasMember p')) ∨ rest.HasMember p

end

mutual

def Value.Anchor : Value → List Step → AnchorKind → Prop
  | .scalar _, p, kind => p = [] ∧ kind = .scalar
  | .array items, p, kind => (p = [] ∧ kind = .array) ∨ items.Anchor p kind
  | .object members, p, kind =>
    (members.isEmpty = true ∧ p = [] ∧ kind = .emptyObject) ∨ members.Anchor p kind

def Items.Anchor : Items → List Step → AnchorKind → Prop
  | .nil, _, _ => False
  | .cons v rest, p, kind => (∃ p', p = .element :: p' ∧ v.Anchor p' kind) ∨ rest.Anchor p kind

def Members.Anchor : Members → List Step → AnchorKind → Prop
  | .nil, _, _ => False
  | .cons key v rest, p, kind =>
    (∃ p', p = .key key :: p' ∧ v.Anchor p' kind) ∨ rest.Anchor p kind

end

mutual

/-- The number of members at all depths. -/
def Value.memberCount : Value → Nat
  | .scalar _ => 0
  | .array items => items.memberCount
  | .object members => members.memberCount

def Items.memberCount : Items → Nat
  | .nil => 0
  | .cons v rest => v.memberCount + rest.memberCount

def Members.memberCount : Members → Nat
  | .nil => 0
  | .cons _ v rest => v.memberCount + rest.memberCount + 1

end

/-! ## Longer paths lie below shorter ones -/

theorem AtOrBelow.append {name t u : Text} (h : AtOrBelow name t)
    (hu : u = [] ∨ ∃ v, u = '.' :: v ∨ u = '[' :: v) : AtOrBelow name (t ++ u) := by
  rcases h with rfl | ⟨v, rfl | rfl⟩
  · rcases hu with rfl | ⟨w, rfl | rfl⟩
    · exact .inl (append_nil _)
    · exact .inr ⟨w, .inl rfl⟩
    · exact .inr ⟨w, .inr rfl⟩
  · exact .inr ⟨v ++ u, .inl (append_assoc ..)⟩
  · exact .inr ⟨v ++ u, .inr (append_assoc ..)⟩

/-! ## Paths to members -/

variable {p : List Step} {members : Members} {items : Items} {kind : AnchorKind}
  {keep : List Step → AnchorKind → Bool}

theorem EndsInKey.ne_nil (h : EndsInKey p) : p ≠ [] := by
  obtain ⟨q, key, rfl⟩ := h
  simp

theorem EndsInKey.singleton (key : Key) : EndsInKey [.key key] := ⟨[], key, rfl⟩

theorem EndsInKey.cons (h : EndsInKey p) (step : Step) : EndsInKey (step :: p) := by
  obtain ⟨q, key, rfl⟩ := h
  exact ⟨step :: q, key, rfl⟩

/-- The path behind its first step. -/
theorem EndsInKey.tail {step : Step} (h : EndsInKey (step :: p)) :
    (∃ key, step = .key key ∧ p = []) ∨ EndsInKey p := by
  obtain ⟨q, key, hq⟩ := h
  cases q with
  | nil => exact .inl ⟨key, by simpa using hq⟩
  | cons _ q =>
    obtain ⟨-, rfl⟩ := List.cons.inj hq
    exact .inr ⟨q, key, rfl⟩

mutual

theorem Value.exists_anchor : ∀ v : Value, ∃ p kind, v.Anchor p kind
  | .scalar _ => ⟨[], .scalar, rfl, rfl⟩
  | .array _ => ⟨[], .array, .inl ⟨rfl, rfl⟩⟩
  | .object .nil => ⟨[], .emptyObject, .inl ⟨rfl, rfl, rfl⟩⟩
  | .object (.cons key v rest) => by
      obtain ⟨p, kind, h⟩ := exists_anchor v
      exact ⟨.key key :: p, kind, .inr (.inl ⟨p, rfl, h⟩)⟩

end

mutual

/-- The members are the places on the way to an anchor that end in a key. -/
theorem Value.hasMember_iff : ∀ (v : Value) (p : List Step),
    v.HasMember p ↔ EndsInKey p ∧ ∃ q kind, v.Anchor (p ++ q) kind
  | .scalar _, p => by
      refine ⟨False.elim, ?_⟩
      intro ⟨hp, q, kind, hnil, _⟩
      exact hp.ne_nil (append_eq_nil_iff.mp hnil).1
  | .array items, p => by
      refine (Items.hasMember_iff items p).trans (and_congr_right fun hp => ?_)
      refine exists_congr fun q => exists_congr fun kind => (or_iff_right ?_).symm
      exact fun h => hp.ne_nil (append_eq_nil_iff.mp h.1).1
  | .object members, p => by
      refine (Members.hasMember_iff members p).trans (and_congr_right fun hp => ?_)
      refine exists_congr fun q => exists_congr fun kind => (or_iff_right ?_).symm
      exact fun h => hp.ne_nil (append_eq_nil_iff.mp h.2.1).1

theorem Items.hasMember_iff : ∀ (items : Items) (p : List Step),
    items.HasMember p ↔ EndsInKey p ∧ ∃ q kind, items.Anchor (p ++ q) kind
  | .nil, p => ⟨False.elim, fun ⟨_, _, _, h⟩ => h⟩
  | .cons v rest, p => by
      constructor
      · intro h
        rcases h with ⟨p', rfl, h⟩ | h
        · obtain ⟨hp', q, kind, hanc⟩ := (Value.hasMember_iff v p').mp h
          exact ⟨hp'.cons _, q, kind, .inl ⟨p' ++ q, rfl, hanc⟩⟩
        · obtain ⟨hp, q, kind, hanc⟩ := (Items.hasMember_iff rest p).mp h
          exact ⟨hp, q, kind, .inr hanc⟩
      · intro ⟨hp, q, kind, h⟩
        rcases h with ⟨r, hr, hanc⟩ | h
        · cases p with
          | nil => exact absurd rfl hp.ne_nil
          | cons _ p =>
            obtain ⟨rfl, rfl⟩ := List.cons.inj hr
            rcases hp.tail with ⟨key, hkey, -⟩ | hp'
            · cases hkey
            · exact .inl ⟨p, rfl, (Value.hasMember_iff v p).mpr ⟨hp', q, kind, hanc⟩⟩
        · exact .inr ((Items.hasMember_iff rest p).mpr ⟨hp, q, kind, h⟩)

theorem Members.hasMember_iff : ∀ (members : Members) (p : List Step),
    members.HasMember p ↔ EndsInKey p ∧ ∃ q kind, members.Anchor (p ++ q) kind
  | .nil, p => ⟨False.elim, fun ⟨_, _, _, h⟩ => h⟩
  | .cons key v rest, p => by
      constructor
      · intro h
        rcases h with ⟨p', rfl, rfl | h⟩ | h
        · obtain ⟨q, kind, hanc⟩ := v.exists_anchor
          exact ⟨.singleton key, q, kind, .inl ⟨q, rfl, hanc⟩⟩
        · obtain ⟨hp', q, kind, hanc⟩ := (Value.hasMember_iff v p').mp h
          exact ⟨hp'.cons _, q, kind, .inl ⟨p' ++ q, rfl, hanc⟩⟩
        · obtain ⟨hp, q, kind, hanc⟩ := (Members.hasMember_iff rest p).mp h
          exact ⟨hp, q, kind, .inr hanc⟩
      · intro ⟨hp, q, kind, h⟩
        rcases h with ⟨r, hr, hanc⟩ | h
        · cases p with
          | nil => exact absurd rfl hp.ne_nil
          | cons _ p =>
            obtain ⟨rfl, rfl⟩ := List.cons.inj hr
            rcases hp.tail with ⟨-, -, rfl⟩ | hp'
            · exact .inl ⟨[], rfl, .inl rfl⟩
            · exact .inl ⟨p, rfl, .inr ((Value.hasMember_iff v p).mpr ⟨hp', q, kind, hanc⟩)⟩
        · exact .inr ((Members.hasMember_iff rest p).mpr ⟨hp, q, kind, h⟩)

end

/-! ## Where paths begin -/

theorem Items.anchor_head : ∀ (items : Items) {p : List Step} {kind : AnchorKind},
    items.Anchor p kind → ∃ p', p = .element :: p'
  | .nil, _, _, h => h.elim
  | .cons _ rest, p, kind, h => by
      rcases h with ⟨p', rfl, -⟩ | h
      · exact ⟨p', rfl⟩
      · exact rest.anchor_head h

theorem Members.anchor_head : ∀ (members : Members) {p : List Step} {kind : AnchorKind},
    members.Anchor p kind → ∃ k p', p = .key k :: p'
  | .nil, _, _, h => h.elim
  | .cons key _ rest, p, kind, h => by
      rcases h with ⟨p', rfl, -⟩ | h
      · exact ⟨key, p', rfl⟩
      · exact rest.anchor_head h

theorem Items.isEmpty_iff : items.isEmpty ↔ items = .nil := by
  cases items <;> simp [Items.isEmpty]

theorem Members.isEmpty_iff : members.isEmpty ↔ members = .nil := by
  cases members <;> simp [Members.isEmpty]

theorem Items.exists_anchor (h : items.isEmpty = false) : ∃ p kind, items.Anchor p kind := by
  cases items with
  | nil => cases h
  | cons v =>
    obtain ⟨p, kind, hp⟩ := v.exists_anchor
    exact ⟨.element :: p, kind, .inl ⟨p, rfl, hp⟩⟩

/-! ## Parts of trees

`keepAnchors` drops anchors, and with them the containers of which nothing is left. What it leaves has
the anchors that are kept, and besides them only arrays on the way to one. -/

mutual

def Value.keepAnchors (keep : List Step → AnchorKind → Bool) : Value → Option Value
  | .scalar x => if keep [] .scalar then some (.scalar x) else none
  | .array items =>
    let items' := items.keepAnchors keep
    if keep [] .array || !items'.isEmpty then some (.array items') else none
  | .object members =>
    let members' := members.keepAnchors keep
    if (members.isEmpty && keep [] .emptyObject) || !members'.isEmpty then some (.object members')
    else none

def Items.keepAnchors (keep : List Step → AnchorKind → Bool) : Items → Items
  | .nil => .nil
  | .cons v rest =>
    match v.keepAnchors fun p kind => keep (.element :: p) kind with
    | none => rest.keepAnchors keep
    | some v' => .cons v' (rest.keepAnchors keep)

def Members.keepAnchors (keep : List Step → AnchorKind → Bool) : Members → Members
  | .nil => .nil
  | .cons key v rest =>
    match v.keepAnchors fun p kind => keep (.key key :: p) kind with
    | none => rest.keepAnchors keep
    | some v' => .cons key v' (rest.keepAnchors keep)

end

/-- Which anchors, or which leaves, are kept. -/
abbrev Keep := List Step → AnchorKind → Bool

/-- An anchor of a value that may be gone. -/
def AnchorOf (kept : Option Value) (p : List Step) (kind : AnchorKind) : Prop :=
  ∃ v, kept = some v ∧ v.Anchor p kind

theorem anchorOf_if {v : Value} {b : Bool} :
    AnchorOf (if b then some v else none) p kind ↔ b ∧ v.Anchor p kind := by
  cases b <;> simp [AnchorOf]

theorem Items.anchor_consIf {kept : Option Value} {rest : Items} : (match kept with
      | none => rest
      | some v => .cons v rest : Items).Anchor p kind ↔
      (∃ p', p = .element :: p' ∧ AnchorOf kept p' kind) ∨ rest.Anchor p kind := by
  cases kept <;> simp [Items.Anchor, AnchorOf]

theorem Members.anchor_consIf {key : Key} {kept : Option Value} {rest : Members} : (match kept with
      | none => rest
      | some v => .cons key v rest : Members).Anchor p kind ↔
      (∃ p', p = .key key :: p' ∧ AnchorOf kept p' kind) ∨ rest.Anchor p kind := by
  cases kept <;> simp [Members.Anchor, AnchorOf]

mutual

theorem Value.anchorOf_keepAnchors : ∀ (v : Value) {keep : Keep} {p : List Step}
    {kind : AnchorKind}, v.Anchor p kind → keep p kind →
    AnchorOf (v.keepAnchors keep) p kind
  | .scalar x, keep, p, kind, h, hkeep => by
      obtain ⟨rfl, rfl⟩ := h
      exact anchorOf_if.mpr ⟨hkeep, rfl, rfl⟩
  | .array items, keep, p, kind, h, hkeep => by
      rw [keepAnchors, anchorOf_if]
      rcases h with ⟨rfl, rfl⟩ | h
      · exact ⟨by simp [hkeep], .inl ⟨rfl, rfl⟩⟩
      · have hitems := items.anchor_keepAnchors h hkeep
        refine ⟨?_, .inr hitems⟩
        rw [Bool.or_eq_true, Bool.not_eq_true', Bool.eq_false_iff]
        exact .inr fun hempty => by simp [Items.isEmpty_iff.mp hempty, Items.Anchor] at hitems
  | .object members, keep, p, kind, h, hkeep => by
      rw [keepAnchors, anchorOf_if]
      rcases h with ⟨hempty, rfl, rfl⟩ | h
      · rw [Members.isEmpty_iff] at hempty
        exact ⟨by simp [hempty, hkeep, Members.isEmpty], .inl ⟨by rw [hempty]; rfl, rfl, rfl⟩⟩
      · have hmems := members.anchor_keepAnchors h hkeep
        refine ⟨?_, .inr hmems⟩
        rw [Bool.or_eq_true, Bool.not_eq_true', Bool.eq_false_iff]
        exact .inr fun hempty => by simp [Members.isEmpty_iff.mp hempty, Members.Anchor] at hmems

theorem Items.anchor_keepAnchors : ∀ (items : Items) {keep : Keep} {p : List Step}
    {kind : AnchorKind}, items.Anchor p kind → keep p kind →
    (items.keepAnchors keep).Anchor p kind
  | .nil, _, _, _, h, _ => h
  | .cons v rest, keep, p, kind, h, hkeep => by
      rw [Items.keepAnchors, Items.anchor_consIf]
      rcases h with ⟨p', rfl, h⟩ | h
      · exact .inl ⟨p', rfl, v.anchorOf_keepAnchors h hkeep⟩
      · exact .inr (rest.anchor_keepAnchors h hkeep)

theorem Members.anchor_keepAnchors : ∀ (members : Members)
    {keep : Keep} {p : List Step} {kind : AnchorKind},
    members.Anchor p kind → keep p kind → (members.keepAnchors keep).Anchor p kind
  | .nil, _, _, _, h, _ => h
  | .cons key v rest, keep, p, kind, h, hkeep => by
      rw [Members.keepAnchors, Members.anchor_consIf]
      rcases h with ⟨p', rfl, h⟩ | h
      · exact .inl ⟨p', rfl, v.anchorOf_keepAnchors h hkeep⟩
      · exact .inr (rest.anchor_keepAnchors h hkeep)

end

/-- The anchor is kept itself, or is an array on the way to one that is kept. -/
structure Kept (anchor : List Step → AnchorKind → Prop) (keep : List Step → AnchorKind → Bool)
    (p : List Step) (kind : AnchorKind) : Prop where
  self : kind ≠ .array → anchor p kind ∧ keep p kind = true
  below : ∃ q kind', anchor (p ++ q) kind' ∧ keep (p ++ q) kind' = true

section Kept

variable {anchor anchor' : List Step → AnchorKind → Prop}
  {keep : Keep} {p : List Step} {kind : AnchorKind}

theorem Kept.of_keep (h : anchor p kind) (hkeep : keep p kind) : Kept anchor keep p kind where
  self _ := ⟨h, hkeep⟩
  below := ⟨[], kind, by rwa [append_nil], by rwa [append_nil]⟩

theorem Kept.mono (h : Kept anchor keep p kind) (hanc : ∀ p kind, anchor p kind → anchor' p kind) :
    Kept anchor' keep p kind where
  self hkind := (h.self hkind).imp_left (hanc _ _)
  below := by
    obtain ⟨q, kind', hq, hkeep⟩ := h.below
    exact ⟨q, kind', hanc _ _ hq, hkeep⟩

theorem Kept.step {step : Step} (h : Kept anchor (fun p kind => keep (step :: p) kind) p kind) :
    Kept (fun p kind => ∃ p', p = step :: p' ∧ anchor p' kind) keep (step :: p) kind where
  self hkind := (h.self hkind).imp_left fun hp => ⟨p, rfl, hp⟩
  below := by
    obtain ⟨q, kind', hq, hkeep⟩ := h.below
    exact ⟨q, kind', ⟨p ++ q, rfl, hq⟩, hkeep⟩

/-- An array in which something is kept. -/
theorem Kept.array (h : ∃ p kind, Kept anchor keep p kind) : Kept anchor keep [] .array where
  self hkind := absurd rfl hkind
  below := by
    obtain ⟨p, kind, h⟩ := h
    obtain ⟨q, kind', hq, hkeep⟩ := h.below
    exact ⟨p ++ q, kind', hq, hkeep⟩

end Kept

mutual

theorem Value.kept_of_anchorOf : ∀ (v : Value) {keep : Keep} {p : List Step}
    {kind : AnchorKind}, AnchorOf (v.keepAnchors keep) p kind →
    Kept v.Anchor keep p kind
  | .scalar x, keep, p, kind, h => by
      obtain ⟨hkeep, rfl, rfl⟩ := anchorOf_if.mp h
      exact .of_keep ⟨rfl, rfl⟩ hkeep
  | .array items, keep, p, kind, h => by
      rw [keepAnchors, anchorOf_if] at h
      obtain ⟨hstays, ⟨rfl, rfl⟩ | h⟩ := h
      · rcases Bool.or_eq_true_iff.mp hstays with hkeep | hitems
        · exact .of_keep (.inl ⟨rfl, rfl⟩) hkeep
        · obtain ⟨p, kind, hp⟩ := Items.exists_anchor (by simpa using hitems)
          exact .array ⟨p, kind, (items.kept_of_anchor hp).mono fun _ _ => .inr⟩
      · exact (items.kept_of_anchor h).mono fun _ _ => .inr
  | .object members, keep, p, kind, h => by
      rw [keepAnchors, anchorOf_if] at h
      obtain ⟨hstays, ⟨hempty, rfl, rfl⟩ | h⟩ := h
      · simp only [hempty, Bool.not_true, Bool.or_false, Bool.and_eq_true] at hstays
        exact .of_keep (.inl ⟨hstays.1, rfl, rfl⟩) hstays.2
      · exact (members.kept_of_anchor h).mono fun _ _ => .inr

theorem Items.kept_of_anchor : ∀ (items : Items) {keep : Keep} {p : List Step}
    {kind : AnchorKind}, (items.keepAnchors keep).Anchor p kind →
    Kept items.Anchor keep p kind
  | .nil, _, _, _, h => h.elim
  | .cons v rest, keep, p, kind, h => by
      rw [Items.keepAnchors, Items.anchor_consIf] at h
      rcases h with ⟨p', rfl, h⟩ | h
      · exact (v.kept_of_anchorOf h).step.mono fun _ _ => .inl
      · exact (rest.kept_of_anchor h).mono fun _ _ => .inr

theorem Members.kept_of_anchor : ∀ (members : Members) {keep : Keep} {p : List Step}
    {kind : AnchorKind}, (members.keepAnchors keep).Anchor p kind →
    Kept members.Anchor keep p kind
  | .nil, _, _, _, h => h.elim
  | .cons key v rest, keep, p, kind, h => by
      rw [Members.keepAnchors, Members.anchor_consIf] at h
      rcases h with ⟨p', rfl, h⟩ | h
      · exact (v.kept_of_anchorOf h).step.mono fun _ _ => .inl
      · exact (rest.kept_of_anchor h).mono fun _ _ => .inr

end

section

variable (members : Members) (keep : Keep) (p : List Step)

/-- The members that are left are those on the way to an anchor that is kept. -/
theorem Members.hasMember_keepAnchors : (members.keepAnchors keep).HasMember p ↔
      EndsInKey p ∧ ∃ q kind, members.Anchor (p ++ q) kind ∧ keep (p ++ q) kind := by
  rw [Members.hasMember_iff]
  refine and_congr_right fun _ => ⟨?_, ?_⟩
  · intro ⟨q, kind, hq⟩
    obtain ⟨r, kind', hr, hkeep⟩ := (members.kept_of_anchor hq).below
    rw [append_assoc] at hr hkeep
    exact ⟨q ++ r, kind', hr, hkeep⟩
  · intro ⟨q, kind, hq, hkeep⟩
    exact ⟨q, kind, members.anchor_keepAnchors hq hkeep⟩

theorem Members.scalar_keepAnchors : (members.keepAnchors keep).Anchor p .scalar ↔
      members.Anchor p .scalar ∧ keep p .scalar := by
  constructor
  · intro h
    exact (members.kept_of_anchor h).self (by decide)
  · intro ⟨h, hkeep⟩
    exact members.anchor_keepAnchors h hkeep

end

/-! ## Other ways to keep the same anchors -/

mutual

theorem Value.keepAnchors_congr : ∀ (v : Value) {keep keep' : Keep},
    (∀ p kind, v.Anchor p kind → keep p kind = keep' p kind) →
    v.keepAnchors keep = v.keepAnchors keep'
  | .scalar x, keep, keep', h => by
      rw [keepAnchors, keepAnchors, h [] .scalar ⟨rfl, rfl⟩]
  | .array items, keep, keep', h => by
      rw [keepAnchors, keepAnchors, h [] .array (.inl ⟨rfl, rfl⟩),
        items.keepAnchors_congr fun p kind hp => h p kind (.inr hp)]
  | .object members, keep, keep', h => by
      rw [keepAnchors, keepAnchors, members.keepAnchors_congr fun p kind hp => h p kind (.inr hp)]
      cases hmems : members.isEmpty with
      | true => rw [h [] .emptyObject (.inl ⟨hmems, rfl, rfl⟩)]
      | false => rfl

theorem Items.keepAnchors_congr : ∀ (items : Items) {keep keep' : Keep},
    (∀ p kind, items.Anchor p kind → keep p kind = keep' p kind) →
    items.keepAnchors keep = items.keepAnchors keep'
  | .nil, _, _, _ => rfl
  | .cons v rest, keep, keep', h => by
      rw [Items.keepAnchors, Items.keepAnchors,
        rest.keepAnchors_congr fun p kind hp => h p kind (.inr hp),
        v.keepAnchors_congr fun p kind hp => h (.element :: p) kind (.inl ⟨p, rfl, hp⟩)]

theorem Members.keepAnchors_congr : ∀ (members : Members) {keep keep' : Keep},
    (∀ p kind, members.Anchor p kind → keep p kind = keep' p kind) →
    members.keepAnchors keep = members.keepAnchors keep'
  | .nil, _, _, _ => rfl
  | .cons key v rest, keep, keep', h => by
      rw [Members.keepAnchors, Members.keepAnchors,
        rest.keepAnchors_congr fun p kind hp => h p kind (.inr hp),
        v.keepAnchors_congr fun p kind hp => h (.key key :: p) kind (.inl ⟨p, rfl, hp⟩)]

end

theorem Value.keepAnchors_none {v : Value} (h : ∀ p kind, v.Anchor p kind → keep p kind = false) :
    v.keepAnchors keep = none := by
  cases hkept : v.keepAnchors keep with
  | none => rfl
  | some v' =>
    obtain ⟨p, kind, hp⟩ := v'.exists_anchor
    obtain ⟨q, kind', hq, hkeep⟩ := (v.kept_of_anchorOf ⟨v', hkept, hp⟩).below
    rw [h _ kind' hq] at hkeep
    cases hkeep

mutual

theorem Value.keepAnchors_all : ∀ v : Value, v.keepAnchors (fun _ _ => true) = some v
  | .scalar x => rfl
  | .array items => by rw [keepAnchors, items.keepAnchors_all]; rfl
  | .object members => by
      rw [keepAnchors, members.keepAnchors_all]
      cases members <;> rfl

theorem Items.keepAnchors_all : ∀ items : Items, items.keepAnchors (fun _ _ => true) = items
  | .nil => rfl
  | .cons v rest => by rw [Items.keepAnchors, v.keepAnchors_all, rest.keepAnchors_all]

theorem Members.keepAnchors_all : ∀ members : Members,
    members.keepAnchors (fun _ _ => true) = members
  | .nil => rfl
  | .cons key v rest => by rw [Members.keepAnchors, v.keepAnchors_all, rest.keepAnchors_all]

end

theorem Value.keepAnchors_whole {v : Value} (h : ∀ p kind, v.Anchor p kind → keep p kind) :
    v.keepAnchors keep = some v := by
  rw [v.keepAnchors_congr h, v.keepAnchors_all]

end Json
