import ByteTaper.JsonTransform.Projection

/-! # Which members a filter keeps

The projection of a tree, path by path: `FieldRules.keepsMember` walks along the steps of a path and
asks the rules what the filter asks them, and the projection keeps the anchors whose path is kept
(`projectMembers_keepAnchors`). So what a filter leaves can be said without the tree. -/

namespace ByteTaper.JsonTransform

open Json Policy Option FieldRules Value

/-- Where a value stands: behind a key, or in an array. -/
inductive Place where
  | member (path : Text)
  | element (elementPath : Text)

def Place.path : Place → Text
  | .member path => path
  | .element elementPath => elementPath

variable (rules : FieldRules)

def FieldRules.objectAt : Place → Verdict
  | .member path => rules.object path
  | .element elementPath => rules.elementObject elementPath

/-- Whether the filter keeps what the steps lead to, from a value at a place on. -/
def FieldRules.keeps (rules : FieldRules) : Place → List Step → AnchorKind → Bool
  | .member path, [], .scalar => rules.scalar path
  | .member path, [], .array =>
    match buildArrayElementPath path with
    | none => false
    | some elementPath => rules.array path elementPath = some true
  | .element elementPath, [], .scalar => rules.elementOther elementPath
  | .element elementPath, [], .array => rules.elementOther elementPath
  | place, [], .emptyObject => rules.objectAt place = .copy
  | place, .key k :: rest, kind =>
    match rules.objectAt place with
    | .skip => false
    | .copy => true
    | .enter =>
      match buildFullPath place.path (seenKey k) with
      | none => false
      | some path => rules.keeps (.member path) rest kind
  | .member path, .element :: rest, kind =>
    match buildArrayElementPath path with
    | none => false
    | some elementPath =>
      match rules.array path elementPath with
      | none => false
      | some _ => rules.keeps (.element elementPath) rest kind
  -- An array in an array is copied or skipped as a whole.
  | .element elementPath, .element :: _, _ => rules.elementOther elementPath

/-- The same from the members of an object on. -/
def FieldRules.keepsMember (parent : Text) : List Step → AnchorKind → Bool
  | .key k :: rest, kind =>
    match buildFullPath parent (seenKey k) with
    | none => false
    | some path => rules.keeps (.member path) rest kind
  | _, _ => false

def FieldRules.keepsItem (elementPath : Text) : List Step → AnchorKind → Bool
  | .element :: rest, kind => rules.keeps (.element elementPath) rest kind
  | _, _ => false

/-- The path is a name of the list or lies below one. -/
def Listed (filter : FieldFilterPolicy) (p : List Step) : Prop :=
  ∃ name ∈ filter.fields, AtOrBelow name.val (pathText p)

instance (filter : FieldFilterPolicy) (p : List Step) : Decidable (Listed filter p) :=
  inferInstanceAs (Decidable (∃ name ∈ filter.fields, AtOrBelow name.val (pathText p)))

/-! ## The projection -/

variable {rules}

/-- An object at a place, given what is left of its members if it is entered. -/
theorem keepAnchors_object (place : Place) {members : Members} {kept : Option Value}
    (hproj : (match rules.objectAt place with
      | .skip => some none
      | .copy => some (some (.object members))
      | .enter => do
          let members' ← projectMembers rules place.path members
          some (if members'.isEmpty then none else some (.object members'))) = some kept)
    (h : ∀ members', projectMembers rules place.path members = some members' →
      members' = members.keepAnchors (rules.keepsMember place.path)) :
    kept = (object members).keepAnchors (rules.keeps place) := by
  have hanc : ∀ p kind, (object members).Anchor p kind →
      (p = [] ∧ kind = .emptyObject) ∨ ∃ k p', p = .key k :: p' := by
    intro p kind hp
    rcases hp with ⟨-, hp, hkind⟩ | hp
    · exact .inl ⟨hp, hkind⟩
    · exact .inr (members.anchor_head hp)
  cases hobj : rules.objectAt place with
  | skip =>
    simp only [hobj, some.injEq] at hproj
    subst hproj
    refine (keepAnchors_none fun p kind hp => ?_).symm
    rcases hanc p kind hp with ⟨rfl, rfl⟩ | ⟨k, p', rfl⟩ <;> simp [keeps, hobj]
  | copy =>
    simp only [hobj, some.injEq] at hproj
    subst hproj
    refine (keepAnchors_whole fun p kind hp => ?_).symm
    rcases hanc p kind hp with ⟨rfl, rfl⟩ | ⟨k, p', rfl⟩ <;> simp [keeps, hobj]
  | enter =>
    simp only [hobj, bind_eq_bind, bind_eq_some_iff, some.injEq] at hproj
    obtain ⟨members', hmems, rfl⟩ := hproj
    have hkeep : members.keepAnchors (rules.keepsMember place.path) =
        members.keepAnchors (rules.keeps place) := by
      refine members.keepAnchors_congr fun p kind hp => ?_
      obtain ⟨k, p', rfl⟩ := members.anchor_head hp
      simp [keeps, keepsMember, hobj]
    have hself : rules.keeps place [] .emptyObject = false := by
      simp [keeps, hobj]
    rw [h members' hmems, hkeep, keepAnchors, hself]
    cases (members.keepAnchors (rules.keeps place)).isEmpty <;> simp

mutual

/-- The projection keeps the anchors whose path the rules keep. -/
theorem projectMembers_keepAnchors : ∀ (members : Members) {parent : Text}
    {members' : Members}, projectMembers rules parent members = some members' →
    members' = members.keepAnchors (rules.keepsMember parent)
  | .nil, parent, members', h => (some.inj h).symm
  | .cons key v rest, parent, members', h => by
      simp only [projectMembers, bind_eq_bind, bind_eq_some_iff] at h
      obtain ⟨kept, hkept, rest', hrest', hmems'⟩ := h
      have hv : kept = v.keepAnchors fun p kind =>
          rules.keepsMember parent (.key key :: p) kind := by
        cases hpath : buildFullPath parent (seenKey key) with
        | none =>
          rw [hpath] at hkept
          rw [keepAnchors_none fun p kind _ => by simp [keepsMember, hpath]]
          cases v with
          | array => cases hkept
          | scalar | object => exact (some.inj hkept).symm
        | some =>
          rw [hpath] at hkept
          simp only [keepsMember, hpath]
          exact projectMember_keepAnchors v hkept
      rw [Members.keepAnchors, ← hv, ← projectMembers_keepAnchors rest hrest']
      cases kept with
      | none | some => exact (some.inj hmems').symm

theorem projectMember_keepAnchors : ∀ (v : Value) {path : Text}
    {kept : Option Value}, projectMember rules (some path) v = some kept →
    kept = v.keepAnchors (rules.keeps (.member path))
  | .scalar x, path, kept, h => (some.inj h).symm
  | .array items, path, kept, h => by
      rw [projectMember] at h
      have hskip : (∀ p kind, (array items).Anchor p kind →
          rules.keeps (.member path) p kind = false) → kept = none →
          kept = (array items).keepAnchors (rules.keeps (.member path)) := by
        intro hkeep hkept
        rw [hkept, keepAnchors_none hkeep]
      cases hpath : buildArrayElementPath path with
      | none =>
        simp only [hpath, some.injEq] at h
        refine hskip (fun p kind hp => ?_) h.symm
        rcases hp with ⟨rfl, rfl⟩ | hp
        · simp [keeps, hpath]
        · obtain ⟨p', rfl⟩ := items.anchor_head hp
          simp [keeps, hpath]
      | some elementPath =>
        cases harray : rules.array path elementPath with
        | none =>
          simp only [hpath, harray, some.injEq] at h
          refine hskip (fun p kind hp => ?_) h.symm
          rcases hp with ⟨rfl, rfl⟩ | hp
          · simp [keeps, hpath, harray]
          · obtain ⟨p', rfl⟩ := items.anchor_head hp
            simp [keeps, hpath, harray]
        | some keepEmpty =>
          simp only [hpath, harray, bind_eq_bind, bind_eq_some_iff, some.injEq] at h
          obtain ⟨items', hitems, rfl⟩ := h
          have hself : rules.keeps (.member path) [] .array = keepEmpty := by
            simp [keeps, hpath, harray]
          have hkeep : items.keepAnchors (rules.keepsItem elementPath) =
              items.keepAnchors (rules.keeps (.member path)) := by
            refine items.keepAnchors_congr fun p kind hp => ?_
            obtain ⟨p', rfl⟩ := items.anchor_head hp
            simp [keeps, keepsItem, hpath, harray]
          rw [projectItems_keepAnchors items hitems, hkeep, keepAnchors, hself]
  | .object members, path, kept, h => by
      exact keepAnchors_object (.member path) h fun members' hmems =>
        projectMembers_keepAnchors members hmems

theorem projectItems_keepAnchors : ∀ (items : Items) {elementPath : Text}
    {items' : Items}, projectItems rules elementPath items = some items' →
    items' = items.keepAnchors (rules.keepsItem elementPath)
  | .nil, elementPath, items', h => (some.inj h).symm
  | .cons v rest, elementPath, items', h => by
      simp only [projectItems, bind_eq_bind, bind_eq_some_iff] at h
      obtain ⟨kept, hkept, rest', hrest', hitems'⟩ := h
      have hv : kept = v.keepAnchors fun p kind =>
          rules.keepsItem elementPath (.element :: p) kind :=
        projectItem_keepAnchors v hkept
      rw [Items.keepAnchors, ← hv, ← projectItems_keepAnchors rest hrest']
      cases kept with
      | none | some => exact (some.inj hitems').symm

theorem projectItem_keepAnchors : ∀ (v : Value) {elementPath : Text}
    {kept : Option Value}, projectItem rules elementPath v = some kept →
    kept = v.keepAnchors (rules.keeps (.element elementPath))
  | .scalar x, elementPath, kept, h => (some.inj h).symm
  | .array items, elementPath, kept, h => by
      obtain rfl := some.inj h
      -- Arrays in arrays are copied or skipped as a whole.
      have hkeep : ∀ p kind, (array items).Anchor p kind →
          rules.keeps (.element elementPath) p kind = rules.elementOther elementPath := by
        intro p kind hp
        rcases hp with ⟨rfl, rfl⟩ | hp
        · rfl
        · obtain ⟨p', rfl⟩ := items.anchor_head hp
          rfl
      cases hother : rules.elementOther elementPath with
      | false => exact (keepAnchors_none fun p kind hp => (hkeep p kind hp).trans hother).symm
      | true => exact (keepAnchors_whole fun p kind hp => (hkeep p kind hp).trans hother).symm
  | .object members, elementPath, kept, h => by
      exact keepAnchors_object (.element elementPath) h fun members' hmems =>
        projectMembers_keepAnchors members hmems

end

end ByteTaper.JsonTransform
