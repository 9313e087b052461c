import ByteTaper.JsonTransform.FilterFlatJson

/-! # The filters as projections of trees

What a filter with given rules leaves of a tree, without texts, writers or counts. The filters of
`FilterFlatJson` compute it: on the text of a tree they write a text of its projection
(`filterObject_spec`). `none` stands for a body that is refused, which happens only where an array is
the value of a member whose path cannot be built. -/

namespace ByteTaper.JsonTransform

open Json Policy List Option FilterState

/-- The key of a member as the filters see it. -/
def seenKey (key : Key) : Text := keyBuffer kMaxFieldNameLen (writtenKey key)

variable (rules : FieldRules)

mutual

def projectMembers (parent : Text) : Members → Option Members
  | .nil => some .nil
  | .cons key v rest => do
      let kept ← projectMember (buildFullPath parent (seenKey key)) v
      let rest' ← projectMembers parent rest
      match kept with
      | none => some rest'
      | some v' => some (.cons key v' rest')

/-- What is left of the value of a member; the member goes with it. -/
def projectMember : Option Text → Value → Option (Option Value)
  | none, .array _ => none
  | none, _ => some none
  | some path, .scalar x => some (if rules.scalar path then some (.scalar x) else none)
  | some path, .array items =>
    match buildArrayElementPath path with
    | none => some none
    | some elementPath =>
      match rules.array path elementPath with
      | none => some none
      | some keepEmpty => do
          let items' ← projectItems elementPath items
          some (if keepEmpty || !items'.isEmpty then some (.array items') else none)
  | some path, .object members =>
    match rules.object path with
    | .skip => some none
    | .copy => some (some (.object members))
    | .enter => do
        let members' ← projectMembers path members
        some (if members'.isEmpty then none else some (.object members'))

def projectItems (elementPath : Text) : Items → Option Items
  | .nil => some .nil
  | .cons v rest => do
      let kept ← projectItem elementPath v
      let rest' ← projectItems elementPath rest
      match kept with
      | none => some rest'
      | some v' => some (.cons v' rest')

def projectItem (elementPath : Text) : Value → Option (Option Value)
  | .scalar x => some (if rules.elementOther elementPath then some (.scalar x) else none)
  | .array items => some (if rules.elementOther elementPath then some (.array items) else none)
  | .object members =>
    match rules.elementObject elementPath with
    | .skip => some none
    | .copy => some (some (.object members))
    | .enter => do
        let members' ← projectMembers elementPath members
        some (if members'.isEmpty then none else some (.object members'))

end

/-! ## Entries that are written one after another -/

/-- The text of the entries, each but the first one with a comma in front of it; `first` tells
    whether nothing has been written yet. -/
def JoinedMembers (first : Bool) (members : Members) (t : Text) : Prop :=
  (members.isEmpty = true ∧ t = []) ∨
    (members.isEmpty = false ∧ ∃ u, members.Spells u ∧ t = lead first ++ u)

def JoinedItems (first : Bool) (items : Items) (t : Text) : Prop :=
  (items.isEmpty = true ∧ t = []) ∨
    (items.isEmpty = false ∧ ∃ u, items.Spells u ∧ t = lead first ++ u)

variable {first : Bool} {v : Value} {members : Members} {s t r entryLead body : Text}
  {items : Items} {st : FilterState} {result : Option (FilterState × Nat)} {rules} {fuel : Nat}

theorem JoinedMembers.cons {key : Key} (hv : v.Spells s) (h : JoinedMembers false members t) :
    JoinedMembers first (.cons key v members) (memberLead first (Key.text key) ++ (s ++ t)) := by
  refine .inr ⟨rfl, ?_⟩
  rcases h with ⟨hempty, rfl⟩ | ⟨hne, u, hu, rfl⟩
  · obtain rfl := Members.isEmpty_iff.mp hempty
    refine ⟨_, .cons blank_nil blank_nil hv blank_nil (rfl : Separator true []) .nil, ?_⟩
    simp [memberLead]
  · refine ⟨_, .cons blank_nil blank_nil hv blank_nil (?_ : Separator _ [',']) hu, ?_⟩
    · rw [hne]
      exact ⟨[], blank_nil, rfl⟩
    · simp [memberLead, lead]

theorem JoinedItems.cons (hv : v.Spells s) (h : JoinedItems false items t) :
    JoinedItems first (.cons v items) (lead first ++ (s ++ t)) := by
  refine .inr ⟨rfl, ?_⟩
  rcases h with ⟨hempty, rfl⟩ | ⟨hne, u, hu, rfl⟩
  · obtain rfl := Items.isEmpty_iff.mp hempty
    exact ⟨_, .cons hv blank_nil (rfl : Separator true []) .nil, by simp⟩
  · refine ⟨_, .cons hv blank_nil (?_ : Separator _ [',']) hu, ?_⟩
    · rw [hne]
      exact ⟨[], blank_nil, rfl⟩
    · simp [lead]

theorem JoinedMembers.object (h : JoinedMembers true members t) :
    (Value.object members).Spells ('\x7b' :: (t ++ ['\x7d'])) := by
  rcases h with ⟨hempty, rfl⟩ | ⟨-, u, hu, rfl⟩
  · obtain rfl := Members.isEmpty_iff.mp hempty
    exact .object blank_nil .nil
  · exact .object blank_nil hu

theorem JoinedItems.array (h : JoinedItems true items t) :
    (Value.array items).Spells ('[' :: (t ++ [']'])) := by
  rcases h with ⟨hempty, rfl⟩ | ⟨-, u, hu, rfl⟩
  · obtain rfl := Items.isEmpty_iff.mp hempty
    exact .array blank_nil .nil
  · exact .array blank_nil hu

/-! ## Values that are read without being filtered -/

theorem slice_append (s r : Text) : slice (s ++ r) r = s := by
  simp [slice]

theorem skipValue_spells (hv : v.Spells s) (hr : Follow r) (hst : st.rest = s ++ r) :
    ∃ m n, st.skipValue = some (⟨r, st.writer, m⟩, n) := by
  have hcons : consumeJsonValueAny (2 * (s ++ r).length + 2) (s ++ r) = some (r, v.memberCount) :=
    consume_value v hv hr (by simp only [length_append]; omega)
  rw [← hst] at hcons
  refine ⟨{ st.metrics with encountered := st.metrics.encountered + v.memberCount },
    v.memberCount, ?_⟩
  rw [skipValue, hcons, map_some]

theorem skipValueObjectOnly_eq (h : st.rest.head? ≠ some '[') :
    st.skipValueObjectOnly = st.skipValue := by
  have hcons : ∀ fuel, consumeJsonValueObjectOnly fuel st.rest =
      consumeJsonValueAny fuel st.rest := by
    intro fuel
    unfold consumeJsonValueObjectOnly
    split
    next heq => exact absurd (by rw [heq]; rfl) h
    · rfl
  simp [skipValueObjectOnly, skipValue, hcons]

/-! ## The filters compute the projection -/

/-- What a step over one entry has to do, if `projected` is left of its value. -/
def EntryOutcome (projected : Option (Option Value)) (st : FilterState) (entryLead r : Text)
    (result : Option (FilterState × Bool)) : Prop :=
  match projected with
  | none => result = none
  | some none => ∃ m, result = some (⟨r, st.writer, m⟩, false)
  | some (some v) => ∃ s m, v.Spells s ∧ result = some (⟨r, st.writer ++ (entryLead ++ s), m⟩, true)

section

variable (hv : v.Spells s) (hr : Follow r) (hst : st.rest = s ++ r)

include hv hr hst

theorem EntryOutcome.skip :
    EntryOutcome (some none) st entryLead r (st.skipValue.map fun r => (r.1, false)) := by
  obtain ⟨m, n, hskip⟩ := skipValue_spells hv hr hst
  exact ⟨m, by rw [hskip]; rfl⟩

/-- Copying a value, with whatever count is added for it. -/
theorem EntryOutcome.copy (count : Nat → Nat) :
    EntryOutcome (some (some v)) st entryLead r (st.skipValue.map fun r =>
      ((r.1.write (entryLead ++ slice st.rest r.1.rest)).emit (count r.2), true)) := by
  obtain ⟨m, n, hskip⟩ := skipValue_spells hv hr hst
  refine ⟨s, { m with emitted := m.emitted + count n }, hv, ?_⟩
  rw [hskip, map_some]
  simp [FilterState.write, emit, hst, slice_append]

theorem EntryOutcome.copyIf (keep : Bool) (count : Nat → Nat) :
    EntryOutcome (some (if keep then some v else none)) st entryLead r (st.skipValue.map fun r =>
      if keep then ((r.1.write (entryLead ++ slice st.rest r.1.rest)).emit (count r.2), true)
      else (r.1, false)) := by
  cases keep with
  | false => exact .skip hv hr hst
  | true => exact .copy hv hr hst count

end

/-- What a filter of a container has to do, if `projected` is left of its entries; the number is
    that of these. -/
def ContainerOutcome {α : Type} (make : α → Value) (length : α → Nat) (projected : Option α)
    (st : FilterState) (r : Text) (result : Option (FilterState × Nat)) : Prop :=
  match projected with
  | none => result = none
  | some entries => ∃ s m, (make entries).Spells s ∧
      result = some (⟨r, st.writer ++ s, m⟩, length entries)

abbrev ObjectOutcome := ContainerOutcome Value.object Members.length
abbrev ArrayOutcome := ContainerOutcome Value.array Items.length

/-- What a loop over entries has to do, from some point on up to the closing bracket. -/
def LoopOutcome {α : Type} (Joined : Bool → α → Text → Prop) (length : α → Nat) (close : Char)
    (first : Bool) (emitted : Nat) (projected : Option α) (st : FilterState) (r : Text)
    (result : Option (FilterState × Nat)) : Prop :=
  match projected with
  | none => result = none
  | some entries => ∃ t m, Joined first entries t ∧
      result = some (⟨r, st.writer ++ (t ++ [close]), m⟩, emitted + length entries)

abbrev MembersOutcome := LoopOutcome JoinedMembers Members.length '\x7d'
abbrev ItemsOutcome := LoopOutcome JoinedItems Items.length ']'

/-- One step of a loop, in front of what `next` does with the rest. -/
theorem LoopOutcome.cons {α : Type} {Joined} {length : α → Nat}
    {close : Char} {emitted : Nat} {kept} {rest : Option α} {r' : Text}
    {result} (cons : Value → α → α)
    (next : Bool → Nat → FilterState → Option (FilterState × Nat))
    (hjoined : ∀ v s entries t, v.Spells s → Joined false entries t →
      Joined first (cons v entries) (entryLead ++ (s ++ t)))
    (hlen : ∀ v entries, length (cons v entries) = length entries + 1)
    (hent : EntryOutcome kept st entryLead r' result)
    (hnext : ∀ first emitted st', st'.rest = r' →
      LoopOutcome Joined length close first emitted rest st' r (next first emitted st')) :
    LoopOutcome Joined length close first emitted
      (do let kept ← kept
          let rest' ← rest
          match kept with
          | none => some rest'
          | some v' => some (cons v' rest'))
      st r
      (do let entry ← result
          next (first && !entry.2) (if entry.2 then emitted + 1 else emitted) entry.1) := by
  match kept, hent with
  | none, hent =>
    obtain rfl : result = none := hent
    rfl
  | some none, hent =>
    obtain ⟨m, rfl⟩ := hent
    have hrest := hnext first emitted ⟨r', st.writer, m⟩ rfl
    simp only [bind_eq_bind, bind_some, Bool.not_false, Bool.and_true, Bool.false_eq_true, if_false]
    cases rest <;> exact hrest
  | some (some v), hent =>
    obtain ⟨s, m, hs, rfl⟩ := hent
    have hrest := hnext false (emitted + 1) ⟨r', st.writer ++ (entryLead ++ s), m⟩ rfl
    simp only [bind_eq_bind, bind_some, Bool.not_true, Bool.and_false, if_true]
    cases rest with
    | none => exact hrest
    | some entries =>
      obtain ⟨t, m', ht, hres⟩ := hrest
      refine ⟨entryLead ++ (s ++ t), m', hjoined v s entries t hs ht, ?_⟩
      simp only [hres, hlen, append_assoc]
      rw [Nat.add_assoc, Nat.add_comm 1]

/-- A count that changes nothing but the metrics. -/
def OnlyCounts (count : FilterState → FilterState) : Prop :=
  ∀ st, ∃ m, count st = { st with metrics := m }

theorem OnlyCounts.emit (n : Nat) : OnlyCounts fun st => st.emit n := fun _ => ⟨_, rfl⟩

theorem OnlyCounts.id : OnlyCounts fun st => st := fun st => ⟨st.metrics, rfl⟩

/-- Entering an object: what is written for it stays if a member does. -/
theorem EntryOutcome.enterObject {projected : Option Members} {count}
    (hcnt : OnlyCounts count) (h : ObjectOutcome projected (st.write entryLead) r result) :
    EntryOutcome
      (projected.bind fun members => some (if members.isEmpty then none else some (.object members)))
      st entryLead r (result.map fun r =>
        if r.2 = 0 then ({ r.1 with writer := st.writer }, false) else (count r.1, true)) := by
  cases projected with
  | none =>
    rw [h]
    rfl
  | some members =>
    obtain ⟨s, m, hs, rfl⟩ := h
    simp only [bind_some, map_some]
    by_cases hempty : members.isEmpty
    · rw [if_pos hempty, if_pos (Members.length_eq_zero.mpr hempty)]
      exact ⟨m, rfl⟩
    · rw [if_neg hempty, if_neg (fun h => hempty (Members.length_eq_zero.mp h))]
      obtain ⟨m', hm'⟩ := hcnt ⟨r, (st.write entryLead).writer ++ s, m⟩
      refine ⟨s, m', hs, ?_⟩
      rw [hm']
      simp [FilterState.write]

/-- Entering an array: it stays if an element does, or if it stays in any case. -/
theorem EntryOutcome.enterArray {projected : Option Items} (keepEmpty : Bool)
    (h : ArrayOutcome projected (st.write entryLead) r result) :
    EntryOutcome
      (projected.bind fun items =>
        some (if keepEmpty || !items.isEmpty then some (.array items) else none))
      st entryLead r (result.map fun r =>
        if keepEmpty || r.2 > 0 then (r.1.emit 1, true)
        else ({ r.1 with writer := st.writer }, false)) := by
  cases projected with
  | none =>
    rw [h]
    rfl
  | some items =>
    obtain ⟨s, m, hs, rfl⟩ := h
    simp only [bind_some, map_some]
    have hlen : (items.length > 0) = (items.isEmpty = false) := by
      cases items <;> simp [Items.length, Items.isEmpty]
    by_cases hkeep : (keepEmpty || !items.isEmpty)
    · rw [if_pos hkeep, if_pos (by simpa [hlen] using hkeep)]
      refine ⟨s, { m with emitted := m.emitted + 1 }, hs, ?_⟩
      simp [FilterState.write, emit]
    · rw [if_neg hkeep, if_neg (by simpa [hlen] using hkeep)]
      exact ⟨m, rfl⟩

theorem filterObject_of_members {b u parent : Text} (hb : Blank b) (hu : members.Spells u)
    (hst : st.rest = '\x7b' :: (b ++ (u ++ '\x7d' :: r)))
    (h : members.isEmpty = false → ∀ st', st'.rest = u ++ '\x7d' :: r →
      MembersOutcome true 0 (projectMembers rules parent members) st' r
        (filterMembers rules fuel parent true 0 st')) :
    ObjectOutcome (projectMembers rules parent members) st r
      (filterObject rules (fuel + 1) parent st) := by
  rw [filterObject, hst]
  simp only [skipWhitespace_blank hb (hu.solid r)]
  cases hu with
  | nil =>
    refine ⟨['\x7b', '\x7d'], st.metrics, .object blank_nil .nil, ?_⟩
    rfl
  | cons =>
    have hmems := h rfl ({ st with rest := _ }.write ['\x7b']) rfl
    generalize projectMembers rules parent _ = projected at hmems ⊢
    cases projected with
    | none => exact hmems
    | some =>
      obtain ⟨t, m, ht, hres⟩ := hmems
      refine ⟨_, m, ht.object, ?_⟩
      simpa [FilterState.write, Key.text] using hres

theorem filterArray_of_items {b u path elementPath : Text} (hb : Blank b) (hu : items.Spells u)
    (hst : st.rest = '[' :: (b ++ (u ++ ']' :: r)))
    (hpath : buildArrayElementPath path = some elementPath)
    (h : items.isEmpty = false → ∀ st', st'.rest = u ++ ']' :: r →
      ItemsOutcome true 0 (projectItems rules elementPath items) st' r
        (filterItems rules fuel elementPath true 0 st')) :
    ArrayOutcome (projectItems rules elementPath items) st r
      (filterArray rules (fuel + 1) path st) := by
  rw [filterArray, hst]
  simp only [skipWhitespace_blank hb (hu.solid r)]
  cases hu with
  | nil =>
    refine ⟨['[', ']'], st.metrics, .array blank_nil .nil, ?_⟩
    rfl
  | cons hv =>
    split
    next t heq =>
      rw [append_assoc] at heq
      exact absurd heq (hv.ne_close (by decide))
    · have hitems := h rfl ({ st with rest := _ }.write ['[']) rfl
      rw [hpath]
      generalize projectItems rules elementPath _ = projected at hitems ⊢
      cases projected with
      | none => exact hitems
      | some =>
        obtain ⟨t, m, ht, hres⟩ := hitems
        refine ⟨_, m, ht.array, ?_⟩
        simpa [FilterState.write] using hres

/-- A scalar is neither an object nor an array for the filters. -/
theorem filterMember_scalar {x : Scalar} {path keyLead : Text} (hr : Follow r)
    (hst : st.rest = x.text ++ r) :
    EntryOutcome (projectMember rules (some path) (.scalar x)) st keyLead r
      (filterMember rules (fuel + 1) (some path) keyLead st) := by
  obtain ⟨c, t, htext, hc⟩ := x.head
  have hrest : st.rest = c :: (t ++ r) := by rw [hst, htext]; rfl
  have hobj : c ≠ '\x7b' := by
    rintro rfl
    exact absurd hc (by decide)
  have harray : c ≠ '[' := by
    rintro rfl
    exact absurd hc (by decide)
  have hskip : st.skipValueObjectOnly = st.skipValue :=
    skipValueObjectOnly_eq (by simp [hrest, harray])
  have hcopy : EntryOutcome _ st keyLead r _ :=
    .copyIf (.scalar x) hr hst (rules.scalar path) fun _ => 1
  rw [filterMember, projectMember, hskip]
  generalize some (if rules.scalar path then some (Value.scalar x) else none) = kept at hcopy ⊢
  generalize Option.map (fun r : FilterState × Nat => if rules.scalar path then _ else _) _ =
    result at hcopy ⊢
  split
  next heq => exact absurd (List.cons.inj (hrest.symm.trans heq)).1 hobj
  next heq => exact absurd (List.cons.inj (hrest.symm.trans heq)).1 harray
  · exact hcopy

theorem filterItem_other {elementPath itemLead : Text} (hv : v.Spells s) (hr : Follow r)
    (hst : st.rest = s ++ r) (hother : s.head? ≠ some '\x7b') :
    EntryOutcome (some (if rules.elementOther elementPath then some v else none)) st itemLead r
      (filterItem rules (fuel + 1) elementPath itemLead st) := by
  obtain ⟨c, t, rfl, -⟩ := hv.head
  have hcopy : EntryOutcome _ st itemLead r _ :=
    .copyIf hv hr hst (rules.elementOther elementPath) fun _ => 0
  rw [filterItem]
  generalize some (if rules.elementOther elementPath then some v else none) = kept at hcopy ⊢
  split
  next heq => exact absurd (congrArg List.head? (hst.symm.trans heq)) hother
  · exact hcopy

/-- A member whose path cannot be built is skipped, unless it is an array. -/
theorem filterMember_no_path {keyLead : Text} (hv : v.Spells s) (hr : Follow r)
    (hst : st.rest = s ++ r) :
    EntryOutcome (projectMember rules none v) st keyLead r
      (filterMember rules (fuel + 1) none keyLead st) := by
  rw [filterMember]
  cases hv with
  | array =>
    simp [skipValueObjectOnly, hst, consumeJsonValueObjectOnly]
    rfl
  | scalar x =>
    obtain ⟨c, t, htext, hc⟩ := x.head
    rw [skipValueObjectOnly_eq]
    · exact .skip (.scalar x) hr hst
    · rw [hst, htext]
      rintro ⟨⟩
      exact absurd hc (by decide)
  | object hb hu =>
    rw [skipValueObjectOnly_eq]
    · exact .skip (.object hb hu) hr hst
    · rw [hst]
      rintro ⟨⟩

/-- What the loop over the members does behind an entry. -/
def afterMember (rules : FieldRules) (fuel : Nat) (parent : Text) (first : Bool) (emitted : Nat)
    (st : FilterState) : Option (FilterState × Nat) :=
  match skipWhitespace st.rest with
  | ',' :: t => filterMembers rules fuel parent first emitted { st with rest := skipWhitespace t }
  | '\x7d' :: t => some ({ st with rest := t }.write ['\x7d'], emitted)
  | _ => none

def afterItem (rules : FieldRules) (fuel : Nat) (elementPath : Text) (first : Bool) (emitted : Nat)
    (st : FilterState) : Option (FilterState × Nat) :=
  match skipWhitespace st.rest with
  | ',' :: t => filterItems rules fuel elementPath first emitted { st with rest := skipWhitespace t }
  | ']' :: t => some ({ st with rest := t }.write [']'], emitted)
  | _ => none

mutual

/-- Over the members of an object the loop leaves those of the projection. -/
theorem filterMembers_spec : ∀ (members : Members) {u r parent : Text}
    {fuel emitted : Nat} {first : Bool} {st : FilterState}, members.Spells u →
    members.isEmpty = false → st.rest = u ++ '\x7d' :: r → 4 * u.length < fuel →
    MembersOutcome first emitted (projectMembers rules parent members) st r
      (filterMembers rules fuel parent first emitted st)
  | .cons key v rest, u, r, parent, fuel + 1, emitted, first, st, h, _, hst, hfuel => by
      cases h with | @cons _ _ _ b b' s a sep u hb hb' hv ha hsep hrest =>
      simp only [length_append, length_cons, Key.text] at hfuel
      simp only [append_assoc, cons_append] at hst
      have hfollow : Follow (a ++ (sep ++ (u ++ '\x7d' :: r))) :=
        .blank ha (hsep.follow hrest.eq_nil (by decide))
      simp only [filterMembers, hst, parseJsonStringToken_key, slice_append, bind_eq_bind,
        bind_some, skipColon_append hb hb' (hv.solid _), projectMembers]
      refine LoopOutcome.cons (Members.cons key) (afterMember rules fuel parent) ?_ ?_
        (filterMember_spec v hv hfollow rfl (by omega)) ?_
      · intro v s members t hs ht
        exact JoinedMembers.cons hs ht
      · intro v members
        rfl
      · intro first emitted st' hst'
        rw [afterMember, hst']
        rcases skip_separator ha hsep hrest.eq_nil (by decide) (hrest.solid r) with
          ⟨hlast, hskip⟩ | ⟨hlast, t, hskip, hnext⟩
        · rw [hskip]
          cases rest with
          | nil => exact ⟨[], st'.metrics, .inl ⟨rfl, rfl⟩, rfl⟩
          | cons => cases hlast
        · rw [hskip]
          exact filterMembers_spec rest hrest hlast hnext (by omega)

theorem filterMember_spec : ∀ (v : Value) {s r keyLead : Text}
    {path : Option Text} {fuel : Nat} {st : FilterState}, v.Spells s → Follow r →
    st.rest = s ++ r → 4 * s.length + 2 < fuel →
    EntryOutcome (projectMember rules path v) st keyLead r (filterMember rules fuel path keyLead st)
  | v, s, r, keyLead, none, fuel + 1, st, hv, hr, hst, hfuel => filterMember_no_path hv hr hst
  | .scalar x, s, r, keyLead, some path, fuel + 1, st, hv, hr, hst, hfuel => by
      cases hv
      exact filterMember_scalar hr hst
  | .array items, s, r, keyLead, some path, fuel + 2, st, hv, hr, hst, hfuel => by
      cases hv with | @array _ b u hb hu =>
      have hskip : EntryOutcome _ st keyLead r _ := .skip (.array hb hu) hr hst
      simp only [length_cons, length_append, length_nil] at hfuel
      simp only [cons_append, append_assoc, nil_append] at hst
      rw [filterMember, projectMember, hst]
      cases hpath : buildArrayElementPath path with
      | none => exact hskip
      | some elementPath =>
        dsimp only
        cases rules.array path elementPath with
        | none => exact hskip
        | some keepEmpty =>
          refine .enterArray keepEmpty (filterArray_of_items hb hu hst hpath ?_)
          intro hne st' hst'
          exact filterItems_spec items hu hne hst' (by omega)
  | .object members, s, r, keyLead, some path, fuel + 2, st, hv, hr, hst, hfuel => by
      cases hv with | @object _ b u hb hu =>
      have hskip : EntryOutcome _ st keyLead r _ := .skip (.object hb hu) hr hst
      have hcopy : EntryOutcome _ st keyLead r _ := .copy (.object hb hu) hr hst (· + 1)
      simp only [length_cons, length_append, length_nil] at hfuel
      simp only [cons_append, append_assoc, nil_append] at hst
      rw [filterMember, projectMember]
      simp only [hst] at hcopy ⊢
      cases rules.object path with
      | skip => exact hskip
      | copy => exact hcopy
      | enter =>
        refine .enterObject (.emit 1) (filterObject_of_members hb hu hst ?_)
        intro hne st' hst'
        exact filterMembers_spec members hu hne hst' (by omega)

theorem filterItems_spec : ∀ (items : Items) {u r elementPath : Text}
    {fuel emitted : Nat} {first : Bool} {st : FilterState}, items.Spells u →
    items.isEmpty = false → st.rest = u ++ ']' :: r → 4 * u.length + 4 < fuel →
    ItemsOutcome first emitted (projectItems rules elementPath items) st r
      (filterItems rules fuel elementPath first emitted st)
  | .cons v rest, u, r, elementPath, fuel + 1, emitted, first, st, h, _, hst, hfuel => by
      cases h with | @cons _ _ s a sep u hv ha hsep hrest =>
      obtain ⟨c, t, hhead, -⟩ := hv.head
      have hs : 1 ≤ s.length := by simp [hhead]
      simp only [length_append] at hfuel
      simp only [append_assoc] at hst
      have hfollow : Follow (a ++ (sep ++ (u ++ ']' :: r))) :=
        .blank ha (hsep.follow hrest.eq_nil (by decide))
      refine LoopOutcome.cons Items.cons (afterItem rules fuel elementPath) ?_ ?_
        (filterItem_spec v hv hfollow hst (by omega)) ?_
      · intro v s items t hs ht
        exact JoinedItems.cons hs ht
      · intro v items
        rfl
      · intro first emitted st' hst'
        rw [afterItem, hst']
        rcases skip_separator ha hsep hrest.eq_nil (by decide) (hrest.solid r) with
          ⟨hlast, hskip⟩ | ⟨hlast, t, hskip, hnext⟩
        · rw [hskip]
          cases rest with
          | nil => exact ⟨[], st'.metrics, .inl ⟨rfl, rfl⟩, rfl⟩
          | cons => cases hlast
        · rw [hskip]
          exact filterItems_spec rest hrest hlast hnext (by omega)

theorem filterItem_spec : ∀ (v : Value) {s r elementPath itemLead : Text}
    {fuel : Nat} {st : FilterState}, v.Spells s → Follow r → st.rest = s ++ r →
    4 * s.length + 2 < fuel →
    EntryOutcome (projectItem rules elementPath v) st itemLead r
      (filterItem rules fuel elementPath itemLead st)
  | .scalar x, s, r, elementPath, itemLead, fuel + 1, st, hv, hr, hst, hfuel => by
      cases hv
      refine filterItem_other (.scalar x) hr hst ?_
      obtain ⟨c, t, htext, hc⟩ := x.head
      rw [htext]
      rintro ⟨⟩
      exact absurd hc (by decide)
  | .array items, s, r, elementPath, itemLead, fuel + 1, st, hv, hr, hst, hfuel => by
      refine filterItem_other hv hr hst ?_
      cases hv
      rintro ⟨⟩
  | .object members, s, r, elementPath, itemLead, fuel + 2, st, hv, hr, hst, hfuel => by
      cases hv with | @object _ b u hb hu =>
      have hskip : EntryOutcome _ st itemLead r _ := .skip (.object hb hu) hr hst
      have hcopy : EntryOutcome _ st itemLead r _ := .copy (.object hb hu) hr hst id
      simp only [length_cons, length_append, length_nil] at hfuel
      simp only [cons_append, append_assoc, nil_append] at hst
      rw [filterItem, projectItem]
      simp only [hst] at hcopy ⊢
      cases rules.elementObject elementPath with
      | skip => exact hskip
      | copy => exact hcopy
      | enter =>
        refine .enterObject .id (filterObject_of_members hb hu hst ?_)
        intro hne st' hst'
        exact filterMembers_spec members hu hne hst' (by omega)

end

/-! ## Bodies -/

theorem cString_of_objectText (h : ObjectText members body) : cString body = body := by
  refine takeWhile_eq_self_iff.mpr ?_
  intro c hc
  have hclean := h.clean c hc
  simp only [bne_iff_ne, ne_eq]
  rintro rfl
  exact absurd hclean (by decide)

/-- The body of an object in its parts, behind the white space in front of it. -/
theorem skipWhitespace_objectText (h : ObjectText members body) :
    ∃ b u e, Blank b ∧ Blank e ∧ members.Spells u ∧
      skipWhitespace body = '\x7b' :: (b ++ (u ++ '\x7d' :: e)) := by
  obtain ⟨b₀, s, e, hb₀, he, hs, rfl⟩ := h
  cases hs with | @object _ b u hb hu =>
  refine ⟨b, u, e, hb, he, hu, ?_⟩
  simp only [cons_append, append_assoc, nil_append]
  exact skipWhitespace_blank hb₀ (Solid.cons (by decide) _)

theorem skipWhitespace_of_blank {e : Text} (he : Blank e) : skipWhitespace e = [] := by
  have hnil : skipWhitespace (e ++ []) = [] := skipWhitespace_blank he (by simp [Solid])
  rwa [append_nil] at hnil

/-- On the text of an object, a nested filter writes a text of its projection. -/
theorem filterBody_spec (outputCapacity : Nat) (h : ObjectText members body) :
    match projectMembers rules [] members with
    | none => filterBody (filterObject rules) body outputCapacity = .error .skipUnsupported
    | some members' => ∃ s n, (Value.object members').Spells s ∧
        filterBody (filterObject rules) body outputCapacity =
          fitCapacity outputCapacity ⟨s, n⟩ := by
  obtain ⟨b, u, e, hb, he, hu, hbody⟩ := skipWhitespace_objectText h
  have hobj : ObjectOutcome (projectMembers rules [] members) { rest := skipWhitespace body } e
      (filterObject rules (4 * (skipWhitespace body).length + 4) []
        { rest := skipWhitespace body }) := by
    refine filterObject_of_members hb hu hbody ?_
    intro hne st' hst'
    refine filterMembers_spec members hu hne hst' ?_
    simp only [hbody, length_cons, length_append]
    omega
  unfold filterBody
  rw [cString_of_objectText h]
  generalize projectMembers rules [] members = projected at hobj ⊢
  cases projected with
  | none =>
    change filterObject rules _ [] _ = none at hobj
    simp [hobj]
  | some =>
    obtain ⟨s, m, hs, hres⟩ := hobj
    refine ⟨s, m.removed, hs, ?_⟩
    simp [hres, skipWhitespace_of_blank he]

end ByteTaper.JsonTransform
