import ByteTaper.ExtProc.DenylistSoundness
import ByteTaper.JsonTransform.KeptLeaves

/-! # The documented law of allowlists

An allowlist is documented to leave the members whose dotted path is listed or lies below a listed one,
as they are, and the containers that lead to them (`listedMembers`). The filter asks for more: every
container on the way has to be on the list by its own path, and so has everything below it. So the law
holds for a body just if list and filter agree on every leaf of it (`AllowlistExact`). -/

namespace ByteTaper.ExtProc

open JsonTransform Json Policy List

/-! ## The law -/

mutual

/-- What is left inside a value that is not listed itself. -/
def listedValue (listed : List Step → Bool) : Value → Option Value
  | .scalar _ => none
  | .array items =>
    let items' := listedItems listed items
    if items'.isEmpty then none else some (.array items')
  | .object members =>
    let members' := listedMembers listed members
    if members'.isEmpty then none else some (.object members')

def listedItems (listed : List Step → Bool) : Items → Items
  | .nil => .nil
  | .cons v rest =>
    match listedValue (fun p => listed (.element :: p)) v with
    | none => listedItems listed rest
    | some v' => .cons v' (listedItems listed rest)

/-- A listed member stays as it is, and another one with what is listed below it. -/
def listedMembers (listed : List Step → Bool) : Members → Members
  | .nil => .nil
  | .cons key v rest =>
    match if listed [.key key] then some v
      else listedValue (fun p => listed (.key key :: p)) v with
    | none => listedMembers listed rest
    | some v' => .cons key v' (listedMembers listed rest)

end

/-- The law in terms of leaves: a member on the way is listed. -/
def onListedWay (listed : List Step → Bool) : List Step → Bool
  | [] => false
  | .key k :: rest => listed [.key k] || onListedWay (fun p => listed (.key k :: p)) rest
  | .element :: rest => onListedWay (fun p => listed (.element :: p)) rest

mutual

theorem listedValue_eq_keepOnly : ∀ (v : Value) (listed : List Step → Bool),
    listedValue listed v = v.keepOnly fun p _ => onListedWay listed p
  | .scalar _, listed => rfl
  | .array items, listed => by
      rw [listedValue, listedItems_eq_keepOnly items, Value.keepOnly]
      cases items <;> rfl
  | .object members, listed => by
      rw [listedValue, listedMembers_eq_keepOnly members, Value.keepOnly]
      cases members <;> rfl

theorem listedItems_eq_keepOnly : ∀ (items : Items) (listed : List Step → Bool),
    listedItems listed items = items.keepOnly fun p _ => onListedWay listed p
  | .nil, listed => rfl
  | .cons v rest, listed => by
      rw [listedItems, Items.keepOnly, listedItems_eq_keepOnly rest, listedValue_eq_keepOnly v]
      rfl

theorem listedMembers_eq_keepOnly : ∀ (members : Members) (listed : List Step → Bool),
    listedMembers listed members = members.keepOnly fun p _ => onListedWay listed p
  | .nil, listed => rfl
  | .cons key v rest, listed => by
      have hv : (if listed [.key key] then some v
          else listedValue (fun p => listed (.key key :: p)) v) =
          v.keepOnly fun p _ => onListedWay listed (.key key :: p) := by
        split
        next hlisted =>
          exact (Value.keepOnly_whole fun p kind _ => by simp [onListedWay, hlisted]).symm
        next hlisted =>
          rw [listedValue_eq_keepOnly v]
          refine v.keepOnly_congr fun p kind _ => ?_
          simp [onListedWay, hlisted]
      rw [listedMembers, hv, listedMembers_eq_keepOnly rest]
      cases hkept : v.keepOnly fun p _ => onListedWay listed (.key key :: p) with
      | none | some => rw [Members.keepOnly, hkept]

end

/-! ## Flat objects -/

def flatEntries : Members → List (Key × Scalar)
  | .cons key (.scalar x) rest => (key, x) :: flatEntries rest
  | _ => []

variable {members : Members} {filter : FieldFilterPolicy}

theorem flatMembers_flatEntries (h : isFlat members) :
    flatMembers (flatEntries members) = members := by
  fun_induction flatEntries members with
  | case1 _ _ _ ih => rw [flatMembers, ih h]
  | case2 members hne =>
    cases members with
    | nil => rfl
    | cons key v rest =>
      cases v with
      | scalar x => exact absurd rfl (hne key x rest)
      | array => cases h
      | object => cases h

theorem flatFields_eq (members : Members) : flatFields members =
      (flatEntries members).map fun entry => { key := seenKey entry.1, value := entry.2.text } := by
  fun_induction flatEntries members with
  | case1 _ _ _ ih => rw [flatFields, ih, map_cons]
  | case2 members hne =>
    cases members with
    | nil => rfl
    | cons key v rest =>
      cases v with
      | scalar x => exact absurd rfl (hne key x rest)
      | array => rfl
      | object => rfl

theorem flatMembers_inj {entries entries'}
    (h : flatMembers entries = flatMembers entries') : entries = entries' := by
  induction entries generalizing entries' with
  | nil =>
    cases entries' with
    | nil => rfl
    | cons => cases h
  | cons _ _ ih =>
    cases entries' with
    | nil => cases h
    | cons =>
      simp only [flatMembers, Members.cons.injEq, Value.scalar.injEq] at h
      rw [Prod.ext h.1 h.2.1, ih h.2.2]

theorem listedMembers_flat (listed : List Step → Bool) (entries : List (Key × Scalar)) :
    listedMembers listed (flatMembers entries) =
      flatMembers (entries.filter fun entry => listed [.key entry.1]) := by
  induction entries with
  | nil => rfl
  | cons entry _ ih =>
    obtain ⟨key, x⟩ := entry
    rw [flatMembers, listedMembers, ih, filter_cons]
    cases listed [.key key] <;> rfl

/-! ## Agreement of list and filter -/

/-- The key is written without escapes and fits the key buffer. -/
def KeyAsRead (key : Key) : Prop := seenKey key = Key.inner key ∧ Key.decode key = Key.inner key

/-- The fields of a flat body among which the filter chooses. -/
def seenEntries (members : Members) : List (Key × Scalar) :=
  (flatEntries members).take kMaxFields

def KeysAsRead (filter : FieldFilterPolicy) (members : Members) : Prop :=
  isFlat members = true → ∀ entry ∈ seenEntries members,
    applyFieldFilter filter (seenKey entry.1) = true → KeyAsRead entry.1

/-- The filter keeps just the leaves behind a listed member. Of a flat body it sees the first
    `kMaxFields` fields only. -/
def AllowlistExact (filter : FieldFilterPolicy) (members : Members) : Prop :=
  if isFlat members then
    (∀ entry ∈ seenEntries members,
        applyFieldFilter filter (seenKey entry.1) = decide (Listed filter [.key entry.1])) ∧
      ∀ entry ∈ (flatEntries members).drop kMaxFields, ¬ Listed filter [.key entry.1]
  else
    ∀ p kind, members.Leaf p kind → (policyRules filter).keepsMember [] p kind =
      onListedWay (fun p => decide (Listed filter p)) p

/-- Two filters of a list, of which the first is the stronger one and does not see the whole list. -/
theorem filter_take_eq_filter_iff {α : Type} {l : List α} {n : Nat} {f g : α → Bool}
    (h : ∀ a ∈ l.take n, f a → g a) :
    (l.take n).filter f = l.filter g ↔
      (∀ a ∈ l.take n, f a = g a) ∧ ∀ a ∈ l.drop n, g a = false := by
  have hsplit : l.filter g = (l.take n).filter g ++ (l.drop n).filter g := by
    rw [← filter_append, take_append_drop]
  rw [hsplit]
  constructor
  · intro heq
    have hle : ((l.take n).filter f).length ≤ ((l.take n).filter g).length := by
      rw [← countP_eq_length_filter, ← countP_eq_length_filter]
      exact countP_mono_left h
    have hlen := congrArg List.length heq
    rw [length_append] at hlen
    have hdrop : (l.drop n).filter g = [] := eq_nil_of_length_eq_zero (by omega)
    rw [hdrop, append_nil] at heq
    refine ⟨fun a ha => Bool.eq_iff_iff.mpr ⟨h a ha, fun hg => ?_⟩, fun a ha => ?_⟩
    · have hmem : a ∈ (l.take n).filter f := heq ▸ mem_filter.mpr ⟨ha, hg⟩
      exact (mem_filter.mp hmem).2
    · simpa using filter_eq_nil_iff.mp hdrop a ha
  · intro ⟨htake, hdrop⟩
    have hnil : (l.drop n).filter g = [] := filter_eq_nil_iff.mpr (by simpa using hdrop)
    rw [filter_congr htake, hnil, append_nil]

theorem listed_of_applyFieldFilter {key : Key} (hmode : filter.mode = .allowlist)
    (hkey : KeyAsRead key) (h : applyFieldFilter filter (seenKey key)) :
    Listed filter [.key key] := by
  have hany : filter.fields.any (·.val == seenKey key) := by
    simpa [applyFieldFilter, hmode] using h
  obtain ⟨name, hname, heq⟩ := any_eq_true.mp hany
  refine ⟨name, hname, .inl ?_⟩
  have hname : name.val = seenKey key := by simpa using heq
  simp only [pathText, flatMap_nil, append_nil]
  rw [hkey.2, hname, hkey.1]

/-! ## Bodies -/

theorem keptFields_eq (hflat : isFlat members) (hkeys : KeysAsRead filter members) :
    keptFields filter members = ((seenEntries members).filter fun entry =>
        applyFieldFilter filter (seenKey entry.1)).map fieldOf := by
  rw [keptFields, flatFields_eq, ← map_take, filter_map]
  refine map_congr_left fun entry hent => ?_
  obtain ⟨hseen, hkept⟩ := mem_filter.mp hent
  rw [fieldOf, (hkeys hflat entry hseen hkept).1]

theorem KeysAsRead.keysQuotable {context} (h : KeysAsRead filter members) :
    KeysQuotable filter context members := by
  intro _ hflat field hfield
  rw [keptFields_eq hflat h] at hfield
  obtain ⟨entry, -, rfl⟩ := mem_map.mp hfield
  exact ⟨entry.1, rfl⟩

/-- No key of the object has an escape or is cut. -/
def AllKeysAsRead (members : Members) : Prop :=
  ∀ p kind, members.Anchor p kind → ∀ key, .key key ∈ p → KeyAsRead key

theorem AllKeysAsRead.keysAsRead (h : AllKeysAsRead members) : KeysAsRead filter members := by
  intro hflat entry hseen _
  have hanchor : ∀ {entries : List (Key × Scalar)}, entry ∈ entries →
      (flatMembers entries).Anchor [.key entry.1] .scalar := by
    intro entries hmem
    induction entries with
    | nil => cases hmem
    | cons other entries ih =>
      rcases mem_cons.mp hmem with rfl | hmem
      · exact .inl ⟨[], rfl, rfl, rfl⟩
      · exact .inr (ih hmem)
  have hentry := hanchor (mem_of_mem_take hseen)
  rw [flatMembers_flatEntries hflat] at hentry
  exact h _ _ hentry entry.1 (mem_singleton_self _)

theorem objectText_iff {members' : Members} {body : Text} (h : ObjectText members' body) :
    ObjectText members body ↔ members = members' :=
  ⟨fun h' => h'.unique h, fun heq => heq ▸ h⟩

/-- The documented law: without a client selection, the response-body phase on a route with an
    allowlist returns the text of what the law leaves just if the filter keeps exactly the leaves
    behind listed members. -/
theorem allowlist_law_iff {matchRoute : MatchRoute}
    {path status contentType : Option Text} {endOfStream : Bool} {inputBody body : Text}
    {members : Members} {policy : RoutePolicy}
    (hroute : (exchangeState matchRoute path status contentType).matchedPolicy = some policy)
    (hmode : policy.fieldFilter.mode = .allowlist)
    (hquery : (exchangeState matchRoute path status contentType).context.clientQueryPresent = false)
    (hinput : ObjectText members inputBody)
    (hbody : exchangeFilteredBody matchRoute path status contentType endOfStream inputBody =
      some body)
    (hkeys : KeysAsRead policy.fieldFilter members) :
    ObjectText (listedMembers (fun p => decide (Listed policy.fieldFilter p)) members) body ↔
      AllowlistExact policy.fieldFilter members := by
  obtain ⟨hflds, hprojected⟩ := exchange_filtered hroute hbody (.inl hmode) hquery hinput
  unfold AllowlistExact
  cases hflat : isFlat members with
  | true =>
    have hlaw : listedMembers (fun p => decide (Listed policy.fieldFilter p)) members =
        flatMembers ((flatEntries members).filter fun entry =>
          decide (Listed policy.fieldFilter [.key entry.1])) := by
      have hfilt := listedMembers_flat (fun p => decide (Listed policy.fieldFilter p))
        (flatEntries members)
      rwa [flatMembers_flatEntries hflat] at hfilt
    rw [objectText_iff (hflds hflat _ (keptFields_eq hflat hkeys)), hlaw]
    have hstronger : ∀ entry ∈ (flatEntries members).take kMaxFields,
        applyFieldFilter policy.fieldFilter (seenKey entry.1) →
        decide (Listed policy.fieldFilter [.key entry.1]) := by
      intro entry hent hkept
      exact decide_eq_true (listed_of_applyFieldFilter hmode (hkeys hflat entry hent hkept) hkept)
    have hexact := filter_take_eq_filter_iff hstronger
    simp only [decide_eq_false_iff_not] at hexact
    refine Iff.trans ⟨fun heq => (flatMembers_inj heq).symm, fun heq => ?_⟩ hexact
    exact congrArg flatMembers heq.symm
  | false =>
    obtain ⟨members', hproj, htext⟩ := hprojected hflat
    rw [objectText_iff htext, listedMembers_eq_keepOnly,
      projectMembers_keepOnly _ (policyRules_noEmptyArrays _) members hproj, eq_comm,
      Members.keepOnly_eq_iff]
    simp

/-- The route of the documentation that keeps `id` and `name` inside `user`. -/
def userPolicy : RoutePolicy where
  routeId := some (lit "users")
  matchPrefix := some (lit "/users")
  mutation := .full
  fieldFilter :=
    { mode := .allowlist
      fields := [⟨lit "user.id", by decide +kernel⟩, ⟨lit "user.name", by decide +kernel⟩] }

def userMembers : Members :=
  .cons (Key.ofText (lit "user"))
    (.object (flatMembers [(Key.ofText (lit "id"), .string (Key.ofText (lit "7"))),
      (Key.ofText (lit "name"), .string (Key.ofText (lit "a")))]))
    .nil

def userBody : Text := lit "\x7b\"user\":\x7b\"id\":\"7\",\"name\":\"a\"\x7d\x7d"

theorem userBody_text : ObjectText userMembers userBody :=
  ObjectText.of_compact (by decide +kernel)

/-- Nothing is left of `user`, although the list names two of its members. -/
theorem listed_members_are_dropped :
    ObjectText userMembers userBody ∧
      exchangeFilteredBody (fun _ => some userPolicy) (some (lit "/users")) (some (lit "200"))
        (some (lit "application/json")) true userBody = some (lit "\x7b\x7d") ∧
      listedMembers (fun p => decide (Listed userPolicy.fieldFilter p)) userMembers = userMembers ∧
      ¬ ObjectText (listedMembers (fun p => decide (Listed userPolicy.fieldFilter p)) userMembers)
        (lit "\x7b\x7d") := by
  have hlaw : listedMembers (fun p => decide (Listed userPolicy.fieldFilter p)) userMembers =
      userMembers := by
    have huser : decide (Listed userPolicy.fieldFilter [.key (Key.ofText (lit "user"))]) = false := by
      decide +kernel
    have hid : decide (Listed userPolicy.fieldFilter
        [.key (Key.ofText (lit "user")), .key (Key.ofText (lit "id"))]) := by
      decide +kernel
    have hname : decide (Listed userPolicy.fieldFilter
        [.key (Key.ofText (lit "user")), .key (Key.ofText (lit "name"))]) := by
      decide +kernel
    simp only [userMembers, listedMembers, listedValue, listedMembers_flat, filter_cons,
      filter_nil, huser, hid, hname, if_true, Bool.false_eq_true, if_false]
    rfl
  refine ⟨userBody_text, by decide +kernel, hlaw, ?_⟩
  rw [hlaw]
  intro htext
  have hempty : ObjectText .nil (lit "\x7b\x7d") := ObjectText.of_compact (by decide +kernel)
  exact Members.noConfusion (htext.unique hempty)

theorem allowlist_law_iff_user :
    ObjectText (listedMembers (fun p => decide (Listed userPolicy.fieldFilter p)) userMembers)
        (lit "\x7b\x7d") ↔
      AllowlistExact userPolicy.fieldFilter userMembers := by
  have hbody : exchangeFilteredBody (fun _ => some userPolicy) (some (lit "/users"))
      (some (lit "200")) (some (lit "application/json")) true userBody =
      some (lit "\x7b\x7d") := by decide +kernel
  refine allowlist_law_iff ?_ rfl ?_ userBody_text hbody ?_
  · exact exchangeState_matchedPolicy _ _ (by decide +kernel)
  · decide +kernel
  · intro hflat
    cases hflat

end ByteTaper.ExtProc
