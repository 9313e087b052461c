import ByteTaper.ExtProc.ResponseBody
import ByteTaper.JsonTransform.FlatFields
import ByteTaper.JsonTransform.KeptPaths

/-! # Denied fields in filtered bodies

Does a body that was filtered on a route with a denylist still have a denied member? The filters test
the paths that they build themselves, from keys that are neither decoded nor kept in full, and with a
client selection only the names of the selection are tested. So the question is settled by comparing,
for every place of the upstream body that the tests keep, the decoded paths of the members on the way
to it with the denied names (`DenylistRespected`). -/

namespace ByteTaper.ExtProc

open FieldSelection JsonTransform Json Policy List

/-- No denied member on the way to a place that the rules keep. -/
def RulesRespect (rules : FieldRules) (filter : FieldFilterPolicy) (members : Members) : Prop :=
  ∀ p q kind, EndsInKey p → members.Anchor (p ++ q) kind →
    rules.keepsMember [] (p ++ q) kind = true → ¬ Listed filter p

/-- The same for a flat body, of which the kept fields are written with their keys as they were
    read, whatever these stand for then. -/
def FlatRespects (filter : FieldFilterPolicy) (members : Members) : Prop :=
  ∀ field ∈ keptFields filter members, ∀ key, Key.inner key = field.key →
    ¬ Listed filter [.key key]

def DenylistRespected (filter : FieldFilterPolicy) (context : ApgTransformContext)
    (members : Members) : Prop :=
  if context.clientQueryPresent then
    RulesRespect (selectionRules (compileFieldSelection context)) filter members
  else if isFlat members then FlatRespects filter members
  else RulesRespect (policyRules filter) filter members

/-- The kept keys of a flat body can be put between quotes again. -/
def KeysQuotable (filter : FieldFilterPolicy) (context : ApgTransformContext)
    (members : Members) : Prop :=
  context.clientQueryPresent = false → isFlat members = true →
    ∀ field ∈ keptFields filter members, Quotable field.key

/-! ## Filters and texts -/

variable {outputCapacity : Nat} {members : Members} {body : Text} {result : FilteredBody}
  {filter : FieldFilterPolicy} {context : ApgTransformContext}

theorem fitCapacity_ok {body body' : FilteredBody}
    (h : fitCapacity outputCapacity body = .ok body') : body' = body := by
  unfold fitCapacity at h
  split at h
  · exact (Except.ok.inj h).symm
  · cases h

theorem filterBody_ok {rules : FieldRules} (h : ObjectText members body)
    (hres : filterBody (filterObject rules) body outputCapacity = .ok result) :
    ∃ members', projectMembers rules [] members = some members' ∧
      ObjectText members' result.output := by
  have hspec := @filterBody_spec rules members body outputCapacity h
  cases hproj : projectMembers rules [] members with
  | none =>
    rw [hproj] at hspec
    rw [hspec] at hres
    cases hres
  | some members' =>
    rw [hproj] at hspec
    obtain ⟨s, n, hs, hfit⟩ := hspec
    rw [hfit] at hres
    rw [fitCapacity_ok hres]
    exact ⟨members', rfl, ObjectText.of_spells hs⟩

/-- What the body of an object says about denied members. -/
def NoDenied (filter : FieldFilterPolicy) (body : Text) : Prop :=
  ∀ members, ObjectText members body → ∀ p, members.HasMember p → ¬ Listed filter p

theorem noDenied_iff (h : ObjectText members body) :
    NoDenied filter body ↔ ∀ p, members.HasMember p → ¬ Listed filter p := by
  constructor
  · intro hbody
    exact hbody members h
  · intro hmems members' h'
    rw [h'.unique h]
    exact hmems

theorem rulesRespect_iff {rules : FieldRules} {members' : Members}
    (h : projectMembers rules [] members = some members') :
    (∀ p, members'.HasMember p → ¬ Listed filter p) ↔ RulesRespect rules filter members := by
  have hmember := members.hasMember_keepAnchors (rules.keepsMember [])
  rw [← projectMembers_keepAnchors members h] at hmember
  constructor
  · intro hdenied p q kind hp hanc hkeep
    exact hdenied p ((hmember p).mpr ⟨hp, q, kind, hanc, hkeep⟩)
  · intro hrules p hp
    obtain ⟨hends, q, kind, hanc, hkeep⟩ := (hmember p).mp hp
    exact hrules p q kind hends hanc hkeep

theorem Key.inner_inj {key key' : Key} (h : Key.inner key = Key.inner key') : key = key' :=
  (Key.inner_append_inj (congrArg (· ++ '"' :: []) h)).1

theorem flatRespects_iff {entries} (h : keptFields filter members = entries.map fieldOf) :
    (∀ p, (flatMembers entries).HasMember p → ¬ Listed filter p) ↔ FlatRespects filter members := by
  unfold FlatRespects
  rw [h]
  constructor
  · intro hdenied field hfield key hkey
    obtain ⟨entry, hent, rfl⟩ := mem_map.mp hfield
    rw [Key.inner_inj hkey]
    exact hdenied _ (flatMembers_hasMember.mpr ⟨entry, hent, rfl⟩)
  · intro hflat p hp
    obtain ⟨entry, hent, rfl⟩ := flatMembers_hasMember.mp hp
    exact hflat (fieldOf entry) (mem_map_of_mem hent) entry.1 rfl

/-! ## The toggle -/

/-- What the toggle does with the text of an object. -/
theorem transform_objectText (h : ObjectText members body) (matchedPolicy : Option RoutePolicy)
    (context : ApgTransformContext) (outputCapacity : Nat) :
    transformFlatJsonWithFilterToggle body (parseFlatJsonObject body .eligibleJson).1
        (parseFlatJsonObject body .eligibleJson).2 matchedPolicy context true outputCapacity =
      match bodyFilter matchedPolicy context with
      | none => filterNestedJsonBySelectedFields body context outputCapacity
      | some filter =>
        if isFlat members then
          filterFlatJsonByPolicyDenylist
            { hasSource := true, fields := (flatFields members).take kMaxFields } filter
            outputCapacity
        else filterNestedJsonByPolicyDenylist body filter outputCapacity := by
  rw [parseFlatJsonObject_spec h]
  unfold transformFlatJsonWithFilterToggle
  cases isFlat members <;> cases bodyFilter matchedPolicy context <;> rfl

/-! ## The exchange -/

section Filtered

variable {matchRoute : MatchRoute} {path status contentType : Option Text}
  {endOfStream : Bool} {inputBody : Text} {policy : RoutePolicy}
  (hroute : (exchangeState matchRoute path status contentType).matchedPolicy = some policy)
  (hbody : exchangeFilteredBody matchRoute path status contentType endOfStream inputBody = some body)

include hroute hbody

theorem exchangeFilteredBody_some : ∃ result, result.output = body ∧
      transformFlatJsonWithFilterToggle inputBody (parseFlatJsonObject inputBody .eligibleJson).1
        (parseFlatJsonObject inputBody .eligibleJson).2 (some policy)
        (exchangeState matchRoute path status contentType).context true (inputBody.length + 1) =
          .ok result := by
  unfold exchangeFilteredBody at hbody
  split at hbody
  next result hres =>
    rw [← hroute]
    refine ⟨result, Option.some.inj hbody, ?_⟩
    unfold buildFilteredBodyResponse at hres
    split at hres
    · cases hres
    split at hres
    · cases hres
    rename_i href
    split at hres
    · cases hres
    rename_i hact
    have hkind : (exchangeState matchRoute path status contentType).responseKind = .eligibleJson := by
      by_contra hkind
      simp only [bodyRefused, hact] at href
      split_ifs at href with _ _ _ hjson
      exact hjson (by simpa [hkind] using hact)
    rw [hkind] at hres
    dsimp only at hres
    split at hres
    next parsed hparsed =>
      obtain rfl : parsed = result := by simpa using hres
      exact hparsed
    · cases hres
  · cases hbody

/-- With a client selection, the object is projected on it. -/
theorem exchange_selected
    (hquery : (exchangeState matchRoute path status contentType).context.clientQueryPresent)
    (hin : ObjectText members inputBody) :
    ∃ members', projectMembers (selectionRules (compileFieldSelection
        (exchangeState matchRoute path status contentType).context)) [] members = some members' ∧
      ObjectText members' body := by
  obtain ⟨result, rfl, htr⟩ := exchangeFilteredBody_some hroute hbody
  rw [transform_objectText hin] at htr
  simp only [bodyFilter, hquery, Bool.not_true, Bool.false_and, Bool.false_eq_true, if_false,
    filterNestedJsonBySelectedFields] at htr
  split at htr
  · cases htr
  · exact filterBody_ok hin htr

/-- Without one, the fields of a flat object are filtered, and another object is projected. -/
theorem exchange_filtered
    (hmode : policy.fieldFilter.mode = .allowlist ∨ policy.fieldFilter.mode = .denylist)
    (hquery : (exchangeState matchRoute path status contentType).context.clientQueryPresent = false)
    (hin : ObjectText members inputBody) :
    (isFlat members → ∀ entries, keptFields policy.fieldFilter members =
        entries.map fieldOf → ObjectText (flatMembers entries) body) ∧
      (isFlat members = false → ∃ members',
        projectMembers (policyRules policy.fieldFilter) [] members = some members' ∧
          ObjectText members' body) := by
  obtain ⟨result, rfl, htr⟩ := exchangeFilteredBody_some hroute hbody
  rw [transform_objectText hin] at htr
  have hfilt : bodyFilter (some policy) (exchangeState matchRoute path status contentType).context =
      some policy.fieldFilter := by
    simp [bodyFilter, hquery, hmode]
  simp only [hfilt] at htr
  constructor
  · intro hflat entries hents
    obtain ⟨s, n, hs, hfit⟩ := filterFlat_entries (inputBody.length + 1) hents
    simp only [hflat, if_true, hfit] at htr
    obtain rfl := fitCapacity_ok htr
    exact ObjectText.of_spells hs
  · intro hflat
    simp only [hflat, Bool.false_eq_true, if_false] at htr
    exact filterBody_ok hin htr

end Filtered

/-- Denied members in filtered bodies: on a route with a denylist, the response-body phase returns
    the text of an object, and that object has no denied member just if the tests of the filter keep
    none of the upstream body. -/
theorem denylist_respected_iff {matchRoute : MatchRoute}
    {path status contentType : Option Text} {endOfStream : Bool} {inputBody body : Text}
    {members : Members} {policy : RoutePolicy}
    (hroute : (exchangeState matchRoute path status contentType).matchedPolicy = some policy)
    (hmode : policy.fieldFilter.mode = .denylist) (hinput : ObjectText members inputBody)
    (hbody : exchangeFilteredBody matchRoute path status contentType endOfStream inputBody =
      some body)
    (hkeys : KeysQuotable policy.fieldFilter
      (exchangeState matchRoute path status contentType).context members) :
    (∃ members', ObjectText members' body) ∧
      ((∀ members', ObjectText members' body → ∀ p, members'.HasMember p →
          ∀ name ∈ policy.fieldFilter.fields, ¬ AtOrBelow name.val (pathText p)) ↔
        DenylistRespected policy.fieldFilter
          (exchangeState matchRoute path status contentType).context members) := by
  have hrespected : (∃ members', ObjectText members' body) ∧
      (NoDenied policy.fieldFilter body ↔ DenylistRespected policy.fieldFilter
        (exchangeState matchRoute path status contentType).context members) := by
    unfold DenylistRespected
    cases hquery : (exchangeState matchRoute path status contentType).context.clientQueryPresent with
    | true =>
      obtain ⟨members', hproj, htext⟩ := exchange_selected hroute hbody hquery hinput
      exact ⟨⟨members', htext⟩, (noDenied_iff htext).trans (rulesRespect_iff hproj)⟩
    | false =>
      obtain ⟨hflds, hprojected⟩ := exchange_filtered hroute hbody (.inr hmode) hquery hinput
      cases hflat : isFlat members with
      | true =>
        obtain ⟨entries, hents⟩ := keptFields_entries (hkeys hquery hflat)
        have htext := hflds hflat entries hents
        exact ⟨⟨_, htext⟩, (noDenied_iff htext).trans (flatRespects_iff hents)⟩
      | false =>
        obtain ⟨members', hproj, htext⟩ := hprojected hflat
        exact ⟨⟨members', htext⟩, (noDenied_iff htext).trans (rulesRespect_iff hproj)⟩
  refine ⟨hrespected.1, Iff.trans ?_ hrespected.2⟩
  simp [NoDenied, Listed]

/-- A route that denies `user.secret`. -/
def secretPolicy : RoutePolicy where
  routeId := some (lit "users")
  matchPrefix := some (lit "/users")
  mutation := .full
  fieldFilter := { mode := .denylist, fields := [⟨lit "user.secret", by decide +kernel⟩] }

def secretMembers : Members :=
  .cons (Key.ofText (lit "user"))
    (.object (flatMembers [(Key.ofText (lit "name"), .string (Key.ofText (lit "a"))),
      (Key.ofText (lit "secret"), .string (Key.ofText (lit "b")))]))
    .nil

def secretBody : Text := lit "\x7b\"user\":\x7b\"name\":\"a\",\"secret\":\"b\"\x7d\x7d"

theorem secretBody_text : ObjectText secretMembers secretBody :=
  ObjectText.of_compact (by decide +kernel)

/-- Selecting `user` returns the denied member below it. -/
theorem selected_user_keeps_secret :
    (exchangeState (fun _ => some secretPolicy) (some (lit "/users?fields=user")) (some (lit "200"))
        (some (lit "application/json"))).matchedPolicy.map (·.fieldFilter.mode) = some .denylist ∧
      ObjectText secretMembers secretBody ∧
      exchangeFilteredBody (fun _ => some secretPolicy) (some (lit "/users?fields=user"))
        (some (lit "200")) (some (lit "application/json")) true secretBody = some secretBody ∧
      secretMembers.HasMember [.key (Key.ofText (lit "user")), .key (Key.ofText (lit "secret"))] ∧
      ∃ name ∈ secretPolicy.fieldFilter.fields, AtOrBelow name.val
        (pathText [.key (Key.ofText (lit "user")), .key (Key.ofText (lit "secret"))]) := by
  refine ⟨by decide +kernel, secretBody_text, by decide +kernel, ?_, ?_⟩
  · refine .inl ⟨_, rfl, .inr ?_⟩
    exact flatMembers_hasMember.mpr ⟨_, mem_cons_of_mem _ (mem_singleton_self _), rfl⟩
  · exact ⟨_, mem_singleton_self _, .inl (by decide +kernel)⟩

theorem denylist_respected_iff_secret :
    (∃ members', ObjectText members' secretBody) ∧
      ((∀ members', ObjectText members' secretBody → ∀ p, members'.HasMember p →
          ∀ name ∈ secretPolicy.fieldFilter.fields, ¬ AtOrBelow name.val (pathText p)) ↔
        DenylistRespected secretPolicy.fieldFilter
          (exchangeState (fun _ => some secretPolicy) (some (lit "/users?fields=user"))
            (some (lit "200")) (some (lit "application/json"))).context secretMembers) := by
  have hbody : exchangeFilteredBody (fun _ => some secretPolicy)
      (some (lit "/users?fields=user")) (some (lit "200")) (some (lit "application/json")) true
      secretBody = some secretBody := by decide +kernel
  refine denylist_respected_iff ?_ rfl secretBody_text hbody ?_
  · exact exchangeState_matchedPolicy _ _ (by decide +kernel)
  · intro hquery
    exact absurd hquery (by decide +kernel)

end ByteTaper.ExtProc
