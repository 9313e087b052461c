import ByteTaper.ExtProc.AllowlistLaw

/-! # Client selections on routes with an allowlist

With a `fields` parameter the body is filtered by the client's selection alone, from which the names
outside the allowlist have been removed. The selection is matched with paths that are built from keys
as they are read (`seenPath`), so what is kept lies at or below an allowed name by its built path
(`selected_of_keepsMember`). By its decoded path it does so just if `AllowlistRespected` holds, as it does for
bodies whose keys are read as they are. -/

namespace ByteTaper.ExtProc

open FieldSelection JsonTransform Json Policy List FieldRules

/-- The scalar members that the selection keeps are listed, or lie below something listed. -/
def AllowlistRespected (filter : FieldFilterPolicy) (context : ApgTransformContext)
    (members : Members) : Prop :=
  ∀ p, EndsInKey p → members.Anchor p .scalar →
    (selectionRules (compileFieldSelection context)).keepsMember [] p .scalar = true →
    Listed filter p

/-! ## Built paths -/

def seenStep : Step → Text
  | .key key => '.' :: seenKey key
  | .element => ['[', ']']

/-- The path that the filters build, if it fits its buffer. -/
def seenPath : List Step → Text
  | .key key :: rest => seenKey key ++ rest.flatMap seenStep
  | p => p.flatMap seenStep

theorem atOrBelow_seen {name t : Text} (h : AtOrBelow name t) (p : List Step) :
    AtOrBelow name (t ++ p.flatMap seenStep) := by
  refine h.append ?_
  cases p with
  | nil => exact .inl rfl
  | cons step p =>
    cases step with
    | key key => exact .inr ⟨seenKey key ++ p.flatMap seenStep, .inl rfl⟩
    | element => exact .inr ⟨']' :: p.flatMap seenStep, .inr rfl⟩

section

variable {context : ApgTransformContext}

theorem selected_of_exact {path : Text} (p : List Step)
    (h : (matchSelectionCompiled (compileFieldSelection context) path).exactSelected) :
    ∃ name ∈ context.selectedFields, AtOrBelow name.val (path ++ p.flatMap seenStep) := by
  unfold matchSelectionCompiled at h
  split at h
  · cases h
  obtain ⟨compiled, hmem, hpath⟩ := any_eq_true.mp h
  obtain ⟨name, hname, rfl⟩ := mem_map.mp hmem
  simp only [Bool.and_eq_true, beq_iff_eq] at hpath
  exact ⟨name, mem_of_mem_take (mem_of_mem_filter hname), hpath.2 ▸ atOrBelow_seen (.inl rfl) p⟩

/-- An object is copied only if it is selected itself. -/
theorem exact_of_copy {place : Place}
    (h : (selectionRules (compileFieldSelection context)).objectAt place = .copy) :
    (matchSelectionCompiled (compileFieldSelection context) place.path).exactSelected := by
  cases place with
  | member =>
    simp only [objectAt, selectionRules] at h
    split at h
    next hexact => exact hexact
    · split at h <;> cases h
  | element =>
    simp only [objectAt, selectionRules] at h
    split at h
    next hexact => exact (Bool.and_eq_true_iff.mp hexact).1
    · split at h <;> cases h

theorem boundedPath_some {path path' : Text} (h : boundedPath path = some path') :
    path' = path := by
  unfold boundedPath at h
  split at h
  · exact (Option.some.inj h).symm
  · cases h

theorem buildFullPath_some {parent key path : Text} (hparent : parent ≠ [])
    (h : buildFullPath parent key = some path) : path = parent ++ '.' :: key := by
  unfold buildFullPath at h
  split at h
  · cases h
  · rw [boundedPath_some h, if_neg (by simpa using hparent)]

/-- What the selection keeps from a place on lies at or below a selected name by its built path. -/
theorem selected_of_keeps : ∀ {p : List Step} {place : Place} {kind : AnchorKind},
    place.path ≠ [] → (selectionRules (compileFieldSelection context)).keeps place p kind →
    ∃ name ∈ context.selectedFields, AtOrBelow name.val (place.path ++ p.flatMap seenStep)
  | [], .member path, .scalar, _, h => selected_of_exact [] h
  | [], .member path, .array, _, h => by
      simp only [keeps] at h
      split at h
      · cases h
      rename_i elementPath _
      have harray := of_decide_eq_true h
      simp only [selectionRules] at harray
      split at harray
      · exact selected_of_exact [] (Option.some.inj harray)
      · cases harray
  | [], place, .emptyObject, _, h => by
      simp only [keeps, decide_eq_true_eq] at h
      exact selected_of_exact [] (exact_of_copy h)
  | .key k :: p, place, kind, hpath, h => by
      simp only [keeps] at h
      split at h
      · cases h
      next hcopy => exact selected_of_exact _ (exact_of_copy hcopy)
      split at h
      · cases h
      next path hfull =>
        have hfull := buildFullPath_some hpath hfull
        obtain ⟨name, hname, hbelow⟩ := selected_of_keeps (by simp [Place.path, hfull]) h
        refine ⟨name, hname, ?_⟩
        simpa [Place.path, hfull, seenStep] using hbelow
  | .element :: p, .member path, kind, hpath, h => by
      simp only [keeps] at h
      split at h
      · cases h
      rename_i elementPath helem
      split at h
      · cases h
      have helem := boundedPath_some helem
      obtain ⟨name, hname, hbelow⟩ := selected_of_keeps (by simp [Place.path, helem]) h
      refine ⟨name, hname, ?_⟩
      simpa [Place.path, helem, seenStep] using hbelow

theorem selected_of_keepsMember {p : List Step} {kind : AnchorKind}
    (h : (selectionRules (compileFieldSelection context)).keepsMember [] p kind) :
    ∃ name ∈ context.selectedFields, AtOrBelow name.val (seenPath p) := by
  unfold keepsMember at h
  split at h
  next key rest =>
    split at h
    · cases h
    rename_i path hpath
    unfold buildFullPath at hpath
    split at hpath
    · cases hpath
    rename_i hkey
    have hpath : path = seenKey key := boundedPath_some hpath
    obtain ⟨name, hname, hbelow⟩ :=
      selected_of_keeps (by simpa [Place.path, hpath] using hkey) h
    refine ⟨name, hname, ?_⟩
    simpa [Place.path, hpath, seenPath] using hbelow
  · cases h

end

/-! ## Selections of an exchange -/

theorem seenPath_eq_pathText {p : List Step} (h : ∀ key, .key key ∈ p → KeyAsRead key) :
    seenPath p = pathText p := by
  have hstep : ∀ step ∈ p, seenStep step = step.text := by
    intro step hstep
    cases step with
    | element => rfl
    | key key => rw [seenStep, Step.text, (h key hstep).1, (h key hstep).2]
  cases p with
  | nil => rfl
  | cons step p =>
    have hrest : p.flatMap seenStep = p.flatMap Step.text :=
      flatMap_congr fun step hmem => hstep step (mem_cons_of_mem _ hmem)
    cases step with
    | element =>
      show ['[', ']'] ++ p.flatMap seenStep = ['[', ']'] ++ p.flatMap Step.text
      rw [hrest]
    | key key =>
      have hkey := h key mem_cons_self
      rw [seenPath, pathText, hrest, hkey.1, hkey.2]

/-! ## The exchange -/

/-- Client selections on a route with an allowlist: the response-body phase returns the text of an
    object, whose scalar members are listed, or lie below something listed, just if those are which
    the selection keeps of the upstream body. That is so if its keys are read as they are, whatever
    the client selects. -/
theorem selection_respects_allowlist_iff {matchRoute : MatchRoute}
    {path status contentType : Option Text} {endOfStream : Bool} {inputBody body : Text}
    {members : Members} {policy : RoutePolicy}
    (hroute : (exchangeState matchRoute path status contentType).matchedPolicy = some policy)
    (hmode : policy.fieldFilter.mode = .allowlist)
    (hquery : (exchangeState matchRoute path status contentType).context.clientQueryPresent = true)
    (hinput : ObjectText members inputBody)
    (hbody : exchangeFilteredBody matchRoute path status contentType endOfStream inputBody =
      some body) :
    (∃ members', ObjectText members' body) ∧
      ((∀ members', ObjectText members' body → ∀ p, EndsInKey p → members'.Anchor p .scalar →
          ∃ name ∈ policy.fieldFilter.fields, AtOrBelow name.val (pathText p)) ↔
        AllowlistRespected policy.fieldFilter
          (exchangeState matchRoute path status contentType).context members) ∧
      (AllKeysAsRead members →
        AllowlistRespected policy.fieldFilter
          (exchangeState matchRoute path status contentType).context members) := by
  obtain ⟨members', hproj, htext⟩ := exchange_selected hroute hbody hquery hinput
  have hscalar := members.scalar_keepAnchors ((selectionRules (compileFieldSelection
    (exchangeState matchRoute path status contentType).context)).keepsMember [])
  rw [← projectMembers_keepAnchors members hproj] at hscalar
  refine ⟨⟨members', htext⟩, ?_, ?_⟩
  · simp only [objectText_iff htext, forall_eq, hscalar, and_imp]
    rfl
  · intro hkeys p _ hanc hkeep
    obtain ⟨name, hname, hbelow⟩ := selected_of_keepsMember hkeep
    rw [seenPath_eq_pathText (hkeys p .scalar hanc)] at hbelow
    refine ⟨name, ?_, hbelow⟩
    -- the names outside the allowlist are gone from the selection of the client
    obtain ⟨_, _, _, _, hstate⟩ := exchangeState_selected hroute
    simp only [hstate, selectedState, prepareEffectiveFieldSelectionFromPolicy, hmode] at hname
    split at hname
    · have hany : policy.fieldFilter.fields.any (·.val == name.val) := by
        simpa [applyFieldFilter, hmode] using of_mem_filter hname
      obtain ⟨allowed, hmem, heq⟩ := any_eq_true.mp hany
      rwa [← Subtype.ext (eq_of_beq heq)]
    · exact hname

/-- A route that allows `n`. -/
def letterPolicy : RoutePolicy where
  routeId := some (lit "letters")
  matchPrefix := some (lit "/letters")
  mutation := .full
  fieldFilter := { mode := .allowlist, fields := [⟨lit "n", by decide +kernel⟩] }

/-- The key is a line feed. -/
def lineFeedMembers : Members :=
  flatMembers [([.escape 'n' (by decide)], .string (Key.ofText (lit "x")))]

def lineFeedBody : Text := lit "\x7b\"\\n\":\"x\"\x7d"

theorem lineFeedBody_text : ObjectText lineFeedMembers lineFeedBody :=
  ObjectText.of_compact (by decide +kernel)

theorem lineFeedBody_kept :
    exchangeFilteredBody (fun _ => some letterPolicy) (some (lit "/letters?fields=n"))
      (some (lit "200")) (some (lit "application/json")) true lineFeedBody = some lineFeedBody := by
  decide +kernel

/-- The escape of a line feed is taken for the letter behind the backslash. -/
theorem escaped_key_passes_allowlist :
    ObjectText lineFeedMembers lineFeedBody ∧
      exchangeFilteredBody (fun _ => some letterPolicy) (some (lit "/letters?fields=n"))
        (some (lit "200")) (some (lit "application/json")) true lineFeedBody =
          some lineFeedBody ∧
      lineFeedMembers.Anchor [.key [.escape 'n' (by decide)]] .scalar ∧
      ¬ ∃ name ∈ letterPolicy.fieldFilter.fields,
        AtOrBelow name.val (pathText [.key [.escape 'n' (by decide)]]) := by
  refine ⟨lineFeedBody_text, lineFeedBody_kept, .inl ⟨[], rfl, rfl, rfl⟩, ?_⟩
  decide +kernel

theorem selection_respects_allowlist_iff_lineFeed :
    (∃ members', ObjectText members' lineFeedBody) ∧
      ((∀ members', ObjectText members' lineFeedBody → ∀ p, EndsInKey p →
          members'.Anchor p .scalar →
          ∃ name ∈ letterPolicy.fieldFilter.fields, AtOrBelow name.val (pathText p)) ↔
        AllowlistRespected letterPolicy.fieldFilter
          (exchangeState (fun _ => some letterPolicy) (some (lit "/letters?fields=n"))
            (some (lit "200")) (some (lit "application/json"))).context lineFeedMembers) ∧
      (AllKeysAsRead lineFeedMembers →
        AllowlistRespected letterPolicy.fieldFilter
          (exchangeState (fun _ => some letterPolicy) (some (lit "/letters?fields=n"))
            (some (lit "200")) (some (lit "application/json"))).context lineFeedMembers) := by
  refine selection_respects_allowlist_iff ?_ rfl ?_ lineFeedBody_text lineFeedBody_kept
  · exact exchangeState_matchedPolicy _ _ (by decide +kernel)
  · decide +kernel

end ByteTaper.ExtProc
