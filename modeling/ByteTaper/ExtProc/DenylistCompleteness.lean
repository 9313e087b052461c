import ByteTaper.ExtProc.AllowlistLaw
import ByteTaper.Library.JsonWithin

/-! # What a denylist leaves

A denylist is documented to keep all fields but the listed ones. So everything that neither is listed
nor lies below something listed should be within the filtered body, empty containers included. The
filters keep leaves: a value stays if one of its leaves does (`DenylistComplete`). An empty object or
array that is entered is no leaf to them, keys are tested as they are read, and of a flat body only the
first `kMaxFields` fields are. -/

namespace ByteTaper.ExtProc

open JsonTransform Json Policy List

variable (filter : FieldFilterPolicy) (members : Members)

/-- What a denylist has to leave of an object. -/
def undenied : Members :=
  members.without fun p => decide (Listed filter p)

/-- The fields of a flat body that are not listed are among those that are read, are kept, and have
    keys that come out as they came in. -/
def FlatKept : Prop :=
  (∀ entry ∈ seenEntries members, ¬ Listed filter [.key entry.1] →
      applyFieldFilter filter (seenKey entry.1) = true ∧ seenKey entry.1 = Key.inner entry.1) ∧
    ∀ entry ∈ (flatEntries members).drop kMaxFields, Listed filter [.key entry.1]

/-- The kept keys of a flat body can be put between quotes again. -/
def KeptKeysQuotable : Prop :=
  ∀ entry ∈ seenEntries members, applyFieldFilter filter (seenKey entry.1) = true →
    Quotable (seenKey entry.1)

/-- Of every value of a nested body that is not listed, nor below something listed, the filter keeps a
    leaf. -/
def NestedComplete : Prop :=
  Spared members.Occurs (fun p => decide (Listed filter p)) ((policyRules filter).keepsMember [])

def DenylistComplete : Prop :=
  if isFlat members then FlatKept filter members ∧ KeptKeysQuotable filter members
  else NestedComplete filter members

/-- The kept keys of a flat body can be put between quotes again, and those that should have been
    denied are what they were. -/
def KeptKeysReadable : Prop :=
  isFlat members = true → KeptKeysQuotable filter members ∧
    ∀ entry ∈ seenEntries members, applyFieldFilter filter (seenKey entry.1) = true →
      Listed filter [.key entry.1] → seenKey entry.1 = Key.inner entry.1

variable {filter members} in
theorem KeysAsRead.keptKeysReadable (h : KeysAsRead filter members) :
    KeptKeysReadable filter members := by
  intro hflat
  exact ⟨fun entry hseen hkept => ⟨entry.1, (h hflat entry hseen hkept).1.symm⟩,
    fun entry hseen hkept _ => (h hflat entry hseen hkept).1⟩

/-! ## Flat bodies -/

theorem fieldOf_injective : Function.Injective fieldOf := by
  intro entry entry' h
  obtain ⟨hkey, hval⟩ := FlatJsonFieldView.mk.inj h
  have htext : entry.2.text ++ [] = entry'.2.text ++ [] := by rw [hval]
  exact Prod.ext (Key.inner_inj hkey) (Scalar.text_append_inj .nil .nil htext).1

/-- The field that is read for an entry. -/
def seenField (entry : Key × Scalar) : FlatJsonFieldView where
  key := seenKey entry.1
  value := entry.2.text

theorem keptFields_seenField (filter : FieldFilterPolicy) (members : Members) :
    keptFields filter members = ((seenEntries members).filter fun entry =>
        applyFieldFilter filter (seenKey entry.1)).map seenField := by
  rw [keptFields, flatFields_eq, ← map_take, filter_map]
  rfl

section

variable {keep named : Key × Scalar → Bool}

/-- What is written without a name comes from what was read without one, if what was read under a name
    is written under it. -/
theorem unnamed_sublist {kept entries : List (Key × Scalar)}
    (hents : kept.map seenField = entries.map fieldOf)
    (hnamed : ∀ entry ∈ kept, named entry → seenField entry = fieldOf entry) :
    ((entries.filter fun entry => !named entry).map fieldOf).Sublist
      ((kept.filter fun entry => !named entry).map seenField) := by
  induction kept generalizing entries with
  | nil =>
    obtain rfl : entries = [] := by simpa using hents.symm
    exact .slnil
  | cons entry _ ih =>
    cases entries with
    | nil => cases hents
    | cons entry' =>
      obtain ⟨hent, hents⟩ := List.cons.inj hents
      have hrest := ih hents fun entry hmem => hnamed entry (mem_cons_of_mem _ hmem)
      cases hname : named entry with
      | true =>
        have hself := hnamed entry mem_cons_self hname
        obtain rfl : entry = entry' := fieldOf_injective (hself.symm.trans hent)
        simpa [filter_cons, hname] using hrest
      | false =>
        cases hname' : named entry' with
        | true => simpa [filter_cons, hname, hname'] using hrest.cons _
        | false =>
          simpa [filter_cons, hname, hname', hent] using hrest

variable {all entries : List (Key × Scalar)} {n : Nat}
  (hents : ((all.take n).filter keep).map seenField = entries.map fieldOf)

include hents

/-- The entries without a name are written as they are, if they are read and kept so. -/
theorem unnamed_written
    (htake : ∀ entry ∈ all.take n, named entry = false → keep entry ∧ seenField entry = fieldOf entry)
    (hdrop : ∀ entry ∈ all.drop n, named entry) :
    (all.filter fun entry => !named entry).Sublist entries := by
  have hsame : ((all.take n).filter fun entry => !named entry && keep entry) =
      all.filter fun entry => !named entry := by
    refine (filter_take_eq_filter_iff fun _ _ hent => (Bool.and_eq_true_iff.mp hent).1).mpr
      ⟨fun entry hent => ?_, fun entry hent => by simp [hdrop entry hent]⟩
    cases hname : named entry with
    | true => rfl
    | false => simp [(htake entry hent hname).1]
  have hflds : ((all.filter fun entry => !named entry).map fieldOf).Sublist
      (entries.map fieldOf) := by
    have hmap : ((all.take n).filter fun entry => !named entry && keep entry).map fieldOf =
        (((all.take n).filter keep).filter fun entry => !named entry).map seenField := by
      rw [filter_filter]
      refine map_congr_left fun entry hent => ?_
      obtain ⟨hmem, hkept⟩ := mem_filter.mp hent
      exact (htake entry hmem (by simp_all)).2.symm
    rw [← hents, ← hsame, hmap]
    exact filter_sublist.map _
  obtain ⟨written, hwr, heq⟩ := sublist_map_iff.mp hflds
  rwa [map_injective_iff.mpr fieldOf_injective heq]

theorem unnamed_read
    (hnamed : ∀ entry ∈ all.take n, keep entry → named entry → seenField entry = fieldOf entry)
    (h : (all.filter fun entry => !named entry).Sublist entries) :
    (∀ entry ∈ all.take n, named entry = false → keep entry ∧ seenField entry = fieldOf entry) ∧
      ∀ entry ∈ all.drop n, named entry := by
  have hunn : (((all.take n).filter keep).filter fun entry => !named entry) =
      (all.take n).filter fun entry => !named entry && keep entry := by
    rw [filter_filter]
  have hle : ((all.take n).filter fun entry => !named entry && keep entry).Sublist
      (all.filter fun entry => !named entry) := by
    rw [← hunn]
    exact (filter_sublist.trans (take_sublist _ _)).filter _
  -- As many entries are written as were read, so the inclusions are equalities.
  have hwr := (h.filter fun entry => !named entry).map fieldOf
  rw [filter_filter] at hwr
  simp only [Bool.and_self] at hwr
  have hread := hwr.trans (unnamed_sublist hents fun entry hent =>
    hnamed entry (mem_of_mem_filter hent) (of_mem_filter hent))
  rw [hunn] at hread
  have hsame := hle.eq_of_length_le (by simpa using hread.length_le)
  rw [hsame] at hread
  have hflds := map_inj_left.mp (hread.eq_of_length (by simp))
  obtain ⟨htake, hdrop⟩ :=
    (filter_take_eq_filter_iff fun _ _ hent => (Bool.and_eq_true_iff.mp hent).1).mp hsame
  refine ⟨fun entry hent hname => ⟨?_, ?_⟩, fun entry hent => by simpa using hdrop entry hent⟩
  · simpa [hname] using htake entry hent
  · refine (hflds entry (mem_filter.mpr ⟨mem_of_mem_take hent, ?_⟩)).symm
    simp [hname]

end

section

variable {filter : FieldFilterPolicy} {members : Members} {entries : List (Key × Scalar)}
  (hflat : isFlat members) (hents : keptFields filter members = entries.map fieldOf)

include hflat hents

theorem flatKept_iff :
    (FlatKept filter members → (undenied filter members).Within (flatMembers entries)) ∧
      (KeptKeysReadable filter members →
        (undenied filter members).Within (flatMembers entries) → FlatKept filter members) := by
  have hfield : ∀ entry : Key × Scalar,
      seenField entry = fieldOf entry ↔ seenKey entry.1 = Key.inner entry.1 := by
    simp [seenField, fieldOf]
  have hmems : undenied filter members = flatMembers ((flatEntries members).filter fun entry =>
      !decide (Listed filter [.key entry.1])) := by
    have hwithout := flatMembers_without (flatEntries members) fun p => decide (Listed filter p)
    rwa [flatMembers_flatEntries hflat] at hwithout
  rw [keptFields_seenField] at hents
  rw [hmems, flatMembers_within_iff]
  constructor
  · rintro ⟨htake, hdrop⟩
    refine unnamed_written hents (fun entry hent hname => ?_) fun entry hent => ?_
    · rw [hfield]
      exact htake entry hent (of_decide_eq_false hname)
    · exact decide_eq_true (hdrop entry hent)
  · intro hkeys hwithin
    have hread := unnamed_read hents (fun entry hent hkept hlisted => (hfield entry).mpr
      ((hkeys hflat).2 entry hent hkept (of_decide_eq_true hlisted))) hwithin
    simpa [hfield, FlatKept, seenEntries] using hread

end

/-! ## Bodies -/

theorem within_objectText_iff {members members' : Members} {body : Text}
    (h : ObjectText members' body) :
    (∃ members'', ObjectText members'' body ∧ members.Within members'') ↔
      members.Within members' := by
  simp [objectText_iff h]

/-- What a denylist leaves: without a client selection, the response-body phase on a route with a
    denylist returns the text of an object that still has everything outside the list, with the same
    scalars in the same order, if the filter keeps a leaf of each value outside the list; and only
    then, if the kept keys of a flat body are readable. -/
theorem denylist_complete_iff {matchRoute : MatchRoute}
    {path status contentType : Option Text} {endOfStream : Bool} {inputBody body : Text}
    {members : Members} {policy : RoutePolicy}
    (hroute : (exchangeState matchRoute path status contentType).matchedPolicy = some policy)
    (hmode : policy.fieldFilter.mode = .denylist)
    (hquery : (exchangeState matchRoute path status contentType).context.clientQueryPresent = false)
    (hinput : ObjectText members inputBody)
    (hbody : exchangeFilteredBody matchRoute path status contentType endOfStream inputBody =
      some body) :
    let complete := ∃ members', ObjectText members' body ∧
      (undenied policy.fieldFilter members).Within members'
    (DenylistComplete policy.fieldFilter members → complete) ∧
      (KeptKeysReadable policy.fieldFilter members → complete →
        DenylistComplete policy.fieldFilter members) := by
  intro complete
  obtain ⟨hflds, hprojected⟩ := exchange_filtered hroute hbody (.inr hmode) hquery hinput
  unfold DenylistComplete
  cases hflat : isFlat members with
  | true =>
    have hwritten : KeptKeysQuotable policy.fieldFilter members → ∃ entries,
        keptFields policy.fieldFilter members = entries.map fieldOf ∧
          (complete ↔ (undenied policy.fieldFilter members).Within (flatMembers entries)) := by
      intro hquotable
      obtain ⟨entries, hents⟩ := keptFields_entries fun field hfield => by
        rw [keptFields_seenField] at hfield
        obtain ⟨entry, hent, rfl⟩ := mem_map.mp hfield
        obtain ⟨hseen, hkept⟩ := mem_filter.mp hent
        exact hquotable entry hseen hkept
      exact ⟨entries, hents, within_objectText_iff (hflds hflat entries hents)⟩
    rw [if_pos rfl]
    constructor
    · rintro ⟨hkept, hquotable⟩
      obtain ⟨entries, hents, hcomplete⟩ := hwritten hquotable
      exact hcomplete.mpr ((flatKept_iff hflat hents).1 hkept)
    · intro hkeys h
      obtain ⟨entries, hents, hcomplete⟩ := hwritten (hkeys hflat).1
      exact ⟨(flatKept_iff hflat hents).2 hkeys (hcomplete.mp h), (hkeys hflat).1⟩
  | false =>
    obtain ⟨members', hproj, htext⟩ := hprojected hflat
    have hcomplete : complete ↔ NestedComplete policy.fieldFilter members := by
      refine (within_objectText_iff htext).trans ?_
      rw [projectMembers_keepOnly _ (policyRules_noEmptyArrays _) members hproj]
      exact Members.within_keepOnly_iff _ _ _
    rw [if_neg (by simp)]
    exact ⟨hcomplete.mpr, fun _ => hcomplete.mp⟩

/-- A body with an empty list and nothing that `secretPolicy` denies. -/
def taggedMembers : Members :=
  .cons (Key.ofText (lit "tags")) (.array .nil)
    (flatMembers [(Key.ofText (lit "id"), .string (Key.ofText (lit "7")))])

def taggedBody : Text := lit "\x7b\"tags\":[],\"id\":\"7\"\x7d"

theorem taggedBody_text : ObjectText taggedMembers taggedBody :=
  ObjectText.of_compact (by decide +kernel)

theorem taggedBody_filtered :
    exchangeFilteredBody (fun _ => some secretPolicy) (some (lit "/users")) (some (lit "200"))
      (some (lit "application/json")) true taggedBody = some (lit "\x7b\"id\":\"7\"\x7d") := by
  decide +kernel

/-- The empty list is gone from the filtered body. -/
theorem empty_array_is_dropped :
    ObjectText taggedMembers taggedBody ∧
      exchangeFilteredBody (fun _ => some secretPolicy) (some (lit "/users")) (some (lit "200"))
        (some (lit "application/json")) true taggedBody =
          some (lit "\x7b\"id\":\"7\"\x7d") ∧
      undenied secretPolicy.fieldFilter taggedMembers = taggedMembers ∧
      ¬ ∃ members', ObjectText members' (lit "\x7b\"id\":\"7\"\x7d") ∧
        (undenied secretPolicy.fieldFilter taggedMembers).Within members' := by
  have hall : undenied secretPolicy.fieldFilter taggedMembers = taggedMembers := by
    have htags : decide (Listed secretPolicy.fieldFilter [.key (Key.ofText (lit "tags"))]) = false := by
      decide +kernel
    have hid : decide (Listed secretPolicy.fieldFilter [.key (Key.ofText (lit "id"))]) = false := by
      decide +kernel
    simp [undenied, taggedMembers, Members.without, Value.without, Items.without,
      flatMembers_without, htags, hid]
  refine ⟨taggedBody_text, taggedBody_filtered, hall, ?_⟩
  rw [hall]
  have htext : ObjectText (flatMembers [(Key.ofText (lit "id"), .string (Key.ofText (lit "7")))])
      (lit "\x7b\"id\":\"7\"\x7d") := ObjectText.of_compact (by decide +kernel)
  rw [within_objectText_iff htext]
  intro hwithin
  exact absurd hwithin.length_le (by decide)

def idMembers : Members :=
  flatMembers [(Key.ofText (lit "id"), .string (Key.ofText (lit "7")))]

theorem idBody_complete : ∃ members', ObjectText members' (lit "\x7b\"id\":\"7\"\x7d") ∧
    (undenied secretPolicy.fieldFilter idMembers).Within members' := by
  have htext : ObjectText idMembers (lit "\x7b\"id\":\"7\"\x7d") :=
    ObjectText.of_compact (by decide +kernel)
  have hbody : exchangeFilteredBody (fun _ => some secretPolicy) (some (lit "/users"))
      (some (lit "200")) (some (lit "application/json")) true (lit "\x7b\"id\":\"7\"\x7d") =
      some (lit "\x7b\"id\":\"7\"\x7d") := by decide +kernel
  refine (denylist_complete_iff ?_ rfl ?_ htext hbody).1 ?_
  · exact exchangeState_matchedPolicy _ _ (by decide +kernel)
  · decide +kernel
  · refine ⟨⟨by decide +kernel, by decide +kernel⟩, fun entry hent _ => ⟨entry.1, ?_⟩⟩
    revert entry
    decide +kernel

end ByteTaper.ExtProc
