import ByteTaper.ControlPlane.PolicyStateRecord

/-! # Which records survive writing and reading

Reading a written record is described on the list of its members, and the records that come back as
they were written are characterised there. A record is lost where a text holds a control character,
where a required text is empty, where a text is taken for a key, or where the braces in the texts of
a failure do not match. -/

namespace ByteTaper.ControlPlane

open List JsonValue

/-! ## Looking up in members -/

/-- What the readers find in the text of the members. -/
def lookupSeen (members : List JsonMember) : Lookup where
  text key := seenText key members
  u32 key := (seenNumber key members).map (·.toUInt32)
  u64 key := seenNumber key members

/-- Every field is found with its value. -/
def Legible (members : List JsonMember) (fields : Fields) : Prop :=
  ∀ field ∈ fields, (lookupSeen members).Gives field

instance (key : Text) : Decidable (KeyWord key) := inferInstanceAs (Decidable (_ ∧ _))

instance (l : Lookup) (field : Text × FieldValue) : Decidable (l.Gives field) :=
  match field with
  | (_, .text _) => inferInstanceAs (Decidable (_ = _))
  | (_, .u32 _) => inferInstanceAs (Decidable (_ = _))
  | (_, .u64 _) => inferInstanceAs (Decidable (_ = _))

instance (members : List JsonMember) (fields : Fields) : Decidable (Legible members fields) :=
  inferInstanceAs (Decidable (∀ _ ∈ _, _))

variable {members rest : List JsonMember} {tail key : Text} {fields : Fields} {m : JsonMember}
  {r : PolicyUpdateJobRecord}

theorem lookupIn_text (h : DocWf members tail) (hkey : KeyWord key) :
    (lookupIn (docText members tail)).text key = (lookupSeen members).text key :=
  getJsonStringField_docText hkey h

theorem lookupIn_u64 (h : DocWf members tail) (hkey : KeyWord key) :
    (lookupIn (docText members tail)).u64 key = (lookupSeen members).u64 key :=
  getJsonUint64Field_docText hkey h

theorem forall_gives_docText (h : DocWf members tail) (hkeys : ∀ field ∈ fields, KeyWord field.1) :
    (∀ field ∈ fields, (lookupIn (docText members tail)).Gives field) ↔ Legible members fields := by
  refine forall₂_congr ?_
  rintro ⟨key, value⟩ hfield
  have hkey : KeyWord key := hkeys _ hfield
  cases value with
  | text => simp only [Lookup.Gives, lookupIn_text h hkey]
  | u32 =>
    simp [Lookup.Gives, lookupIn, getJsonUint32Field, getJsonUint64Field_docText hkey h, lookupSeen]
  | u64 => simp [Lookup.Gives, lookupIn_u64 h hkey]

/-! ## The texts of records are well formed -/

theorem docWf_append {xs ys : List JsonMember}
    (hxs : ∀ m ∈ xs, m.WellFormed ∧ ∀ v, m.value ≠ .cut v) (hys : DocWf ys tail) :
    DocWf (xs ++ ys) tail := by
  induction xs with
  | nil => exact hys
  | cons m _ ih =>
    obtain ⟨hwf, hcut⟩ := hxs m mem_cons_self
    exact ⟨hwf, fun v hv => absurd hv (hcut v), ih fun n hn => hxs n (mem_cons_of_mem _ hn)⟩

/-- The members of fields hold texts and numbers, between commas, spaces and line ends. -/
theorem objectMembers_spec {opening indent : Text} (hopening : ∀ c ∈ opening, isFiller c)
    (hindent : ∀ c ∈ indent, isFiller c) (hkeys : ∀ field ∈ fields, KeyWord field.1)
    (hm : m ∈ objectMembers opening indent fields) :
    m.WellFormed ∧ (∃ value : FieldValue, m.value = value.json) ∧
      (m.lead = opening ++ indent ∨ m.lead = ',' :: '\n' :: indent) := by
  cases fields with
  | nil => cases hm
  | cons field =>
    obtain ⟨key, value⟩ := field
    simp only [objectMembers, mem_cons, mem_map] at hm
    rcases hm with rfl | ⟨⟨key', value'⟩, hmem, rfl⟩
    · refine ⟨⟨(hkeys _ mem_cons_self).2, ?_⟩, ⟨value, rfl⟩, .inl rfl⟩
      exact forall_mem_append.mpr ⟨hopening, hindent⟩
    · refine ⟨⟨(hkeys _ (mem_cons_of_mem _ hmem)).2, ?_⟩, ⟨value', rfl⟩, .inr rfl⟩
      intro c hc
      simp only [mem_cons] at hc
      rcases hc with rfl | rfl | hc
      · decide
      · decide
      · exact hindent c hc

theorem json_ne_cut (value : FieldValue) (v : Text) : value.json ≠ .cut v := by
  cases value <;> simp [FieldValue.json]

section

variable (hkeys : ∀ field ∈ fields, KeyWord field.1)

include hkeys

theorem recordMembers_spec (hm : m ∈ recordMembers fields) :
    m.WellFormed ∧ ∃ value : FieldValue, m.value = value.json := by
  obtain ⟨hwf, hval, -⟩ := objectMembers_spec (by decide) (by decide) hkeys hm
  exact ⟨hwf, hval⟩

theorem docWf_recordMembers (hrest : DocWf rest tail) :
    DocWf (recordMembers fields ++ rest) tail := by
  refine docWf_append (fun m hm => ?_) hrest
  obtain ⟨hwf, value, hval⟩ := recordMembers_spec hkeys hm
  exact ⟨hwf, fun v => hval ▸ json_ne_cut value v⟩

theorem docWf_record : DocWf (recordMembers fields) recordTail := by
  have htail : DocWf [] recordTail := show ∀ c ∈ recordTail, isFiller c by decide
  have h := docWf_recordMembers hkeys htail
  rwa [append_nil] at h

end

/-! ## Records that are one object -/

theorem checked_eq_ok {α : Type} {incomplete : α → Bool} {o : Option α} {record : α} :
    checked incomplete o = .ok record ↔ o = some record ∧ incomplete record = false := by
  cases o with
  | none => simp [checked]
  | some =>
    simp only [checked]
    split
    next h =>
      simp only [reduceCtorEq, Option.some.injEq, false_iff, not_and]
      rintro rfl
      simp [h]
    next h =>
      simp only [Except.ok.injEq, Option.some.injEq]
      constructor
      · rintro rfl
        exact ⟨rfl, by simpa using h⟩
      · exact fun h => h.1

/-- A record with literal keys: it is enough to look at the keys of one record. -/
theorem keyWords_of_keys (fields' : Fields) (h : fields.map (·.1) = fields'.map (·.1))
    (hkeys : ∀ key ∈ fields'.map (·.1), KeyWord key) : ∀ field ∈ fields, KeyWord field.1 :=
  fun _ hfield => hkeys _ (h ▸ mem_map_of_mem hfield)

theorem ActivePolicyPointer.keyWords (p : ActivePolicyPointer) :
    ∀ field ∈ p.fields, KeyWord field.1 :=
  keyWords_of_keys ({} : ActivePolicyPointer).fields rfl (by decide +kernel)

theorem PolicyVersionRecord.keyWords (r : PolicyVersionRecord) :
    ∀ field ∈ r.fields, KeyWord field.1 :=
  keyWords_of_keys ({} : PolicyVersionRecord).fields rfl (by decide +kernel)

theorem PolicyAuditRecord.keyWords (r : PolicyAuditRecord) :
    ∀ field ∈ r.fields, KeyWord field.1 := by
  have hall : ∀ field ∈ r.baseFields ++ r.operationFields ++ r.eventFields, KeyWord field.1 :=
    keyWords_of_keys ({} : PolicyAuditRecord).fields rfl (by decide +kernel)
  intro field hfield
  apply hall
  unfold PolicyAuditRecord.fields at hfield
  split at hfield <;> split at hfield <;> simp_all <;> tauto

/-! ## The failure of an update job -/

/-- The failure read among the members of a job. The texts of the failure are cut off where their
    braces close the object, and the object is not found if they leave more than one open. -/
def seenFailure (members : List JsonMember) : Option PolicyUpdateJobFailureRecord :=
  match found (lit "failure") members with
  | some ({ value := .null, .. } :: _) => some {}
  | some ({ value := .object, .. } :: rest) =>
    match cutAt 1 rest with
    | some part => readFailure (lookupSeen part) failureKeys
    | none =>
      if depthOf 1 rest ≤ 2 then readFailure (lookupSeen rest) failureKeys
      else readFailure (lookupSeen members) olderFailureKeys
  | _ => readFailure (lookupSeen members) olderFailureKeys

structure FailureKeys.KeyWords (keys : FailureKeys) : Prop where
  stage : KeyWord keys.stage
  code : KeyWord keys.code
  message : KeyWord keys.message
  expectedGeneration : KeyWord keys.expectedGeneration
  actualGeneration : KeyWord keys.actualGeneration

theorem failureKeys_keyWords : failureKeys.KeyWords := by
  constructor <;> decide +kernel

theorem olderFailureKeys_keyWords : olderFailureKeys.KeyWords := by
  constructor <;> decide +kernel

theorem readFailure_docText (h : DocWf members tail) {keys : FailureKeys} (hkeys : keys.KeyWords) :
    readFailure (lookupIn (docText members tail)) keys = readFailure (lookupSeen members) keys := by
  simp [readFailure, lookupIn_text h hkeys.stage, lookupIn_text h hkeys.code,
    lookupIn_text h hkeys.message, lookupIn_u64 h hkeys.expectedGeneration,
    lookupIn_u64 h hkeys.actualGeneration]

/-- The brace before a document is skipped. -/
theorem lookupIn_brace (t : Text) : lookupIn ('\x7b' :: t) = lookupIn t := by
  have hskip : ∀ k, fromColon ('\x7b' :: t) k = fromColon t k := by
    intro k
    unfold fromColon
    rw [quoted, show '\x7b' :: t = ['\x7b'] ++ t from rfl, afterFirst_skip (by decide)]
  ext1 <;> funext k <;>
    simp [lookupIn, getJsonStringField, getJsonUint64Field, getJsonUint32Field, hskip]

theorem noBrace_of_alpha (h : ∀ c ∈ key, c.isAlpha) : NoBrace key :=
  ⟨fun hc => absurd (h _ hc) (by decide), fun hc => absurd (h _ hc) (by decide)⟩

theorem PolicyUpdateJobFailureRecord.keyWords (f : PolicyUpdateJobFailureRecord) :
    ∀ field ∈ f.fields, KeyWord field.1 :=
  keyWords_of_keys ({} : PolicyUpdateJobFailureRecord).fields rfl (by decide +kernel)

theorem PolicyUpdateJobRecord.keyWords (r : PolicyUpdateJobRecord) :
    ∀ field ∈ r.fields, KeyWord field.1 :=
  keyWords_of_keys ({} : PolicyUpdateJobRecord).fields rfl (by decide +kernel)

theorem failureMembers_spec {f} (hm : m ∈ failureMembers f) : m.WellFormed ∧ m.Braceless := by
  obtain ⟨hwf, ⟨value, hval⟩, hlead⟩ := objectMembers_spec (by decide) (by decide) f.keyWords hm
  refine ⟨hwf, ⟨?_, noBrace_of_alpha hwf.key, ?_⟩⟩
  · rcases hlead with hlead | hlead <;> rw [hlead] <;> constructor <;> decide
  · cases value with
    | text v => exact .inl ⟨v, hval⟩
    | u32 n | u64 n => exact .inr ⟨n.toNat, hval⟩

theorem braceless_ne_cut (h : m.Braceless) (v : Text) : m.value ≠ .cut v := by
  rcases h.value with ⟨w, hw⟩ | ⟨n, hn⟩ <;> simp [*]

/-- What is cut off the members of a failure is a document, cut in its last text. -/
theorem docWf_cutAt {part : List JsonMember} {depth : Nat}
    (h : ∀ m ∈ members, m.WellFormed ∧ m.Braceless) (hcut : cutAt depth members = some part) :
    DocWf part [] := by
  induction members generalizing depth part with
  | nil => cases hcut
  | cons m members ih =>
    obtain ⟨hwf, hbrace⟩ := h m mem_cons_self
    have hkeep : ∀ d, (cutAt d members).map (m :: ·) = some part → DocWf part [] := by
      intro d hd
      obtain ⟨part', hpart, rfl⟩ := Option.map_eq_some_iff.mp hd
      exact ⟨hwf, fun v hv => absurd hv (braceless_ne_cut hbrace v),
        ih (fun n hn => h n (mem_cons_of_mem _ hn)) hpart⟩
    simp only [cutAt] at hcut
    split at hcut
    · split at hcut
      · cases hcut
        exact ⟨⟨hwf.key, hwf.lead⟩, fun _ _ => ⟨rfl, rfl⟩, by simp [DocWf]⟩
      · exact hkeep _ hcut
    · exact hkeep _ hcut

theorem docWf_failureMembers (f : PolicyUpdateJobFailureRecord) (htail : ∀ c ∈ tail, isFiller c) :
    DocWf (failureMembers f) tail := by
  have h : DocWf (failureMembers f ++ []) tail := by
    refine docWf_append (fun m hm => ?_) htail
    obtain ⟨hwf, hbrace⟩ := failureMembers_spec hm
    exact ⟨hwf, braceless_ne_cut hbrace⟩
  rwa [append_nil] at h

theorem failureMember_wellFormed (value : JsonValue) : (failureMember value).WellFormed :=
  ⟨show ∀ c ∈ lit "failure", c.isAlpha by simp [lit],
    show ∀ c ∈ [',', '\n', ' ', ' '], isFiller c by decide⟩

theorem docWf_job (r : PolicyUpdateJobRecord) : DocWf r.members r.tail := by
  unfold PolicyUpdateJobRecord.members PolicyUpdateJobRecord.tail
  refine docWf_recordMembers r.keyWords ?_
  split
  · exact ⟨failureMember_wellFormed _, by simp [failureMember], docWf_failureMembers _ (by decide)⟩
  · exact ⟨failureMember_wellFormed _, by simp [failureMember],
      show ∀ c ∈ recordTail, isFiller c by decide⟩

theorem failure_noColon {json : Text} (h : fromColon json (lit "failure") = none) :
    deserializePolicyUpdateJobFailure json = readFailure (lookupIn json) olderFailureKeys := by
  simp [deserializePolicyUpdateJobFailure, jsonFieldIsNull, extractJsonObject, h]

/-- What the two lookups of a failure object find from the colon of a member on. -/
theorem failure_colon {json : Text} (h : fromColon json (lit "failure") =
      some (':' :: ' ' :: m.value.render ++ docText rest tail)) :
    deserializePolicyUpdateJobFailure json = match m.value with
      | .null => some {}
      | .object =>
        match takeObject 1 (docText rest tail) with
        | some t => readFailure (lookupIn t) failureKeys
        | none => readFailure (lookupIn json) olderFailureKeys
      | _ => readFailure (lookupIn json) olderFailureKeys := by
  unfold deserializePolicyUpdateJobFailure jsonFieldIsNull extractJsonObject
  simp only [h, lit_null]
  cases m.value with
  | text | cut => simp [render, isSpace]
  | null => simp [render, isSpace, lit_null]
  | object =>
    cases hobj : takeObject 1 (docText rest tail) with
    | some => simp [render, isSpace, takeObject, hobj, lookupIn_brace]
    | none => simp [render, isSpace, takeObject, hobj]
  | number n =>
    obtain ⟨c, t, ht⟩ := toDigits_cons n
    have hc : c.isDigit := Decimal.digits_toDigits n c (by simp [ht])
    have hne : ∀ d : Char, d.isDigit = false → c ≠ d := by
      rintro d hd rfl
      simp [hc] at hd
    simp [render, ht, isSpace, hne, Ne.symm (hne 'n' (by decide))]

theorem found_suffix {k : Text} (h : found k members = some rest) : rest <:+ members := by
  induction members with
  | nil => cases h
  | cons m members ih =>
    rw [found] at h
    split at h
    · cases h
      exact suffix_rfl
    · split at h
      · cases h
        exact suffix_cons m _
      · exact (ih h).trans (suffix_cons m members)

/-- The member that is an object is the failure. -/
theorem behind_object {xs ys : List JsonMember} {x : JsonMember}
    (hxs : ∀ n ∈ xs, n.value ≠ .object) (hys : ∀ n ∈ ys, n.value ≠ .object)
    (h : m :: rest <:+ xs ++ x :: ys) (hm : m.value = .object) : rest = ys := by
  obtain ⟨before, hsplit⟩ := h
  rcases append_eq_append_iff.mp hsplit with ⟨between, hbef, hx⟩ | ⟨between, hbef, hx⟩
  · cases between with
    | nil => exact (List.cons.inj hx).2
    | cons =>
      obtain ⟨rfl, -⟩ := List.cons.inj hx
      exact absurd hm (hxs _ (by simp [hbef]))
  · cases between with
    | nil => exact (List.cons.inj hx).2.symm
    | cons =>
      obtain ⟨-, hrest⟩ := List.cons.inj hx
      exact absurd hm (hys _ (by simp [hrest]))

theorem found_object {k : Text} (h : found k r.members = some (m :: rest))
    (hm : m.value = .object) :
    rest = failureMembers r.failure ∧ r.tail = failureTail ++ recordTail := by
  have hflds : ∀ n ∈ recordMembers r.fields, n.value ≠ .object := by
    intro n hn
    obtain ⟨-, value, hval⟩ := recordMembers_spec r.keyWords hn
    cases value <;> simp [hval, FieldValue.json]
  have hfailure : ∀ n ∈ failureMembers r.failure, n.value ≠ .object := by
    intro n hn
    rcases (failureMembers_spec hn).2.value with ⟨v, hv⟩ | ⟨v, hv⟩ <;> simp [hv]
  have hsuffix := found_suffix h
  unfold PolicyUpdateJobRecord.members PolicyUpdateJobRecord.tail at *
  split at hsuffix
  next hdetails => exact ⟨behind_object hflds hfailure hsuffix hm, if_pos hdetails⟩
  -- without details no member is an object
  have hmem := hsuffix.mem mem_cons_self
  rcases mem_append.mp hmem with hmem | hmem
  · exact absurd hm (hflds m hmem)
  · rw [mem_singleton.mp hmem] at hm
    cases hm

/-- The brace that closes a failure is its own, or that of the record, if one is left open. -/
theorem takeObject_failureTail (depth : Nat) : takeObject depth (failureTail ++ recordTail) =
      if depth ≤ 1 then some failureTail
      else if depth ≤ 2 then some (failureTail ++ ['\n', '\x7d']) else none := by
  by_cases h₁ : depth ≤ 1
  · simp [failureTail, takeObject, h₁]
  · by_cases h₂ : depth ≤ 2
    · have hone : depth - 1 ≤ 1 := by omega
      simp [failureTail, recordTail, takeObject, h₁, h₂, hone]
    · have hone : ¬ depth - 1 ≤ 1 := by omega
      simp [failureTail, recordTail, takeObject, h₁, h₂, hone]

theorem deserializeFailure_job (r : PolicyUpdateJobRecord) :
    deserializePolicyUpdateJobFailure (serializePolicyUpdateJobRecord r) =
      seenFailure r.members := by
  have hwf := docWf_job r
  have hcolon : fromColon (serializePolicyUpdateJobRecord r) (lit "failure") = _ :=
    fromColon_docText (by decide +kernel) hwf
  have holder : readFailure (lookupIn (serializePolicyUpdateJobRecord r)) olderFailureKeys = _ :=
    readFailure_docText hwf olderFailureKeys_keyWords
  unfold seenFailure
  cases hfound : found (lit "failure") r.members with
  | none => exact (failure_noColon (by rw [hcolon, hfound]; rfl)).trans holder
  | some behind =>
    cases behind with
    | nil => exact (failure_noColon (by rw [hcolon, hfound]; rfl)).trans holder
    | cons m =>
      rw [hfound] at hcolon
      rw [failure_colon hcolon, holder]
      obtain ⟨lead, key, value⟩ := m
      cases value with
      | text => rfl
      | number => rfl
      | null => rfl
      | cut => rfl
      | object =>
        obtain ⟨rfl, htail⟩ := found_object hfound rfl
        have hspec := fun n (hn : n ∈ failureMembers r.failure) => failureMembers_spec hn
        simp only [takeObject_docText fun n hn => (hspec n hn).2]
        cases hcut : cutAt 1 (failureMembers r.failure) with
        | some => exact readFailure_docText (docWf_cutAt hspec hcut) failureKeys_keyWords
        | none =>
          have hread : ∀ t, (∀ c ∈ t, isFiller c) →
              readFailure (lookupIn (docText (failureMembers r.failure) t)) failureKeys =
                readFailure (lookupSeen (failureMembers r.failure)) failureKeys :=
            fun t ht => readFailure_docText (docWf_failureMembers _ ht) failureKeys_keyWords
          simp only [htail, takeObject_failureTail]
          split_ifs with h₁ h₂ h₂
          · exact hread _ (by decide)
          · omega
          · exact hread _ (by decide)
          · rfl

/-! ## All records -/

/-- A record comes back in every field that is written exactly if each of its fields is found with
    its value and the texts that are asked for are there; for a job, its failure has to be found as
    well, within the braces that its texts leave. -/
theorem records_roundTrip_iff (p : ActivePolicyPointer) (v : PolicyVersionRecord)
    (a : PolicyAuditRecord) (j : PolicyUpdateJobRecord) :
    (p.generation ≠ 0 →
      (deserializeActivePointer (serializeActivePointer p) = .ok p ↔
        Legible (recordMembers p.fields) p.fields ∧ p.recordType ≠ [] ∧ p.policyId ≠ [])) ∧
    (v.generation ≠ 0 →
      (deserializeVersionRecord (serializeVersionRecord v) = .ok v ↔
        Legible (recordMembers v.fields) v.fields ∧ v.recordType ≠ [] ∧ v.policyId ≠ [])) ∧
    (deserializeAuditRecord (serializeAuditRecord a) = .ok a.written ↔
      Legible (recordMembers a.fields) a.fields ∧ a.recordType ≠ [] ∧ a.applyId ≠ []) ∧
    (deserializePolicyUpdateJobRecord (serializePolicyUpdateJobRecord j) = .ok j ↔
      Legible j.members j.fields ∧ seenFailure j.members = some j.failure ∧
        j.recordType ≠ [] ∧ j.jobId ≠ []) := by
  refine ⟨?_, ?_, ?_, ?_⟩
  · intro hgen
    rw [deserializeActivePointer, serializeActivePointer, checked_eq_ok,
      readActivePointer_eq_some, forall_gives_docText (docWf_record p.keyWords) p.keyWords]
    simp [hgen]
  · intro hgen
    rw [deserializeVersionRecord, serializeVersionRecord, checked_eq_ok,
      readVersionRecord_eq_some, forall_gives_docText (docWf_record v.keyWords) v.keyWords]
    simp [hgen]
  · rw [deserializeAuditRecord, serializeAuditRecord, checked_eq_ok, readAuditRecord_eq_some,
      forall_gives_docText (docWf_record a.keyWords) a.keyWords]
    change _ ∧ (decide (a.recordType = []) || decide (a.applyId = [])) = false ↔ _
    simp
  · rw [deserializePolicyUpdateJobRecord, deserializeFailure_job, checked_eq_ok,
      readPolicyUpdateJobRecord_eq_some, serializePolicyUpdateJobRecord,
      forall_gives_docText (docWf_job j) j.keyWords]
    simp [and_assoc]

theorem records_roundTrip_plainPointer :
    let p : ActivePolicyPointer := { generation := 1, policyId := lit "orders" }
    p.generation ≠ 0 ∧ deserializeActivePointer (serializeActivePointer p) = .ok p :=
  ⟨by decide, ((records_roundTrip_iff _ {} {} {}).1 (by decide)).mpr (by decide +kernel)⟩

/-- A policy whose id is the word `kind`. -/
def kindPointer : ActivePolicyPointer where
  resourceKey := lit "default"
  generation := 1
  policyId := lit "kind"
  canonicalHash := lit "ab12"
  schemaVersion := 1
  apiVersion := lit "v1"
  kind := lit "BytetaperPolicy"

/-- The id is taken for the key `kind`, and the hash behind it read as the kind. -/
theorem kindPointer_lost :
    kindPointer.generation ≠ 0 ∧
      deserializeActivePointer (serializeActivePointer kindPointer) =
        .ok { kindPointer with kind := lit "ab12" } ∧
      deserializeActivePointer (serializeActivePointer kindPointer) ≠ .ok kindPointer := by
  decide +kernel

end ByteTaper.ControlPlane
