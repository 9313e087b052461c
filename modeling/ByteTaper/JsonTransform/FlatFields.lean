import ByteTaper.JsonTransform.Projection

/-! # Flat objects and their fields

What `parse_flat_json_object` finds in the text of an object. If all values are scalars it reads the
first `kMaxFields` members; otherwise it stops at the first value that is not one. -/

namespace ByteTaper.JsonTransform

open Json Policy List

/-- All values are scalars. -/
def isFlat : Members → Bool
  | .nil => true
  | .cons _ (.scalar _) rest => isFlat rest
  | .cons _ _ _ => false

/-- The fields in front of the first value that is not a scalar. -/
def flatFields : Members → List FlatJsonFieldView
  | .cons key (.scalar x) rest => { key := seenKey key, value := x.text } :: flatFields rest
  | _ => []

/-- Scalars are read by the same tokens as elsewhere. -/
theorem consume_eq_parseValueToken {c : Char} (hobj : c ≠ '\x7b') (harray : c ≠ '[')
    (fuel : Nat) (t : Text) :
    consumeJsonValueAny (fuel + 1) (c :: t) = match parseValueToken (c :: t) with
      | .ok rest => some (rest, 0)
      | .error _ => none := by
  have htoken : ∀ token : Option Text, (token.map fun r => (r, 0)) = match validToken token with
      | .ok rest => some (rest, 0)
      | .error _ => none := by
    intro token
    cases token <;> rfl
  simp only [consumeJsonValueAny, parseValueToken, hobj, harray, if_false, decide_false,
    Bool.or_self, Bool.false_eq_true]
  split_ifs
  · rw [← htoken, Option.map_map]
    rfl
  · exact htoken _
  · exact htoken _
  · exact htoken _
  · exact htoken _
  · rfl

theorem parseValueToken_scalar (x : Scalar) {r : Text} (hr : Follow r) :
    parseValueToken (x.text ++ r) = .ok r := by
  have hcons := consume_scalar x hr 0
  obtain ⟨c, t, htext, hc⟩ := x.head
  have hobj : c ≠ '\x7b' := by
    rintro rfl
    exact absurd hc (by decide)
  have harray : c ≠ '[' := by
    rintro rfl
    exact absurd hc (by decide)
  rw [htext, cons_append, consume_eq_parseValueToken hobj harray] at hcons
  rw [htext, cons_append]
  cases hparse : parseValueToken (c :: (t ++ r)) with
  | error => simp [hparse] at hcons
  | ok =>
    rw [hparse] at hcons
    simpa using hcons

/-- The loop reads scalars up to the end, or up to the first value that is not one. -/
theorem parseFlatMembers_spec : ∀ (members : Members) {u r : Text} {fuel : Nat}
    {fields}, members.Spells u → members.isEmpty = false →
    u.length < fuel →
    parseFlatMembers fuel fields (u ++ '\x7d' :: r) =
      (if isFlat members then parseEnd r else .skipUnsupported,
        (flatFields members).foldl addField fields)
  | .cons key v rest, u, r, fuel + 1, fields, h, _, hfuel => by
      cases h with | @cons _ _ _ b b' s a sep u hb hb' hv ha hsep hrest =>
      simp only [length_append, length_cons, Key.text] at hfuel
      simp only [append_assoc, cons_append, parseFlatMembers, parseJsonStringToken_key,
        skipColon_append hb hb' (hv.solid _)]
      have hfollow : Follow (a ++ (sep ++ (u ++ '\x7d' :: r))) :=
        .blank ha (hsep.follow hrest.eq_nil (by decide))
      cases v with
      | array =>
        cases hv
        rfl
      | object =>
        cases hv
        rfl
      | scalar x =>
        cases hv
        simp only [parseValueToken_scalar x hfollow, slice_append]
        rcases skip_separator ha hsep hrest.eq_nil (by decide) (hrest.solid r) with
          ⟨hlast, hskip⟩ | ⟨hlast, t, hskip, hnext⟩
        · rw [hskip]
          cases rest with
          | nil => rfl
          | cons => cases hlast
        · rw [hskip]
          simp only [hnext]
          rw [parseFlatMembers_spec rest hrest hlast (by omega)]
          rfl

theorem foldl_addField (new fields : List FlatJsonFieldView) (h : fields.length ≤ kMaxFields) :
    new.foldl addField fields = fields ++ new.take (kMaxFields - fields.length) := by
  induction new generalizing fields with
  | nil => simp
  | cons field _ ih =>
    by_cases hroom : fields.length < kMaxFields
    · have hadd : addField fields field = fields ++ [field] := if_pos hroom
      have hlen : (fields ++ [field]).length ≤ kMaxFields := by
        simpa using Nat.succ_le_of_lt hroom
      obtain ⟨n, hn⟩ : ∃ n, kMaxFields - fields.length = n + 1 :=
        ⟨kMaxFields - fields.length - 1, by omega⟩
      have hn' : kMaxFields - (fields ++ [field]).length = n := by
        simp only [length_append, length_singleton]
        omega
      rw [foldl_cons, hadd, ih _ hlen, hn, hn', take_succ_cons]
      simp
    · have hadd : addField fields field = fields := if_neg hroom
      have hn : kMaxFields - fields.length = 0 := by omega
      rw [foldl_cons, hadd, ih _ h, hn]
      rfl

variable {members : Members} {filter : FieldFilterPolicy} {entries : List (Key × Scalar)}

theorem parseFlatJsonObject_spec {body : Text} (h : ObjectText members body) :
    parseFlatJsonObject body .eligibleJson = (if isFlat members then .ok else .skipUnsupported,
        { hasSource := true, fields := (flatFields members).take kMaxFields }) := by
  obtain ⟨b, u, e, hb, he, hu, hbody⟩ := skipWhitespace_objectText h
  have hend : parseEnd e = .ok := by simp [parseEnd, skipWhitespace_of_blank he]
  rw [parseFlatJsonObject, if_neg (by simp)]
  simp only [cString_of_objectText h, hbody, skipWhitespace_blank hb (hu.solid e)]
  cases members with
  | nil =>
    cases hu
    simp [hend, isFlat, flatFields]
  | cons =>
    have hparse : ∀ fuel, u.length < fuel →
        parseFlatMembers fuel [] (u ++ '\x7d' :: e) = _ := fun fuel hfuel =>
      parseFlatMembers_spec _ hu rfl hfuel
    have hhead : ∃ t, u ++ '\x7d' :: e = '"' :: t := by
      cases hu
      exact ⟨_, rfl⟩
    obtain ⟨t, ht⟩ := hhead
    have hres := hparse (('"' :: t).length + 1) (by rw [← ht, length_append]; omega)
    rw [ht] at hres ⊢
    change ((parseFlatMembers (('"' :: t).length + 1) [] ('"' :: t)).1,
      ParsedFlatJsonObject.mk true (parseFlatMembers (('"' :: t).length + 1) [] ('"' :: t)).2) = _
    rw [hres, foldl_addField _ _ (by simp), hend]
    rfl

/-! ## What the flat filter writes -/

theorem flatFields_value : ∀ field ∈ flatFields members, ∃ x : Scalar, field.value = x.text := by
  fun_induction flatFields members with
  | case1 _ x _ ih =>
    intro field hfield
    rcases mem_cons.mp hfield with rfl | hfield
    · exact ⟨x, rfl⟩
    · exact ih field hfield
  | case2 => simp

/-- The field that a key and a scalar are written as. -/
def fieldOf (entry : Key × Scalar) : FlatJsonFieldView where
  key := Key.inner entry.1
  value := entry.2.text

theorem exists_entries {fields}
    (h : ∀ field ∈ fields, Quotable field.key ∧ ∃ x : Scalar, field.value = x.text) :
    ∃ entries : List (Key × Scalar), fields = entries.map fieldOf := by
  induction fields with
  | nil => exact ⟨[], rfl⟩
  | cons field _ ih =>
    obtain ⟨⟨key, hkey⟩, x, hx⟩ := h field (by simp)
    obtain ⟨entries, rfl⟩ := ih fun field hfield => h field (by simp [hfield])
    refine ⟨(key, x) :: entries, ?_⟩
    obtain ⟨key', value⟩ := field
    simp only at hkey hx
    rw [map_cons, fieldOf, hkey, hx]

/-- The fields that the flat filter keeps. -/
def keptFields (filter : FieldFilterPolicy) (members : Members) : List FlatJsonFieldView :=
  ((flatFields members).take kMaxFields).filter fun field => applyFieldFilter filter field.key

/-- The flat filter writes the kept fields, if they are those of some entries. -/
theorem filterFlat_entries (outputCapacity : Nat)
    (hents : keptFields filter members = entries.map fieldOf) :
    ∃ (s : Text) (n : Nat), (Value.object (flatMembers entries)).Spells s ∧
      filterFlatJsonByPolicyDenylist
          { hasSource := true, fields := (flatFields members).take kMaxFields } filter
          outputCapacity =
        fitCapacity outputCapacity ⟨s, n⟩ := by
  refine ⟨_, ((flatFields members).take kMaxFields).length - entries.length,
    .object blank_nil (flatMembers_spells entries), ?_⟩
  have htext : entries.map (fun entry => Key.text entry.1 ++ ':' :: entry.2.text) =
      (keptFields filter members).map flatField := by
    rw [hents, map_map]
    refine map_congr_left fun entry _ => ?_
    simp [Key.text, flatField, fieldOf]
  have hlen : (keptFields filter members).length = entries.length := by
    rw [hents, length_map]
  rw [filterFlatJsonByPolicyDenylist, if_neg (by simp), htext, ← hlen]
  rfl

theorem keptFields_entries (hquotable : ∀ field ∈ keptFields filter members, Quotable field.key) :
    ∃ entries : List (Key × Scalar), keptFields filter members = entries.map fieldOf := by
  refine exists_entries fun field hfield => ⟨hquotable field hfield, ?_⟩
  exact flatFields_value field (mem_of_mem_take (mem_of_mem_filter hfield))

theorem flatMembers_hasMember {p : List Step} :
    (flatMembers entries).HasMember p ↔ ∃ entry ∈ entries, p = [.key entry.1] := by
  induction entries with
  | nil => simp [flatMembers, Members.HasMember]
  | cons _ _ ih => simp [flatMembers, Members.HasMember, Value.HasMember, ih]

end ByteTaper.JsonTransform
