import ByteTaper.Cache.CacheKey

/-! # What a sanitized query tells apart

`sanitize_query_strip_fields_param` writes the parameters that it keeps, and so its output fixes their
sequence. There is one exception: it takes a question mark at the front of the query off before it looks
at the first parameter, so that a parameter `?fields=...` is dropped, and a `?` alone. -/

namespace ByteTaper.Cache

open List Separated

/-- The first parameter of a query. -/
def firstParam (query : Text) : Text := query.takeWhile (· != '&')

/-- The first parameter has a question mark in front, and what is behind it is dropped. -/
def leadDropped (query : Text) : Bool :=
  match firstParam query with
  | '?' :: param => (lit "fields=").isPrefixOf param || param.isEmpty
  | _ => false

/-- Either both queries begin with the same parameter, or neither begins with one that is dropped. -/
def LeadingAlike (query query' : Text) : Prop :=
  leadDropped query = true ∨ leadDropped query' = true → firstParam query = firstParam query'

/-- A parameter of a query that the sanitized one keeps. -/
def keepsParam (param : Text) : Bool := !(lit "fields=").isPrefixOf param && !param.isEmpty

theorem keptParams_eq (query : Text) : keptParams query = (query.splitOn '&').filter keepsParam := rfl

variable {query : Text} {outSize : Nat}

theorem keptParams_clean {param : Text} (h : param ∈ keptParams query) :
    param ≠ [] ∧ '&' ∉ param := by
  obtain ⟨hseg, hkeeps⟩ := mem_filter.mp h
  refine ⟨?_, not_mem_of_mem_splitOn hseg⟩
  rintro rfl
  simp at hkeeps

/-- A query is its first parameter and the rest. -/
theorem splitOn_eq_firstParam (query : Text) :
    ∃ rest, query.splitOn '&' = firstParam query :: rest := by
  induction query with
  | nil => exact ⟨[], rfl⟩
  | cons c _ ih =>
    obtain ⟨rest, hrest⟩ := ih
    rw [splitOn_cons_eq_if_modifyHead, hrest]
    by_cases hc : c = '&'
    · subst hc
      exact ⟨_, rfl⟩
    · refine ⟨rest, ?_⟩
      simp [hc, firstParam]

theorem firstParam_question (query : Text) : firstParam ('?' :: query) = '?' :: firstParam query := by
  simp [firstParam]

theorem leadDropped_question (query : Text) :
    leadDropped ('?' :: query) = !keepsParam (firstParam query) := by
  rw [leadDropped, firstParam_question]
  simp [keepsParam]

theorem exists_of_leadDropped (h : leadDropped query) :
    ∃ body, query = '?' :: body ∧ keepsParam (firstParam body) = false := by
  unfold leadDropped at h
  split at h
  next param hparam =>
    cases query with
    | nil => cases hparam
    | cons c body =>
      have hc : c = '?' := by
        simp only [firstParam, takeWhile_cons] at hparam
        split at hparam
        · exact (List.cons.inj hparam).1
        · cases hparam
      subst hc
      rw [firstParam_question] at hparam
      refine ⟨body, rfl, ?_⟩
      rw [(List.cons.inj hparam).2, keepsParam, ← Bool.not_or, h]
      rfl
  · cases h

theorem length_keptParams_le (query : Text) :
    (['&'].intercalate (keptParams query)).length ≤ query.length :=
  length_intercalate_splitOn_le '&' filter_sublist

theorem lit_fields : lit "fields=" = 'f' :: lit "ields=" := by simp [lit]

/-- A question mark in front is part of the first parameter, which then is not dropped. -/
theorem keptParams_question (query : Text) : ∃ rest, query.splitOn '&' = firstParam query :: rest ∧
      keptParams ('?' :: query) = ('?' :: firstParam query) :: rest.filter keepsParam := by
  obtain ⟨rest, hrest⟩ := splitOn_eq_firstParam query
  refine ⟨rest, hrest, ?_⟩
  have hkeeps : keepsParam ('?' :: firstParam query) := by
    simp [keepsParam, lit_fields, List.isPrefixOf]
  rw [keptParams_eq, splitOn_cons_eq_if_modifyHead, hrest]
  simp [filter_cons_of_pos hkeeps]

theorem sanitize_of_question (hsize : ('?' :: query).length < outSize) :
    sanitizeQueryStripFieldsParam ('?' :: query) outSize =
      if keptParams query = [] then [] else '?' :: ['&'].intercalate (keptParams query) := by
  have hfits := length_keptParams_le query
  rw [length_cons] at hsize
  unfold sanitizeQueryStripFieldsParam
  simp only [head?_cons, if_true, length_singleton, drop_succ_cons, drop_zero]
  split
  · rfl
  · rw [if_neg (by omega)]
    rfl

/-- Unless its first parameter is dropped, a query is sanitized to the parameters that are kept. -/
theorem sanitize_eq (hlead : leadDropped query = false) (hsize : query.length < outSize) :
    sanitizeQueryStripFieldsParam query outSize = ['&'].intercalate (keptParams query) := by
  by_cases hq : query.head? = some '?'
  · obtain ⟨body, rfl⟩ : ∃ body, query = '?' :: body := by
      cases query with
      | nil => cases hq
      | cons c body => exact ⟨body, by rw [Option.some.inj hq]⟩
    obtain ⟨rest, hrest, hkept⟩ := keptParams_question body
    have hkeeps : keepsParam (firstParam body) := by
      simpa [leadDropped_question] using hlead
    have hbody : keptParams body = firstParam body :: rest.filter keepsParam := by
      rw [keptParams_eq, hrest, filter_cons_of_pos hkeeps]
    rw [sanitize_of_question hsize, hbody, if_neg (cons_ne_nil _ _), hkept]
    cases rest.filter keepsParam with
    | nil => simp
    | cons => simp [intercalate_cons_cons]
  · -- without a question mark in front the query fits its buffer
    have hfits := length_keptParams_le query
    unfold sanitizeQueryStripFieldsParam
    simp only [if_neg hq, length_nil, drop_zero, nil_append, Nat.sub_zero]
    split
    next hnone => rw [hnone]; rfl
    · rw [if_neg (by omega)]

/-- If the first parameter is dropped, it is missing in the sanitized query. -/
theorem sanitize_of_leadDropped (hlead : leadDropped query)
    (hsize : query.length < outSize) : ∃ rest, keptParams query = firstParam query :: rest ∧
        sanitizeQueryStripFieldsParam query outSize =
          if rest = [] then [] else '?' :: ['&'].intercalate rest := by
  obtain ⟨body, rfl, hdrops⟩ := exists_of_leadDropped hlead
  obtain ⟨rest, hrest, hkept⟩ := keptParams_question body
  have hbody : keptParams body = rest.filter keepsParam := by
    rw [keptParams_eq, hrest, filter_cons_of_neg (by simp [hdrops])]
  exact ⟨rest.filter keepsParam, hkept, by rw [sanitize_of_question hsize, hbody]⟩

/-- Two queries that are sanitized alike have the same parameters, up to a first one that is dropped. -/
theorem keptParams_eq_iff {query' : Text} (hsize : query.length < outSize)
    (hsize' : query'.length < outSize) (h : sanitizeQueryStripFieldsParam query outSize =
      sanitizeQueryStripFieldsParam query' outSize) :
    keptParams query = keptParams query' ↔ LeadingAlike query query' := by
  -- A parameter that is dropped in one query and not in the other shows in the lengths.
  have hmixed : ∀ {q q' : Text}, q.length < outSize → q'.length < outSize →
      sanitizeQueryStripFieldsParam q outSize = sanitizeQueryStripFieldsParam q' outSize →
      leadDropped q → leadDropped q' = false → keptParams q ≠ keptParams q' := by
    intro q q' hq hq' hsame hlead hlead' heq
    obtain ⟨rest, hkept, hsan⟩ := sanitize_of_leadDropped hlead hq
    have hne : firstParam q ≠ [] := (keptParams_clean (hkept ▸ mem_cons_self)).1
    rw [hsan, sanitize_eq hlead' hq', ← heq, hkept] at hsame
    have hlen := congrArg List.length hsame
    have hpos := length_pos_of_ne_nil hne
    cases rest with
    | nil => simp at hlen; omega
    | cons =>
      rw [if_neg (cons_ne_nil _ _), intercalate_cons_cons] at hlen
      simp only [length_cons, length_append, length_nil] at hlen
      omega
  cases hlead : leadDropped query with
  | false =>
    cases hlead' : leadDropped query' with
    | false =>
      rw [sanitize_eq hlead hsize, sanitize_eq hlead' hsize'] at h
      have hkept := intercalate_inj (fun _ => keptParams_clean) (fun _ => keptParams_clean) h
      simp [hkept, LeadingAlike, hlead, hlead']
    | true =>
      refine iff_of_false (hmixed hsize' hsize h.symm hlead' hlead).symm fun halike => ?_
      have hfst := halike (.inr hlead')
      rw [leadDropped, hfst, ← leadDropped, hlead'] at hlead
      cases hlead
  | true =>
    cases hlead' : leadDropped query' with
    | false =>
      refine iff_of_false (hmixed hsize hsize' h hlead hlead') fun halike => ?_
      have hfst := halike (.inl hlead)
      rw [leadDropped, ← hfst, ← leadDropped, hlead] at hlead'
      cases hlead'
    | true =>
      obtain ⟨rest, hkept, hsan⟩ := sanitize_of_leadDropped hlead hsize
      obtain ⟨rest', hkept', hsan'⟩ := sanitize_of_leadDropped hlead' hsize'
      have hrest : rest = rest' := by
        rw [hsan, hsan'] at h
        have hclean : ∀ {q : Text} {params : List Text}, keptParams q = firstParam q :: params →
            ∀ param ∈ params, param ≠ [] ∧ '&' ∉ param := by
          intro q params hq param hmem
          exact keptParams_clean (hq ▸ mem_cons_of_mem _ hmem)
        split at h
        next hnil =>
          split at h
          next hnil' => rw [hnil, hnil']
          · cases h
        · split at h
          · cases h
          · exact intercalate_inj (hclean hkept) (hclean hkept') (List.cons.inj h).2
      simp [LeadingAlike, hlead, hkept, hkept', hrest]

end ByteTaper.Cache
