import ByteTaper.Cache.CacheKey
import ByteTaper.Library.Decimal

/-! # What a cache key tells apart

The key is the text of the parts joined with bars, so it fixes the segments between the bars. Two
inputs with one key agree exactly if the bars stand alike in their parts, and likewise the commas in
their field names and vary headers. -/

namespace ByteTaper.Cache

open Policy List Function Separated

/-! ## The field names of a key -/

theorem fieldName_eq {a b : FieldName} (h : ¬ a.val < b.val) (h' : ¬ b.val < a.val) : a = b :=
  Subtype.ext (le_antisymm (not_lt.mp h') (not_lt.mp h))

theorem not_lt_trans {a b c : FieldName} (h : ¬ a.val < b.val) (h' : ¬ b.val < c.val) :
    ¬ a.val < c.val :=
  IsOrderConnected.neg_trans h h'

theorem leastField_mem (name : FieldName) (rest : List FieldName) :
    leastField name rest ∈ name :: rest := by
  induction rest generalizing name with
  | nil => exact mem_cons_self
  | cons next _ ih =>
    rw [leastField]
    split
    · exact mem_cons_of_mem _ (ih next)
    · rcases mem_cons.mp (ih name) with h | h
      · rw [h]
        exact mem_cons_self
      · exact mem_cons_of_mem _ (mem_cons_of_mem _ h)

theorem leastField_least (name : FieldName) (rest : List FieldName) :
    ∀ other ∈ name :: rest, ¬ other.val < (leastField name rest).val := by
  induction rest generalizing name with
  | nil => simp [leastField]
  | cons next _ ih =>
    have hleast := ih (if next.val < name.val then next else name)
    have hhead := hleast _ mem_cons_self
    intro other hmem
    rcases mem_cons.mp hmem with rfl | hmem
    · refine not_lt_trans ?_ hhead
      split
      next hlt => exact fun h => lt_irrefl _ (lt_trans hlt h)
      next => exact lt_irrefl _
    · rcases mem_cons.mp hmem with rfl | hmem
      · refine not_lt_trans ?_ hhead
        split
        next => exact lt_irrefl _
        next hlt => exact hlt
      · exact hleast other (mem_cons_of_mem _ hmem)

variable {names : List FieldName} {name : FieldName} {a b : CacheKeyInput}

theorem perm_replace {a b : FieldName} (h : b ∈ names) :
    (b :: names.replace b a).Perm (a :: names) := by
  induction names with
  | nil => cases h
  | cons name rest ih =>
    by_cases hb : name = b
    · subst hb
      simpa using Perm.swap a name rest
    · have hmem : b ∈ rest := by simpa [Ne.symm hb] using h
      have hbeq : (b == name) = false := beq_eq_false_iff_ne.mpr (Ne.symm hb)
      rw [replace_cons, hbeq]
      exact (Perm.swap _ _ _).trans (((ih hmem).cons name).trans (Perm.swap _ _ _))

/-- The swap of the selection sort keeps the names. -/
theorem perm_swap (name : FieldName) (rest : List FieldName) :
    (leastField name rest :: if leastField name rest = name then rest
      else rest.replace (leastField name rest) name).Perm (name :: rest) := by
  split
  next h => rw [h]
  next h => exact perm_replace ((mem_cons.mp (leastField_mem name rest)).resolve_left h)

theorem sortFields_perm (n : Nat) (names : List FieldName) : (sortFields n names).Perm names := by
  induction n generalizing names with
  | zero => exact Perm.refl _
  | succ n ih =>
    cases names with
    | nil => exact Perm.refl _
    | cons name rest => exact ((ih _).cons _).trans (perm_swap name rest)

/-- After as many rounds as there are names no name is before one that it follows. -/
theorem sortFields_sorted {n : Nat} (h : names.length ≤ n) :
    (sortFields n names).Pairwise fun a b => ¬ b.val < a.val := by
  induction n generalizing names with
  | zero =>
    rw [length_eq_zero_iff.mp (Nat.le_zero.mp h)]
    exact Pairwise.nil
  | succ n ih =>
    cases names with
    | nil => exact Pairwise.nil
    | cons name rest =>
      have hperm := perm_swap name rest
      have hlen := hperm.length_eq
      rw [length_cons, length_cons] at hlen
      refine Pairwise.cons ?_ (ih (by simp only [length_cons] at h; omega))
      intro other hmem
      have hmem := (sortFields_perm n _).mem_iff.mp hmem
      exact leastField_least name rest other (hperm.mem_iff.mp (mem_cons_of_mem _ hmem))

theorem mem_dedupAfter {previous : FieldName} :
    name ∈ previous :: dedupAfter previous names ↔ name ∈ previous :: names := by
  induction names generalizing previous with
  | nil => rfl
  | cons next _ ih =>
    rw [dedupAfter]
    split
    next h =>
      subst h
      rw [ih]
      simp
    next =>
      rw [mem_cons, ih, mem_cons (b := previous)]

theorem mem_dedupFields : name ∈ dedupFields names ↔ name ∈ names := by
  cases names with
  | nil => rfl
  | cons => exact mem_dedupAfter

/-- Sorted names without repetition are in strict order. -/
theorem dedupAfter_strict {previous : FieldName}
    (h : (previous :: names).Pairwise fun a b => ¬ b.val < a.val) :
    (previous :: dedupAfter previous names).Pairwise fun a b => a.val < b.val := by
  induction names generalizing previous with
  | nil => simp [dedupAfter]
  | cons next _ ih =>
    obtain ⟨hprevious, hrest⟩ := pairwise_cons.mp h
    rw [dedupAfter]
    split
    next heq =>
      subst heq
      exact ih hrest
    next hne =>
      have hstrict := ih hrest
      have hlt : previous.val < next.val := by
        by_contra hnot
        exact hne (fieldName_eq (hprevious next mem_cons_self) hnot)
      refine Pairwise.cons (fun other hmem => ?_) hstrict
      rcases mem_cons.mp hmem with rfl | hmem
      · exact hlt
      · exact lt_trans hlt ((pairwise_cons.mp hstrict).1 other hmem)

theorem keyFields_strict (input : CacheKeyInput) :
    (keyFields input).Pairwise fun a b => a.val < b.val := by
  simp only [keyFields, dedupFields]
  have hsorted := sortFields_sorted (Nat.le_refl (input.selectedFields.take kMaxFields).length)
  split
  · exact Pairwise.nil
  next heq =>
    rw [heq] at hsorted
    exact dedupAfter_strict hsorted

theorem mem_keyFields {input : CacheKeyInput} :
    name ∈ keyFields input ↔ name ∈ input.selectedFields.take kMaxFields :=
  mem_dedupFields.trans (sortFields_perm _ _).mem_iff

/-- The names of the key depend on the set of the first sixteen only. -/
theorem keyFields_congr
    (h : ∀ name, name ∈ a.selectedFields.take kMaxFields ↔ name ∈ b.selectedFields.take kMaxFields) :
    keyFields a = keyFields b := by
  have hnodup : ∀ input, (keyFields input).Nodup := by
    intro input
    refine (keyFields_strict input).imp ?_
    intro x y hlt heq
    rw [heq] at hlt
    exact lt_irrefl _ hlt
  refine Perm.eq_of_pairwise ?_ (keyFields_strict a) (keyFields_strict b)
    ((perm_ext_iff_of_nodup (hnodup a) (hnodup b)).mpr fun name => ?_)
  · intro x y _ _ hlt hgt
    exact absurd (lt_trans hlt hgt) (lt_irrefl _)
  · rw [mem_keyFields, mem_keyFields, h]

/-! ## Inputs that agree -/

namespace CacheKeyInput

def epoch? (input : CacheKeyInput) : Option UInt64 :=
  if input.routeCacheEpochReady then some input.routeCacheEpoch else none

def scope? (input : CacheKeyInput) : Option Text :=
  if input.privateCache then input.authScope else none

variable (a b)

/-- The inputs ask for the same response. -/
structure Agree : Prop where
  variant : a.variant = b.variant
  routeId : a.routeId = b.routeId
  epoch : a.epoch? = b.epoch?
  path : a.path = b.path
  query : a.query.getD [] = b.query.getD []
  fields : ∀ name, name ∈ a.selectedFields ↔ name ∈ b.selectedFields
  version : a.policyVersion.getD [] = b.policyVersion.getD []
  vary : a.varyHeaders = b.varyHeaders
  scope : a.scope? = b.scope?

/-- The parts of both inputs, cut at every bar, are the same segments. -/
def SameSegments : Prop :=
  a.variant = b.variant ∧
    a.keyParts.flatMap (List.splitOn '|') = b.keyParts.flatMap (List.splitOn '|')

/-- The commas stand alike in the field names. An array of more than sixteen names is cut by the
    code, so that there only the names themselves tell whether the sets are the same. -/
def NamesAlike : Prop :=
  if a.selectedFields.length ≤ kMaxFields ∧ b.selectedFields.length ≤ kMaxFields then
    (keyFields a).map (·.val.count ',') = (keyFields b).map (·.val.count ',')
  else ∀ name, name ∈ a.selectedFields ↔ name ∈ b.selectedFields

/-- Where the separators stand in a vary header. -/
def headerShape (header : CacheVaryKeyPart) : Nat × Nat :=
  (header.text.count ',', (header.name.getD []).count '=')

/-- The inputs have the same parts, and the separators stand alike in them. -/
structure SameShape : Prop where
  ready : a.routeCacheEpochReady = b.routeCacheEpochReady
  scope : a.privateCache = b.privateCache
  bars : a.keyParts.map (List.count '|') = b.keyParts.map (List.count '|')
  names : NamesAlike a b
  headers : a.varyHeaders.map headerShape = b.varyHeaders.map headerShape

end CacheKeyInput

open CacheKeyInput

theorem lit_var : lit "var:" = 'v' :: lit "ar:" := by simp [lit]

theorem lit_get : lit "GET|" = 'G' :: lit "ET|" := by simp [lit]

theorem keyParts_ne_nil (input : CacheKeyInput) : input.keyParts ≠ [] := by
  simp [keyParts]

theorem keyText_eq_iff : a.keyText = b.keyText ↔ SameSegments a b := by
  rw [SameSegments, ← intercalate_eq_iff '|' (keyParts_ne_nil a) (keyParts_ne_nil b)]
  unfold keyText
  cases a.variant <;> cases b.variant <;> simp [lit_var, lit_get]

/-- A vary header is fixed by its text and the number of `=` in its name. -/
theorem vary_of_shape {x y : CacheVaryKeyPart} (hx : x.name.isSome ∧ x.valueHash.isSome)
    (hy : y.name.isSome ∧ y.valueHash.isSome) (htext : x.text = y.text)
    (hcnt : (x.name.getD []).count '=' = (y.name.getD []).count '=') : x = y := by
  obtain ⟨xname, xhash⟩ := x
  obtain ⟨yname, yhash⟩ := y
  obtain ⟨n, rfl⟩ := Option.isSome_iff_exists.mp hx.1
  obtain ⟨v, rfl⟩ := Option.isSome_iff_exists.mp hx.2
  obtain ⟨n', rfl⟩ := Option.isSome_iff_exists.mp hy.1
  obtain ⟨v', rfl⟩ := Option.isSome_iff_exists.mp hy.2
  simp only [CacheVaryKeyPart.text, Option.getD_some] at htext hcnt
  have hsegs : (n.splitOn '=') ++ (v.splitOn '=') = (n'.splitOn '=') ++ (v'.splitOn '=') := by
    rw [← splitOn_append_cons_self, htext, splitOn_append_cons_self]
  obtain ⟨hn, hv⟩ := append_inj hsegs (by
    rw [length_splitOn, length_splitOn, hcnt])
  rw [splitOn_inj hn, splitOn_inj hv]

theorem varyHeaders_of_shape {xs ys : List CacheVaryKeyPart}
    (hx : ∀ header ∈ xs, header.name.isSome ∧ header.valueHash.isSome)
    (hy : ∀ header ∈ ys, header.name.isSome ∧ header.valueHash.isSome)
    (htext : xs.map (·.text) = ys.map (·.text))
    (hshape : xs.map headerShape = ys.map headerShape) : xs = ys := by
  induction xs generalizing ys with
  | nil => simpa using htext
  | cons x _ ih =>
    cases ys with
    | nil => simp at htext
    | cons y =>
      simp only [map_cons, List.cons.injEq] at htext hshape
      have hhead := vary_of_shape (hx x mem_cons_self) (hy y mem_cons_self) htext.1
        (congrArg Prod.snd hshape.1)
      rw [hhead, ih (fun h hm => hx h (mem_cons_of_mem _ hm))
        (fun h hm => hy h (mem_cons_of_mem _ hm)) htext.2 hshape.2]

/-- The field part and the commas in the names fix the names. -/
theorem keyFields_of_commas (htext : a.fieldsPart = b.fieldsPart)
    (hcommas : (keyFields a).map (·.val.count ',') = (keyFields b).map (·.val.count ',')) :
    keyFields a = keyFields b := by
  have hnames : (keyFields a).map (·.val) = (keyFields b).map (·.val) :=
    eq_of_intercalate htext (by simpa [map_map, comp_def] using hcommas)
  exact (map_injective_iff.mpr Subtype.val_injective) hnames

theorem selectedFields_of_namesAlike (htext : a.fieldsPart = b.fieldsPart) (h : NamesAlike a b)
    (name : FieldName) : name ∈ a.selectedFields ↔ name ∈ b.selectedFields := by
  unfold NamesAlike at h
  split at h
  next hle =>
    have hkey := keyFields_of_commas htext h
    rw [← take_of_length_le hle.1, ← take_of_length_le hle.2, ← mem_keyFields,
      ← mem_keyFields, hkey]
  next => exact h name

theorem namesAlike_of_same (h : ∀ name, name ∈ a.selectedFields ↔ name ∈ b.selectedFields) :
    NamesAlike a b := by
  unfold NamesAlike
  split
  next hle =>
    rw [keyFields_congr]
    rw [take_of_length_le hle.1, take_of_length_le hle.2]
    exact h
  next => exact h

theorem authScope_of_private {input : CacheKeyInput} (h : input.Complete)
    (hpriv : input.privateCache) : input.authScope.isSome := by
  cases hs : input.authScope with
  | none => exact absurd (by simp [hs]) (h.scope hpriv)
  | some => rfl

theorem CacheKeyInput.SameShape.agree (ha : a.Complete) (hb : b.Complete)
    (hsegs : SameSegments a b) (h : SameShape a b) : Agree a b := by
  have hparts := eq_of_segments hsegs.2 h.bars
  have hvary : a.varyHeaders = [] ↔ b.varyHeaders = [] := by
    rw [← map_eq_nil_iff (f := headerShape), h.headers, map_eq_nil_iff]
  -- equal part lists with the same optional parts have equal parts
  obtain ⟨hroute, hepoch, hpath, hquery, hflds, hver, hvaryText, hscope⟩ :
      a.routeId.getD [] = b.routeId.getD [] ∧
      (a.routeCacheEpochReady → a.epochPart = b.epochPart) ∧
      a.path.getD [] = b.path.getD [] ∧ a.query.getD [] = b.query.getD [] ∧
      a.fieldsPart = b.fieldsPart ∧ a.policyVersion.getD [] = b.policyVersion.getD [] ∧
      (a.varyHeaders ≠ [] → a.varyPart = b.varyPart) ∧
      (a.privateCache → a.scopePart = b.scopePart) := by
    have hready := h.ready
    have hscope := h.scope
    clear h
    simp only [keyParts, hready, hscope] at hparts ⊢
    by_cases hv : b.varyHeaders = [] <;> cases hr : b.routeCacheEpochReady <;>
      cases hp : b.privateCache <;> simp_all
  have hsome : ∀ {x y : Option Text}, x.isSome → y.isSome → x.getD [] = y.getD [] → x = y := by
    intro x y hx hy heq
    obtain ⟨x, rfl⟩ := Option.isSome_iff_exists.mp hx
    obtain ⟨y, rfl⟩ := Option.isSome_iff_exists.mp hy
    simpa using heq
  refine ⟨hsegs.1, hsome ha.routeId hb.routeId hroute, ?_, hsome ha.path hb.path hpath, hquery,
    selectedFields_of_namesAlike hflds h.names, hver, ?_, ?_⟩
  · unfold epoch?
    rw [← h.ready]
    split
    next hready =>
      have hdigs := append_cancel_left (hepoch hready)
      rw [UInt64.toNat_inj.mp (Decimal.toDigits_inj hdigs)]
    next => rfl
  · by_cases hnil : a.varyHeaders = []
    · rw [hnil, hvary.mp hnil]
    · have htext := append_cancel_left (hvaryText hnil)
      refine varyHeaders_of_shape ha.vary hb.vary ?_ h.headers
      refine eq_of_intercalate htext ?_
      have hcommas := congrArg (List.map Prod.fst) h.headers
      simpa [map_map, comp_def, headerShape] using hcommas
  · unfold scope?
    rw [← h.scope]
    split
    next hpriv =>
      have htext := append_cancel_left (hscope hpriv)
      exact hsome (authScope_of_private ha hpriv) (authScope_of_private hb (h.scope ▸ hpriv)) htext
    next => rfl

/-- The parts around the field names. -/
theorem keyParts_around (input : CacheKeyInput) : input.keyParts =
      ([input.routeId.getD []] ++ (if input.routeCacheEpochReady then [input.epochPart] else []) ++
        [input.path.getD [], input.query.getD []]) ++ input.fieldsPart ::
      ([input.policyVersion.getD []] ++ (if input.varyHeaders = [] then [] else [input.varyPart]) ++
        (if input.privateCache then [input.scopePart] else [])) := by
  simp [keyParts]

theorem CacheKeyInput.Agree.ready (h : Agree a b) :
    a.routeCacheEpochReady = b.routeCacheEpochReady := by
  have hepoch := congrArg Option.isSome h.epoch
  unfold epoch? at hepoch
  cases ha : a.routeCacheEpochReady <;> cases hb : b.routeCacheEpochReady <;> simp_all

section

variable (ha : a.Complete) (hb : b.Complete) (h : Agree a b)

include ha hb h

theorem CacheKeyInput.Agree.privateCache : a.privateCache = b.privateCache := by
  have hscope := congrArg Option.isSome h.scope
  unfold scope? at hscope
  cases hpa : a.privateCache with
  | false =>
    cases hpb : b.privateCache with
    | false => rfl
    | true => simp [hpa, hpb, authScope_of_private hb hpb] at hscope
  | true =>
    cases hpb : b.privateCache with
    | false => simp [hpa, hpb, authScope_of_private ha hpa] at hscope
    | true => rfl

/-- Inputs that agree and have the same segments have the same parts. -/
theorem CacheKeyInput.Agree.keyParts_eq (hsegs : SameSegments a b) : a.keyParts = b.keyParts := by
  have hready := h.ready
  have hpriv := h.privateCache ha hb
  have hepoch : (if a.routeCacheEpochReady then [a.epochPart] else []) =
      if b.routeCacheEpochReady then [b.epochPart] else [] := by
    have := h.epoch
    unfold epoch? at this
    rw [← hready] at this ⊢
    split
    next hr =>
      rw [if_pos hr, if_pos hr, Option.some.injEq] at this
      simp [epochPart, this]
    next => rfl
  have hscope : (if a.privateCache then [a.scopePart] else []) =
      if b.privateCache then [b.scopePart] else [] := by
    have := h.scope
    unfold scope? at this
    rw [← hpriv] at this ⊢
    split
    next hp =>
      rw [if_pos hp, if_pos hp] at this
      simp [scopePart, this]
    next => rfl
  have hvary : a.varyPart = b.varyPart := by simp [varyPart, h.vary]
  have hparts := hsegs.2
  rw [keyParts_around a, keyParts_around b, h.routeId, hepoch, h.path, h.query, h.version, h.vary,
    hvary, hscope] at hparts ⊢
  simp only [flatMap_append, flatMap_cons] at hparts
  have hflds := append_cancel_left hparts
  rw [splitOn_inj (append_cancel_right hflds)]

theorem CacheKeyInput.Agree.sameShape (hsegs : SameSegments a b) : SameShape a b where
  ready := h.ready
  scope := h.privateCache ha hb
  bars := by rw [h.keyParts_eq ha hb hsegs]
  names := namesAlike_of_same h.fields
  headers := by rw [h.vary]

end

/-- Two inputs with one key agree if and only if the separators stand alike in their parts whenever
    the parts, cut at the bars, are the same. -/
theorem cacheKeys_apart_iff {a b : CacheKeyInput} {n m : Nat} {k k' : Text}
    (ha : buildCacheKey a n = some k) (hb : buildCacheKey b m = some k') :
    (k = k' → Agree a b) ↔ (SameSegments a b → SameShape a b) := by
  obtain ⟨hca, rfl, -⟩ := buildCacheKey_eq_some_iff.mp ha
  obtain ⟨hcb, rfl, -⟩ := buildCacheKey_eq_some_iff.mp hb
  rw [keyText_eq_iff]
  exact ⟨fun h hsegs => (h hsegs).sameShape hca hcb hsegs,
    fun h hsegs => (h hsegs).agree hca hcb hsegs⟩

/-! ## The end of a key -/

theorem headText_end (input : CacheKeyInput) : ∃ front, input.headText = front ++
    if input.varyHeaders = [] then [] else ['|'] ++ input.varyPart :=
  ⟨_, by simp only [headText, ← append_assoc]; rfl⟩

/-- The vary headers and the scope stand at the end of a key, behind everything that a client can
    write. If they are of the same lengths, a key fixes them. -/
theorem keyText_end (h : a.keyText = b.keyText) (hpriv : a.privateCache = b.privateCache)
    (hscope : (a.authScope.getD []).length = (b.authScope.getD []).length)
    (hvary : a.varyHeaders.map (·.text.length) = b.varyHeaders.map (·.text.length)) :
    (a.privateCache → a.authScope.getD [] = b.authScope.getD []) ∧
      a.varyHeaders.map (·.text) = b.varyHeaders.map (·.text) := by
  have hnil : a.varyHeaders = [] ↔ b.varyHeaders = [] := by
    rw [← map_eq_nil_iff, hvary, map_eq_nil_iff]
  have hlens : (a.varyHeaders.map (·.text)).map List.length =
      (b.varyHeaders.map (·.text)).map List.length := by
    simpa [map_map, comp_def] using hvary
  rw [keyText_eq, keyText_eq, ← hpriv] at h
  obtain ⟨hhead, hend⟩ := append_inj' h (by
    split <;> simp [scopePart, hscope])
  refine ⟨fun hp => ?_, ?_⟩
  · rw [if_pos hp, if_pos hp] at hend
    exact append_cancel_left (append_cancel_left hend)
  · by_cases hempty : a.varyHeaders = []
    · rw [hempty, hnil.mp hempty]
    · obtain ⟨front, hfront⟩ := headText_end a
      obtain ⟨front', hfront'⟩ := headText_end b
      rw [hfront, hfront', if_neg hempty, if_neg (mt hnil.mpr hempty)] at hhead
      have hsame : a.varyPart.length = b.varyPart.length := by
        have hcnt := congrArg List.length hlens
        simp only [length_map] at hcnt
        simp [varyPart, length_intercalate, hlens, hcnt]
      obtain ⟨-, hpart⟩ := append_inj' hhead (by simp [hsame])
      exact eq_of_intercalate_of_length (append_cancel_left (append_cancel_left hpart)) hlens

/-! ## A path that reads as a query -/

/-- A request for `/a|b` without a query, and one for `/a` with the query `b|`. -/
def barInPath : CacheKeyInput where
  routeId := some ['r']
  path := some ['/', 'a', '|', 'b']

def barInQuery : CacheKeyInput where
  routeId := some ['r']
  path := some ['/', 'a']
  query := some ['b', '|']

theorem cacheKeys_collide :
    (∃ k, buildCacheKey barInPath 1024 = some k ∧ buildCacheKey barInQuery 1024 = some k) ∧
      ¬ Agree barInPath barInQuery := by
  refine ⟨⟨(buildCacheKey barInPath 1024).getD [], by decide +kernel, by decide +kernel⟩, ?_⟩
  intro h
  exact absurd h.path (by decide)

def plainRequest : CacheKeyInput where
  routeId := some ['r']
  path := some ['/', 'a']
  selectedFields := [⟨['i', 'd'], by decide⟩]

/-- Two requests for different paths, which share no segments, have different keys. -/
theorem cacheKeys_apart_plainRequest : ∃ k k', buildCacheKey barInPath 1024 = some k ∧
    buildCacheKey plainRequest 1024 = some k' ∧ (k = k' → Agree barInPath plainRequest) := by
  have hpath : buildCacheKey barInPath 1024 = some ((buildCacheKey barInPath 1024).getD []) := by
    decide +kernel
  have hplain : buildCacheKey plainRequest 1024 =
      some ((buildCacheKey plainRequest 1024).getD []) := by decide +kernel
  refine ⟨_, _, hpath, hplain, (cacheKeys_apart_iff hpath hplain).mpr ?_⟩
  intro hsegs
  have hne : barInPath.keyParts.flatMap (splitOn '|') ≠
      plainRequest.keyParts.flatMap (splitOn '|') := by decide +kernel
  exact absurd hsegs.2 hne

end ByteTaper.Cache
