import ByteTaper.Library.Decimal
import ByteTaper.Library.Text

/-! # The key space of the policy state store

`policy_state_key.cpp`: the texts under which active pointers, policy versions, their YAML, audit
records and update jobs are stored, and the reader of resource keys. Every key is the prefix of its
resource followed by a suffix for its kind. Generations are printed into a buffer of sixteen bytes,
so that only fifteen digits of them reach the key.

`StoreKey` names what a key is for, and `StoreKey.text` is the text the constructors build. Two
results say what the texts lose: when two different `StoreKey`s have one text, and when the byte
order of version keys is not the order of the generations. -/

namespace ByteTaper.ControlPlane

open List Decimal

/-! ## Resource keys -/

@[ext] structure PolicyResourceKey where
  namespaceName : Text
  policyName : Text
deriving DecidableEq

namespace PolicyResourceKey

def toText (key : PolicyResourceKey) : Text :=
  lit "policy/" ++ (key.namespaceName ++ '/' :: key.policyName)

def defaultRuntime : PolicyResourceKey where
  namespaceName := lit "default"
  policyName := lit "runtime"

end PolicyResourceKey

/-- Read `policy/<namespace>/<name>`. Only the first slash of the remainder separates, so the
    policy name may contain further slashes. -/
def parseResourceKey (resourceKey : Text) : Option PolicyResourceKey :=
  if (lit "policy/").isPrefixOf resourceKey then
    let remainder := resourceKey.drop (lit "policy/").length
    match remainder.findIdx? (· == '/') with
    | none => none
    | some slash =>
      if slash = 0 ∨ remainder.length ≤ slash + 1 then none
      else
        let out : PolicyResourceKey := ⟨remainder.take slash, remainder.drop (slash + 1)⟩
        if out.namespaceName.isEmpty || out.policyName.isEmpty then none else some out
  else none

/-- What is accepted is well formed. -/
theorem parseResourceKey_eq_some {text : Text} {key : PolicyResourceKey}
    (h : parseResourceKey text = some key) :
    text = key.toText ∧ key.namespaceName ≠ [] ∧ '/' ∉ key.namespaceName ∧ key.policyName ≠ [] := by
  unfold parseResourceKey at h
  split at h
  case isFalse => exact absurd h (by simp)
  case isTrue hpre =>
    obtain ⟨remainder, rfl⟩ := List.isPrefixOf_iff_prefix.mp hpre
    simp only [drop_left] at h
    split at h
    case h_1 => exact absurd h (by simp)
    case h_2 slash hfind =>
      obtain ⟨hsplit, hnot⟩ := Text.split_of_findIdx hfind
      split_ifs at h with hbounds hempty
      simp only [Option.some.injEq] at h
      subst h
      simp only [Bool.or_eq_true, List.isEmpty_iff, not_or] at hempty
      refine ⟨?_, hempty.1, hnot, hempty.2⟩
      rw [PolicyResourceKey.toText, ← hsplit]

/-- A resource key that `parseResourceKey` has accepted. -/
structure ParsedResourceKey where
  key : PolicyResourceKey
  parsed : ∃ text, parseResourceKey text = some key

namespace ParsedResourceKey

theorem slash_notMem (k : ParsedResourceKey) : '/' ∉ k.key.namespaceName := by
  obtain ⟨_, h⟩ := k.parsed
  exact (parseResourceKey_eq_some h).2.2.1

@[ext] theorem ext {k k' : ParsedResourceKey} (h : k.key = k'.key) : k = k' := by
  cases k
  cases k'
  simp_all

def defaultRuntime : ParsedResourceKey where
  key := .defaultRuntime
  parsed := ⟨PolicyResourceKey.defaultRuntime.toText, by decide +kernel⟩

end ParsedResourceKey

/-! ## Key constructors -/

/-- `snprintf(buf, 16, "%010" PRIu64, generation)`: padded to ten digits, cut after fifteen. -/
def formatGeneration (generation : UInt64) : Text :=
  (Decimal.padded 10 generation.toNat).take 15

variable (key : PolicyResourceKey)

def policyPrefix : Text :=
  lit "v1/policies/" ++ (key.namespaceName ++ '/' :: key.policyName)

def makeActiveKey : Text := policyPrefix key ++ lit "/active"

def makeVersionKey (generation : UInt64) : Text :=
  policyPrefix key ++ (lit "/versions/" ++ formatGeneration generation)

def makeYamlKey (generation : UInt64) : Text :=
  makeVersionKey key generation ++ lit "/yaml"

def makeAuditKey (applyId : Text) : Text :=
  policyPrefix key ++ (lit "/audit/" ++ applyId)

def makeJobKey (jobId : Text) : Text :=
  policyPrefix key ++ (lit "/jobs/" ++ jobId)

/-- What a key of the store is for: its kind, its resource, and its generation or id. -/
inductive StoreKey where
  | active (key : ParsedResourceKey)
  | version (key : ParsedResourceKey) (generation : UInt64)
  | yaml (key : ParsedResourceKey) (generation : UInt64)
  | audit (key : ParsedResourceKey) (applyId : Text)
  | job (key : ParsedResourceKey) (jobId : Text)

namespace StoreKey

/-- The text the store uses for it. -/
def text : StoreKey → Text
  | .active k => makeActiveKey k.key
  | .version k generation => makeVersionKey k.key generation
  | .yaml k generation => makeYamlKey k.key generation
  | .audit k applyId => makeAuditKey k.key applyId
  | .job k jobId => makeJobKey k.key jobId

def resource : StoreKey → ParsedResourceKey
  | .active k | .version k _ | .yaml k _ | .audit k _ | .job k _ => k

/-- What follows the policy name. -/
def suffix : StoreKey → Text
  | .active _ => lit "/active"
  | .version _ generation => lit "/versions/" ++ formatGeneration generation
  | .yaml _ generation => lit "/versions/" ++ (formatGeneration generation ++ lit "/yaml")
  | .audit _ applyId => lit "/audit/" ++ applyId
  | .job _ jobId => lit "/jobs/" ++ jobId

theorem text_eq (k : StoreKey) : k.text = policyPrefix k.resource.key ++ k.suffix := by
  cases k <;>
    simp [text, resource, suffix, makeActiveKey, makeVersionKey, makeYamlKey, makeAuditKey,
      makeJobKey]

end StoreKey

/-! ## Printed generations -/

/-- How many characters of a generation reach the key. -/
def printedWidth (generation : UInt64) : Nat :=
  min 15 (max 10 (Nat.toDigits 10 generation.toNat).length)

/-- The number these characters spell: the generation without the digits behind the fifteenth. -/
def printedValue (generation : UInt64) : Nat :=
  generation.toNat / 10 ^ ((Nat.toDigits 10 generation.toNat).length - 15)

theorem digits_formatGeneration (g : UInt64) : Digits (formatGeneration g) :=
  (digits_padded 10 g.toNat).take 15

@[simp] theorem length_formatGeneration (g : UInt64) :
    (formatGeneration g).length = printedWidth g := by
  simp [formatGeneration, printedWidth, length_padded]

@[simp] theorem value_formatGeneration (g : UInt64) :
    Decimal.value (formatGeneration g) = printedValue g := by
  have hlen : (padded 10 g.toNat).length - 15 = (Nat.toDigits 10 g.toNat).length - 15 := by
    rw [length_padded]
    omega
  rw [formatGeneration, value_take (digits_padded 10 g.toNat), hlen, value_padded, printedValue]

/-- The printed number determines how wide it is printed. -/
theorem printedWidth_eq (g : UInt64) :
    printedWidth g = max 10 (Nat.toDigits 10 (printedValue g)).length := by
  unfold printedWidth printedValue
  by_cases h : 15 < (Nat.toDigits 10 g.toNat).length
  · rw [length_toDigits_div (by decide) h]
    omega
  · rw [show (Nat.toDigits 10 g.toNat).length - 15 = 0 by omega, pow_zero, Nat.div_one]
    omega

variable {g g' : UInt64}

theorem printedWidth_mono (h : g ≤ g') : printedWidth g ≤ printedWidth g' := by
  have hlen := length_toDigits_mono (UInt64.le_iff_toNat_le.mp h)
  unfold printedWidth
  omega

theorem formatGeneration_eq_iff :
    formatGeneration g = formatGeneration g' ↔ printedValue g = printedValue g' := by
  constructor
  · intro h
    rw [← value_formatGeneration, h, value_formatGeneration]
  · intro h
    apply value_inj (digits_formatGeneration g) (digits_formatGeneration g')
    · rw [length_formatGeneration, length_formatGeneration, printedWidth_eq, printedWidth_eq, h]
    · rw [value_formatGeneration, value_formatGeneration, h]

theorem slash_notMem_formatGeneration (g : UInt64) : '/' ∉ formatGeneration g := fun h =>
  absurd (digits_formatGeneration g _ h) (by decide)

theorem formatGeneration_ne_nil (g : UInt64) : formatGeneration g ≠ [] := by
  rw [← length_pos_iff, length_formatGeneration, printedWidth]
  omega

/-- The order of two printed generations, where the first is printed no wider than the second: the
    wider one is cut to the width of the first before the numbers are compared. -/
def PrintsBefore (g g' : UInt64) : Prop :=
  if printedWidth g = printedWidth g' then printedValue g < printedValue g'
  else printedValue g ≤ printedValue g' / 10 ^ (printedWidth g' - printedWidth g)

theorem formatGeneration_lt_iff (h : printedWidth g ≤ printedWidth g') :
    formatGeneration g < formatGeneration g' ↔ PrintsBefore g g' := by
  have hg := digits_formatGeneration g
  have hg' := digits_formatGeneration g'
  unfold PrintsBefore
  split
  next hw =>
    rw [lt_iff_value_lt hg hg' (by simpa using hw), value_formatGeneration, value_formatGeneration]
  next hw =>
    have hlen : (formatGeneration g).length < (formatGeneration g').length := by
      simp only [length_formatGeneration]
      omega
    have htake : (formatGeneration g).length =
        ((formatGeneration g').take (formatGeneration g).length).length := by
      rw [length_take]
      omega
    have hval : Decimal.value ((formatGeneration g').take (formatGeneration g).length) =
        printedValue g' / 10 ^ (printedWidth g' - printedWidth g) := by
      rw [value_take hg', length_formatGeneration, length_formatGeneration, value_formatGeneration]
    rw [lt_iff_take hlen, lt_iff_value_lt hg (hg'.take _) htake, hval,
      value_formatGeneration, le_iff_lt_or_eq]
    refine or_congr Iff.rfl ⟨fun heq => ?_, fun heq => ?_⟩
    · rw [← hval, ← heq, value_formatGeneration]
    · exact value_inj hg (hg'.take _) htake (by rw [hval, value_formatGeneration, heq])

/-! ## Collisions -/

namespace StoreKey

/-- The longer policy name of `b` goes on where the policy name of `k` ends, and what follows the
    name of `k`, the text `tail`, is the rest of that name and the suffix of `b`. -/
def ContinuesIn (k : ParsedResourceKey) (tail : Text) (b : StoreKey) : Prop :=
  k.key.namespaceName = b.resource.key.namespaceName ∧
    ∃ rest, rest ≠ [] ∧ b.resource.key.policyName = k.key.policyName ++ rest ∧
      tail = rest ++ b.suffix

/-- The free id of the audit or job key `a` takes in the rest of the policy name of `b`. -/
def Absorbs : StoreKey → StoreKey → Prop
  | .audit k applyId, b => ContinuesIn k (lit "/audit/" ++ applyId) b
  | .job k jobId, b => ContinuesIn k (lit "/jobs/" ++ jobId) b
  | _, _ => False

/-- Two generations of one resource whose printed digits are the same. -/
def SharesPrint : StoreKey → StoreKey → Prop
  | .version k g, .version k' g' => k = k' ∧ g ≠ g' ∧ printedValue g = printedValue g'
  | .yaml k g, .yaml k' g' => k = k' ∧ g ≠ g' ∧ printedValue g = printedValue g'
  | _, _ => False

/-- Every suffix is a slash and a word that starts with one of three letters. -/
theorem suffix_eq_cons (k : StoreKey) :
    ∃ c t, k.suffix = '/' :: c :: t ∧ (c = 'a' ∨ c = 'v' ∨ c = 'j') := by
  cases k <;>
    simp only [suffix, lit, String.reduceToList, cons_append, nil_append] <;>
    exact ⟨_, _, rfl, by simp⟩

variable {a b : StoreKey}

/-- Behind the leading slash of the suffix of an active, version or YAML key there is no second
    place at which a suffix could start. -/
theorem absorbs_of_suffix_eq {rest : Text} (hrest : rest ≠ []) (h : a.suffix = rest ++ b.suffix) :
    (∃ k applyId, a = .audit k applyId) ∨ (∃ k jobId, a = .job k jobId) := by
  obtain ⟨c, t, hb, hc⟩ := suffix_eq_cons b
  obtain ⟨x, rest, rfl⟩ := exists_cons_of_ne_nil hrest
  rw [hb, cons_append] at h
  have hletter : ∀ g : UInt64, ∀ u, formatGeneration g ++ u ≠ c :: t := by
    intro g u heq
    obtain ⟨d, l, hd⟩ := exists_cons_of_ne_nil (formatGeneration_ne_nil g)
    have hdigit := digits_formatGeneration g d (by simp [hd])
    rw [hd, cons_append, List.cons.injEq] at heq
    rcases hc with rfl | rfl | rfl <;> simp [heq.1] at hdigit
  cases a with
  | active =>
    simp only [suffix, lit, String.reduceToList, List.cons.injEq] at h
    have hmem : '/' ∈ rest ++ '/' :: c :: t := by simp
    rw [← h.2] at hmem
    exact absurd hmem (by decide)
  | version k g =>
    have hcut : "versions".toList ++ '/' :: formatGeneration g = rest ++ '/' :: c :: t := by
      simp only [suffix, lit, String.reduceToList, cons_append, nil_append, List.cons.injEq] at h ⊢
      exact h.2
    rcases Text.append_sep_cases (by decide) hcut with ⟨-, heq⟩ | ⟨r, -, heq⟩
    · exact absurd (by simpa using heq.symm) (hletter g [])
    · exact absurd (by simp [heq]) (slash_notMem_formatGeneration g)
  | yaml k g =>
    have hcut : "versions".toList ++ '/' :: (formatGeneration g ++ '/' :: "yaml".toList) =
        rest ++ '/' :: c :: t := by
      simp only [suffix, lit, String.reduceToList, cons_append, nil_append, List.cons.injEq] at h ⊢
      exact h.2
    rcases Text.append_sep_cases (by decide) hcut with ⟨-, heq⟩ | ⟨r, -, heq⟩
    · exact absurd heq.symm (hletter g _)
    rcases Text.append_sep_cases (slash_notMem_formatGeneration g) heq with
      ⟨-, hyaml⟩ | ⟨r', -, hyaml⟩
    · rcases hc with rfl | rfl | rfl <;> simp at hyaml
    · have hmem : '/' ∈ "yaml".toList := by simp [hyaml]
      exact absurd hmem (by decide)
  | audit k applyId => exact Or.inl ⟨k, applyId, rfl⟩
  | job k jobId => exact Or.inr ⟨k, jobId, rfl⟩

theorem version_ne_yaml (g g' : UInt64) :
    formatGeneration g ≠ formatGeneration g' ++ lit "/yaml" := by
  intro h
  have hmem : '/' ∈ formatGeneration g' ++ lit "/yaml" := by simp [lit]
  rw [← h] at hmem
  exact slash_notMem_formatGeneration g hmem

/-- For one resource, equal suffixes come from the same key or from two generations that print
    alike. -/
theorem eq_or_sharesPrint (hres : a.resource = b.resource) (h : a.suffix = b.suffix) :
    a = b ∨ SharesPrint a b := by
  have hgen : ∀ g g' : UInt64, formatGeneration g = formatGeneration g' →
      g = g' ∨ (g ≠ g' ∧ printedValue g = printedValue g') := by
    intro g g' hfmt
    rw [formatGeneration_eq_iff] at hfmt
    tauto
  cases a <;> cases b <;> simp only [resource] at hres <;> subst hres <;>
    simp only [suffix, lit, String.reduceToList, cons_append, nil_append,
      List.cons.injEq, append_cancel_right_eq, Char.reduceEq, false_and, and_false,
      true_and, reduceCtorEq] at h
  · exact Or.inl rfl
  · rename_i k g g'
    rcases hgen g g' h with rfl | hne
    · exact Or.inl rfl
    · exact Or.inr ⟨rfl, hne⟩
  · rename_i k g g'
    exact absurd (by simpa [lit] using h) (version_ne_yaml g g')
  · rename_i k g g'
    exact absurd (by simpa [lit] using h.symm) (version_ne_yaml g' g)
  · rename_i k g g'
    rcases hgen g g' h with rfl | hne
    · exact Or.inl rfl
    · exact Or.inr ⟨rfl, hne⟩
  · exact Or.inl (by rw [h])
  · exact Or.inl (by rw [h])

theorem text_eq_iff_parts : a.text = b.text ↔
      a.resource.key.namespaceName = b.resource.key.namespaceName ∧
        a.resource.key.policyName ++ a.suffix = b.resource.key.policyName ++ b.suffix := by
  rw [text_eq, text_eq]
  simp only [policyPrefix, append_assoc, cons_append, append_cancel_left_eq]
  constructor
  · exact Text.append_sep_inj a.resource.slash_notMem b.resource.slash_notMem
  · rintro ⟨hns, hrest⟩
    rw [hns, hrest]

theorem absorbs_iff : Absorbs a b ↔ ContinuesIn a.resource a.suffix b := by
  constructor
  · intro h
    cases a <;> first | exact h | exact h.elim
  · intro h
    have ⟨_, rest, hrest, _, hsuffix⟩ := h
    rcases absorbs_of_suffix_eq hrest hsuffix with ⟨k, applyId, rfl⟩ | ⟨k, jobId, rfl⟩
    · exact h
    · exact h

/-- The texts of two keys are equal exactly when the keys are, when the id of one takes in the
    policy name of the other, or when two generations print alike. -/
theorem text_eq_iff : a.text = b.text ↔ a = b ∨ Absorbs a b ∨ Absorbs b a ∨ SharesPrint a b := by
  constructor
  · intro h
    obtain ⟨hns, hparts⟩ := text_eq_iff_parts.mp h
    rcases append_eq_append_iff.mp hparts with ⟨rest, hname, hsuf⟩ | ⟨rest, hname, hsuf⟩
    · cases rest with
      | nil =>
        have hres : a.resource = b.resource :=
          ParsedResourceKey.ext (PolicyResourceKey.ext hns (by simpa using hname.symm))
        have := eq_or_sharesPrint hres (by simpa using hsuf)
        tauto
      | cons c rest =>
        exact Or.inr (Or.inl (absorbs_iff.mpr ⟨hns, c :: rest, by simp, hname, hsuf⟩))
    · cases rest with
      | nil =>
        have hres : a.resource = b.resource :=
          ParsedResourceKey.ext (PolicyResourceKey.ext hns (by simpa using hname))
        have := eq_or_sharesPrint hres (by simpa using hsuf.symm)
        tauto
      | cons c rest =>
        exact Or.inr (Or.inr (Or.inl (absorbs_iff.mpr ⟨hns.symm, c :: rest, by simp, hname, hsuf⟩)))
  · rintro (rfl | h | h | h)
    · rfl
    · obtain ⟨hns, rest, -, hname, hsuf⟩ := absorbs_iff.mp h
      exact text_eq_iff_parts.mpr ⟨hns, by rw [hname, hsuf, append_assoc]⟩
    · obtain ⟨hns, rest, -, hname, hsuf⟩ := absorbs_iff.mp h
      exact text_eq_iff_parts.mpr ⟨hns.symm, by rw [hname, hsuf, append_assoc]⟩
    · cases a <;> cases b <;> try exact h.elim
      all_goals
        obtain ⟨rfl, -, hprint⟩ := h
        simp [text, makeVersionKey, makeYamlKey, formatGeneration_eq_iff.mpr hprint]

theorem Absorbs.ne (h : Absorbs a b) : a ≠ b := by
  rintro rfl
  obtain ⟨-, rest, hrest, hname, -⟩ := absorbs_iff.mp h
  exact hrest (by simpa using hname)

theorem SharesPrint.ne (h : SharesPrint a b) : a ≠ b := by
  rintro rfl
  cases a <;> first | exact h.elim | exact h.2.1 rfl

end StoreKey

/-! ## The key space as a whole -/

/-- Byte order of the two version keys is the order of the generations exactly when the smaller
    generation prints before the larger. -/
theorem versionOrder_iff (key : PolicyResourceKey) (g g' : UInt64) :
    ((makeVersionKey key g < makeVersionKey key g' ↔ g < g') ∧
      (makeVersionKey key g' < makeVersionKey key g ↔ g' < g)) ↔
    (g < g' → PrintsBefore g g') ∧ (g' < g → PrintsBefore g' g) := by
  -- for one resource, version keys compare as the printed generations do
  simp only [makeVersionKey, ← append_assoc, Text.append_lt_append_left_iff]
  have hcases : g < g' ∨ g = g' ∨ g' < g := by
    simp only [UInt64.lt_iff_toNat_lt, ← UInt64.toNat_inj]
    omega
  rcases hcases with h | rfl | h
  · have hiff := formatGeneration_lt_iff (printedWidth_mono (UInt64.le_of_lt h))
    have hng : ¬ g' < g := UInt64.lt_asymm h
    simp only [h, hng, iff_true, iff_false, true_implies, false_implies, and_true, ← hiff]
    exact ⟨fun hp => hp.1, fun hp => ⟨hp, not_lt_of_gt hp⟩⟩
  · simp
  · have hiff := formatGeneration_lt_iff (printedWidth_mono (UInt64.le_of_lt h))
    have hng : ¬ g < g' := UInt64.lt_asymm h
    simp only [h, hng, iff_true, iff_false, true_implies, false_implies, true_and, ← hiff]
    exact ⟨fun hp => hp.2, fun hp => ⟨not_lt_of_gt hp, hp⟩⟩

open StoreKey

/-- The key space separates two keys, and orders two versions of one resource, exactly when no id
    takes in the policy name of the other resource, no two generations print alike, and the smaller
    generation prints before the larger. -/
theorem storeKeys_separate_and_order_iff (a b : StoreKey) (k : ParsedResourceKey) (g g' : UInt64) :
    ((a.text = b.text → a = b) ∧
      (makeVersionKey k.key g < makeVersionKey k.key g' ↔ g < g') ∧
      (makeVersionKey k.key g' < makeVersionKey k.key g ↔ g' < g)) ↔
    ((¬ StoreKey.Absorbs a b ∧ ¬ StoreKey.Absorbs b a ∧ ¬ StoreKey.SharesPrint a b) ∧
      (g < g' → PrintsBefore g g') ∧ (g' < g → PrintsBefore g' g)) := by
  refine and_congr ⟨fun h => ?_, fun h htext => ?_⟩ (versionOrder_iff k.key g g')
  · refine ⟨fun hab => hab.ne (h ?_), fun hba => hba.ne (h ?_).symm, fun hs => hs.ne (h ?_)⟩
    · exact text_eq_iff.mpr (Or.inr (Or.inl hab))
    · exact text_eq_iff.mpr (Or.inr (Or.inr (Or.inl hba)))
    · exact text_eq_iff.mpr (Or.inr (Or.inr (Or.inr hs)))
  · obtain ⟨hab, hba, hs⟩ := h
    rcases text_eq_iff.mp htext with heq | h | h | h
    · exact heq
    · exact absurd h hab
    · exact absurd h hba
    · exact absurd h hs

/-- Generations 10^15 and 10^15 + 1 share a version key, and generation 10^10 sorts before
    generation 9999999999. -/
theorem storeKeys_collide_and_misorder :
    ((StoreKey.version .defaultRuntime 1000000000000000).text =
        (StoreKey.version .defaultRuntime 1000000000000001).text ∧
      StoreKey.version .defaultRuntime 1000000000000000 ≠
        StoreKey.version .defaultRuntime 1000000000000001) ∧
    (makeVersionKey .defaultRuntime 10000000000 < makeVersionKey .defaultRuntime 9999999999 ∧
      ¬ (10000000000 : UInt64) < 9999999999) := by
  refine ⟨⟨?_, ?_⟩, ?_, ?_⟩
  · decide +kernel
  · intro h
    simp only [version.injEq] at h
    exact absurd h.2 (by decide)
  · decide +kernel
  · decide

end ByteTaper.ControlPlane
