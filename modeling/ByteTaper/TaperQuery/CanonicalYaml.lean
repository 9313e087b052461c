import ByteTaper.Library.Decimal
import ByteTaper.TaperQuery.PolicyIr

/-! # The head of canonical YAML

Canonical YAML begins with a line for every field of the metadata that is set. No label starts another
one, so documents with one head agree in these fields, if no field has a line end. -/

namespace ByteTaper.TaperQuery

open List PolicyLanguage

/-! ## Labelled lines -/

/-- A line for each field that is set. -/
def printFields (fields : List (Text × Text)) : Text :=
  fields.flatMap fun field => lineUnless (field.2 = []) field.1 field.2

/-- Neither text starts the other. -/
def Apart (a b : Text) : Prop := ¬a <+: b ∧ ¬b <+: a

instance (a b : Text) : Decidable (Apart a b) := inferInstanceAs (Decidable (_ ∧ _))

section Lines

variable {fields : List (Text × Text)} {field field' : Text × Text} {tail tail' : Text}

theorem printFields_cons : printFields (field :: fields) =
    (if field.2 = [] then [] else line field.1 field.2) ++ printFields fields := by
  simp [printFields, lineUnless]

theorem not_prefix_printFields {label : Text} (hne : label ≠ [])
    (hapart : ∀ f ∈ fields, Apart label f.1) : ¬label <+: printFields fields := by
  induction fields with
  | nil => simpa [printFields] using hne
  | cons field fields ih =>
    rw [forall_mem_cons] at hapart
    rw [printFields_cons]
    split_ifs
    · exact ih hapart.2
    · intro h
      have hlabel : field.1 <+: line field.1 field.2 ++ printFields fields := by simp [line]
      rcases prefix_or_prefix_of_prefix h hlabel with hstarts | hstarts
      · exact hapart.1.1 hstarts
      · exact hapart.1.2 hstarts

/-- A line tells its value and the rest, also where there is none. -/
theorem line_inj {label value value' : Text} (hline : '\n' ∉ value) (hline' : '\n' ∉ value')
    (htail : ¬label <+: tail) (htail' : ¬label <+: tail')
    (h : (if value = [] then [] else line label value) ++ tail =
      (if value' = [] then [] else line label value') ++ tail') : value = value' ∧ tail = tail' := by
  have hstarts : ∀ v t : Text, label <+: line label v ++ t := fun v t => by simp [line]
  split_ifs at h with hnone hnone' hnone'
  · exact ⟨hnone.trans hnone'.symm, h⟩
  · rw [nil_append] at h
    exact absurd (h ▸ hstarts _ _) htail
  · rw [nil_append] at h
    exact absurd (h ▸ hstarts _ _) htail'
  · simp only [line, append_assoc, append_cancel_left_eq, singleton_append] at h
    exact Text.append_sep_inj hline hline' h

/-- The lines of apart labels tell the values. -/
theorem printFields_inj {fields' : List (Text × Text)}
    (hlabels : fields.map Prod.fst = fields'.map Prod.fst)
    (hapart : (fields.map Prod.fst).Pairwise Apart) (hne : ∀ f ∈ fields, f.1 ≠ [])
    (hline : ∀ f ∈ fields, '\n' ∉ f.2) (hline' : ∀ f ∈ fields', '\n' ∉ f.2)
    (h : printFields fields = printFields fields') : fields = fields' := by
  induction fields generalizing fields' with
  | nil => exact (map_eq_nil_iff.mp hlabels.symm).symm
  | cons field fields ih =>
    obtain ⟨field', fields', rfl, hlabel, hlabels⟩ := map_eq_cons_iff.mp hlabels.symm
    rw [map_cons, pairwise_cons] at hapart
    rw [forall_mem_cons] at hne hline hline'
    have hrest : ∀ f ∈ fields, Apart field.1 f.1 := fun f hf =>
      hapart.1 _ (mem_map_of_mem hf)
    have hrest' : ∀ f ∈ fields', Apart field.1 f.1 := fun f hf =>
      hapart.1 _ (hlabels ▸ mem_map_of_mem hf)
    rw [printFields_cons, printFields_cons, hlabel] at h
    obtain ⟨hvalue, h⟩ := line_inj hline.1 hline'.1 (not_prefix_printFields hne.1 hrest)
      (not_prefix_printFields hne.1 hrest') h
    rw [Prod.ext hlabel.symm hvalue, ih hlabels.symm hapart.2 hne.2 hline.2 hline'.2 h]

end Lines

/-! ## The metadata of a document -/

def unlessZero (n : Nat) : Text := if n = 0 then [] else Nat.toDigits 10 n

theorem unlessZero_inj {m n : Nat} (h : unlessZero m = unlessZero n) : m = n := by
  unfold unlessZero at h
  split_ifs at h with hm hn hn
  · rw [hm, hn]
  · exact absurd h.symm Nat.toDigits_ne_nil
  · exact absurd h Nat.toDigits_ne_nil
  · exact Decimal.toDigits_inj h

theorem lineUnless_unlessZero (label : Text) (n : Nat) :
    lineUnless (unlessZero n = []) label (unlessZero n) =
      lineUnless (n = 0) label (Nat.toDigits 10 n) := by
  by_cases h : n = 0 <;> simp [unlessZero, lineUnless, h, Nat.toDigits_ne_nil]

section Documents

variable {ρ : Type} (d : TqPolicyDocument ρ)

/-- The fields in the order of their lines. -/
def headFields : List (Text × Text) :=
  [(lit "apiVersion: ", d.apiVersion), (lit "kind: ", d.kind),
    (lit "metadata",
      if 0 < d.generation ∨ d.policyId ≠ [] ∨ 0 < d.schemaVersionNum then [':'] else []),
    (lit "  generation: ", unlessZero d.generation.toNat), (lit "  policyId: ", d.policyId),
    (lit "  schemaVersion: ", unlessZero d.schemaVersionNum.toNat)]

theorem printFields_headFields : printFields (headFields d) =
    lineUnless (d.apiVersion = []) (lit "apiVersion: ") d.apiVersion ++
      lineUnless (d.kind = []) (lit "kind: ") d.kind ++ printMetadata d := by
  have hgen : d.generation = 0 ↔ d.generation.toNat = 0 := UInt64.toNat_inj.symm
  have hschema : d.schemaVersionNum = 0 ↔ d.schemaVersionNum.toNat = 0 := UInt32.toNat_inj.symm
  simp only [printMetadata, headFields, printFields, flatMap_cons, flatMap_nil, append_nil,
    append_assoc, lineUnless_unlessZero, ← hgen, ← hschema]
  congr 2
  split_ifs with hset
  · simp [lineUnless, line, lit]
  · obtain ⟨hgen, hid, hschema⟩ : d.generation = 0 ∧ d.policyId = [] ∧ d.schemaVersionNum = 0 := by
      simpa [UInt64.pos_iff_ne_zero, UInt32.pos_iff_ne_zero] using hset
    simp [lineUnless, hgen, hid, hschema]

variable {d} {d' : TqPolicyDocument ρ}

/-- No field of the metadata has a line end. -/
def OneLine (d : TqPolicyDocument ρ) : Prop :=
  '\n' ∉ d.apiVersion ∧ '\n' ∉ d.kind ∧ '\n' ∉ d.policyId

theorem OneLine.headFields (h : OneLine d) : ∀ f ∈ headFields d, '\n' ∉ f.2 := by
  have hdigits : ∀ n, '\n' ∉ unlessZero n := by
    intro n hmem
    unfold unlessZero at hmem
    split_ifs at hmem
    · cases hmem
    · exact absurd (Decimal.digits_toDigits n _ hmem) (by decide)
  simp only [TaperQuery.headFields, forall_mem_cons]
  exact ⟨h.1, h.2.1, by split_ifs <;> decide, hdigits _, h.2.2, hdigits _, by simp⟩

/-- A head tells the metadata. -/
theorem headFields_inj (hd : OneLine d) (hd' : OneLine d')
    (h : printFields (headFields d) = printFields (headFields d')) :
    headFields d = headFields d' := by
  have hapart : ((headFields d).map Prod.fst).Pairwise Apart :=
    (by decide +kernel : ((headFields ({} : TqPolicyDocument Empty)).map Prod.fst).Pairwise Apart)
  have hlabels : (headFields d).map Prod.fst = (headFields d').map Prod.fst := rfl
  exact printFields_inj hlabels hapart (by simp [headFields, lit]) hd.headFields hd'.headFields h

end Documents

end ByteTaper.TaperQuery
