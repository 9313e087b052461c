import ByteTaper.JsonTransform.KeptPaths
import ByteTaper.Library.JsonLeaf

/-! # Which leaves a policy filter keeps

A filter that never keeps an array for its own sake drops leaves and nothing else: its projection is
`keepOnly` of the leaves whose path it keeps. The policy filters are of this kind; the selection filter
is not, since it leaves a selected array even without its elements. -/

namespace ByteTaper.JsonTransform

open Json Policy

/-- Arrays stay only with one of their elements. -/
def FieldRules.NoEmptyArrays (rules : FieldRules) : Prop :=
  ∀ path elementPath, rules.array path elementPath ≠ some true

theorem policyRules_noEmptyArrays (filter : FieldFilterPolicy) :
    (policyRules filter).NoEmptyArrays := by
  intro path elementPath
  simp only [policyRules]
  split <;> simp

/-- The arrays that are kept for their own sake are arrays in arrays and those of copied objects. -/
theorem FieldRules.NoEmptyArrays.keeps {rules : FieldRules} (hrules : rules.NoEmptyArrays) :
    ∀ {p : List Step} {place : Place}, rules.keeps place p .array → ∀ q kind,
      rules.keeps place (p ++ .element :: q) kind
  | [], .member path, h, q, kind => by
      simp only [FieldRules.keeps] at h
      split at h
      · cases h
      next elementPath _ => exact absurd (of_decide_eq_true h) (hrules path elementPath)
  | [], .element elementPath, h, q, kind => h
  | .key k :: p, place, h, q, kind => by
      simp only [List.cons_append, FieldRules.keeps] at h ⊢
      cases hobj : rules.objectAt place with
      | skip => simp only [hobj, Bool.false_eq_true] at h
      | copy => rfl
      | enter =>
        simp only [hobj] at h ⊢
        split at h
        · cases h
        next path hpath => exact hrules.keeps h q kind
  | .element :: p, .member path, h, q, kind => by
      simp only [List.cons_append, FieldRules.keeps] at h ⊢
      split at h
      · cases h
      next elementPath hpath =>
        split at h
        · cases h
        · exact hrules.keeps h q kind
  | .element :: p, .element elementPath, h, q, kind => h

theorem FieldRules.NoEmptyArrays.keepsArraysWhole {rules : FieldRules}
    (hrules : rules.NoEmptyArrays) (parent : Text) :
    KeepsArraysWhole (rules.keepsMember parent) := by
  intro p h q kind
  cases p with
  | nil => cases h
  | cons step =>
    cases step with
    | element => cases h
    | key =>
      simp only [List.cons_append, FieldRules.keepsMember] at h ⊢
      split at h
      · cases h
      · exact hrules.keeps h q kind

theorem projectMembers_keepOnly (rules : FieldRules) (hrules : rules.NoEmptyArrays)
    (members : Members) {parent : Text} {members' : Members}
    (h : projectMembers rules parent members = some members') :
    members' = members.keepOnly (rules.keepsMember parent) := by
  rw [projectMembers_keepAnchors members h]
  exact members.keepAnchors_eq_keepOnly (hrules.keepsArraysWhole parent)

end ByteTaper.JsonTransform
