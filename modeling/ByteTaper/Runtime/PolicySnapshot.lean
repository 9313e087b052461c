import ByteTaper.TaperQuery.RoutePolicyIr

/-! # The served policy

`policy_snapshot.cpp`: snapshots built from policy documents, and the store that holds the snapshot that
is served. What a snapshot compiles for the data path is left out. -/

namespace ByteTaper.Runtime

open TaperQuery

structure RuntimePolicySnapshot where
  policyIdentity : Text
  sourceName : Text := []
  generation : UInt64 := 0
  policyIr : PolicyIr := {}

structure RuntimePolicySnapshotBuildResult where
  ok : Bool := false
  snapshot : Option RuntimePolicySnapshot := none
  error : Text := []

def buildRuntimePolicySnapshotFromIr (L : IrLanguage) (policyIr : PolicyIr) (generation : UInt64) :
    RuntimePolicySnapshotBuildResult where
  ok := true
  snapshot := some
    { policyIdentity :=
        if policyIr.routes.isEmpty then lit "empty" else L.computePolicyDocumentIdentity policyIr
      sourceName := policyIr.sourceName
      generation
      policyIr }

structure RuntimePolicyStore where
  active : Option RuntimePolicySnapshot := none
  generation : UInt64 := 0

namespace RuntimePolicyStore

def swap (store : RuntimePolicyStore) (snapshot : RuntimePolicySnapshot) :
    Except Text RuntimePolicyStore :=
  match store.active with
  | none => .error (lit "store not initialized")
  | some _ => .ok { store with active := some snapshot }

def swapIfCurrent (store : RuntimePolicyStore) (expectedIdentity : Text)
    (snapshot : RuntimePolicySnapshot) : Except Text RuntimePolicyStore :=
  match store.active with
  | none => .error (lit "store not initialized")
  | some active =>
    if active.policyIdentity ≠ expectedIdentity then
      .error (lit "CAS mismatch: active policy identity '" ++ active.policyIdentity ++
        lit "' does not match expected identity '" ++ expectedIdentity ++ lit "'")
    else if snapshot.generation ≠ store.generation + 1 then
      .error (lit "invalid generation sequence: snapshot generation " ++
        Nat.toDigits 10 snapshot.generation.toNat ++ lit " must be exactly " ++
        Nat.toDigits 10 (store.generation + 1).toNat)
    else .ok { active := some snapshot, generation := snapshot.generation }

/-- A store that serves a snapshot counts with its generation. -/
def serving (snapshot : RuntimePolicySnapshot) : RuntimePolicyStore where
  active := some snapshot
  generation := snapshot.generation

end RuntimePolicyStore

end ByteTaper.Runtime
