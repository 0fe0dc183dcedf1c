import WireSchema.Name
import WireSchema.Schema.Error

/-!
# Spellings taken in one scope

Distinct names can have the same spelling: `fileId` and `file_id` are both spelt `file_id`. A scope
records which spellings are taken, and the second claim of one fails.
-/
namespace WireSchema.Identifier

structure Namespace where
  scope : QualifiedName
  taken : List String

namespace Namespace

def reserving (scope : QualifiedName) (reserved : List String) : Namespace := ⟨scope, reserved⟩

def fresh (scope : QualifiedName) : Namespace := reserving scope []

/-- Takes `spelling` for the declaration `name`. -/
def claim (n : Namespace) (spelling name : String) : Except SchemaError Namespace :=
  if spelling ∈ n.taken then .error (.duplicateName n.scope.text name)
  else .ok { n with taken := spelling :: n.taken }

/-- Claims one spelling after the other. -/
def claimAll (n : Namespace) (claims : List (String × String)) : Except SchemaError Namespace :=
  claims.foldlM (fun n (spelling, name) => n.claim spelling name) n

theorem claim_eq_ok_iff {n n' : Namespace} {spelling name : String} :
    n.claim spelling name = .ok n' ↔
      spelling ∉ n.taken ∧ n' = { n with taken := spelling :: n.taken } := by
  unfold claim
  split <;> simp_all [eq_comm]

end Namespace
end WireSchema.Identifier
