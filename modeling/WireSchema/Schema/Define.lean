import WireSchema.Schema.Resolve

/-!
# Defining types

The second pass resolves what the declared types refer to and puts the definitions into the table.
-/
namespace WireSchema.Schema

/-- Members with distinct names. A repeated name is noticed before its type is resolved. -/
def resolveMembers (owner : QualifiedName) :
    (seen : List String) → List Document.Member → Build (List Member)
  | _, [] => return []
  | seen, m :: members => do
    if m.name ∈ seen then throw (.duplicateName owner.text m.name)
    let type ← resolve owner.scope m.type
    let rest ← resolveMembers owner (m.name :: seen) members
    return ⟨m.name, type⟩ :: rest

def ordinal? (v : Int64) : Option Int32 :=
  if -0x80000000 ≤ v.toInt ∧ v.toInt < 0x80000000 then some v.toInt32 else none

def checkEnumerators (owner : QualifiedName) : (names : List String) → (values : List Int32) →
    List Document.Enumerator → Except SchemaError (List Enumerator)
  | _, _, [] => return []
  | names, values, e :: enumerators => do
    if e.name ∈ names then throw (.duplicateName owner.text e.name)
    match ordinal? e.value with
    | none => throw (.duplicateEnumValue owner.text e.name e.value.toInt)
    | some v =>
      if v ∈ values then throw (.duplicateEnumValue owner.text e.name e.value.toInt)
      let rest ← checkEnumerators owner (e.name :: names) (v :: values) enumerators
      return ⟨e.name, v⟩ :: rest

def checkEnum (owner : QualifiedName) (enumerators : List Document.Enumerator) :
    Except SchemaError EnumType := do
  if enumerators.isEmpty then throw (.emptyEnum owner.text)
  return ⟨owner, ← checkEnumerators owner [] [] enumerators⟩

/-- The definition that a declaration gives. Aliases and forward declarations give none. -/
def definition? (p : Pending) : Build (Option TypeDef) := do
  match p.body with
  | .record members => return some (.record ⟨p.name, .plain, ← resolveMembers p.name [] members⟩)
  | .exception members =>
    return some (.record ⟨p.name, .exception, ← resolveMembers p.name [] members⟩)
  | .sequence element => return some (.sequence ⟨p.name, ← resolve p.name.scope element⟩)
  | .map key value =>
    let key ← resolve p.name.scope key
    let value ← resolve p.name.scope value
    return some (.map ⟨p.name, key, value⟩)
  | .enumeration enumerators => return some (.enumeration (← checkEnum p.name enumerators))
  | .alias _ => return none
  | .forward => return none

def definePending (p : Pending) : Build Unit := do
  match ← definition? p with
  | some type => Draft.define p.id type
  | none => return

def defineAll : Build Unit := do
  let waiting := (← get).pending
  modify fun d => { d with pending := [] }
  waiting.forM definePending

def checkMapKeys (types : Array TypeDef) : Except SchemaError Unit :=
  types.toList.forM fun
    | .map m =>
      let key := types.getD m.key.index (.forward .root)
      if key.isOrderable then .ok () else .error (.unorderedMapKey m.name.text key.describe)
    | _ => .ok ()

end WireSchema.Schema
