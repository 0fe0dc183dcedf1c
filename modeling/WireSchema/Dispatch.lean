import Std.Data.TreeMap
import WireSchema.Config
import WireSchema.Value.Decode
import WireSchema.Value.Default

/-!
# Dispatch tables

The messages of one interface: requests and responses are found by the number of their operation,
exceptions by the name under which they travel. A oneway operation has no response.
-/
namespace WireSchema

open Schema Wire

structure Dispatch where
  schema : Schema
  cap : Nat
  interface : Interface
  requests : Std.TreeMap UInt32 Operation
  responses : Std.TreeMap UInt32 RecordType
  exceptions : Std.TreeMap String RecordType

namespace Dispatch

def exceptionRecord? (s : Schema) (id : TypeId) : Option RecordType :=
  match s.type id with
  | .record r => some r
  | _ => none

def ofInterface (s : Schema) (config : Config) (i : Interface) : Dispatch where
  schema := s
  cap := config.maxElements.toNat
  interface := i
  requests := i.operations.foldl (fun t op => t.insert op.uid op) ∅
  responses :=
    (i.operations.filterMap fun op => op.response?.map fun r => (op.uid, r)).foldl
      (fun t (uid, r) => t.insert uid r) ∅
  exceptions :=
    (i.exceptions.filterMap (exceptionRecord? s)).foldl
      (fun t r => t.insert (config.wireName r.name) r) ∅

variable (d : Dispatch)

def operation (number : UInt32) : Except WireError Operation :=
  match d.requests[number]? with
  | some op => .ok op
  | none => .error (.unknownOperation d.interface.name.text number.toNat)

def response (number : UInt32) : Except WireError RecordType :=
  match d.responses[number]? with
  | some r => .ok r
  | none => .error (.unknownResponse d.interface.name.text number.toNat)

def exception (name : String) : Except WireError RecordType :=
  match d.exceptions[name]? with
  | some r => .ok r
  | none => .error (.unknownException d.interface.name.text name)

def createRequest (number : UInt32) : Except WireError Value := do
  d.schema.defaultRecord (← d.operation number).request

def createResponse (number : UInt32) : Except WireError Value := do
  d.schema.defaultRecord (← d.response number)

def createException (name : String) : Except WireError Value := do
  d.schema.defaultRecord (← d.exception name)

/-- The empty response to a request, none for a oneway operation. -/
def defaultResponse (number : UInt32) : Except WireError (Option Value) := do
  match (← d.operation number).response? with
  | some r => return some (← d.schema.defaultRecord r)
  | none => return none

/-- Reads a message of the record that was looked up. A failed lookup consumes nothing. -/
def decodeAs (found : Except WireError RecordType) : Decoder Value :=
  match found with
  | .ok r => d.schema.decodeRecord d.cap r
  | .error e => .fail e

def decodeRequest (number : UInt32) : Decoder Value :=
  d.decodeAs ((d.operation number).map (·.request))

def decodeResponse (number : UInt32) : Decoder Value := d.decodeAs (d.response number)

def decodeException (name : String) : Decoder Value := d.decodeAs (d.exception name)

def encodeRequest (number : UInt32) (v : Value) : Except WireError (List UInt8) := do
  d.schema.recordToBytes d.cap (← d.operation number).request v

def encodeResponse (number : UInt32) (v : Value) : Except WireError (List UInt8) := do
  d.schema.recordToBytes d.cap (← d.response number) v

end Dispatch
end WireSchema
