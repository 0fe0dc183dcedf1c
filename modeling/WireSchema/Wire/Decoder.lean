import WireSchema.Wire.Basic

/-!
# Reading from bytes

A decoder takes the unread bytes and gives its result with the bytes that are still unread, also
when it fails: what was consumed before the failure stays consumed.
-/
namespace WireSchema.Wire

def Decoder (α : Type) : Type := List UInt8 → Except WireError α × List UInt8

namespace Decoder

variable {α β : Type}

def succeed (a : α) : Decoder α := fun input => (.ok a, input)

def andThen (d : Decoder α) (f : α → Decoder β) : Decoder β := fun input =>
  match d input with
  | (.ok a, rest) => f a rest
  | (.error e, rest) => (.error e, rest)

instance : Monad Decoder where
  pure := succeed
  bind := andThen

def fail (e : WireError) : Decoder α := fun input => (.error e, input)

/-- A read that never comes to its end, so that no input is left after it. -/
def endless : Decoder α := fun _ => (.error .endlessRecord, [])

@[simp]
theorem run_pure (a : α) (input : List UInt8) : (pure a : Decoder α) input = (.ok a, input) := rfl

@[simp]
theorem run_fail (e : WireError) (input : List UInt8) :
    (fail e : Decoder α) input = (.error e, input) := rfl

theorem run_bind (d : Decoder α) (f : α → Decoder β) (input : List UInt8) :
    (d >>= f) input =
      match d input with
      | (.ok a, rest) => f a rest
      | (.error e, rest) => (.error e, rest) := rfl

theorem andThen_succeed (d : Decoder α) : d.andThen succeed = d := by
  funext input
  unfold andThen succeed
  split <;> simp_all

theorem andThen_assoc {γ : Type} (d : Decoder α) (f : α → Decoder β) (g : β → Decoder γ) :
    (d.andThen f).andThen g = d.andThen fun a => (f a).andThen g := by
  funext input
  unfold andThen
  cases d input with
  | mk result rest => cases result <;> rfl

instance : LawfulMonad Decoder :=
  LawfulMonad.mk' Decoder andThen_succeed (fun _ _ => rfl) andThen_assoc

/-- The next `n` bytes. If there are fewer nothing is consumed. -/
def take (n : Nat) : Decoder (List UInt8) := fun input =>
  if n ≤ input.length then (.ok (input.take n), input.drop n) else (.error .unexpectedEof, input)

def word (width : Nat) : Decoder Nat := do
  return ofBigEndian (← take width)

/-- Runs a decoder `n` times. `done` holds the results so far, last one first. -/
def repeatInto (d : Decoder α) : (n : Nat) → (done : List α) → Decoder (List α)
  | 0, done => fun input => (.ok done.reverse, input)
  | n + 1, done => fun input =>
    match d input with
    | (.ok a, rest) => repeatInto d n (a :: done) rest
    | (.error e, rest) => (.error e, rest)

def times (d : Decoder α) (n : Nat) : Decoder (List α) := d.repeatInto n []

end Decoder
end WireSchema.Wire
