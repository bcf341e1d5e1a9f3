import MultidropBus.Bytes

/-!
# Flash memory

Erased flash holds `255` everywhere. What was programmed stands at its place, the rest is erased.
-/

namespace MultidropBus

inductive FlashError
  /-- The range lies outside the memory. -/
  | size
deriving DecidableEq, Repr

structure Flash where
  byteAt : Nat → UInt8
  /-- Why reads fail, if they do. -/
  failure : Option FlashError

namespace Flash

def erased : Flash := ⟨fun _ => 0xFF, none⟩

/-- Flash with bytes programmed from an address on. -/
def program (f : Flash) (start : Nat) (bytes : Bytes) : Flash :=
  { f with
    byteAt := fun i => if i < start then f.byteAt i else bytes.getD (i - start) (f.byteAt i) }

def read (f : Flash) (start length : Nat) : Except FlashError Bytes :=
  match f.failure with
  | some e => .error e
  | none => .ok ((List.range length).map fun i => f.byteAt (start + i))

end Flash

end MultidropBus
