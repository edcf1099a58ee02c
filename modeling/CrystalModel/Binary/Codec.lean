import CrystalModel.Binary.LittleEndian

/-! # Fixed-width forms

A codec writes every value of a type in the same number of bytes and reads any byte string of
that length. Codecs of records are put together from those of their fields. -/
namespace CrystalModel.Binary

structure Codec (α : Type) where
  width : Nat
  write : α → Bytes
  read : Bytes → α

/-- Writing fills the width, and reading and writing undo each other. -/
structure Codec.Lawful {α : Type} (c : Codec α) : Prop where
  write_length : ∀ a, (c.write a).length = c.width
  read_write : ∀ a, c.read (c.write a) = a
  write_read : ∀ bytes : Bytes, bytes.length = c.width → c.write (c.read bytes) = bytes

/-- A double by its bit pattern, so that not even a NaN changes on its way through bytes. -/
structure Binary64 where
  bits : UInt64
deriving DecidableEq, Repr

namespace Binary64

def ofFloat (x : Float) : Binary64 := ⟨x.toBits⟩

/-- The result of a calculation. Where it is not a number, its sign bit is set. -/
def ofResult (x : Float) : Binary64 := if x.isNaN then ⟨0xFFF8000000000000⟩ else ofFloat x

def toFloat (b : Binary64) : Float := Float.ofBits b.bits

end Binary64

namespace Codec

def byte : Codec UInt8 := ⟨1, fun b => [b], fun bytes => bytes.headD 0⟩

def uint32 : Codec UInt32 := ⟨4, fun n => word 4 n.toNat, fun bytes => UInt32.ofNat (value bytes)⟩

def int32 : Codec Int32 :=
  ⟨4, fun n => word 4 n.toUInt32.toNat, fun bytes => (UInt32.ofNat (value bytes)).toInt32⟩

def int64 : Codec Int64 :=
  ⟨8, fun n => word 8 n.toUInt64.toNat, fun bytes => (UInt64.ofNat (value bytes)).toInt64⟩

def binary64 : Codec Binary64 :=
  ⟨8, fun b => word 8 b.bits.toNat, fun bytes => ⟨UInt64.ofNat (value bytes)⟩⟩

variable {α β : Type}

def pair (c : Codec α) (d : Codec β) : Codec (α × β) where
  width := c.width + d.width
  write := fun (a, b) => c.write a ++ d.write b
  read := fun bytes => (c.read (bytes.take c.width), d.read (bytes.drop c.width))

def vector (n : Nat) (c : Codec α) : Codec (Vector α n) where
  width := n * c.width
  write := fun v => v.toList.flatMap c.write
  read := fun bytes => Vector.ofFn fun i => c.read ((bytes.drop (i * c.width)).take c.width)

def map (c : Codec α) (make : α → β) (back : β → α) : Codec β where
  width := c.width
  write := fun b => c.write (back b)
  read := fun bytes => make (c.read bytes)

end Codec

/-- Cuts bytes into pieces of equal width; a shorter rest is dropped. -/
def chunks (width : Nat) (bytes : Bytes) : List Bytes :=
  if width = 0 ∨ bytes.length < width then []
  else bytes.take width :: chunks width (bytes.drop width)
termination_by bytes.length
decreasing_by
  rw [List.length_drop]
  omega

end CrystalModel.Binary
