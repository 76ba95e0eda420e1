import Mathlib
import CpsCore.DataPresentation.Hamming74

/-!
# `Packet`

A string of bytes that headers are put in front of and taken from.  The checksum is the one of
`boost::crc_ccitt_type`; it enters as the function `crc` of the bytes.
-/

namespace CpsCore

structure Packet where
  buffer_ : Bytes
  deriving DecidableEq, Repr

namespace Packet

def prepend (str : Bytes) (p : Packet) : Packet := ⟨str ++ p.buffer_⟩

def getSize (p : Packet) : ℕ := p.buffer_.length

/-- Removes the first `length` bytes, and returns what `std::string::erase` returns: the rest.
Nothing happens when the packet is shorter. -/
def consume (length : ℕ) (p : Packet) : Bytes × Packet :=
  if p.buffer_.length < length then ([], p)
  else (p.buffer_.drop length, ⟨p.buffer_.drop length⟩)

def getCRC16 (crc : Bytes → BitVec 16) (p : Packet) : BitVec 16 := crc p.buffer_

def hamming74Encode (p : Packet) : Packet := ⟨Hamming74.encode p.buffer_⟩

def hamming74Decode (p : Packet) : Packet := ⟨(Hamming74.decode p.buffer_).1⟩

lemma consume_of_le {length : ℕ} {p : Packet} (h : length ≤ p.buffer_.length) :
    (p.consume length).2 = ⟨p.buffer_.drop length⟩ := by
  rw [consume, if_neg (Nat.not_lt.mpr h)]

lemma consume_prepend (str : Bytes) (p : Packet) : ((p.prepend str).consume str.length).2 = p := by
  have h : str.length ≤ (p.prepend str).buffer_.length := by simp [prepend]
  rw [consume_of_le h]
  simp [prepend]

lemma hamming74Decode_encode (p : Packet) : p.hamming74Encode.hamming74Decode = p := by
  simp [hamming74Decode, hamming74Encode, Hamming74.decode_encode]

end Packet

end CpsCore
