/-
Frames with a four-byte big-endian length in front: a frame is read back from
any text that starts with it, and no frame starts another.
-/
import Mathlib.Algebra.Order.Ring.Int
import Mathlib.Tactic.Common

namespace Framing

abbrev Bytes := List UInt8

/-- `struct.pack("!I", n)` -/
def header (n : Nat) : Bytes :=
  [UInt8.ofNat (n / 16777216), UInt8.ofNat (n / 65536), UInt8.ofNat (n / 256), UInt8.ofNat n]

/-- `struct.unpack("!I", bytes[:4])` -/
def readSize : Bytes → Nat
  | a :: b :: c :: d :: _ => a.toNat * 16777216 + b.toNat * 65536 + c.toNat * 256 + d.toNat
  | _ => 0

def frame (raw : Bytes) : Bytes := header raw.length ++ raw

@[simp] theorem length_header (n : Nat) : (header n).length = 4 := rfl

@[simp] theorem length_frame (raw : Bytes) : (frame raw).length = raw.length + 4 := by
  simp [frame, Nat.add_comm]

theorem readSize_header {n : Nat} (h : n < 2 ^ 32) (rest : Bytes) : readSize (header n ++ rest) = n := by
  simp only [header, readSize, List.cons_append, UInt8.toNat_ofNat']
  omega

/-- The size is in the first four bytes. -/
theorem readSize_append {bytes : Bytes} (h : 4 ≤ bytes.length) (rest : Bytes) :
    readSize (bytes ++ rest) = readSize bytes := by
  match bytes, h with
  | a :: b :: c :: d :: more, _ => rfl

theorem readSize_frame {raw : Bytes} (h : raw.length < 2 ^ 32) (rest : Bytes) :
    readSize (frame raw ++ rest) = raw.length := by
  rw [frame, List.append_assoc, readSize_header h]

/-- The size of a frame is known as soon as its header is there. -/
theorem readSize_early {bytes raw rest : Bytes} (h : raw.length < 2 ^ 32) (hlen : 4 ≤ bytes.length)
    (hp : bytes <+: frame raw ++ rest) : readSize bytes = raw.length := by
  obtain ⟨more, hmore⟩ := hp
  rw [← readSize_append hlen more, hmore, readSize_frame h]

theorem take_frame (raw rest : Bytes) : ((frame raw ++ rest).drop 4).take raw.length = raw := by
  simp [frame, header]

theorem drop_frame (raw rest : Bytes) : (frame raw ++ rest).drop (raw.length + 4) = rest := by
  rw [← length_frame, List.drop_left]

/-- Frames are told apart in front of any text. -/
theorem frame_append_inj {raw raw' rest rest' : Bytes} (h : raw.length < 2 ^ 32) (h' : raw'.length < 2 ^ 32)
    (heq : frame raw ++ rest = frame raw' ++ rest') : raw = raw' ∧ rest = rest' := by
  have hlen : raw.length = raw'.length := by
    rw [← readSize_frame h rest, heq, readSize_frame h' rest']
  have hframe : (frame raw).length = (frame raw').length := by rw [length_frame, length_frame, hlen]
  obtain ⟨hraw, hrest⟩ := List.append_inj heq hframe
  exact ⟨(List.append_inj hraw (by simp)).2, hrest⟩

theorem header_readSize (a b c d : UInt8) (more : Bytes) : header (readSize (a :: b :: c :: d :: more)) = [a, b, c, d] := by
  have ha := a.toNat_lt
  have hb := b.toNat_lt
  have hc := c.toNat_lt
  have hd := d.toNat_lt
  simp only [header, readSize, List.cons.injEq, and_true, ← UInt8.toNat_inj, UInt8.toNat_ofNat']
  omega

/-- Bytes that hold a whole header and the size it tells start with a frame. -/
theorem eq_frame_append {bytes : Bytes} (h4 : 4 ≤ bytes.length) {size : Nat} (hsize : readSize bytes = size)
    (h : size + 4 ≤ bytes.length) :
    bytes = frame ((bytes.drop 4).take size) ++ bytes.drop (size + 4) := by
  have hlen : ((bytes.drop 4).take size).length = size := by
    rw [List.length_take, List.length_drop]
    omega
  have hheader : header size = bytes.take 4 := by
    match bytes, h4 with
    | a :: b :: c :: d :: more, _ => rw [← hsize, header_readSize]; rfl
  rw [frame, hlen, hheader, Nat.add_comm size 4, ← List.drop_drop, List.append_assoc, List.take_append_drop, List.take_append_drop]

end Framing
