import Mathlib.Algebra.Ring.Nat
import Mathlib.Data.List.Basic
import Metidos.Library.ExceptRules

namespace Bytes

def byte (value : Nat) : UInt8 := UInt8.ofNat (value % 256)

@[simp] theorem toNat_byte (value : Nat) : (byte value).toNat = value % 256 := by
  rw [byte, UInt8.toNat_ofNat', Nat.mod_mod]

def bigEndian : Nat → Nat → List UInt8
  | 0, _ => []
  | count + 1, value => byte (value / 256 ^ count) :: bigEndian count value

def ofBigEndian (bytes : List UInt8) : Nat :=
  bytes.foldl (fun value byte => value * 256 + byte.toNat) 0

@[simp] theorem bigEndian_length (count value : Nat) : (bigEndian count value).length = count := by
  induction count with
  | zero => rfl
  | succ count ih => rw [bigEndian, List.length_cons, ih]

theorem ofBigEndian_bigEndian_mod (count value : Nat) :
    ofBigEndian (bigEndian count value) = value % 256 ^ count := by
  have general : ∀ start, (bigEndian count value).foldl (fun value byte => value * 256 + byte.toNat)
      start = start * 256 ^ count + value % 256 ^ count := by
    induction count with
    | zero =>
      intro start
      simp [bigEndian, Nat.mod_one]
    | succ count ih =>
      intro start
      rw [bigEndian, List.foldl_cons, ih, toNat_byte, Nat.pow_succ, Nat.mod_mul]
      rw [Nat.add_mul, Nat.mul_assoc, Nat.mul_comm 256 (256 ^ count), Nat.mul_comm (value / _ % _)]
      omega
  simpa [ofBigEndian] using general 0

theorem ofBigEndian_bigEndian {count value : Nat} (bound : value < 256 ^ count) :
    ofBigEndian (bigEndian count value) = value := by
  rw [ofBigEndian_bigEndian_mod, Nat.mod_eq_of_lt bound]

/-- Seven bits a byte, the least significant first; at most `groups` bytes have a successor. -/
def varUint : Nat → Nat → List UInt8
  | 0, value => [byte value]
  | groups + 1, value =>
    if 0x80 ≤ value then byte (value % 128 + 128) :: varUint groups (value / 128)
    else [byte value]

end Bytes
