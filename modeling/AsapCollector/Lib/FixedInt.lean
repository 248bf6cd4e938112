import AsapCollector.Lib.Reader

/-!
# Fixed-width integers

`encoding/binary`: an unsigned number in a given number of bytes, lowest byte first or last.
-/

namespace AsapCollector

def littleEndian : Nat → Nat → Bytes
  | 0, _ => []
  | n + 1, x => UInt8.ofNat x :: littleEndian n (x / 256)

def ofLittleEndian (bytes : Bytes) : Nat := bytes.foldr (fun b x => b.toNat + 256 * x) 0

@[simp] theorem length_littleEndian (n : Nat) : ∀ x, (littleEndian n x).length = n := by
  induction n with
  | zero => exact fun _ => rfl
  | succ n ih => exact fun x => congrArg Nat.succ (ih _)

theorem ofLittleEndian_littleEndian (n : Nat) : ∀ {x}, x < 256 ^ n → ofLittleEndian (littleEndian n x) = x := by
  induction n with
  | zero =>
    intro x hx
    exact (Nat.lt_one_iff.mp (by simpa using hx)).symm
  | succ n ih =>
    intro x hx
    have hrest : x / 256 < 256 ^ n := by
      rw [Nat.div_lt_iff_lt_mul (by decide), ← pow_succ]
      exact hx
    have hbyte : (UInt8.ofNat x).toNat = x % 256 := by simp
    change (UInt8.ofNat x).toNat + 256 * ofLittleEndian (littleEndian n (x / 256)) = x
    rw [ih hrest, hbyte]
    exact Nat.mod_add_div x 256

def readBytes {ε : Type} (err : ε) (n : Nat) : Reader ε Bytes := fun bytes =>
  if bytes.length < n then .error err else .ok (bytes.take n, bytes.drop n)

theorem reads_bytes {ε : Type} (err : ε) {n : Nat} {bytes : Bytes} (h : bytes.length = n) :
    Reader.Reads (readBytes err n) bytes bytes := by
  intro rest
  subst h
  have hlen : ¬(bytes ++ rest).length < bytes.length := by simp
  simp only [StateT.run, readBytes, hlen, if_false, List.take_left, List.drop_left]

end AsapCollector
