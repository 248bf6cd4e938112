import AsapCollector.Lib.Reader

/-! The variable-length integers of `encoding/binary`. -/

namespace AsapCollector

open BitVec

/-- The loop of `binary.PutUvarint`; ten bytes hold any `uint64`. -/
def putUvarintLoop : Nat → Nat → Bytes
  | 0, x => [UInt8.ofNat x]
  | fuel + 1, x => if x < 128 then [UInt8.ofNat x] else UInt8.ofNat (x % 128 + 128) :: putUvarintLoop fuel (x / 128)

def putUvarint (x : Nat) : Bytes := putUvarintLoop 9 x

theorem putUvarint_ne_nil (x : Nat) : putUvarint x ≠ [] := by
  rw [putUvarint, putUvarintLoop]
  split <;> exact List.cons_ne_nil _ _

/-- The loop of `binary.Uvarint` from its byte `i` on, with `x` read so far; it refuses what does not
fit in 64 bits. -/
def uvarintLoop : Nat → Nat → Bytes → Option (Nat × Bytes)
  | _, _, [] => none
  | i, x, b :: rest =>
    if i = 10 then none
    else if b.toNat < 128 then
      if i = 9 ∧ 1 < b.toNat then none else some (x + b.toNat * 2 ^ (7 * i), rest)
    else uvarintLoop (i + 1) (x + b.toNat % 128 * 2 ^ (7 * i)) rest

def uvarint (bytes : Bytes) : Option (Nat × Bytes) := uvarintLoop 0 0 bytes

theorem uvarintLoop_putUvarintLoop (fuel : Nat) :
    ∀ {i x y : Nat} {rest : Bytes}, i + fuel = 9 → x < 2 ^ (7 * fuel + 1) →
      uvarintLoop i y (putUvarintLoop fuel x ++ rest) = some (y + x * 2 ^ (7 * i), rest) := by
  induction fuel with
  | zero =>
    intro i x y rest hi hx
    have hx' : x < 2 := by simpa using hx
    have hb : (UInt8.ofNat x).toNat = x := by simp; omega
    simp only [putUvarintLoop, List.singleton_append, uvarintLoop, hb]
    rw [if_neg (by omega), if_pos (by omega), if_neg (by omega)]
  | succ fuel ih =>
    intro i x y rest hi hx
    unfold putUvarintLoop
    split
    · rename_i hlt
      have hb : (UInt8.ofNat x).toNat = x := by simp; omega
      simp only [List.singleton_append, uvarintLoop, hb]
      rw [if_neg (by omega), if_pos hlt, if_neg (by omega)]
    · rename_i hge
      have hb : (UInt8.ofNat (x % 128 + 128)).toNat = x % 128 + 128 := by simp; omega
      have hmod : (x % 128 + 128) % 128 = x % 128 := by omega
      have hsmall : x / 128 < 2 ^ (7 * fuel + 1) := by
        rw [Nat.div_lt_iff_lt_mul (by decide)]
        calc x < 2 ^ (7 * (fuel + 1) + 1) := hx
          _ = 2 ^ (7 * fuel + 1) * 128 := by rw [show (128 : Nat) = 2 ^ 7 by rfl, ← pow_add]; congr 1
      simp only [List.cons_append, uvarintLoop, hb, hmod]
      rw [if_neg (by omega), if_neg (by omega), ih (by omega) hsmall]
      -- the low seven bits are in already, the rest is 128 times as much
      have hsplit : x % 128 * 2 ^ (7 * i) + x / 128 * 2 ^ (7 * (i + 1)) = x * 2 ^ (7 * i) := by
        rw [show 7 * (i + 1) = 7 + 7 * i by ring, pow_add, ← Nat.mul_assoc, ← Nat.add_mul]
        congr 1
        omega
      rw [Nat.add_assoc, hsplit]

theorem uvarint_putUvarint {x : Nat} (hx : x < 2 ^ 64) (rest : Bytes) :
    uvarint (putUvarint x ++ rest) = some (x, rest) := by
  have h := @uvarintLoop_putUvarintLoop 9 0 x 0 rest rfl (by simpa using hx)
  simpa [uvarint, putUvarint] using h

def readUvarint {ε : Type} (err : ε) : Reader ε Nat := fun bytes =>
  match uvarint bytes with
  | some out => .ok out
  | none => .error err

theorem reads_uvarint {ε : Type} (err : ε) {x : Nat} (hx : x < 2 ^ 64) :
    Reader.Reads (readUvarint err) (putUvarint x) x := by
  intro rest
  simp only [readUvarint, StateT.run, uvarint_putUvarint hx rest]

variable (v : BitVec 64)

def zigzag : BitVec 64 := (v <<< 1) ^^^ v.sshiftRight 63

def unzigzag (u : BitVec 64) : BitVec 64 := (u >>> 1) ^^^ -(u &&& 1)

theorem sshiftRight_63 : v.sshiftRight 63 = if v.msb then allOnes 64 else 0 := by
  ext i hi
  rw [getElem_sshiftRight]
  by_cases h : 63 + i < 64
  · obtain rfl : i = 0 := by omega
    cases hmsb : v.msb <;> simp_all [msb_eq_getLsbD_last]
  · cases hmsb : v.msb <;> simp [h, -reduceAllOnes]

theorem neg_and_one (u : BitVec 64) : -(u &&& 1) = if u.getLsbD 0 then allOnes 64 else 0 := by
  have hand : u &&& 1 = if u.getLsbD 0 then 1 else 0 := by
    ext i hi
    by_cases h : i = 0
    · subst h
      cases hu : u.getLsbD 0 <;> simp_all
    · cases hu : u.getLsbD 0 <;> simp [h, getElem_one]
  rw [hand]
  split <;> rfl

theorem unzigzag_zigzag : unzigzag (zigzag v) = v := by
  have hsign : (zigzag v).getLsbD 0 = v.msb := by
    rw [zigzag, sshiftRight_63]
    cases v.msb <;> simp
  have hbits : zigzag v >>> 1 = v ^^^ (if v.msb then allOnes 64 else 0) := by
    rw [zigzag, sshiftRight_63]
    ext i hi
    by_cases h : i = 63
    · subst h
      cases hmsb : v.msb <;> simp_all [msb_eq_getLsbD_last]
    · have hlt : 1 + i < 64 := by omega
      cases hmsb : v.msb <;> simp [hlt, -reduceAllOnes]
  rw [unzigzag, neg_and_one, hsign, hbits, xor_assoc]
  cases v.msb <;> simp

def putVarint : Bytes := putUvarint (zigzag v).toNat

def readVarint {ε : Type} (err : ε) : Reader ε (BitVec 64) :=
  (fun u => unzigzag (BitVec.ofNat 64 u)) <$> readUvarint err

theorem reads_varint {ε : Type} (err : ε) (v : BitVec 64) : Reader.Reads (readVarint err) (putVarint v) v := by
  have h : Reader.Reads (readVarint err) _ _ := (reads_uvarint err (zigzag v).isLt).map
  rwa [ofNat_toNat, setWidth_eq, unzigzag_zigzag] at h

end AsapCollector
