import AsapCollector.Lib.Bytes

/-! A natural number as so many ones and a zero, an integer with its sign in front. -/

namespace AsapCollector

def unary (n : Nat) : Bytes := List.replicate n 1 ++ [0]

def signed (i : ℤ) : Bytes := (if i < 0 then 1 else 0) :: unary i.natAbs

def readUnary : Bytes → Nat × Bytes
  | [] => (0, [])
  | b :: bs => if b = 1 then ((readUnary bs).1 + 1, (readUnary bs).2) else (0, bs)

def readSigned : Bytes → ℤ × Bytes
  | [] => (0, [])
  | b :: bs => (if b = 1 then -(readUnary bs).1 else (readUnary bs).1, (readUnary bs).2)

theorem readUnary_unary (n : Nat) (rest : Bytes) : readUnary (unary n ++ rest) = (n, rest) := by
  induction n with
  | zero => rfl
  | succ n ih =>
    have hcons : unary (n + 1) ++ rest = 1 :: (unary n ++ rest) := rfl
    rw [hcons, readUnary, if_pos rfl, ih]

theorem readSigned_signed (i : ℤ) (rest : Bytes) : readSigned (signed i ++ rest) = (i, rest) := by
  show (if (if i < 0 then (1 : UInt8) else 0) = 1 then -((readUnary (unary i.natAbs ++ rest)).1 : ℤ)
    else (readUnary (unary i.natAbs ++ rest)).1, (readUnary (unary i.natAbs ++ rest)).2) = _
  rw [readUnary_unary]
  by_cases hneg : i < 0
  · rw [if_pos hneg, if_pos rfl]
    exact Prod.ext (by dsimp only; omega) rfl
  · rw [if_neg hneg, if_neg (by decide)]
    exact Prod.ext (by dsimp only; omega) rfl

end AsapCollector
