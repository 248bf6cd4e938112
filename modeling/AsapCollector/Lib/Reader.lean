import AsapCollector.Lib.Bytes

/-! A reader takes what it needs from the front of a list, of bytes or of bits, and leaves the rest, or fails. `Reads r
b v` says that `r` reads `v` from `b`, whatever follows. -/

namespace AsapCollector

/-- A reader with errors in `ε`: a Go reader over a buffer and a position, by what is left to read. -/
abbrev Reader (ε α : Type) := StateT Bytes (Except ε) α

namespace Reader

variable {σ ε α β : Type}

/-- `r` reads `v` from `b` and nothing of what follows. -/
def Reads (r : StateT (List σ) (Except ε) α) (b : List σ) (v : α) : Prop := ∀ rest, r.run (b ++ rest) = .ok (v, rest)

theorem Reads.pure (v : α) : Reads (pure v : StateT (List σ) (Except ε) α) [] v := fun _ => rfl

variable {r : StateT (List σ) (Except ε) α} {b : List σ} {v : α} {xs : List α}

theorem Reads.run_bind {f : α → StateT (List σ) (Except ε) β} (hr : Reads r b v) (rest : List σ) :
    (r >>= f).run (b ++ rest) = (f v).run rest := by
  rw [StateT.run_bind, hr rest]
  rfl

theorem Reads.bind {f : α → StateT (List σ) (Except ε) β} {b' : List σ} {w : β} (hr : Reads r b v)
    (hf : Reads (f v) b' w) : Reads (r >>= f) (b ++ b') w := by
  intro rest
  rw [List.append_assoc, hr.run_bind]
  exact hf rest

theorem Reads.map {f : α → β} (hr : Reads r b v) : Reads (f <$> r) b (f v) := by
  intro rest
  rw [StateT.run_map, hr rest]
  rfl

theorem Reads.bind_pure {f : α → β} (hr : Reads r b v) : Reads (do let x ← r; return f x) b (f v) := by
  have h : Reads (do let x ← r; return f x) (b ++ []) (f v) := hr.bind (Reads.pure (f v))
  rwa [List.append_nil] at h

def u8 (err : ε) : Reader ε UInt8 := fun
  | [] => .error err
  | b :: rest => .ok (b, rest)

theorem reads_u8 (err : ε) (b : UInt8) : Reads (u8 err) [b] b := fun _ => rfl

def times (r : StateT (List σ) (Except ε) α) : Nat → StateT (List σ) (Except ε) (List α)
  | 0 => return []
  | n + 1 => do
    let x ← r
    let xs ← times r n
    return x :: xs

theorem reads_times {write : α → List σ} (h : ∀ x ∈ xs, Reads r (write x) x) :
    Reads (times r xs.length) (xs.flatMap write) xs := by
  induction xs with
  | nil => exact .pure []
  | cons x xs ih =>
    refine (h x List.mem_cons_self).bind ?_
    exact (ih fun y hy => h y (List.mem_cons_of_mem x hy)).bind_pure

theorem length_le_flatMap {write : α → Bytes} (hwrite : ∀ x ∈ xs, write x ≠ []) :
    xs.length ≤ (xs.flatMap write).length := by
  induction xs with
  | nil => exact le_refl 0
  | cons x xs ih =>
    have hx : 0 < (write x).length := List.length_pos_iff.mpr (hwrite x List.mem_cons_self)
    have hxs := ih fun y hy => hwrite y (List.mem_cons_of_mem x hy)
    rw [List.flatMap_cons, List.length_append, List.length_cons]
    omega

theorem length_write_le (write : α → Bytes) {x : α} (hx : x ∈ xs) : (write x).length ≤ (xs.flatMap write).length := by
  rw [List.flatMap_def]
  exact (List.sublist_flatten_of_mem (List.mem_map_of_mem hx)).length_le

end Reader

end AsapCollector
