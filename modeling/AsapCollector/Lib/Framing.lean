import AsapCollector.Lib.Varint

/-! A reader that knows the length of its buffer reads a record from the bytes of the record, and refuses every part of
them that ends too early. -/

namespace AsapCollector

open List
namespace Reader

variable {ε α β : Type}

/-- In a buffer of `total` bytes `r` reads `v` from `b`, and a buffer that ends inside `b` gives an error that
is `refused`. The record ends at a position below `limit`, cut or not. -/
structure Framed (refused : ε → Prop) (limit total : Nat) (r : Reader ε α) (b : Bytes) (v : α) : Prop where
  reads : ∀ rest, (b ++ rest).length ≤ total → r.run (b ++ rest) = .ok (v, rest)
  cut : ∀ p, p <+: b → p ≠ b → p.length ≤ total → total - p.length + b.length < limit →
    ∃ err, r.run p = .error err ∧ refused err

variable {refused : ε → Prop} {limit total : Nat} {r : Reader ε α} {b : Bytes} {v : α} {f : α → Reader ε β}

theorem run_bind_error {bytes : Bytes} {err : ε} (h : r.run bytes = .error err) :
    (r >>= f).run bytes = .error err := by
  rw [StateT.run_bind, h]
  rfl

theorem run_bind_ok {bytes rest : Bytes} (h : r.run bytes = .ok (v, rest)) :
    (r >>= f).run bytes = (f v).run rest := by
  rw [StateT.run_bind, h]
  rfl

theorem Framed.pure (v : α) : Framed refused limit total (pure v : Reader ε α) [] v where
  reads _ _ := rfl
  cut _ hp hne := absurd (prefix_nil.mp hp) hne

theorem Framed.of_reads (hr : Reads r b v) (hcut : ∀ p, p <+: b → p ≠ b → ∃ err, r.run p = .error err ∧ refused err) :
    Framed refused limit total r b v :=
  ⟨fun rest _ => hr rest, fun p hp hne _ _ => hcut p hp hne⟩

theorem Framed.bind {b' : Bytes} {w : β} (hr : Framed refused limit total r b v)
    (hf : Framed refused limit total (f v) b' w) : Framed refused limit total (r >>= f) (b ++ b') w where
  reads rest hle := by
    rw [append_assoc] at hle ⊢
    rw [run_bind_ok (hr.reads _ hle)]
    refine hf.reads rest (le_trans ?_ hle)
    simp
  cut p hp hne hle hlimit := by
    rw [length_append] at hlimit
    rcases prefix_or_prefix_of_prefix (prefix_append b b') hp with ⟨q, rfl⟩ | hin
    · -- the first record is whole
      rw [length_append] at hle hlimit
      rw [run_bind_ok (hr.reads q (by simpa using hle))]
      refine hf.cut q ((prefix_append_right_inj b).mp hp) (fun hq => hne (hq ▸ rfl)) (by omega) (by omega)
    · rcases eq_or_ne p b with rfl | hcut
      · have hread := hr.reads [] (by simpa using hle)
        rw [append_nil] at hread
        rw [run_bind_ok hread]
        refine hf.cut [] nil_prefix (fun hb' => hne (by rw [← hb', append_nil])) (Nat.zero_le _) ?_
        simp only [length_nil]
        omega
      · obtain ⟨err, herr, hrefused⟩ := hr.cut p hin hcut hle (by omega)
        exact ⟨err, run_bind_error herr, hrefused⟩

theorem Framed.bind_pure {f : α → β} (hr : Framed refused limit total r b v) :
    Framed refused limit total (do let x ← r; return f x) b (f v) := by
  have h : Framed refused limit total (do let x ← r; return f x) (b ++ []) (f v) := hr.bind (Framed.pure (f v))
  rwa [append_nil] at h

theorem Framed.check {c : Except ε Unit} (hc : c = .ok ()) (hr : Framed refused limit total r b v) :
    Framed refused limit total ((liftM c : Reader ε Unit) >>= fun _ => r) b v := by
  rw [hc]
  exact hr

theorem framed_u8 {err : ε} (herr : refused err) (b : UInt8) : Framed refused limit total (u8 err) [b] b := by
  refine .of_reads (reads_u8 err b) fun p hp hne => ⟨err, ?_, herr⟩
  rcases prefix_concat_iff.mp (show p <+: [] ++ [b] from hp) with rfl | hnil
  · exact absurd rfl hne
  · rw [prefix_nil.mp hnil]
    rfl

end Reader

theorem uvarintLoop_cut (fuel : Nat) :
    ∀ {i x y : Nat} {p : Bytes}, p <+: putUvarintLoop fuel x → p ≠ putUvarintLoop fuel x →
    uvarintLoop i y p = none := by
  induction fuel with
  | zero =>
    intro i x y p hp hne
    cases p with
    | nil => rfl
    | cons b p =>
      obtain ⟨rfl, htail⟩ := cons_prefix_cons.mp hp
      exact absurd (prefix_nil.mp htail ▸ rfl) hne
  | succ fuel ih =>
    intro i x y p hp hne
    cases p with
    | nil => rfl
    | cons b p =>
      rw [putUvarintLoop] at hp hne
      split at hp
      · next hlt =>
        obtain ⟨rfl, htail⟩ := cons_prefix_cons.mp hp
        rw [if_pos hlt] at hne
        exact absurd (prefix_nil.mp htail ▸ rfl) hne
      · next hge =>
        -- the byte has its high bit set, so the loop goes on to what is left of the rest
        obtain ⟨rfl, htail⟩ := cons_prefix_cons.mp hp
        rw [if_neg hge] at hne
        have hb : ¬(UInt8.ofNat (x % 128 + 128)).toNat < 128 := by simp; omega
        rw [uvarintLoop, if_neg hb, ih htail fun heq => hne (heq ▸ rfl), ite_self]

open Reader

variable {ε : Type} {refused : ε → Prop} {limit total : Nat}

theorem framed_uvarint {err : ε} (herr : refused err) {x : Nat} (hx : x < 2 ^ 64) :
    Framed refused limit total (readUvarint err) (putUvarint x) x := by
  refine .of_reads (reads_uvarint err hx) fun p hp hne => ⟨err, ?_, herr⟩
  have hnone : uvarint p = none := uvarintLoop_cut 9 hp hne
  simp only [readUvarint, StateT.run, hnone]

theorem framed_varint {err : ε} (herr : refused err) (v : BitVec 64) :
    Framed refused limit total (readVarint err) (putVarint v) v := by
  refine .of_reads (reads_varint err v) fun p hp hne => ?_
  have hnone : uvarint p = none := uvarintLoop_cut 9 hp hne
  refine ⟨err, ?_, herr⟩
  rw [readVarint, StateT.run_map]
  simp only [readUvarint, StateT.run, hnone]
  rfl

end AsapCollector
