import Mathlib.Data.Nat.Digits.Lemmas

/-! A Go `string` and a Go `[]byte` are `Bytes`, and a literal of the source is `str "…"`, its UTF-8 bytes. Also what
the modelled code calls of `strconv`, `encoding/hex` and `encoding/binary`. -/

namespace AsapCollector

open List

abbrev Bytes := List UInt8

instance : LawfulBEq Bytes := inferInstance

def str (s : String) : Bytes := s.toByteArray.data.toList

@[simp] theorem str_inj {a b : String} : str a = str b ↔ a = b := by
  refine ⟨fun h => ?_, fun h => h ▸ rfl⟩
  rw [← String.toByteArray_inj]
  exact ByteArray.ext (Array.toList_inj.mp h)

@[simp] theorem str_eq_nil {a : String} : str a = [] ↔ a = "" := by
  rw [show ([] : Bytes) = str "" by decide, str_inj]

theorem append_separator_inj {sep : UInt8} {a b : Bytes} (ha : sep ∉ a) (hb : sep ∉ b) {s t : Bytes} :
    a ++ sep :: s = b ++ sep :: t ↔ a = b ∧ s = t := by
  refine ⟨fun h => ?_, fun h => by rw [h.1, h.2]⟩
  induction a generalizing b with
  | nil =>
    cases b with
    | nil => simpa using h
    | cons y b =>
      obtain ⟨rfl, -⟩ := cons.inj h
      exact absurd mem_cons_self hb
  | cons x a ih =>
    cases b with
    | nil =>
      obtain ⟨rfl, -⟩ := cons.inj h
      exact absurd mem_cons_self ha
    | cons y b =>
      obtain ⟨rfl, htail⟩ := cons.inj h
      obtain ⟨rfl, rfl⟩ := ih (fun hmem => ha (mem_cons_of_mem _ hmem)) (fun hmem => hb (mem_cons_of_mem _ hmem)) htail
      exact ⟨rfl, rfl⟩

/-- Pairs one after the other, with a byte after each first component and one after each second. -/
def spellPairs (a b : UInt8) (es : List (Bytes × Bytes)) : Bytes := es.flatMap fun e => e.1 ++ a :: (e.2 ++ [b])

@[simp] theorem spellPairs_nil (a b : UInt8) : spellPairs a b [] = [] := rfl

@[simp] theorem spellPairs_cons (a b : UInt8) (e : Bytes × Bytes) (es : List (Bytes × Bytes)) :
    spellPairs a b (e :: es) = e.1 ++ a :: (e.2 ++ b :: spellPairs a b es) := by
  simp [spellPairs]

theorem spellPairs_inj {a b : UInt8} : ∀ {es es' : List (Bytes × Bytes)}, (∀ e ∈ es, a ∉ e.1 ∧ b ∉ e.2) →
    (∀ e ∈ es', a ∉ e.1 ∧ b ∉ e.2) → spellPairs a b es = spellPairs a b es' → es = es'
  | [], [], _, _, _ => rfl
  | [], e :: es', _, _, h | e :: es', [], _, _, h => by simp [spellPairs] at h
  | (k, v) :: es, (k', v') :: es', hfree, hfree', h => by
    obtain ⟨⟨hk, hv⟩, hrest⟩ := forall_mem_cons.mp hfree
    obtain ⟨⟨hk', hv'⟩, hrest'⟩ := forall_mem_cons.mp hfree'
    rw [spellPairs_cons, spellPairs_cons] at h
    obtain ⟨hkey, h⟩ := (append_separator_inj hk hk').mp h
    obtain ⟨hvalue, htail⟩ := (append_separator_inj hv hv').mp h
    rw [spellPairs_inj hrest hrest' htail, show k = k' from hkey, show v = v' from hvalue]

namespace Bytes

def digitChar (d : Nat) : UInt8 := UInt8.ofNat (48 + d)

def formatUint (n : UInt64) : Bytes :=
  if n = 0 then [digitChar 0] else ((Nat.digits 10 n.toNat).reverse).map digitChar

/-- One step of the loop of `strconv.ParseUint`: `none` once a byte is not a decimal digit. -/
def parseStep (acc : Option Nat) (c : UInt8) : Option Nat :=
  acc.bind fun n => if 48 ≤ c.toNat ∧ c.toNat ≤ 57 then some (n * 10 + (c.toNat - 48)) else none

variable (s : Bytes)

/-- `strconv.ParseUint(s, 10, 64)`: the empty string, a byte that is no digit and a value of more
than 64 bits are errors. -/
def parseUint : Option UInt64 :=
  if s = [] then none
  else (s.foldl parseStep (some 0)).bind fun n => if n < 2 ^ 64 then some (UInt64.ofNat n) else none

theorem digitChar_toNat {d : Nat} (h : d < 10) : (digitChar d).toNat = 48 + d := by
  rw [digitChar, UInt8.toNat_ofNat']
  omega

theorem parseStep_digitChar {d : Nat} (h : d < 10) (n : Nat) :
    parseStep (some n) (digitChar d) = some (n * 10 + d) := by
  simp only [parseStep, Option.bind_some, digitChar_toNat h]
  rw [if_pos (by omega), Nat.add_sub_cancel_left]

theorem foldl_parseStep_digits (ds : List Nat) (h : ∀ d ∈ ds, d < 10) :
    (ds.reverse.map digitChar).foldl parseStep (some 0) = some (Nat.ofDigits 10 ds) := by
  induction ds with
  | nil => rfl
  | cons d ds ih =>
    rw [reverse_cons, map_append, foldl_append, ih fun x hx => h x (mem_cons_of_mem _ hx)]
    simp only [map_cons, map_nil, foldl_cons, foldl_nil]
    rw [parseStep_digitChar (h d mem_cons_self), Nat.ofDigits_cons]
    congr 1
    omega

theorem formatUint_ne_nil (n : UInt64) : formatUint n ≠ [] := by
  unfold formatUint
  split
  · exact cons_ne_nil _ _
  · next h =>
    have hn : n.toNat ≠ 0 := fun h0 => h (UInt64.toNat_inj.mp h0)
    simpa [Nat.digits_eq_nil_iff_eq_zero] using hn

@[simp] theorem parseUint_formatUint (n : UInt64) : parseUint (formatUint n) = some n := by
  have hval : (formatUint n).foldl parseStep (some 0) = some n.toNat := by
    unfold formatUint
    split
    · next h => subst h; decide
    · rw [foldl_parseStep_digits _ fun d hd => Nat.digits_lt_base (by decide) hd, Nat.ofDigits_digits]
  simp [parseUint, formatUint_ne_nil, hval, n.toNat_lt]

def hexChar (d : Nat) : UInt8 := if d < 10 then UInt8.ofNat (48 + d) else UInt8.ofNat (87 + d)

def hexEncode : Bytes := s.flatMap fun b => [hexChar (b.toNat / 16), hexChar (b.toNat % 16)]

/-- `strings.ToLower` on the bytes of ASCII letters. A letter outside ASCII never lowers to a
hexadecimal digit, the only text the modelled code compares a lowered string with. -/
def toLower : Bytes :=
  s.map fun b => if 65 ≤ b.toNat ∧ b.toNat ≤ 90 then UInt8.ofNat (b.toNat + 32) else b

theorem toLower_hexChar {d : Nat} (h : d < 16) : toLower [hexChar d] = [hexChar d] := by
  interval_cases d <;> decide

@[simp] theorem toLower_append (t : Bytes) : toLower (s ++ t) = toLower s ++ toLower t := map_append

@[simp] theorem toLower_hexEncode : toLower (hexEncode s) = hexEncode s := by
  induction s with
  | nil => rfl
  | cons b s ih =>
    have hcons : hexEncode (b :: s) = [hexChar (b.toNat / 16)] ++ ([hexChar (b.toNat % 16)] ++ hexEncode s) := rfl
    have hb := b.toNat_lt
    rw [hcons, toLower_append, toLower_append, ih, toLower_hexChar (by omega), toLower_hexChar (by omega)]

theorem hexEncode_ne_nil {s : Bytes} (h : s ≠ []) : hexEncode s ≠ [] := by
  cases s with
  | nil => exact absurd rfl h
  | cons b s => exact cons_ne_nil _ _

def bigEndian32 (n : Nat) : Bytes :=
  [UInt8.ofNat (n / 2 ^ 24), UInt8.ofNat (n / 2 ^ 16), UInt8.ofNat (n / 2 ^ 8), UInt8.ofNat n]

end Bytes

end AsapCollector
