import Mathlib.Data.List.Basic
import Mathlib.Data.List.DropRight
import Mathlib.Tactic.Ring

/-!
# Byte strings and positional coding

Fixed-length byte arrays and the little- and big-endian codings of naturals.

* `Bytes n`: the byte strings of length `n`; the length is part of the value.
* `toLE` / `fromLE`, `toBE` / `fromBE`: the `k`-byte codings.
* `fromLE_toLE`: decoding inverts encoding modulo `256 ^ k`.
* `toLE_fromLE`: encoding inverts decoding.
* `resize_eq_iff`: when two byte strings are equal once they are filled up with zeros.
* `Bytes.append_inj`: a concatenation of fixed-length parts determines its parts.
-/

namespace Blackwing

/-- A byte array `[u8; n]`. -/
def Bytes (n : Nat) : Type := {l : List UInt8 // l.length = n}

instance {n : Nat} : DecidableEq (Bytes n) :=
  inferInstanceAs (DecidableEq {l : List UInt8 // l.length = n})

namespace Bytes

variable {n : Nat}

/-- The bytes as a slice. -/
def toList (b : Bytes n) : List UInt8 := b.val

/-- The checked conversion of a slice into an array of length `n`. -/
def ofList? (n : Nat) (l : List UInt8) : Option (Bytes n) :=
  if h : l.length = n then some ⟨l, h⟩ else none

/-- The array whose bytes are all `b`. -/
def fill (n : Nat) (b : UInt8) : Bytes n := ⟨List.replicate n b, List.length_replicate⟩

@[simp] theorem length_toList (b : Bytes n) : b.toList.length = n := b.property

theorem toList_injective {a b : Bytes n} (h : a.toList = b.toList) : a = b := Subtype.ext h

@[simp] theorem ofList?_toList (b : Bytes n) : ofList? n b.toList = some b := by
  unfold ofList?
  rw [dif_pos b.length_toList]
  rfl

theorem ofList?_eq_some {l : List UInt8} {b : Bytes n} : ofList? n l = some b ↔ l = b.toList := by
  constructor
  · intro h
    unfold ofList? at h
    split at h
    · cases h
      rfl
    · exact nomatch h
  · rintro rfl
    exact ofList?_toList b

theorem ofList?_isSome {l : List UInt8} : (ofList? n l).isSome ↔ l.length = n := by
  unfold ofList?
  split
  · next h => exact ⟨fun _ => h, fun _ => rfl⟩
  · next h => exact ⟨(fun hs => nomatch hs), fun hl => absurd hl h⟩

theorem append_inj {a b : Bytes n} {s t : List UInt8} (h : a.toList ++ s = b.toList ++ t) :
    a = b ∧ s = t := by
  obtain ⟨hab, hst⟩ := List.append_inj h (by simp)
  exact ⟨toList_injective hab, hst⟩

/-- `b[i] = x`. -/
def set (b : Bytes n) (i : Nat) (x : UInt8) : Bytes n :=
  ⟨b.val.set i x, by rw [List.length_set]; exact b.property⟩

/-- The array after writing `xs` one by one from position `i` on. -/
def writeFrom (b : Bytes n) : Nat → List UInt8 → Bytes n
  | _, [] => b
  | i, x :: xs => writeFrom (b.set i x) (i + 1) xs

theorem toList_writeFrom (b : Bytes n) (i : Nat) (xs : List UInt8) (h : i + xs.length ≤ n) :
    (b.writeFrom i xs).toList = b.toList.take i ++ (xs ++ b.toList.drop (i + xs.length)) := by
  induction xs generalizing b i with
  | nil => rw [writeFrom, List.length_nil, Nat.add_zero, List.nil_append, List.take_append_drop]
  | cons x xs ih =>
    rw [List.length_cons] at h
    have hi : i < b.toList.length := by
      rw [length_toList]
      omega
    have htake : (b.toList.set i x).take (i + 1) = b.toList.take i ++ [x] := by
      rw [List.take_set, List.take_succ_eq_append_getElem hi, List.set_append_right _ _ (by simp),
        List.length_take, Nat.min_eq_left (Nat.le_of_lt hi), Nat.sub_self]
      rfl
    have hdrop : (b.toList.set i x).drop (i + 1 + xs.length) = b.toList.drop (i + 1 + xs.length) :=
      List.drop_set_of_lt (by omega)
    rw [writeFrom, ih (b.set i x) (i + 1) (by omega)]
    show (b.toList.set i x).take (i + 1) ++ (xs ++ (b.toList.set i x).drop (i + 1 + xs.length)) = _
    rw [htake, hdrop, List.length_cons, List.append_assoc, List.singleton_append, List.cons_append,
      Nat.add_right_comm, Nat.add_assoc]

/-- Writing all positions leaves what was written. -/
theorem toList_writeFrom_zero (b : Bytes n) {xs : List UInt8} (h : xs.length = n) :
    (b.writeFrom 0 xs).toList = xs := by
  rw [toList_writeFrom b 0 xs (by omega), List.take_zero, List.nil_append, Nat.zero_add, h,
    List.drop_eq_nil_of_le (Nat.le_of_eq b.length_toList), List.append_nil]

end Bytes

/-- The bytes, cut or filled up with zeros to the length `n`: `Vec::resize`. -/
def resize (n : Nat) (l : List UInt8) : List UInt8 := l.take n ++ List.replicate (n - l.length) 0

theorem length_resize (n : Nat) (l : List UInt8) : (resize n l).length = n := by
  rw [resize, List.length_append, List.length_take, List.length_replicate]
  rcases Nat.le_total n l.length with h | h
  · rw [Nat.min_eq_left h, Nat.sub_eq_zero_of_le h, Nat.add_zero]
  · rw [Nat.min_eq_right h, Nat.add_sub_cancel' h]

theorem resize_length (l : List UInt8) : resize l.length l = l := by
  rw [resize, List.take_length, Nat.sub_self, List.replicate_zero, List.append_nil]

/-- The bytes without the zeros at their end. -/
def dropZeros (l : List UInt8) : List UInt8 := l.rdropWhile (· = 0)

theorem dropZeros_append_replicate (l : List UInt8) (k : Nat) :
    dropZeros (l ++ List.replicate k 0) = dropZeros l := by
  induction k with
  | zero => rw [List.replicate_zero, List.append_nil]
  | succ k ih =>
    rw [List.replicate_succ', ← List.append_assoc, dropZeros,
      List.rdropWhile_concat_pos _ _ _ (by decide)]
    exact ih

theorem exists_eq_dropZeros_append (l : List UInt8) : ∃ k, l = dropZeros l ++ List.replicate k 0 := by
  induction l using List.reverseRecOn with
  | nil => exact ⟨0, rfl⟩
  | append_singleton l x ih =>
    rw [dropZeros, List.rdropWhile_concat]
    split
    · next hx =>
      obtain ⟨k, hk⟩ := ih
      refine ⟨k + 1, ?_⟩
      rw [List.replicate_succ', ← List.append_assoc, of_decide_eq_true hx]
      exact congrArg (· ++ [0]) hk
    · exact ⟨0, (List.append_nil _).symm⟩

/-- Filled up to one length, byte strings differ if they differ before the zeros at their end. -/
theorem resize_eq_iff {n : Nat} {l l' : List UInt8} (h : l.length ≤ n) (h' : l'.length ≤ n) :
    resize n l = resize n l' ↔ dropZeros l = dropZeros l' := by
  rw [resize, resize, List.take_of_length_le h, List.take_of_length_le h']
  constructor
  · intro heq
    rw [← dropZeros_append_replicate l, heq, dropZeros_append_replicate]
  · intro heq
    obtain ⟨k, hk⟩ := exists_eq_dropZeros_append l
    obtain ⟨k', hk'⟩ := exists_eq_dropZeros_append l'
    -- both are their common part, filled up with zeros
    have hfill : ∀ (m : List UInt8) (j : Nat), m = dropZeros l ++ List.replicate j 0 → m.length ≤ n →
        m ++ List.replicate (n - m.length) 0 =
          dropZeros l ++ List.replicate (n - (dropZeros l).length) 0 := by
      intro m j hm hlen
      rw [hm, List.length_append, List.length_replicate] at hlen
      rw [hm, List.append_assoc, List.replicate_append_replicate, List.length_append,
        List.length_replicate]
      congr 2
      omega
    rw [hfill l k hk h, hfill l' k' (heq ▸ hk') h']

/-- The bytes of a string, `str::as_bytes`. -/
def utf8 (s : String) : List UInt8 := s.toUTF8.data.toList

/-! ## Little-endian coding -/

/-- The `k` low-order bytes of `n`, least significant first. -/
def toLE : Nat → Nat → List UInt8
  | 0, _ => []
  | k + 1, n => UInt8.ofNat n :: toLE k (n / 256)

/-- The number a little-endian byte string denotes. -/
def fromLE : List UInt8 → Nat
  | [] => 0
  | b :: l => b.toNat + 256 * fromLE l

@[simp] theorem length_toLE (k n : Nat) : (toLE k n).length = k := by
  induction k generalizing n with
  | zero => rfl
  | succ k ih => simp [toLE, ih]

theorem fromLE_toLE (k n : Nat) : fromLE (toLE k n) = n % 256 ^ k := by
  induction k generalizing n with
  | zero => simp [toLE, fromLE, Nat.mod_one]
  | succ k ih =>
    have hb : (UInt8.ofNat n).toNat = n % 256 := by simp
    rw [toLE, fromLE, ih, hb, Nat.pow_succ, Nat.mul_comm (256 ^ k) 256, Nat.mod_mul]

theorem fromLE_lt (l : List UInt8) : fromLE l < 256 ^ l.length := by
  induction l with
  | nil => simp [fromLE]
  | cons b l ih =>
    have hb : b.toNat < 256 := b.toNat_lt
    rw [fromLE, List.length_cons, Nat.pow_succ]
    omega

/-- A byte string is the coding of the number it denotes. -/
theorem toLE_fromLE {k : Nat} {l : List UInt8} (h : l.length = k) : toLE k (fromLE l) = l := by
  subst h
  induction l with
  | nil => rfl
  | cons b l ih =>
    have hb : b.toNat < 256 := b.toNat_lt
    have hlow : UInt8.ofNat (b.toNat + 256 * fromLE l) = b := by
      apply UInt8.toNat_inj.mp
      rw [UInt8.toNat_ofNat']
      omega
    have hhigh : (b.toNat + 256 * fromLE l) / 256 = fromLE l := by omega
    rw [List.length_cons, fromLE, toLE, hlow, hhigh, ih]

/-! ## Big-endian coding -/

/-- The `k` low-order bytes of `n`, most significant first. -/
def toBE (k n : Nat) : List UInt8 := (toLE k n).reverse

/-- The number a big-endian byte string denotes. -/
def fromBE (l : List UInt8) : Nat := fromLE l.reverse

@[simp] theorem length_toBE (k n : Nat) : (toBE k n).length = k := by
  simp [toBE]

theorem fromBE_toBE (k n : Nat) : fromBE (toBE k n) = n % 256 ^ k := by
  rw [fromBE, toBE, List.reverse_reverse, fromLE_toLE]

/-- The `i`-th byte array of length `n`, in lexicographic order. -/
def Bytes.ofNat (n i : Nat) : Bytes n := ⟨toBE n i, length_toBE n i⟩

theorem Bytes.ofNat_injective {n i j : Nat} (hi : i < 256 ^ n) (hj : j < 256 ^ n)
    (h : Bytes.ofNat n i = Bytes.ofNat n j) : i = j := by
  have hnum : fromBE (toBE n i) = fromBE (toBE n j) := congrArg (fun b => fromBE (Bytes.toList b)) h
  rwa [fromBE_toBE, fromBE_toBE, Nat.mod_eq_of_lt hi, Nat.mod_eq_of_lt hj] at hnum

/-- `u32::to_be_bytes`. -/
def beBytes32 (x : UInt32) : Bytes 4 := ⟨toBE 4 x.toNat, length_toBE 4 _⟩

/-- `u64::to_be_bytes`. -/
def beBytes64 (x : UInt64) : Bytes 8 := ⟨toBE 8 x.toNat, length_toBE 8 _⟩

/-- `u32::from_be_bytes`. -/
def u32FromBE (l : List UInt8) : UInt32 := UInt32.ofNat (fromBE l)

/-- `u64::from_be_bytes`. -/
def u64FromBE (l : List UInt8) : UInt64 := UInt64.ofNat (fromBE l)

@[simp] theorem u32FromBE_beBytes32 (x : UInt32) : u32FromBE (beBytes32 x).toList = x := by
  apply UInt32.toNat_inj.mp
  have hx := x.toNat_lt
  show (UInt32.ofNat (fromBE (toBE 4 x.toNat))).toNat = x.toNat
  rw [fromBE_toBE, UInt32.toNat_ofNat']
  omega

@[simp] theorem u64FromBE_beBytes64 (x : UInt64) : u64FromBE (beBytes64 x).toList = x := by
  apply UInt64.toNat_inj.mp
  have hx := x.toNat_lt
  show (UInt64.ofNat (fromBE (toBE 8 x.toNat))).toNat = x.toNat
  rw [fromBE_toBE, UInt64.toNat_ofNat']
  omega

theorem beBytes64_injective {x y : UInt64} (h : beBytes64 x = beBytes64 y) : x = y := by
  rw [← u64FromBE_beBytes64 x, h, u64FromBE_beBytes64]

end Blackwing
