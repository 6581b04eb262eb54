import Blackwing.Lib.Bytes

/-!
# CBOR

The Concise Binary Object Representation, as far as records of numbers, texts and arrays use it. A
data item starts with a head: three bits of major type and an unsigned number, in the fewest bytes
that hold it.

* `head`, `decodeHead_head`: the head and its round trip.
* `Codec`: an encoder and a decoder, with the proof that the decoder inverts the encoder on the
  values that fit the format.
* `Codec.uint`, `Codec.text`, `Codec.array`, `Codec.after`, `Codec.seq`, `Codec.orElse`,
  `Codec.imap`: the codecs of data items, and how the codec of a record is put together.
* `Codec.Extends`, `Codec.read_cut`: an encoding that is cut at its end is not decoded.
* `length_head`, `length_encode_bytes`: the size of an encoding.
-/

namespace Blackwing.Cbor

/-! ## Heads -/

/-- The head of a data item: major type and number. -/
def head (major n : Nat) : List UInt8 :=
  if n < 24 then [UInt8.ofNat (32 * major + n)]
  else if n < 2 ^ 8 then UInt8.ofNat (32 * major + 24) :: toBE 1 n
  else if n < 2 ^ 16 then UInt8.ofNat (32 * major + 25) :: toBE 2 n
  else if n < 2 ^ 32 then UInt8.ofNat (32 * major + 26) :: toBE 4 n
  else UInt8.ofNat (32 * major + 27) :: toBE 8 n

/-- The number of bytes of a head. -/
def headSize (n : Nat) : Nat :=
  if n < 24 then 1 else if n < 2 ^ 8 then 2 else if n < 2 ^ 16 then 3 else if n < 2 ^ 32 then 5 else 9

/-- A number of `k` bytes. -/
def readBE (k : Nat) (l : List UInt8) : Option (Nat × List UInt8) :=
  if l.length < k then none else some (fromBE (l.take k), l.drop k)

/-- The number that follows an initial byte with these five low bits. -/
def readArgument (info : Nat) (l : List UInt8) : Option (Nat × List UInt8) :=
  if info < 24 then some (info, l)
  else if info = 24 then readBE 1 l
  else if info = 25 then readBE 2 l
  else if info = 26 then readBE 4 l
  else if info = 27 then readBE 8 l
  else none

/-- The head of the next data item, if it has this major type. -/
def decodeHead (major : Nat) : List UInt8 → Option (Nat × List UInt8)
  | [] => none
  | b :: l => if b.toNat / 32 = major then readArgument (b.toNat % 32) l else none

theorem length_head (major n : Nat) : (head major n).length = headSize n := by
  unfold head headSize
  repeat' split
  all_goals simp

theorem headSize_le (n : Nat) : headSize n ≤ 9 := by
  unfold headSize
  repeat' split
  all_goals decide

theorem headSize_pos (n : Nat) : 0 < headSize n := by
  unfold headSize
  repeat' split
  all_goals decide

theorem readBE_toBE {k n : Nat} (hn : n < 256 ^ k) (rest : List UInt8) :
    readBE k (toBE k n ++ rest) = some (n, rest) := by
  have hlen : ¬ (toBE k n ++ rest).length < k := by
    rw [List.length_append, length_toBE]
    exact Nat.not_lt.mpr (Nat.le_add_right _ _)
  rw [readBE, if_neg hlen, List.take_left' (length_toBE k n), List.drop_left' (length_toBE k n),
    fromBE_toBE, Nat.mod_eq_of_lt hn]

theorem decodeHead_cons {major info : Nat} (hm : major < 8) (hi : info < 32) (l : List UInt8) :
    decodeHead major (UInt8.ofNat (32 * major + info) :: l) = readArgument info l := by
  have hb : (UInt8.ofNat (32 * major + info)).toNat = 32 * major + info :=
    UInt8.toNat_ofNat_of_lt' (show 32 * major + info < 256 by omega)
  have hmajor : (32 * major + info) / 32 = major := by omega
  have hinfo : (32 * major + info) % 32 = info := by omega
  rw [decodeHead, hb, hmajor, hinfo, if_pos rfl]

theorem decodeHead_toBE {major info k n : Nat} (hm : major < 8) (hi : info < 32)
    (hread : readArgument info = readBE k) (hn : n < 256 ^ k) (rest : List UInt8) :
    decodeHead major (UInt8.ofNat (32 * major + info) :: toBE k n ++ rest) = some (n, rest) := by
  rw [List.cons_append, decodeHead_cons hm hi, hread, readBE_toBE hn]

theorem decodeHead_head {major n : Nat} (hm : major < 8) (hn : n < 2 ^ 64) (rest : List UInt8) :
    decodeHead major (head major n ++ rest) = some (n, rest) := by
  unfold head
  split
  · next h =>
    rw [List.singleton_append, decodeHead_cons hm (Nat.lt_trans h (by decide)), readArgument, if_pos h]
  · split
    · next h => exact decodeHead_toBE hm (by decide) rfl (Nat.lt_of_lt_of_le h (by decide)) rest
    · split
      · next h => exact decodeHead_toBE hm (by decide) rfl (Nat.lt_of_lt_of_le h (by decide)) rest
      · split
        · next h => exact decodeHead_toBE hm (by decide) rfl (Nat.lt_of_lt_of_le h (by decide)) rest
        · exact decodeHead_toBE hm (by decide) rfl (Nat.lt_of_lt_of_le hn (by decide)) rest

/-! ## Codecs -/

/-- An encoder and a decoder. The decoder reads one value off the front of its input. -/
structure Codec (α : Type) where
  encode : α → List UInt8
  decode : List UInt8 → Option (α × List UInt8)
  /-- The values that the format can hold. -/
  Fits : α → Prop
  decode_encode : ∀ {a}, Fits a → ∀ rest, decode (encode a ++ rest) = some (a, rest)

namespace Codec

variable {α β : Type}

/-- The value at the front of the input. -/
def read (c : Codec α) (l : List UInt8) : Option α := (c.decode l).map (·.1)

theorem read_encode (c : Codec α) {a : α} (ha : c.Fits a) : c.read (c.encode a) = some a := by
  have h := c.decode_encode ha []
  rw [List.append_nil] at h
  rw [read, h]
  rfl

/-- Unsigned integers. -/
def uint : Codec Nat where
  encode := head 0
  decode := decodeHead 0
  Fits := fun n => n < 2 ^ 64
  decode_encode := fun hn rest => decodeHead_head (by decide) hn rest

/-- As many bytes as were written are read back. -/
theorem takeBytes_append (s rest : List UInt8) :
    (if (s ++ rest).length < s.length then none
      else some ((s ++ rest).take s.length, (s ++ rest).drop s.length)) = some (s, rest) := by
  have hlen : ¬ (s ++ rest).length < s.length := by
    rw [List.length_append]
    exact Nat.not_lt.mpr (Nat.le_add_right _ _)
  rw [if_neg hlen, List.take_left, List.drop_left]

/-- Text strings, as their bytes. -/
def text : Codec (List UInt8) where
  encode := fun s => head 3 s.length ++ s
  decode := fun l => do
    let (n, l) ← decodeHead 3 l
    if l.length < n then none else some (l.take n, l.drop n)
  Fits := fun s => s.length < 2 ^ 64
  decode_encode := fun {s} hs rest => by
    rw [List.append_assoc, decodeHead_head (by decide) hs]
    exact takeBytes_append s rest

/-- Byte strings. -/
def byteString : Codec (List UInt8) where
  encode := fun s => head 2 s.length ++ s
  decode := fun l => do
    let (n, l) ← decodeHead 2 l
    if l.length < n then none else some (l.take n, l.drop n)
  Fits := fun s => s.length < 2 ^ 64
  decode_encode := fun {s} hs rest => by
    rw [List.append_assoc, decodeHead_head (by decide) hs]
    exact takeBytes_append s rest

/-- Fixed bytes, then a value. -/
def after (bytes : List UInt8) (c : Codec α) : Codec α where
  encode := fun a => bytes ++ c.encode a
  decode := fun l => if l.take bytes.length = bytes then c.decode (l.drop bytes.length) else none
  Fits := c.Fits
  decode_encode := fun ha rest => by
    rw [List.append_assoc, List.take_left, if_pos rfl, List.drop_left, c.decode_encode ha]

/-- One value, then another. -/
def seq (c : Codec α) (d : Codec β) : Codec (α × β) where
  encode := fun p => c.encode p.1 ++ d.encode p.2
  decode := fun l => do
    let (a, l) ← c.decode l
    let (b, l) ← d.decode l
    some ((a, b), l)
  Fits := fun p => c.Fits p.1 ∧ d.Fits p.2
  decode_encode := fun hp rest => by
    rw [List.append_assoc, c.decode_encode hp.1]
    show (d.decode _).bind _ = _
    rw [d.decode_encode hp.2]
    rfl

/-- A value of one kind or of another, where the first decoder refuses the second kind. -/
def orElse (c : Codec α) (d : Codec β) (h : ∀ b rest, c.decode (d.encode b ++ rest) = none) :
    Codec (α ⊕ β) where
  encode := Sum.elim c.encode d.encode
  decode := fun l =>
    match c.decode l with
    | some (a, l) => some (.inl a, l)
    | none => (d.decode l).map fun p => (.inr p.1, p.2)
  Fits := Sum.elim c.Fits d.Fits
  decode_encode := fun {x} hx rest => by
    cases x with
    | inl a => simp only [Sum.elim_inl, c.decode_encode hx]
    | inr b => simp only [Sum.elim_inr, h, d.decode_encode hx, Option.map_some]

/-- Values that are represented by others. -/
def imap (c : Codec β) (f : α → β) (g : β → Option α) (h : ∀ a, g (f a) = some a) : Codec α where
  encode := fun a => c.encode (f a)
  decode := fun l => do
    let (b, l) ← c.decode l
    let a ← g b
    some (a, l)
  Fits := fun a => c.Fits (f a)
  decode_encode := fun {a} ha rest => by
    rw [c.decode_encode ha]
    show (g (f a)).bind _ = _
    rw [h]
    rfl

/-- `n` values. -/
def decodeMany (c : Codec α) : Nat → List UInt8 → Option (List α × List UInt8)
  | 0, l => some ([], l)
  | n + 1, l => do
    let (a, l) ← c.decode l
    let (as, l) ← decodeMany c n l
    some (a :: as, l)

theorem decodeMany_flatMap (c : Codec α) {as : List α} (has : ∀ a ∈ as, c.Fits a)
    (rest : List UInt8) : decodeMany c as.length (as.flatMap c.encode ++ rest) = some (as, rest) := by
  induction as with
  | nil => rfl
  | cons a as ih =>
    rw [List.forall_mem_cons] at has
    rw [List.length_cons, decodeMany, List.flatMap_cons, List.append_assoc, c.decode_encode has.1]
    show (decodeMany c as.length _).bind _ = _
    rw [ih has.2]
    rfl

/-- Arrays. -/
def array (c : Codec α) : Codec (List α) where
  encode := fun as => head 4 as.length ++ as.flatMap c.encode
  decode := fun l => do
    let (n, l) ← decodeHead 4 l
    decodeMany c n l
  Fits := fun as => as.length < 2 ^ 64 ∧ ∀ a ∈ as, c.Fits a
  decode_encode := fun {as} has rest => by
    rw [List.append_assoc, decodeHead_head (by decide) has.1]
    exact decodeMany_flatMap c has.2 rest

/-- A member of a record: its name, then its value. -/
def field (name : List UInt8) (c : Codec α) : Codec α := after (text.encode name) c

/-- A record of `n` members. -/
def record (n : Nat) (c : Codec α) : Codec α := after (head 5 n) c

/-- Bytes, as numbers. -/
def byte : Codec UInt8 :=
  uint.imap UInt8.toNat (fun n => if n < 2 ^ 8 then some (UInt8.ofNat n) else none) fun b => by
    rw [if_pos b.toNat_lt, UInt8.ofNat_toNat]

theorem byte_fits (b : UInt8) : byte.Fits b := Nat.lt_trans b.toNat_lt (by decide)

/-- Byte vectors, as arrays of numbers. -/
def bytes : Codec (List UInt8) := array byte

variable {l : List UInt8}

theorem bytes_fits (hl : l.length < 2 ^ 64) : bytes.Fits l :=
  ⟨hl, fun b _ => byte_fits b⟩

/-- Byte arrays of a fixed length. -/
def fixed (n : Nat) : Codec (Bytes n) := bytes.imap Bytes.toList (Bytes.ofList? n) Bytes.ofList?_toList

variable {n : Nat}

theorem fixed_fits (hn : n < 2 ^ 64) (b : Bytes n) : (fixed n).Fits b :=
  bytes_fits (b.length_toList.symm ▸ hn)

/-! ## Cut encodings -/

/-- What the decoder reads does not change when more bytes follow. -/
def Extends (c : Codec α) : Prop :=
  ∀ l a rest, c.decode l = some (a, rest) → ∀ more, c.decode (l ++ more) = some (a, rest ++ more)

variable {c : Codec α} {rest : List UInt8}

/-- A proper part of an encoding, cut at its end, is not decoded. -/
theorem read_cut (hc : c.Extends) {a : α} (ha : c.Fits a) (hn : n < (c.encode a).length) :
    c.read ((c.encode a).take n) = none := by
  rw [read, Option.map_eq_none_iff, Option.eq_none_iff_forall_ne_some]
  rintro ⟨b, rest⟩ hcut
  have hwhole := hc _ _ _ hcut ((c.encode a).drop n)
  rw [List.take_append_drop] at hwhole
  have hall := c.decode_encode ha []
  rw [List.append_nil, hwhole] at hall
  -- nothing is left of the whole encoding, so nothing was cut off
  have hnil := (List.append_eq_nil_iff.mp (Prod.ext_iff.mp (Option.some.inj hall)).2).2
  exact absurd (List.drop_eq_nil_iff.mp hnil) (Nat.not_le.mpr hn)

/-- A number of bytes is still there when more follow. -/
theorem takeBytes_more {β : Type} {f : List UInt8 → β} {b : β}
    (h : (if l.length < n then none else some (f (l.take n), l.drop n)) = some (b, rest))
    (more : List UInt8) :
    (if (l ++ more).length < n then none else some (f ((l ++ more).take n), (l ++ more).drop n)) =
      some (b, rest ++ more) := by
  split at h
  · cases h
  · next hn =>
    have hle := Nat.not_lt.mp hn
    obtain ⟨rfl, rfl⟩ := Prod.ext_iff.mp (Option.some.inj h)
    rw [if_neg, List.take_append_of_le_length hle, List.drop_append_of_le_length hle]
    rw [List.length_append]
    exact Nat.not_lt.mpr (Nat.le_trans hle (Nat.le_add_right _ _))

theorem readBE_more {k : Nat} (h : readBE k l = some (n, rest)) (more : List UInt8) :
    readBE k (l ++ more) = some (n, rest ++ more) := takeBytes_more h more

theorem readArgument_more {info : Nat} (h : readArgument info l = some (n, rest))
    (more : List UInt8) :
    readArgument info (l ++ more) = some (n, rest ++ more) := by
  unfold readArgument at h ⊢
  split_ifs at h ⊢
  · cases h
    rfl
  · exact readBE_more h more
  · exact readBE_more h more
  · exact readBE_more h more
  · exact readBE_more h more

theorem decodeHead_more {major : Nat} (h : decodeHead major l = some (n, rest)) (more : List UInt8) :
    decodeHead major (l ++ more) = some (n, rest ++ more) := by
  cases l with
  | nil => cases h
  | cons b l =>
    rw [decodeHead] at h
    rw [List.cons_append, decodeHead]
    split at h
    · next hmajor =>
      rw [if_pos hmajor]
      exact readArgument_more h more
    · cases h

theorem extends_uint : uint.Extends := fun _ _ _ h more => decodeHead_more h more

theorem extends_byteString : byteString.Extends := by
  intro l s rest h more
  obtain ⟨⟨n, l'⟩, hhead, hbytes⟩ := Option.bind_eq_some_iff.mp h
  show (decodeHead 2 (l ++ more)).bind _ = _
  rw [decodeHead_more hhead more]
  exact takeBytes_more (f := id) hbytes more

theorem extends_after (hc : c.Extends) (bytes : List UInt8) : (after bytes c).Extends := by
  intro l a rest h more
  show (if (l ++ more).take bytes.length = bytes then c.decode ((l ++ more).drop bytes.length)
    else none) = _
  change (if l.take bytes.length = bytes then c.decode (l.drop bytes.length) else none) = _ at h
  split at h
  · next hbytes =>
    have hle : bytes.length ≤ l.length := by
      rw [← hbytes, List.length_take]
      exact Nat.min_le_right _ _
    rw [List.take_append_of_le_length hle, if_pos hbytes, List.drop_append_of_le_length hle]
    exact hc _ _ _ h more
  · cases h

theorem extends_seq {d : Codec β} (hc : c.Extends) (hd : d.Extends) : (seq c d).Extends := by
  intro l p rest h more
  obtain ⟨⟨a, l'⟩, ha, h⟩ := Option.bind_eq_some_iff.mp h
  obtain ⟨⟨b, l''⟩, hb, h⟩ := Option.bind_eq_some_iff.mp h
  cases h
  show (c.decode (l ++ more)).bind _ = _
  rw [hc _ _ _ ha more]
  show (d.decode (l' ++ more)).bind _ = _
  rw [hd _ _ _ hb more]
  rfl

theorem extends_imap {c : Codec β} (hc : c.Extends) (f : α → β) (g : β → Option α)
    (hfg : ∀ a, g (f a) = some a) : (imap c f g hfg).Extends := by
  intro l a rest h more
  obtain ⟨⟨b, l'⟩, hb, h⟩ := Option.bind_eq_some_iff.mp h
  obtain ⟨a', ha, h⟩ := Option.bind_eq_some_iff.mp h
  cases h
  show (c.decode (l ++ more)).bind _ = _
  rw [hc _ _ _ hb more]
  show (g b).bind _ = _
  rw [ha]
  rfl

theorem decodeMany_more (hc : c.Extends) {as : List α} (h : decodeMany c n l = some (as, rest))
    (more : List UInt8) :
    decodeMany c n (l ++ more) = some (as, rest ++ more) := by
  induction n generalizing l as with
  | zero =>
    cases h
    rfl
  | succ n ih =>
    obtain ⟨⟨a, l'⟩, ha, h⟩ := Option.bind_eq_some_iff.mp h
    obtain ⟨⟨as', l''⟩, has, h⟩ := Option.bind_eq_some_iff.mp h
    cases h
    show (c.decode (l ++ more)).bind _ = _
    rw [hc _ _ _ ha more]
    show (decodeMany c n (l' ++ more)).bind _ = _
    rw [ih has]
    rfl

theorem extends_array (hc : c.Extends) : (array c).Extends := by
  intro l as rest h more
  obtain ⟨⟨n, l'⟩, hn, h⟩ := Option.bind_eq_some_iff.mp h
  show (decodeHead 4 (l ++ more)).bind _ = _
  rw [decodeHead_more hn more]
  exact decodeMany_more hc h more

theorem extends_bytes : bytes.Extends := extends_array (extends_imap extends_uint _ _ _)

end Codec

/-! ## Sizes -/

/-- The size of an array of numbers, without its head. -/
def weight (l : List UInt8) : Nat := (l.map fun b => headSize b.toNat).sum

theorem weight_append (l l' : List UInt8) : weight (l ++ l') = weight l + weight l' := by
  rw [weight, List.map_append, List.sum_append, weight, weight]

theorem length_encode_bytes (l : List UInt8) :
    (Codec.bytes.encode l).length = headSize l.length + weight l := by
  show (head 4 l.length ++ l.flatMap Codec.byte.encode).length = _
  rw [List.length_append, length_head, List.length_flatMap]
  have hbyte : (fun b => (Codec.byte.encode b).length) = fun b : UInt8 => headSize b.toNat :=
    funext fun b => length_head 0 b.toNat
  rw [hbyte, weight]

theorem headSize_toNat_le (b : UInt8) : headSize b.toNat ≤ 2 := by
  have hb : b.toNat < 2 ^ 8 := b.toNat_lt
  by_cases h : b.toNat < 24
  · rw [headSize, if_pos h]
    decide
  · rw [headSize, if_neg h, if_pos hb]

theorem weight_le (l : List UInt8) : weight l ≤ 2 * l.length := by
  induction l with
  | nil => exact Nat.le_refl _
  | cons b l ih =>
    have hb := headSize_toNat_le b
    rw [weight, List.map_cons, List.sum_cons, List.length_cons]
    rw [weight] at ih
    omega

theorem le_weight (l : List UInt8) : l.length ≤ weight l := by
  induction l with
  | nil => exact Nat.le_refl _
  | cons b l ih =>
    have hb := headSize_pos b.toNat
    rw [weight, List.map_cons, List.sum_cons, List.length_cons]
    rw [weight] at ih
    omega

theorem length_encode_bytes_le (l : List UInt8) :
    (Codec.bytes.encode l).length ≤ 9 + 2 * l.length := by
  rw [length_encode_bytes]
  exact Nat.add_le_add (headSize_le _) (weight_le l)

end Blackwing.Cbor
