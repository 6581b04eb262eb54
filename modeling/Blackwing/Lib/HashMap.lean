import Mathlib.Data.List.AList

/-!
# Finite maps

A hash map is an association list with distinct keys (`AList`). Every result
below is stated through `lookup`, so nothing depends on the order of entries.

* `retain`, `mapValues`: the whole-map operations the association list lacks.
* `lookup_insert_eq`, `lookup_erase_eq`, `lookup_retain`, `lookup_mapValues`:
  the lookup after each operation.
* `lookup_insert_ne_iff`, `lookup_insert_eq_self_iff`, `lookup_retain_eq_self_iff`,
  `retain_eq_self`, `mapValues_eq_self`: when an operation leaves the map as it was.
* `size_insert_le`, `size_insert_of_lookup`, `size_insert_of_fresh`, `size_erase_of_lookup`,
  `size_retain_le`, `retained_of_size_le`: the number of entries after each operation.
* `Listing`: an order in which the entries are gone through, where the source relies on none.
-/

namespace Blackwing

/-- A map from `K` to `V`. -/
abbrev HashMap (K V : Type) : Type := AList (fun _ : K => V)

namespace HashMap

variable {K V : Type}

/-- The number of entries. -/
def size (m : HashMap K V) : Nat := m.entries.length

/-- The entries that satisfy `p`. -/
def retain (p : K → V → Bool) (m : HashMap K V) : HashMap K V :=
  ⟨m.entries.filter fun e => p e.1 e.2, m.nodupKeys.sublist List.filter_sublist⟩

/-- The map with `f` applied to every value. -/
def mapValues (f : K → V → V) (m : HashMap K V) : HashMap K V :=
  ⟨m.entries.map fun e => ⟨e.1, f e.1 e.2⟩, List.NodupKeys.map₂ f m.entries m.nodupKeys⟩

theorem size_retain_le (p : K → V → Bool) (m : HashMap K V) : size (retain p m) ≤ size m :=
  List.length_filter_le _ _

theorem size_mapValues (f : K → V → V) (m : HashMap K V) : size (mapValues f m) = size m :=
  List.length_map _

variable [DecidableEq K] {m : HashMap K V} {p : K → V → Bool}

theorem mem_entries {k : K} {v : V} :
    (⟨k, v⟩ : Sigma fun _ : K => V) ∈ m.entries ↔ m.lookup k = some v :=
  AList.mem_lookup_iff.symm

theorem lookup_insert_eq (m : HashMap K V) (a : K) (v : V) (k : K) :
    (m.insert a v).lookup k = if k = a then some v else m.lookup k := by
  split
  · next h => rw [h, AList.lookup_insert]
  · next h => rw [AList.lookup_insert_ne h]

/-- An insertion changes the lookup of its own key, unless the map had the value already. -/
theorem lookup_insert_ne_iff (m : HashMap K V) (a : K) (v : V) (k : K) :
    (m.insert a v).lookup k ≠ m.lookup k ↔ k = a ∧ m.lookup a ≠ some v := by
  rw [lookup_insert_eq]
  split
  · next h =>
    rw [h, ne_comm]
    exact (and_iff_right rfl).symm
  · next h => exact iff_of_false (fun hne => hne rfl) fun hand => h hand.1

/-- An insertion into `m'` leaves the lookups of `m` exactly when `m'` has them elsewhere and `m`
already has the value. -/
theorem lookup_insert_eq_self_iff (m m' : HashMap K V) (a : K) (v : V) :
    (∀ k, (m'.insert a v).lookup k = m.lookup k) ↔
      (∀ k, k ≠ a → m'.lookup k = m.lookup k) ∧ m.lookup a = some v := by
  constructor
  · intro h
    refine ⟨fun k hk => ?_, ?_⟩
    · rw [← h k, lookup_insert_eq, if_neg hk]
    · rw [← h a, AList.lookup_insert]
  · rintro ⟨hother, ha⟩ k
    rw [lookup_insert_eq]
    split
    · next hk => rw [hk, ha]
    · next hk => exact hother k hk

theorem lookup_erase_eq (m : HashMap K V) (a k : K) :
    (m.erase a).lookup k = if k = a then none else m.lookup k := by
  split
  · next h => rw [h, AList.lookup_erase]
  · next h => rw [AList.lookup_erase_ne h]

theorem lookup_retain (p : K → V → Bool) (m : HashMap K V) (k : K) :
    (retain p m).lookup k = (m.lookup k).filter (p k) := by
  ext v
  rw [Option.filter_eq_some_iff, ← mem_entries, ← mem_entries]
  exact List.mem_filter

/-- What `retain` drops was there and fails `p`. -/
theorem lookup_retain_eq_self_iff (p : K → V → Bool) (m : HashMap K V) (k : K) :
    (retain p m).lookup k = m.lookup k ↔ ∀ v, m.lookup k = some v → p k v = true := by
  rw [lookup_retain]
  cases m.lookup k with
  | none => simp
  | some v => simp [Option.filter_eq_some_iff]

theorem retain_eq_self (h : ∀ k v, m.lookup k = some v → p k v = true) : retain p m = m := by
  refine AList.ext (List.filter_eq_self.mpr fun e he => ?_)
  exact h e.1 e.2 (mem_entries.mp he)

theorem lookup_mapValues (f : K → V → V) (m : HashMap K V) (k : K) :
    (mapValues f m).lookup k = (m.lookup k).map (f k) :=
  List.dlookup_map₂ k

theorem size_insert_le (m : HashMap K V) (a : K) (v : V) : size (m.insert a v) ≤ size m + 1 := by
  show (List.kinsert a v m.entries).length ≤ m.entries.length + 1
  rw [List.kinsert, List.length_cons]
  exact Nat.succ_le_succ (List.kerase_sublist a m.entries).length_le

theorem size_insert_of_lookup {a : K} {w : V} (hl : m.lookup a = some w) (v : V) :
    size (m.insert a v) = size m := by
  have hmem : a ∈ m.entries.keys := List.mem_keys_of_mem (mem_entries.mpr hl)
  obtain ⟨_, before, after, -, hsplit, herase⟩ := List.exists_of_kerase hmem
  show (List.kinsert a v m.entries).length = m.entries.length
  rw [List.kinsert, List.length_cons, herase, hsplit, List.length_append, List.length_append]
  rfl

theorem size_insert_of_fresh {a : K} (hl : m.lookup a = none) (v : V) :
    size (m.insert a v) = size m + 1 := by
  rw [size, AList.entries_insert_of_notMem (AList.lookup_eq_none.mp hl)]
  rfl

theorem size_erase_of_lookup {a : K} {v : V} (hl : m.lookup a = some v) :
    size (m.erase a) + 1 = size m := by
  have hmem : a ∈ m.entries.keys := List.mem_keys_of_mem (mem_entries.mpr hl)
  obtain ⟨_, before, after, -, hsplit, herase⟩ := List.exists_of_kerase hmem
  show (List.kerase a m.entries).length + 1 = m.entries.length
  rw [herase, hsplit, List.length_append, List.length_append]
  rfl

theorem lookup_of_size_zero (h : size m = 0) (k : K) : m.lookup k = none := by
  refine Option.eq_none_iff_forall_ne_some.mpr fun v hv => ?_
  have hmem := mem_entries.mpr hv
  rw [List.length_eq_zero_iff.mp h] at hmem
  exact List.not_mem_nil hmem

theorem size_retain_lt {k : K} {v : V} (hl : m.lookup k = some v) (hp : p k v = false) :
    size (retain p m) < size m := by
  refine List.length_filter_lt_length_iff_exists.mpr ⟨⟨k, v⟩, mem_entries.mpr hl, ?_⟩
  exact Bool.eq_false_iff.mp hp

/-- A `retain` that leaves no fewer entries dropped none. -/
theorem retained_of_size_le (hle : size m ≤ size (retain p m)) {k : K} {v : V}
    (hl : m.lookup k = some v) : p k v = true :=
  Bool.of_not_eq_false fun hp => Nat.not_lt.mpr hle (size_retain_lt hl hp)

/-- An order in which the entries of a map are gone through, each of them once. -/
structure Listing (K V : Type) where
  entries : HashMap K V → List (K × V)
  perm : ∀ m, (entries m).Perm (m.entries.map fun e => (e.1, e.2))

/-- The order of the association list. -/
def Listing.stored : Listing K V := ⟨fun m => m.entries.map fun e => (e.1, e.2), fun _ => .refl _⟩

theorem Listing.mem_iff (order : Listing K V) {k : K} {v : V} :
    (k, v) ∈ order.entries m ↔ m.lookup k = some v := by
  rw [(order.perm m).mem_iff, ← mem_entries, List.mem_map]
  constructor
  · rintro ⟨⟨k', v'⟩, he, heq⟩
    cases heq
    exact he
  · intro he
    exact ⟨⟨k, v⟩, he, rfl⟩

end HashMap

end Blackwing
