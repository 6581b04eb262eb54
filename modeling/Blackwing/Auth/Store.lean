import Blackwing.Crypto.DeviceId
import Blackwing.Lib.Bytes
import Blackwing.Lib.Call
import Blackwing.Lib.HashMap
import Blackwing.Lib.Utf8

/-!
# The enrollment store and its directory

`EnrollmentStore` of `bw-auth/src/store.rs` with its files: the OPAQUE server setup in
`setup.opaque`, and the password file of each identifier in a file named by the hex digits of the
identifier. The OPAQUE library is a parameter, and so is the order in which a directory or a hash
map is gone through. Text is its UTF-8 bytes, and a file name is any bytes.

* `unhex_hex`, `fileName_ne_setupFile`: the names of the password files are apart from each other
  and from the setup.
* `Stored`: what a directory holds, as a setup and a password file for some identifiers.
* `loadFromDir_of_stored`: what is loaded is what the directory holds.
* `Stored.saveToDir`: what is saved is what the directory holds then.
-/

namespace Blackwing.Auth

open Crypto (toDigit)

/-! ## The OPAQUE library -/

/-- The part of the OPAQUE library that enrollment uses. `Random` is what the random number
generator returns during a call. -/
structure Opaque where
  Setup : Type
  Registration : Type
  Request : Type
  State : Type
  Response : Type
  Upload : Type
  AuthError : Type
  Random : Type
  /-- `server::new_setup`. -/
  newSetup : Random → Setup
  /-- `client::start_registration`: the password. -/
  clientStart : Random → List UInt8 → Outcome AuthError (Request × State)
  /-- `server::start_registration`: setup, request and identifier. -/
  serverStart : Setup → Request → List UInt8 → Outcome AuthError Response
  /-- `client::finish_registration`: state, response and password. -/
  clientFinish : Random → State → Response → List UInt8 → Outcome AuthError Upload
  /-- `server::finish_registration`. -/
  serverFinish : Upload → Registration
  serializeSetup : Setup → List UInt8
  deserializeSetup : List UInt8 → Outcome AuthError Setup
  serializeRegistration : Registration → List UInt8
  deserializeRegistration : List UInt8 → Outcome AuthError Registration

/-- What is serialized is read back. -/
structure Opaque.RoundTrips (O : Opaque) : Prop where
  setup : ∀ s, O.deserializeSetup (O.serializeSetup s) = .ok s
  registration : ∀ r, O.deserializeRegistration (O.serializeRegistration r) = .ok r

/-- The password file that the four steps of a registration make. -/
def Opaque.passwordFile (O : Opaque) (setup : O.Setup) (random : O.Random)
    (identifier password : List UInt8) : Outcome O.AuthError O.Registration := do
  let (request, state) ← O.clientStart random password
  let response ← O.serverStart setup request identifier
  let upload ← O.clientFinish random state response password
  pure (O.serverFinish upload)

/-! ## File names -/

/-- A character of ASCII as a byte of text. -/
def asciiByte (c : Char) : UInt8 := UInt8.ofNat c.toNat

/-- `{b:02x}` for each byte. -/
def hex (bytes : List UInt8) : List UInt8 :=
  bytes.flatMap fun b =>
    [asciiByte (Nat.digitChar (b.toNat / 16)), asciiByte (Nat.digitChar (b.toNat % 16))]

/-- `(b as char).to_digit(16).unwrap_or(0) as u8`. -/
def digitOrZero (b : UInt8) : UInt8 := UInt8.ofNat ((toDigit 16 (Char.ofNat b.toNat)).getD 0)

/-- The loop of `unhex` takes two bytes at a time; a single one at the end is left out. -/
def unhex : List UInt8 → List UInt8
  | hi :: lo :: rest => (digitOrZero hi <<< 4 ||| digitOrZero lo) :: unhex rest
  | _ => []

def setupFile : List UInt8 := utf8 "setup.opaque"

def extension : List UInt8 := utf8 ".opaque"

/-- `format!("{name}.opaque")`, with the hex digits as the name. -/
def fileName (identifier : List UInt8) : List UInt8 := hex identifier ++ extension

/-- `str::strip_suffix`. -/
def stripSuffix (suffix name : List UInt8) : Option (List UInt8) :=
  if suffix <:+ name then some (name.take (name.length - suffix.length)) else none

/-! ## The directory -/

inductive DirEntry where
  | file (bytes : List UInt8)
  | directory
deriving DecidableEq, Repr

/-- A directory, by the names in it. One that `create_dir_all` has yet to create is empty. -/
abbrev Directory : Type := HashMap (List UInt8) DirEntry

/-- `StoreError`, the variants that enrollment returns. -/
inductive StoreError (ε : Type) where
  | auth (e : ε)
  | io
  | missingSetup (dir : String)
deriving DecidableEq, Repr

/-- `std::fs::read`. -/
def Directory.read (d : Directory) (name : List UInt8) : Option (List UInt8) :=
  match d.lookup name with
  | some (.file bytes) => some bytes
  | _ => none

/-- `std::fs::write`. -/
def Directory.write {ε : Type} (name bytes : List UInt8) : Call Directory (StoreError ε) Unit :=
  fun d =>
    if d.lookup name = some .directory then (.err .io, d) else (.ok (), d.insert name (.file bytes))

/-! ## The store -/

structure EnrollmentStore (O : Opaque) where
  setup : O.Setup
  enrollments : HashMap (List UInt8) O.Registration

namespace EnrollmentStore

variable {O : Opaque}

def new (random : O.Random) : EnrollmentStore O := ⟨O.newSetup random, ∅⟩

def get (store : EnrollmentStore O) (identifier : List UInt8) : Option O.Registration :=
  store.enrollments.lookup identifier

def register (store : EnrollmentStore O) (random : O.Random) (identifier password : List UInt8) :
    Outcome (StoreError O.AuthError) (EnrollmentStore O) := do
  let passwordFile ← (O.passwordFile store.setup random identifier password).mapErr .auth
  pure { store with enrollments := store.enrollments.insert identifier passwordFile }

def saveToDir (order : HashMap.Listing (List UInt8) O.Registration) (store : EnrollmentStore O) :
    Call Directory (StoreError O.AuthError) Unit := do
  Directory.write setupFile (O.serializeSetup store.setup)
  (order.entries store.enrollments).forM fun entry =>
    Directory.write (fileName entry.1) (O.serializeRegistration entry.2)

/-- One round of the loop of `load_from_dir`. -/
def loadEntry (d : Directory) (enrollments : HashMap (List UInt8) O.Registration)
    (entryName : List UInt8) :
    Outcome (StoreError O.AuthError) (HashMap (List UInt8) O.Registration) :=
  let name := Utf8.lossy entryName
  if name = setupFile ∨ ¬ extension <:+ name then pure enrollments
  else
    match stripSuffix extension name with
    | none => pure enrollments
    | some hexId =>
      let identifier := unhex hexId
      match d.read entryName with
      | none => pure enrollments
      | some bytes =>
        match O.deserializeRegistration bytes with
        | .ok registration => pure (enrollments.insert identifier registration)
        | .err _ => pure enrollments
        | .panicked => .panicked

/-- `load_from_dir`. The directory has the path `dir`, and `read_dir` lists it in some order. -/
def loadFromDir (order : HashMap.Listing (List UInt8) DirEntry) (dir : String) (d : Directory) :
    Outcome (StoreError O.AuthError) (EnrollmentStore O) := do
  let setupBytes ← Outcome.okOr (.missingSetup dir) (d.read setupFile)
  let setup ← (O.deserializeSetup setupBytes).mapErr .auth
  let enrollments ← (order.entries d).foldlM (fun m entry => loadEntry d m entry.1) ∅
  pure ⟨setup, enrollments⟩

end EnrollmentStore

/-! ## The names are apart -/

theorem digitOrZero_digit : ∀ n < 16, digitOrZero (asciiByte (Nat.digitChar n)) = UInt8.ofNat n := by
  decide

/-- The digits are ASCII, and none is the first letter of the setup's name. -/
theorem digit_ascii :
    ∀ n < 16, asciiByte (Nat.digitChar n) < 0x80 ∧ asciiByte (Nat.digitChar n) ≠ 0x73 := by
  decide

theorem halves_joined (x : UInt8) :
    UInt8.ofNat (x.toNat / 16) <<< 4 ||| UInt8.ofNat (x.toNat % 16) = x := by
  have hx := x.toNat_lt
  have hhigh : x.toNat / 16 < 2 ^ 8 := by omega
  have hlow : x.toNat % 16 < 2 ^ 4 := by omega
  have hshift : (4 : UInt8).toNat % 8 = 4 := by decide
  have hfits : (x.toNat / 16) <<< 4 < 2 ^ 8 := by
    rw [Nat.shiftLeft_eq]
    omega
  rw [← UInt8.toNat_inj, UInt8.toNat_or, UInt8.toNat_shiftLeft, UInt8.toNat_ofNat',
    UInt8.toNat_ofNat', hshift, Nat.mod_eq_of_lt hhigh, Nat.mod_eq_of_lt hfits,
    Nat.mod_eq_of_lt (Nat.lt_trans hlow (by decide)), ← Nat.shiftLeft_add_eq_or_of_lt hlow,
    Nat.shiftLeft_eq]
  omega

theorem unhex_hex (identifier : List UInt8) : unhex (hex identifier) = identifier := by
  induction identifier with
  | nil => rfl
  | cons x identifier ih =>
    have hx := x.toNat_lt
    show (digitOrZero (asciiByte (Nat.digitChar (x.toNat / 16))) <<< 4 |||
      digitOrZero (asciiByte (Nat.digitChar (x.toNat % 16)))) :: unhex (hex identifier) = _
    rw [digitOrZero_digit _ (by omega), digitOrZero_digit _ (by omega), halves_joined, ih]

theorem fileName_injective {id id' : List UInt8} (h : fileName id = fileName id') : id = id' := by
  have hhex : hex id = hex id' := List.append_cancel_right h
  rw [← unhex_hex id, hhex, unhex_hex]

theorem mem_hex {identifier : List UInt8} {a : UInt8} (h : a ∈ hex identifier) :
    a < 0x80 ∧ a ≠ 0x73 := by
  obtain ⟨x, -, hx⟩ := List.mem_flatMap.mp h
  have hlt := x.toNat_lt
  simp only [List.mem_cons, List.not_mem_nil, or_false] at hx
  rcases hx with rfl | rfl
  · exact digit_ascii _ (by omega)
  · exact digit_ascii _ (by omega)

theorem ascii_of_all {l : List UInt8} (h : l.all (· < 0x80) = true) : ∀ a ∈ l, a < 0x80 :=
  fun a ha => of_decide_eq_true (List.all_eq_true.mp h a ha)

theorem extension_ascii : ∀ a ∈ extension, a < 0x80 := ascii_of_all (by decide)

theorem setupFile_ascii : ∀ a ∈ setupFile, a < 0x80 := ascii_of_all (by decide)

theorem fileName_ascii (identifier : List UInt8) : ∀ a ∈ fileName identifier, a < 0x80 :=
  List.forall_mem_append.mpr ⟨fun _ ha => (mem_hex ha).1, extension_ascii⟩

theorem fileName_ne_setupFile (identifier : List UInt8) : fileName identifier ≠ setupFile := by
  intro h
  have hsetup : setupFile = (0x73 :: utf8 "etup") ++ extension := by decide
  rw [hsetup] at h
  have hhex : hex identifier = 0x73 :: utf8 "etup" := List.append_cancel_right h
  exact (mem_hex (hhex ▸ List.mem_cons_self)).2 rfl

theorem stripSuffix_append (suffix name : List UInt8) :
    stripSuffix suffix (name ++ suffix) = some name := by
  rw [stripSuffix, if_pos (List.suffix_append name suffix), List.length_append, Nat.add_sub_cancel,
    List.take_left']
  rfl

/-! ## What a directory holds -/

variable {O : Opaque}

/-- A directory holds a setup, if any, and the password files of some identifiers, and no other file
of its extension. -/
structure Stored (d : Directory) (setup : Option O.Setup)
    (files : List UInt8 → Option O.Registration) : Prop where
  setup : d.lookup setupFile = setup.map fun s => .file (O.serializeSetup s)
  files : ∀ id, d.lookup (fileName id) = (files id).map fun r => .file (O.serializeRegistration r)
  only : ∀ name bytes, d.lookup name = some (.file bytes) → extension <:+ name →
    name = setupFile ∨ ∃ id, name = fileName id

namespace Stored

variable {d : Directory} {setup : Option O.Setup} {files : List UInt8 → Option O.Registration}

/-- A write of the setup. -/
theorem writeSetup (h : Stored d setup files) (s : O.Setup) :
    ∃ d', (Directory.write setupFile (O.serializeSetup s) :
      Call Directory (StoreError O.AuthError) Unit) d =
        (.ok (), d') ∧ Stored d' (some s) files := by
  refine ⟨_, if_neg ?_, ?_, fun id => ?_, fun name bytes hname hext => ?_⟩
  · rw [h.setup]
    cases setup <;> exact nofun
  · exact AList.lookup_insert _
  · rw [HashMap.lookup_insert_eq, if_neg (fileName_ne_setupFile id), h.files]
  · rw [HashMap.lookup_insert_eq] at hname
    split at hname
    · next heq => exact Or.inl heq
    · exact h.only name bytes hname hext

/-- A write of a password file. -/
theorem writeFile (h : Stored d setup files) (id : List UInt8) (r : O.Registration) :
    ∃ d', (Directory.write (fileName id) (O.serializeRegistration r) :
        Call Directory (StoreError O.AuthError) Unit) d = (.ok (), d') ∧
      Stored d' setup (Function.update files id (some r)) := by
  refine ⟨_, if_neg ?_, ?_, fun id' => ?_, fun name bytes hname hext => ?_⟩
  · rw [h.files]
    cases files id <;> exact nofun
  · rw [HashMap.lookup_insert_eq, if_neg (fileName_ne_setupFile id).symm, h.setup]
  · rw [HashMap.lookup_insert_eq]
    by_cases heq : id' = id
    · rw [if_pos (congrArg fileName heq), heq, Function.update_self]
      rfl
    · rw [if_neg fun hname => heq (fileName_injective hname), Function.update_of_ne heq, h.files]
  · rw [HashMap.lookup_insert_eq] at hname
    split at hname
    · next heq => exact Or.inr ⟨id, heq⟩
    · exact h.only name bytes hname hext

/-- The loop of `save_to_dir`, over password files of one assignment. -/
theorem writeFiles {target : List UInt8 → Option O.Registration}
    {l : List (List UInt8 × O.Registration)} (hl : ∀ entry ∈ l, target entry.1 = some entry.2)
    (h : Stored d setup files) :
    ∃ d' files', (l.forM fun entry =>
        (Directory.write (fileName entry.1) (O.serializeRegistration entry.2) :
          Call Directory (StoreError O.AuthError) Unit)) d = (.ok (), d') ∧
      Stored d' setup files' ∧ (∀ id ∈ l.map Prod.fst, files' id = target id) ∧
      ∀ id, id ∉ l.map Prod.fst → files' id = files id := by
  induction l generalizing d files with
  | nil => exact ⟨d, files, rfl, h, nofun, fun _ _ => rfl⟩
  | cons entry l ih =>
    rw [List.forall_mem_cons] at hl
    obtain ⟨d₁, hwrite, h₁⟩ := h.writeFile entry.1 entry.2
    obtain ⟨d₂, files₂, hrest, h₂, hin, hout⟩ := ih hl.2 h₁
    refine ⟨d₂, files₂, (Call.bind_of_ok hwrite _).trans hrest, h₂, fun id hid => ?_, fun id hid => ?_⟩
    · by_cases hmem : id ∈ l.map Prod.fst
      · exact hin id hmem
      · obtain rfl : id = entry.1 := (List.mem_cons.mp hid).resolve_right hmem
        rw [hout _ hmem, Function.update_self, hl.1]
    · rw [List.map_cons, List.mem_cons, not_or] at hid
      rw [hout id hid.2, Function.update_of_ne hid.1]

section

variable (h : Stored d setup files)
include h

/-- A save over a directory that holds no identifier the store lacks. -/
theorem saveToDir {store : EnrollmentStore O} (hsub : ∀ id, store.get id = none → files id = none)
    (order : HashMap.Listing (List UInt8) O.Registration) :
    ∃ d', store.saveToDir order d = (.ok (), d') ∧ Stored d' (some store.setup) store.get := by
  obtain ⟨d₁, hsetup, h₁⟩ := h.writeSetup store.setup
  have hl : ∀ entry ∈ order.entries store.enrollments, store.get entry.1 = some entry.2 :=
    fun _ hentry => order.mem_iff.mp hentry
  obtain ⟨d₂, files₂, hfiles, h₂, hin, hout⟩ := h₁.writeFiles hl
  have heq : files₂ = store.get := by
    funext id
    by_cases hmem : id ∈ (order.entries store.enrollments).map Prod.fst
    · exact hin id hmem
    · have hnone : store.get id = none := Option.eq_none_iff_forall_ne_some.mpr fun r hr =>
        hmem (List.mem_map_of_mem (order.mem_iff.mpr hr))
      rw [hout id hmem, hsub id hnone, hnone]
  exact ⟨d₂, (Call.bind_of_ok hsetup _).trans hfiles, heq ▸ h₂⟩

/-- The entry of a password file. -/
theorem loadEntry_of_file (hO : O.RoundTrips) {id : List UInt8} {r : O.Registration}
    (hr : files id = some r) (m : HashMap (List UInt8) O.Registration) :
    EnrollmentStore.loadEntry d m (fileName id) = .ok (m.insert id r) := by
  have hskip : ¬ (fileName id = setupFile ∨ ¬ extension <:+ fileName id) := fun hor =>
    hor.elim (fileName_ne_setupFile id) fun hnot => hnot (List.suffix_append _ _)
  have hread : d.read (fileName id) = some (O.serializeRegistration r) := by
    rw [Directory.read, h.files, hr]
    rfl
  unfold EnrollmentStore.loadEntry
  simp only [Utf8.lossy_ascii (fileName_ascii id), if_neg hskip, hread, hO.registration]
  have hstrip : stripSuffix extension (fileName id) = some (hex id) := stripSuffix_append _ _
  simp only [hstrip, unhex_hex, Outcome.pure_eq]

/-- Any other entry. -/
theorem loadEntry_of_other {name : List UInt8} (hname : ∀ id, name ≠ fileName id)
    (m : HashMap (List UInt8) O.Registration) :
    EnrollmentStore.loadEntry d m name = .ok m := by
  unfold EnrollmentStore.loadEntry
  dsimp only
  split
  · rfl
  · next hkeep =>
    rw [not_or, not_not, Utf8.suffix_lossy_iff extension_ascii] at hkeep
    -- a file of the extension would be the setup, which is skipped by its name
    have hread : d.read name = none := by
      rw [Directory.read]
      split
      · next bytes hfile =>
        rcases h.only name bytes hfile hkeep.2 with rfl | ⟨id, hid⟩
        · exact absurd (Utf8.lossy_ascii setupFile_ascii) hkeep.1
        · exact absurd hid (hname id)
      · rfl
    rw [hread]
    split <;> rfl

/-- The loop of `load_from_dir`, over any of the entries. -/
theorem loadEntries (hO : O.RoundTrips) {l : List (List UInt8 × DirEntry)}
    (hl : ∀ entry ∈ l, d.lookup entry.1 = some entry.2) (m : HashMap (List UInt8) O.Registration) :
    ∃ m', l.foldlM (fun m entry => EnrollmentStore.loadEntry d m entry.1) m = .ok m' ∧
      (∀ id, fileName id ∈ l.map Prod.fst → m'.lookup id = files id) ∧
      ∀ id, fileName id ∉ l.map Prod.fst → m'.lookup id = m.lookup id := by
  induction l generalizing m with
  | nil => exact ⟨m, rfl, nofun, fun _ _ => rfl⟩
  | cons entry l ih =>
    rw [List.forall_mem_cons] at hl
    simp only [List.map_cons, List.mem_cons, not_or]
    by_cases hname : ∃ id, entry.1 = fileName id
    · obtain ⟨id, hid⟩ := hname
      obtain ⟨r, hr⟩ : ∃ r, files id = some r := by
        have hfile := h.files id
        rw [← hid, hl.1] at hfile
        exact (Option.map_eq_some_iff.mp hfile.symm).imp fun _ hr => hr.1
      obtain ⟨m', hload, hin, hout⟩ := ih hl.2 (m.insert id r)
      refine ⟨m', ?_, fun id' hid' => ?_, fun id' hid' => ?_⟩
      · rw [List.foldlM_cons, hid, h.loadEntry_of_file hO hr]
        exact hload
      · by_cases hmem : fileName id' ∈ l.map Prod.fst
        · exact hin id' hmem
        · obtain rfl : id' = id := fileName_injective ((hid'.resolve_right hmem).trans hid)
          rw [hout _ hmem, AList.lookup_insert, hr]
      · have hne : id' ≠ id := fun heq => hid'.1 ((congrArg fileName heq).trans hid.symm)
        rw [hout id' hid'.2, AList.lookup_insert_ne hne]
    · rw [not_exists] at hname
      obtain ⟨m', hload, hin, hout⟩ := ih hl.2 m
      refine ⟨m', ?_, fun id' hid' => ?_, fun id' hid' => hout id' hid'.2⟩
      · rw [List.foldlM_cons, h.loadEntry_of_other hname]
        exact hload
      · exact hin id' (hid'.resolve_left fun heq => hname id' heq.symm)

end

end Stored

variable {d : Directory} {files : List UInt8 → Option O.Registration}

theorem loadFromDir_of_stored (hO : O.RoundTrips) {setup : O.Setup} (h : Stored d (some setup) files)
    (order : HashMap.Listing (List UInt8) DirEntry) (dir : String) :
    ∃ store : EnrollmentStore O, EnrollmentStore.loadFromDir order dir d = .ok store ∧
      store.setup = setup ∧ store.get = files := by
  have hread : d.read setupFile = some (O.serializeSetup setup) := by
    rw [Directory.read, h.setup]
    rfl
  obtain ⟨m, hload, hin, hout⟩ := h.loadEntries hO (fun _ hentry => order.mem_iff.mp hentry) ∅
  refine ⟨⟨setup, m⟩, ?_, rfl, funext fun id => ?_⟩
  · rw [EnrollmentStore.loadFromDir, hread]
    simp only [Outcome.okOr, Outcome.ok_bind, hO.setup, Outcome.mapErr, hload, Outcome.pure_eq]
  · by_cases hmem : fileName id ∈ (order.entries d).map Prod.fst
    · exact hin id hmem
    · -- a password file would be listed
      have hnone : files id = none := Option.eq_none_iff_forall_ne_some.mpr fun r hr => by
        have hfile : d.lookup (fileName id) = some (.file (O.serializeRegistration r)) := by
          rw [h.files, hr]
          rfl
        exact hmem (List.mem_map_of_mem (order.mem_iff.mpr hfile))
      exact (hout id hmem).trans hnone.symm

theorem loadFromDir_of_none (h : Stored d none files)
    (order : HashMap.Listing (List UInt8) DirEntry) (dir : String) :
    (EnrollmentStore.loadFromDir order dir d : Outcome _ (EnrollmentStore O)) =
      .err (.missingSetup dir) := by
  have hread : d.read setupFile = none := by
    rw [Directory.read, h.setup]
    rfl
  rw [EnrollmentStore.loadFromDir, hread]
  rfl

end Blackwing.Auth
