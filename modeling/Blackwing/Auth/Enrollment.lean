import Blackwing.Auth.Store
import Blackwing.Lib.Run
import Blackwing.Session.Establish

/-!
# Enrollment runs

`bw-server --register` enrolls one device and exits: it loads the store of the data directory, or
makes a new one when that fails, registers the identifier, and saves the store
(`bw-server/src/main.rs`). Here are any number of such runs on one directory. A run whose
registration fails saves nothing, and so the setup that remains is the one of the first run that
enrolls.

* `Stored.enroll`, `Stored.enroll_first`: what a directory holds after one run.
* `stored_endState`: what it holds after all of them.
* `enrollments_survive`: what is loaded after all runs.
-/

namespace Blackwing.Auth

open EnrollmentStore

variable {O : Opaque}

/-- One run: the identifier and the password it is given, what the random number generator returns,
and the orders in which the directory and the map of password files are gone through. -/
structure EnrollmentRun (O : Opaque) where
  identifier : List UInt8
  password : List UInt8
  random : O.Random
  readDir : HashMap.Listing (List UInt8) DirEntry
  iterate : HashMap.Listing (List UInt8) O.Registration

/-- The store that a run starts with. -/
def openStore (dir : String) (r : EnrollmentRun O) (d : Directory) :
    Outcome (StoreError O.AuthError) (EnrollmentStore O) :=
  match loadFromDir r.readDir dir d with
  | .ok store => .ok store
  | .err _ => .ok (EnrollmentStore.new r.random)
  | .panicked => .panicked

def enroll (dir : String) (r : EnrollmentRun O) : Call Directory (StoreError O.AuthError) Unit := do
  let d ← Call.getState
  let store ← Call.ofOutcome (openStore dir r d)
  let store ← Call.ofOutcome (store.register r.random r.identifier r.password)
  store.saveToDir r.iterate

/-- A run as a step on the directory. -/
def enrollStep (dir : String) (d : Directory) (r : EnrollmentRun O) :
    Outcome (StoreError O.AuthError) Unit × Directory :=
  enroll dir r d

namespace EnrollmentRun

/-- The password file that a run makes under a setup. -/
def passwordFile (r : EnrollmentRun O) (setup : O.Setup) : Outcome O.AuthError O.Registration :=
  O.passwordFile setup r.random r.identifier r.password

/-- The password file that a run makes for an identifier, if it is the one it registers. -/
def fileFor (r : EnrollmentRun O) (setup : O.Setup) (id : List UInt8) : Option O.Registration :=
  match r.passwordFile setup with
  | .ok file => if id = r.identifier then some file else none
  | _ => none

/-- The registration of a run succeeds with a setup of its own. -/
def enrollsFirst (r : EnrollmentRun O) : Bool :=
  match r.passwordFile (O.newSetup r.random) with
  | .ok _ => true
  | _ => false

end EnrollmentRun

/-- The password file of the last run that registered the identifier. -/
def latestFile (setup : O.Setup) (runs : List (EnrollmentRun O)) (id : List UInt8) :
    Option O.Registration :=
  runs.reverse.findSome? fun r => r.fileFor setup id

/-! ## One run -/

section Run

variable {dir : String} {r : EnrollmentRun O} {d : Directory} {store : EnrollmentStore O}
  {setup : Option O.Setup} {s : O.Setup} {files : List UInt8 → Option O.Registration}

theorem openStore_of_stored (hO : O.RoundTrips) (h : Stored d (some s) files) (dir : String)
    (r : EnrollmentRun O) :
    ∃ store, openStore dir r d = .ok store ∧ store.setup = s ∧ store.get = files := by
  obtain ⟨store, hload, hstore⟩ := loadFromDir_of_stored hO h r.readDir dir
  exact ⟨store, by rw [openStore, hload], hstore⟩

theorem openStore_of_none (h : Stored d none files) :
    openStore dir r d = .ok (EnrollmentStore.new r.random) := by
  rw [openStore, loadFromDir_of_none h]

theorem get_register (file : O.Registration) :
    EnrollmentStore.get { store with enrollments := store.enrollments.insert r.identifier file } =
      Function.update store.get r.identifier (some file) := by
  funext id
  by_cases heq : id = r.identifier
  · rw [heq, Function.update_self]
    exact AList.lookup_insert _
  · rw [Function.update_of_ne heq]
    exact AList.lookup_insert_ne heq

/-- A run from a store that has what the directory holds, when its registration succeeds. -/
theorem enroll_of_ok (hopen : openStore dir r d = .ok store) (hd : Stored d setup store.get)
    {file : O.Registration} (hfile : r.passwordFile store.setup = .ok file) :
    ∃ d', enroll dir r d = (.ok (), d') ∧
      Stored d' (some store.setup) (Function.update store.get r.identifier (some file)) := by
  have hregister : store.register r.random r.identifier r.password =
      .ok { store with enrollments := store.enrollments.insert r.identifier file } := by
    rw [EnrollmentStore.register, show O.passwordFile _ _ _ _ = _ from hfile]
    rfl
  have hsub : ∀ id, Function.update store.get r.identifier (some file) id = none →
      store.get id = none := by
    intro id hnone
    by_cases heq : id = r.identifier
    · rw [heq, Function.update_self] at hnone
      cases hnone
    · rwa [Function.update_of_ne heq] at hnone
  rw [← get_register] at hsub ⊢
  obtain ⟨d', hsave, hd'⟩ := hd.saveToDir hsub r.iterate
  refine ⟨d', ?_, hd'⟩
  rw [enroll, Call.getState_bind, hopen, Call.ofOutcome_ok_bind, hregister, Call.ofOutcome_ok_bind]
  exact hsave

/-- A run whose registration fails saves nothing. -/
theorem enroll_of_not_ok (hopen : openStore dir r d = .ok store)
    (hfile : ∀ file, r.passwordFile store.setup ≠ .ok file) : (enroll dir r d).2 = d := by
  rw [enroll, Call.getState_bind, hopen, Call.ofOutcome_ok_bind]
  have hregister : ∀ store', store.register r.random r.identifier r.password ≠ .ok store' := by
    intro store' heq
    obtain ⟨file, hmap, -⟩ := Outcome.bind_eq_ok.mp heq
    exact hfile file (Outcome.mapErr_eq_ok.mp hmap)
  cases heq : store.register r.random r.identifier r.password with
  | ok store' => exact absurd heq (hregister store')
  | err e => rfl
  | panicked => rfl

theorem fileFor_or {file : O.Registration} (hfile : r.passwordFile s = .ok file)
    (files : List UInt8 → Option O.Registration) :
    (fun id => (r.fileFor s id).or (files id)) = Function.update files r.identifier (some file) := by
  funext id
  rw [EnrollmentRun.fileFor, hfile, Function.update_apply]
  dsimp only
  split <;> rfl

theorem fileFor_of_not_ok (hfile : ∀ file, r.passwordFile s ≠ .ok file) (id : List UInt8) :
    r.fileFor s id = none := by
  unfold EnrollmentRun.fileFor
  split
  · next file heq => exact absurd heq (hfile file)
  · rfl

/-- A run on a directory with a setup keeps the setup, and the files of the identifiers that it does
not register. -/
theorem Stored.enroll (hO : O.RoundTrips) (h : Stored d (some s) files) :
    Stored (enrollStep dir d r).2 (some s) fun id => (r.fileFor s id).or (files id) := by
  obtain ⟨store, hopen, rfl, rfl⟩ := openStore_of_stored hO h dir r
  by_cases hfile : ∃ file, r.passwordFile store.setup = .ok file
  · obtain ⟨file, hfile⟩ := hfile
    obtain ⟨d', hrun, hd'⟩ := enroll_of_ok hopen h hfile
    rw [enrollStep, hrun, fileFor_or hfile]
    exact hd'
  · rw [not_exists] at hfile
    rw [enrollStep, enroll_of_not_ok hopen hfile]
    simpa only [fileFor_of_not_ok hfile, Option.none_or] using h

theorem enrollsFirst_iff :
    r.enrollsFirst = true ↔ ∃ file, r.passwordFile (O.newSetup r.random) = .ok file := by
  unfold EnrollmentRun.enrollsFirst
  split
  · next file hfile => exact ⟨fun _ => ⟨file, hfile⟩, fun _ => rfl⟩
  · next hfile => exact ⟨nofun, fun ⟨file, heq⟩ => absurd heq (hfile file)⟩

/-- The first run that enrolls leaves its setup and one password file. -/
theorem Stored.enroll_first (h : Stored (O := O) d none fun _ => none)
    (hfirst : r.enrollsFirst = true) :
    Stored (enrollStep dir d r).2 (some (O.newSetup r.random)) (r.fileFor (O.newSetup r.random)) := by
  obtain ⟨file, hfile⟩ := enrollsFirst_iff.mp hfirst
  obtain ⟨d', hrun, hd'⟩ := enroll_of_ok (openStore_of_none h) h hfile
  have hfiles : r.fileFor (O.newSetup r.random) =
      Function.update (fun _ => none) r.identifier (some file) := by
    rw [← fileFor_or hfile]
    exact funext fun id => Option.or_none.symm
  rw [enrollStep, hrun, hfiles]
  exact hd'

/-- Before it, a run leaves the directory as it is. -/
theorem Stored.enroll_none (h : Stored (O := O) d none fun _ => none)
    (hfirst : r.enrollsFirst = false) : (enrollStep dir d r).2 = d := by
  refine enroll_of_not_ok (openStore_of_none h) fun file hfile => ?_
  exact Bool.eq_false_iff.mp hfirst (enrollsFirst_iff.mpr ⟨file, hfile⟩)

end Run

/-! ## All runs -/

variable {d : Directory}

theorem latestFile_cons (setup : O.Setup) (r : EnrollmentRun O) (runs : List (EnrollmentRun O))
    (id : List UInt8) :
    latestFile setup (r :: runs) id = (latestFile setup runs id).or (r.fileFor setup id) := by
  rw [latestFile, List.reverse_cons, List.findSome?_append, List.findSome?_singleton]
  rfl

/-- The runs after the one that left the setup. -/
theorem Stored.endState (hO : O.RoundTrips) {s : O.Setup} {files : List UInt8 → Option O.Registration}
    (h : Stored d (some s) files) (dir : String) (runs : List (EnrollmentRun O)) :
    Stored (endState (enrollStep dir) d runs) (some s) fun id =>
      (latestFile s runs id).or (files id) := by
  induction runs generalizing d files with
  | nil => exact h
  | cons r runs ih =>
    simp only [latestFile_cons, Option.or_assoc]
    exact ih (h.enroll hO)

/-- The runs from the first one on that enrolls. -/
def fromFirst (runs : List (EnrollmentRun O)) : List (EnrollmentRun O) :=
  runs.dropWhile fun r => !r.enrollsFirst

/-- What the directory holds after all runs. -/
theorem stored_endState (hO : O.RoundTrips) (h : Stored (O := O) d none fun _ => none)
    (dir : String) (runs : List (EnrollmentRun O)) :
    match fromFirst runs with
    | [] => Stored (O := O) (endState (enrollStep dir) d runs) none fun _ => none
    | first :: rest => Stored (endState (enrollStep dir) d runs) (some (O.newSetup first.random))
        (latestFile (O.newSetup first.random) (first :: rest)) := by
  induction runs with
  | nil => exact h
  | cons r runs ih =>
    cases hfirst : r.enrollsFirst with
    | false =>
      have hskip : fromFirst (r :: runs) = fromFirst runs :=
        List.dropWhile_cons_of_pos (by rw [hfirst]; rfl)
      rw [hskip, endState_cons, h.enroll_none hfirst]
      exact ih
    | true =>
      have hkeep : fromFirst (r :: runs) = r :: runs :=
        List.dropWhile_cons_of_neg (by rw [hfirst]; exact nofun)
      have hfiles : latestFile (O.newSetup r.random) (r :: runs) = fun id =>
          (latestFile (O.newSetup r.random) runs id).or (r.fileFor (O.newSetup r.random) id) :=
        funext (latestFile_cons _ r runs)
      rw [hkeep]
      dsimp only
      rw [endState_cons, hfiles]
      exact (h.enroll_first hfirst).endState hO dir runs

/-- A directory without a file of the extension, where the files of the store can be written. -/
theorem stored_of_new (hnew : ∀ name bytes, d.lookup name = some (.file bytes) → ¬ extension <:+ name)
    (hwrite : d.lookup setupFile ≠ some .directory ∧
      ∀ id, d.lookup (fileName id) ≠ some .directory) :
    Stored (O := O) d none fun _ => none := by
  have hnone : ∀ name, extension <:+ name → d.lookup name ≠ some .directory →
      d.lookup name = none := by
    intro name hext hdir
    cases hlookup : d.lookup name with
    | none => rfl
    | some entry =>
      cases entry with
      | file bytes => exact absurd hext (hnew name bytes hlookup)
      | directory => exact absurd hlookup hdir
  refine ⟨hnone setupFile (by decide) hwrite.1, fun id => ?_, fun name bytes hfile hext => ?_⟩
  · exact hnone (fileName id) (List.suffix_append _ _) (hwrite.2 id)
  · exact absurd hext (hnew name bytes hfile)

/-- Runs on a directory that has no file of the extension, and where the files of the store can be
written. A load fails only for want of a setup. What is loaded after all runs has the setup of the
first run that enrolls, and for each identifier the password file of its last registration. -/
theorem enrollments_survive (hO : O.RoundTrips)
    (hnew : ∀ name bytes, d.lookup name = some (.file bytes) → ¬ extension <:+ name)
    (hwrite : d.lookup setupFile ≠ some .directory ∧
      ∀ id, d.lookup (fileName id) ≠ some .directory)
    (dir : String) (runs : List (EnrollmentRun O))
    (order : HashMap.Listing (List UInt8) DirEntry) :
    (∀ e ∈ run (enrollStep dir) d runs, ∀ err,
      (loadFromDir e.input.readDir dir e.pre : Outcome _ (EnrollmentStore O)) = .err err →
        err = .missingSetup dir) ∧
    match fromFirst runs with
    | [] => (loadFromDir order dir (endState (enrollStep dir) d runs) :
        Outcome _ (EnrollmentStore O)) = .err (.missingSetup dir)
    | first :: rest => ∃ store : EnrollmentStore O,
        loadFromDir order dir (endState (enrollStep dir) d runs) = .ok store ∧
        store.setup = O.newSetup first.random ∧
        ∀ id, store.get id = latestFile (O.newSetup first.random) (first :: rest) id := by
  have hd := stored_of_new (O := O) hnew hwrite
  refine ⟨fun e he err herr => ?_, ?_⟩
  · obtain ⟨before, -, -, hentry⟩ := mem_run he
    have hpre : e.pre = endState (enrollStep dir) d before := by
      rw [hentry]
      rfl
    have hbefore := stored_endState hO hd dir before
    rw [← hpre] at hbefore
    split at hbefore
    · rw [loadFromDir_of_none hbefore] at herr
      exact (Outcome.err.inj herr).symm
    · obtain ⟨store, hload, -⟩ := loadFromDir_of_stored hO hbefore e.input.readDir dir
      exact nomatch hload.symm.trans herr
  · have hend := stored_endState hO hd dir runs
    split at hend
    · exact loadFromDir_of_none hend order dir
    · obtain ⟨store, hload, hsetup, hget⟩ := loadFromDir_of_stored hO hend order dir
      exact ⟨store, hload, hsetup, congrFun hget⟩

/-- A library whose password files are the setup and the password, and which refuses an empty
password. -/
def Opaque.plain : Opaque where
  Setup := List UInt8
  Registration := List UInt8
  Request := List UInt8
  State := Unit
  Response := List UInt8
  Upload := List UInt8
  AuthError := Unit
  Random := UInt8
  newSetup random := [random]
  clientStart _ password := if password = [] then .err () else .ok (password, ())
  serverStart setup request _ := .ok (setup ++ request)
  clientFinish _ _ response _ := .ok response
  serverFinish upload := upload
  serializeSetup setup := setup
  deserializeSetup := .ok
  serializeRegistration registration := registration
  deserializeRegistration := .ok

/-- A run with the plain library. -/
def plainRun (random : UInt8) (identifier password : List UInt8) : EnrollmentRun Opaque.plain :=
  ⟨identifier, password, random, .stored, .stored⟩

/-- A run without a password, two identifiers of which one is empty, and the other one again. -/
def plainRuns : List (EnrollmentRun Opaque.plain) :=
  [plainRun 1 [0xAB] [], plainRun 2 [0xAB] [7], plainRun 3 [] [8], plainRun 4 [0xAB] [9]]

/-- A directory with a file of another kind. -/
def plainDir : Directory := AList.insert (utf8 "cert.pem") (.file [1]) ∅

theorem enrollments_survive_plain :
    ∃ store : EnrollmentStore Opaque.plain,
      loadFromDir .stored "data" (endState (enrollStep "data") plainDir plainRuns) = .ok store ∧
        store.setup = ([2] : List UInt8) ∧ store.get [0xAB] = some ([2, 9] : List UInt8) ∧
        store.get [] = some ([2, 8] : List UInt8) ∧ store.get [0x0A] = none := by
  have hlookup : ∀ name entry, plainDir.lookup name = some entry →
      name = utf8 "cert.pem" ∧ entry = .file [1] := by
    intro name entry h
    rw [plainDir, HashMap.lookup_insert_eq] at h
    split at h
    · next heq => exact ⟨heq, (Option.some.inj h).symm⟩
    · exact nomatch h
  have hdir : ∀ name, plainDir.lookup name ≠ some .directory := fun name h =>
    nomatch (hlookup name _ h).2
  have hnew : ∀ name bytes, plainDir.lookup name = some (.file bytes) → ¬ extension <:+ name := by
    intro name bytes h
    rw [(hlookup name _ h).1]
    decide
  obtain ⟨-, store, hload, hsetup, hget⟩ :=
    enrollments_survive (O := Opaque.plain) ⟨fun _ => rfl, fun _ => rfl⟩ hnew
      ⟨hdir _, fun _ => hdir _⟩ "data" plainRuns .stored
  exact ⟨store, hload, hsetup, (hget _).trans rfl, (hget _).trans rfl, (hget _).trans rfl⟩

end Blackwing.Auth
