import SzymOS.Filesystem.FileMap
import SzymOS.Filesystem.Steps
import SzymOS.Lib.Run

/-!
# SzymFS is a finite map of capacity 32

`Represents` ties the static variables of `filesystem.c` to a `FileMap`, and every call keeps it
and answers as the map does.  The drive plays no part in any of this: the results hold of every
platform, so whatever a save meets on its way to the disk.

Names are the exception the map cannot absorb.  `fs_create_file` cuts a name to 31 bytes after it
has looked up the whole of it, so the map is refined for shorter names only, and the last section
says exactly when two files end up with one name.

The relation says that the directory is well-formed, that every file of it is bound in the map to
its content, and every binding of the map is a file.  Slots do not occur in it: of the many
directories that hold the same files in other slots all represent the same map.  Whether a creation
can be answered from the map alone is then a matter of counting, since the first free slot is there
exactly if the map is not full.

With longer names the calls still do something definite, and the run can be described, but not as a
map.  What is lost is that a file can be found under the name it was created with, and that there is
one file to a name.  Both are lost together, and the equivalence in the last section says at which
call.

**The simulation.** `Represents.fill` and `Represents.clear` are the two changes.
`fsStep_simulates` takes a call by cases and finds for each of them the same answer on both sides,
and the run is the simulation rule of `Lib`.

**Long names.** For a run with names of any length one invariant is left, that names have their NUL
(`fsStep_terminated`).  A creation with a short name keeps names unique and can be found
(`fsStep_unique`, `create_findable`); one with a long name cannot be found (`create_long_name`),
since nothing in the directory is as long.  So the first creation with a long name ends what is
claimed, and until then all is well.
-/

set_option autoImplicit false

namespace SzymOS

open Bytes Transition

variable {σ : Type}

/-! ## Reading a file

A read is a slice of `fs_data`, as long as the entry says and the buffer of the caller allows.  In a
directory laid out in slots no part of the slice is outside the array, so it is the content of the
file. -/

/-- **`fs_read_file` on a directory laid out in slots.**  It returns the content of the file found,
cut to what the buffer holds; nothing outside `fs_data` is read. -/
theorem fsReadFile_eq (P : Platform σ) {w : World σ} (hinit : w.fs.fsInitialized)
    (hterm : w.fs.fsHeader.Terminated) (hlaid : w.fs.fsHeader.LaidOut) (name : CString)
    {maxSize : UInt32} (hmax : 1 ≤ maxSize.toNat) :
    fsReadFile P w name maxSize
      = readOf ((w.fs.fsHeader.lookup name.bytes).map (fileContent w.fs)) maxSize.toNat := by
  rw [fsReadFile, if_neg (by simp [hinit]), fsFindFile_eq_lookup P hterm]
  cases hl : w.fs.fsHeader.lookup name.bytes with
  | none => rfl
  | some slot =>
      have hused : w.fs.fsHeader.Used slot := (FilesystemHeader.lookup_eq_some_iff.mp hl).1.1
      obtain ⟨hsize, hoff⟩ := hlaid slot hused
      have hread := readSize_toNat (w.fs.fsHeader.files slot).size hmax
      -- the copy stays inside `fs_data`, so it is the start of the content
      have hcopy : slice (dataMemory P w) (w.fs.fsHeader.files slot).offset.toNat
            (readSize (w.fs.fsHeader.files slot).size maxSize).toNat
          = (fileContent w.fs slot).take (maxSize.toNat - 1) := by
        have hslot := slot.isLt
        rw [hread, fileContent]
        calc slice (dataMemory P w) (w.fs.fsHeader.files slot).offset.toNat
              (min (w.fs.fsHeader.files slot).size.toNat (maxSize.toNat - 1))
            = slice w.fs.fsData (w.fs.fsHeader.files slot).offset.toNat
              (min (w.fs.fsHeader.files slot).size.toNat (maxSize.toNat - 1)) := by
              refine slice_congr ?_
              intro j hj
              have hmod : ((w.fs.fsHeader.files slot).offset.toNat + j) % 2 ^ 32
                  = (w.fs.fsHeader.files slot).offset.toNat + j := Nat.mod_eq_of_lt (by omega)
              rw [dataMemory, hmod, if_pos]
              simp only [fsDataSize]
              omega
          _ = _ := by
              rw [← slice_take _ _ _ _ (Nat.min_le_left _ _), ← List.take_take,
                List.take_of_length_le (by simp)]
      have hlen : ((fileContent w.fs slot).take (maxSize.toNat - 1)).length
          = min (w.fs.fsHeader.files slot).size.toNat (maxSize.toNat - 1) := by
        rw [List.length_take, fileContent, slice_length, Nat.min_comm]
      have hint : asInt (readSize (w.fs.fsHeader.files slot).size maxSize)
          = ((min (w.fs.fsHeader.files slot).size.toNat (maxSize.toNat - 1) : ℕ) : ℤ) := by
        rw [asInt, hread, if_pos (by omega)]
      simp only [Option.map_some, readOf, hcopy, hlen, hint]

/-! ## The simulation relation

The lemmas translate between the two sides: which names are bound, how many, and when there is no
room.  They are all that the simulation below uses of the directory. -/

/-- The variables hold exactly the files of the map. -/
structure Represents (s : FsState) (m : FileMap) : Prop where
  initialized : s.fsInitialized = true
  wellFormed : s.fsHeader.WellFormed
  lookup : ∀ name, m.lookup name = (s.fsHeader.lookup name).map (fileContent s)

namespace Represents

variable {s : FsState} {m : FileMap}

/-- Only the directory, the data and the initialised flag count. -/
lemma congr {s' : FsState} (h : Represents s m) (hh : s'.fsHeader = s.fsHeader)
    (hd : s'.fsData = s.fsData) (hi : s'.fsInitialized = s.fsInitialized) : Represents s' m where
  initialized := hi.trans h.initialized
  wellFormed := hh ▸ h.wellFormed
  lookup name := by
    have hc : fileContent s' = fileContent s := by
      funext i
      rw [fileContent, fileContent, hh, hd]
    rw [h.lookup name, hh, hc]

/-- A save changes nothing the map speaks of. -/
lemma save {P : Platform σ} {w : World σ} (h : Represents w.fs m) :
    Represents (fsSaveToDisk P w).fs m :=
  h.congr (fsSaveToDisk_fsHeader P w) (fsSaveToDisk_fsData P w) (fsSaveToDisk_fsInitialized P w)

lemma mem_iff (h : Represents s m) (name : List UInt8) :
    name ∈ m ↔ (s.fsHeader.lookup name).isSome := by
  rw [← Finmap.lookup_isSome, h.lookup, Option.isSome_map]

/-- The bound names are the names of the used slots. -/
lemma keys_eq (h : Represents s m) :
    m.keys = s.fsHeader.usedSlots.image fun i => entryName (s.fsHeader.files i) := by
  ext name
  rw [Finmap.mem_keys, h.mem_iff, Option.isSome_iff_exists]
  simp only [Finset.mem_image, FilesystemHeader.mem_usedSlots]
  exact exists_congr fun i => h.wellFormed.unique.lookup_eq_some_iff

/-- As many names are bound as slots are in use. -/
lemma keys_card (h : Represents s m) : m.keys.card = s.fsHeader.usedSlots.card := by
  rw [h.keys_eq]
  refine Finset.card_image_of_injOn ?_
  intro i hi j hj hij
  exact h.wellFormed.unique i j (by simpa using hi) (by simpa using hj) hij

/-- The map is full exactly when no slot is free. -/
lemma full_iff (h : Represents s m) :
    m.keys.card = 32 ↔ fsFindFreeSlot s.fsHeader = none := by
  rw [h.keys_card, fsFindFreeSlot_eq_none_iff]
  constructor
  · intro hcard i
    have huniv : s.fsHeader.usedSlots = Finset.univ :=
      Finset.eq_univ_of_card _ (by rw [hcard, Fintype.card_fin])
    rw [← FilesystemHeader.mem_usedSlots, huniv]
    exact Finset.mem_univ i
  · intro hall
    have huniv : s.fsHeader.usedSlots = Finset.univ :=
      Finset.eq_univ_of_forall fun i => by simpa using hall i
    rw [huniv, Finset.card_univ, Fintype.card_fin]

/-- An empty directory represents the empty map. -/
lemma empty (hinit : s.fsInitialized = true) (hempty : s.fsHeader.Empty) : Represents s ∅ where
  initialized := hinit
  wellFormed := hempty.wellFormed
  lookup name := by
    have hnone : s.fsHeader.lookup name = none :=
      FilesystemHeader.lookup_eq_none_iff.mpr fun i hi => absurd hi (hempty.2 i)
    rw [hnone]
    rfl

/-- A well-formed directory represents the map of its files. -/
lemma exists_of_wellFormed (hinit : s.fsInitialized = true) (hwf : s.fsHeader.WellFormed) :
    ∃ m, Represents s m := by
  let names := s.fsHeader.usedSlots.image fun i => entryName (s.fsHeader.files i)
  let find := fun name => (s.fsHeader.lookup name).map (fileContent s)
  have hfound : ∀ name, (find name).isSome ↔ name ∈ names := by
    intro name
    simp only [find, names, Option.isSome_map, Option.isSome_iff_exists, Finset.mem_image,
      FilesystemHeader.mem_usedSlots]
    exact exists_congr fun i => hwf.unique.lookup_eq_some_iff
  refine ⟨Finmap.keysLookupEquiv.symm ⟨(names, find), hfound⟩, hinit, hwf, ?_⟩
  intro name
  exact Finmap.keysLookupEquiv_symm_apply_lookup _ _

/-! ### Filling and clearing a slot

The two changes of a directory, and the changes of the map that they are. -/

/-- The directory after a slot has been filled finds the new name there, and the others where
they were. -/
lemma fill (h : Represents s m) {slot : Fin 32} {name content : CString}
    (hshort : name.length < 32) (hfresh : s.fsHeader.lookup name.bytes = none)
    (hslot : fsFindFreeSlot s.fsHeader = some slot) (hlen : content.length ≤ 4096) :
    Represents (fsFillSlot slot name content s) (m.insert name.bytes content.bytes) := by
  have hfree : ¬ s.fsHeader.Used slot := (fsFindFreeSlot_eq_some_iff.mp hslot).1
  have hstored : storedName name = name.bytes := storedName_of_short hshort
  have hwf : (fsFillSlot slot name content s).fsHeader.WellFormed :=
    { terminated := fsFillSlot_terminated h.wellFormed.terminated
      laidOut := fsFillSlot_laidOut hlen h.wellFormed.laidOut
      unique := fsFillSlot_unique (by rw [hstored]; exact hfresh) h.wellFormed.unique
      counted := fsFillSlot_counted hfree h.wellFormed.counted }
  refine ⟨h.initialized, hwf, ?_⟩
  intro other
  by_cases hother : other = name.bytes
  · subst hother
    have hfind : (fsFillSlot slot name content s).fsHeader.lookup name.bytes = some slot := by
      rw [hwf.unique.lookup_eq_some_iff, fsFillSlot_files_self]
      exact ⟨fsFillSlot_used_iff.mpr (Or.inl rfl), (nameBytes_storeName _ _).trans hstored⟩
    rw [Finmap.lookup_insert, hfind, Option.map_some, fileContent_fsFillSlot_self]
  · rw [Finmap.lookup_insert_of_ne _ hother, h.lookup]
    have hsame : (fsFillSlot slot name content s).fsHeader.lookup other
        = s.fsHeader.lookup other := by
      refine FilesystemHeader.lookup_frame (fun i hi => fsFillSlot_files_of_ne hi)
        (fun hc => absurd hc hfree) ?_
      intro _ hname
      rw [fsFillSlot_files_self] at hname
      exact hother ((hname.symm.trans (nameBytes_storeName _ _)).trans hstored)
    rw [hsame]
    cases hl : s.fsHeader.lookup other with
    | none => rfl
    | some i =>
        have hused : s.fsHeader.Used i := (FilesystemHeader.lookup_eq_some_iff.mp hl).1.1
        have hne : i ≠ slot := fun hc => hfree (hc ▸ hused)
        rw [Option.map_some, Option.map_some,
          fileContent_fsFillSlot_of_ne hlen h.wellFormed.laidOut hused hne]

/-- And after a slot has been cleared its name is gone, the others are where they were. -/
lemma clear (h : Represents s m) {slot : Fin 32} {name : List UInt8}
    (hslot : s.fsHeader.lookup name = some slot) :
    Represents (fsClearSlot slot s) (m.erase name) := by
  obtain ⟨hused, hname⟩ := h.wellFormed.unique.lookup_eq_some_iff.mp hslot
  have hwf : (fsClearSlot slot s).fsHeader.WellFormed :=
    { terminated := fsClearSlot_terminated h.wellFormed.terminated
      laidOut := fsClearSlot_laidOut h.wellFormed.laidOut
      unique := fsClearSlot_unique h.wellFormed.unique
      counted := (fsClearSlot_counted hused h.wellFormed.counted).1 }
  refine ⟨h.initialized, hwf, ?_⟩
  intro other
  by_cases hother : other = name
  · subst hother
    have hgone : (fsClearSlot slot s).fsHeader.lookup other = none := by
      rw [FilesystemHeader.lookup_eq_none_iff]
      intro i hi hc
      obtain ⟨hne, hui⟩ := fsClearSlot_used_iff.mp hi
      rw [fsClearSlot_files_of_ne hne] at hc
      exact hne (h.wellFormed.unique i slot hui hused (hc.trans hname.symm))
    rw [Finmap.lookup_erase, hgone]
    rfl
  · rw [Finmap.lookup_erase_ne hother, h.lookup]
    have hsame : (fsClearSlot slot s).fsHeader.lookup other = s.fsHeader.lookup other :=
      FilesystemHeader.lookup_frame (fun i hi => fsClearSlot_files_of_ne hi)
        (fun _ hc => hother (hc.symm.trans hname))
        fun hc => absurd rfl (fsClearSlot_used_iff.mp hc).1
    rw [hsame]
    cases hl : s.fsHeader.lookup other with
    | none => rfl
    | some i =>
        have hc := (FilesystemHeader.lookup_eq_some_iff.mp hl).1.2
        have hne : i ≠ slot := by
          rintro rfl
          exact hother (hc.symm.trans hname)
        rw [Option.map_some, Option.map_some, fileContent_fsClearSlot_of_ne hne]

end Represents

/-! ## Every call is simulated

The step lemma is by cases on the call.  Refused calls change nothing on either side, and are
refused for the same reason and with the same code; a creation and a deletion go through the lemmas
above; reads and questions are answered from the lookup.  The run is the simulation rule. -/

/-- The calls a map can answer for: names of at most 31 bytes for new files, and buffers with room
for the NUL. -/
def FsCall.Served : FsCall → Prop
  | .init => False
  | .create name _ => name.length < 32
  | .read _ maxSize => 1 ≤ maxSize.toNat
  | _ => True

/-- The result of a call that returns a value is not zero. -/
def FsResult.Nonzero : FsResult → Prop
  | .done => False
  | .code result => result ≠ 0
  | .truth result => result = true
  | .bytes result _ => result ≠ 0

/-- The step lemma: one call, on related states. -/
theorem fsStep_simulates {e : Platform σ × FsCall} {w : World σ} {m : FileMap}
    (hserved : e.2.Served) (h : Represents w.fs m) :
    (fsStep e w).1 = (FileMap.call e.2 m).1 ∧
      Represents (fsStep e w).2.fs (FileMap.call e.2 m).2 := by
  obtain ⟨P, call⟩ := e
  have hterm := h.wellFormed.terminated
  cases call with
  | init => exact absurd hserved id
  | save => exact ⟨rfl, h.save⟩
  | list =>
      refine ⟨rfl, ?_⟩
      simp only [fsStep, fsCall, fsListFiles]
      split_ifs <;> exact h
  | fileExists name =>
      refine ⟨?_, h⟩
      simp only [fsStep, fsCall, FileMap.call, fsFileExists, fsFindFile_eq_lookup P hterm,
        FsResult.truth.injEq]
      rw [Bool.eq_iff_iff, decide_eq_true_eq]
      exact (h.mem_iff _).symm
  | read name maxSize =>
      refine ⟨?_, h⟩
      simp only [fsStep, fsCall, FileMap.call,
        fsReadFile_eq P h.initialized hterm h.wellFormed.laidOut name hserved, h.lookup]
  | create name content =>
      simp only [fsStep, fsCall, FileMap.call, FileMap.create, h.mem_iff, maxFiles, maxFileSize,
        h.full_iff]
      have hfind := fsFindFile_eq_lookup P hterm name
      rcases fsCreateFile_cases P name content w h.initialized with
        ⟨h1, hr⟩ | ⟨h1, h2, hr⟩ | ⟨slot, h1, h2, h3, hr⟩ | ⟨slot, h1, h2, h3, hr⟩
      all_goals rw [hfind] at h1; rw [hr]
      · rw [if_pos h1]; exact ⟨rfl, h⟩
      · rw [h1, if_neg (by simp), if_pos h2]; exact ⟨rfl, h⟩
      · have h3' : 4096 < content.bytes.length := h3
        rw [h1, if_neg (by simp), h2, if_neg (by simp), if_pos h3']
        exact ⟨rfl, h⟩
      · have h3' : ¬ 4096 < content.bytes.length := Nat.not_lt.mpr h3
        rw [h1, if_neg (by simp), h2, if_neg (by simp), if_neg h3']
        exact ⟨rfl, (h.fill hserved h1 h2 h3).save (w := { w with fs := _ })⟩
  | delete name =>
      simp only [fsStep, fsCall, FileMap.call, FileMap.delete, h.mem_iff]
      have hfind := fsFindFile_eq_lookup P hterm name
      rcases fsDeleteFile_cases P name w h.initialized with ⟨h1, hr⟩ | ⟨slot, h1, hr⟩
      all_goals rw [hfind] at h1; rw [hr, h1]
      · exact ⟨rfl, h⟩
      · exact ⟨rfl, (h.clear h1).save (w := { w with fs := _ })⟩

/-- A call that answers with anything but zero leaves everything as it was: the variables of the
file system, the drive and the terminal. -/
lemma fsStep_nonzero {e : Platform σ × FsCall} {w : World σ} (h : (fsStep e w).1.Nonzero) :
    (fsStep e w).2 = w := by
  obtain ⟨P, call⟩ := e
  cases call with
  | init => exact absurd h id
  | save => exact absurd h id
  | list => exact absurd h id
  | fileExists name => rfl
  | read name maxSize => rfl
  | create name content => exact fsCreateFile_of_nonzero h
  | delete name => exact fsDeleteFile_of_nonzero h

/-- **SzymFS refines a finite map of capacity 32.**  From an empty file system, any sequence of
calls, on platforms that may change from call to call, gives the results the map gives;
`file_count` is the number of bound names; and whatever call comes next, it changes nothing when
its result is not zero. -/
theorem szymfs_refines_fileMap {w : World σ} (hinit : w.fs.fsInitialized = true)
    (hempty : w.fs.fsHeader.Empty) (calls : List (Platform σ × FsCall))
    (hserved : ∀ e ∈ calls, e.2.Served) :
    outputs fsStep calls w = outputs FileMap.call (calls.map Prod.snd) ∅ ∧
      (final fsStep calls w).fs.fsHeader.fileCount.toNat
        = (final FileMap.call (calls.map Prod.snd) ∅).keys.card ∧
      ∀ e, (fsStep e (final fsStep calls w)).1.Nonzero →
        (fsStep e (final fsStep calls w)).2 = final fsStep calls w := by
  obtain ⟨hout, hrep⟩ := outputs_eq_of_simulation (g := FileMap.call) (f := Prod.snd)
    (R := fun (w : World σ) m => Represents w.fs m)
    (fun e he _ _ h => fsStep_simulates (hserved e he) h) (Represents.empty hinit hempty)
  refine ⟨hout, ?_, fun e he => fsStep_nonzero he⟩
  rw [hrep.keys_card]
  exact hrep.wellFormed.counted

/-! ### The empty file system of `fs_init`

The run of the theorem begins with no file.  This is what `fs_init` leaves on a machine without a
drive, so the theorem can be used there as it stands. -/

/-- Without a drive `fs_init` sets up an empty file system in memory, and that is all. -/
lemma fsInit_noDrive (P : Platform σ) {w : World σ} (h : diskAvailable w.fs = false) :
    (fsInit P w).fs = fsInitEmpty w.fs := by
  have h' : diskAvailable (fsInitEmpty w.fs) = false := h
  simp only [fsInit, h', Bool.false_eq_true, if_false, Bool.not_false, if_true, World.print_fs]

/-- A machine without a drive, whose terminal nobody looks at. -/
def Platform.bare : Platform Unit where
  readSector _ _ _ d := (none, d)
  writeSector _ _ _ _ d := (-1, d)
  print _ d := d
  afterHeader _ _ := 0
  aroundData _ _ := 0

/-- That machine after `fs_init`. -/
def bareWorld : World Unit := fsInit Platform.bare { fs := FsState.powerOn, dev := () }

lemma bareWorld_fs : bareWorld.fs = fsInitEmpty FsState.powerOn := fsInit_noDrive _ rfl

lemma bareWorld_initialized : bareWorld.fs.fsInitialized = true := by
  rw [bareWorld_fs]
  rfl

lemma bareWorld_empty : bareWorld.fs.fsHeader.Empty := by
  rw [bareWorld_fs]
  exact ⟨rfl, fun _ hi => hi rfl⟩

def nameA : CString := CString.ofLiterals ["a"] (by decide)

/-- A file is created, read into a buffer of two bytes, and deleted twice. -/
theorem szymfs_refines_fileMap_bare :
    let calls := [FsCall.create nameA nameA, .read nameA 2, .delete nameA, .delete nameA].map
      fun call => (Platform.bare, call)
    outputs fsStep calls bareWorld = outputs FileMap.call (calls.map Prod.snd) ∅ := by
  refine (szymfs_refines_fileMap bareWorld_initialized bareWorld_empty _ ?_).1
  intro e he
  obtain ⟨call, hcall, rfl⟩ := List.mem_map.mp he
  simp only [List.mem_cons, List.not_mem_nil, or_false] at hcall
  rcases hcall with rfl | rfl | rfl | rfl
  · exact show nameA.length < 32 by decide
  · exact show 1 ≤ (2 : UInt32).toNat by decide
  · trivial
  · trivial

/-! ## Names of any length

The lookup of `fs_create_file` compares the whole name, and finds nothing if the name does not fit
into an entry.  So a name of 32 bytes or more is always new to it, and is stored cut to 31.  The
invariant that such a step keeps is weaker: names have their NUL, but they need not be unique any
more. -/

/-- A file that has just been created is found under the name it was created with. -/
def CreatedFindable (e : Platform σ × FsCall) (w : World σ) : Prop :=
  ∀ name content, e.2 = .create name content → (fsCreateFile e.1 name content w).1 = 0 →
    ∀ P : Platform σ, fsFileExists P (fsCreateFile e.1 name content w).2 name = true

/-- The call does not store a cut name: the name fits its array, or creation fails for want of a
slot or of room for the content. -/
def NameKept (e : Platform σ × FsCall) (w : World σ) : Prop :=
  ∀ name content, e.2 = .create name content →
    name.length < 32 ∨ fsFindFreeSlot w.fs.fsHeader = none ∨ 4096 < content.length

/-- Terminated names are kept by every call, whatever names it is given. -/
lemma fsStep_terminated {e : Platform σ × FsCall} {w : World σ} (he : e.2 ≠ .init)
    (hinit : w.fs.fsInitialized = true) (hterm : w.fs.fsHeader.Terminated) :
    (fsStep e w).2.fs.fsInitialized = true ∧ (fsStep e w).2.fs.fsHeader.Terminated := by
  obtain ⟨P, call⟩ := e
  refine fsCall_preserves (I := fun s => s.fsInitialized = true ∧ s.fsHeader.Terminated) P
    (fun _ _ h => h) he ?_ ⟨hinit, hterm⟩
  intro s hs
  cases hs with
  | save => exact ⟨hinit, hterm⟩
  | fill hfind hslot hlen => exact ⟨hinit, fsFillSlot_terminated hterm⟩
  | clear hfind => exact ⟨hinit, fsClearSlot_terminated hterm⟩

/-- No terminated directory holds a name of 32 bytes or more. -/
lemma lookup_long_name {h : FilesystemHeader} (hterm : h.Terminated) {name : CString}
    (hlong : 32 ≤ name.length) : h.lookup name.bytes = none := by
  rw [FilesystemHeader.lookup_eq_none_iff]
  intro i hi hc
  have hlen := hterm i hi
  have hlen' : (entryName (h.files i)).length = nameLen (h.files i).name := nameBytes_length _
  rw [hc] at hlen'
  rw [CString.length] at hlong
  omega

/-- A long name is never found, so it is stored wherever there is room. -/
lemma fsCreateFile_long {P : Platform σ} {w : World σ} {name content : CString} {slot : Fin 32}
    (hinit : w.fs.fsInitialized = true) (hterm : w.fs.fsHeader.Terminated)
    (hlong : 32 ≤ name.length) (hslot : fsFindFreeSlot w.fs.fsHeader = some slot)
    (hlen : content.length ≤ 4096) : fsCreateFile P name content w
      = (0, fsSaveToDisk P { w with fs := fsFillSlot slot name content w.fs }) := by
  have hfind : fsFindFile P w name = none := by
    rw [fsFindFile_eq_lookup P hterm, lookup_long_name hterm hlong]
  rcases fsCreateFile_cases P name content w hinit with
    ⟨h1, -⟩ | ⟨-, h2, -⟩ | ⟨_, -, -, h3, -⟩ | ⟨slot', -, h2, -, hr⟩
  · rw [hfind] at h1; exact absurd h1 (by simp)
  · rw [hslot] at h2; exact absurd h2 (by simp)
  · omega
  · rw [hslot, Option.some.injEq] at h2
    rw [hr, h2]

/-- A long name that is stored at all is stored cut, and not found again. -/
lemma create_long_name {P : Platform σ} {w : World σ} {name content : CString} {slot : Fin 32}
    (hinit : w.fs.fsInitialized = true) (hterm : w.fs.fsHeader.Terminated)
    (hlong : 32 ≤ name.length) (hslot : fsFindFreeSlot w.fs.fsHeader = some slot)
    (hlen : content.length ≤ 4096) :
    (fsCreateFile P name content w).1 = 0 ∧
      ∀ P' : Platform σ, fsFileExists P' (fsCreateFile P name content w).2 name = false := by
  rw [fsCreateFile_long hinit hterm hlong hslot hlen]
  refine ⟨rfl, ?_⟩
  intro P'
  have hterm' : (fsSaveToDisk P
      { w with fs := fsFillSlot slot name content w.fs }).fs.fsHeader.Terminated := by
    rw [fsSaveToDisk_fsHeader]
    exact fsFillSlot_terminated hterm
  rw [fsFileExists, fsFindFile_eq_lookup P' hterm', lookup_long_name hterm' hlong]
  rfl

/-- A name stored uncut is found again at once. -/
lemma create_findable {P : Platform σ} {w : World σ} {name content : CString}
    (hterm : w.fs.fsHeader.Terminated) (hunique : w.fs.fsHeader.UniqueNames)
    (hshort : name.length < 32) (hzero : (fsCreateFile P name content w).1 = 0)
    (P' : Platform σ) : fsFileExists P' (fsCreateFile P name content w).2 name = true := by
  obtain ⟨slot, hfind, -, -, hr⟩ := fsCreateFile_of_zero hzero
  have hstored := storedName_of_short hshort
  rw [fsFindFile_eq_lookup P hterm] at hfind
  have hunique' : (fsFillSlot slot name content w.fs).fsHeader.UniqueNames :=
    fsFillSlot_unique (by rw [hstored]; exact hfind) hunique
  have hterm' : (fsSaveToDisk P
      { w with fs := fsFillSlot slot name content w.fs }).fs.fsHeader.Terminated := by
    rw [fsSaveToDisk_fsHeader]
    exact fsFillSlot_terminated hterm
  have hfound : (fsFillSlot slot name content w.fs).fsHeader.lookup name.bytes = some slot := by
    rw [hunique'.lookup_eq_some_iff, fsFillSlot_files_self]
    exact ⟨fsFillSlot_used_iff.mpr (Or.inl rfl), (nameBytes_storeName _ _).trans hstored⟩
  rw [hr, fsFileExists, fsFindFile_eq_lookup P' hterm', fsSaveToDisk_fsHeader]
  simp only [hfound, Option.isSome_some]

/-- A step that stores no cut name keeps names unique, and what it creates is findable. -/
lemma fsStep_unique {e : Platform σ × FsCall} {w : World σ} (he : e.2 ≠ .init)
    (hterm : w.fs.fsHeader.Terminated) (hunique : w.fs.fsHeader.UniqueNames)
    (hkept : NameKept e w) : CreatedFindable e w ∧ (fsStep e w).2.fs.fsHeader.UniqueNames := by
  obtain ⟨P, call⟩ := e
  -- creation succeeds, so of the three ways to keep the name only the first is left
  have hshort : ∀ name content slot, call = .create name content →
      fsFindFreeSlot w.fs.fsHeader = some slot → content.length ≤ 4096 → name.length < 32 := by
    intro name content slot hcall hslot hlen
    rcases hkept name content hcall with h | h | h
    · exact h
    · rw [h] at hslot; exact absurd hslot (by simp)
    · omega
  constructor
  · intro name content hcall hzero P'
    obtain ⟨slot, -, hslot, hlen, -⟩ := fsCreateFile_of_zero hzero
    exact create_findable hterm hunique (hshort name content slot hcall hslot hlen) hzero P'
  · refine fsCall_preserves (I := fun s => s.fsHeader.UniqueNames) P (fun _ _ h => h) he ?_ hunique
    intro s hs
    cases hs with
    | save => exact hunique
    | clear hfind => exact fsClearSlot_unique hunique
    | fill hfind hslot hlen =>
        rw [fsFindFile_eq_lookup P hterm,
          ← storedName_of_short (hshort _ _ _ rfl hslot hlen)] at hfind
        exact fsFillSlot_unique hfind hunique

/-- **When names are unique and created files findable.**  Along any run from an empty file
system, names of any length: exactly when no call of the run stores a cut name. -/
theorem unique_and_findable_iff {w : World σ} (hinit : w.fs.fsInitialized = true)
    (hempty : w.fs.fsHeader.Empty) (calls : List (Platform σ × FsCall))
    (hcalls : ∀ e ∈ calls, e.2 ≠ .init) :
    (Along fsStep (fun e w => w.fs.fsHeader.UniqueNames ∧ CreatedFindable e w) calls w ∧
        (final fsStep calls w).fs.fsHeader.UniqueNames)
      ↔ Along fsStep NameKept calls w := by
  have hterm : w.fs.fsHeader.Terminated := hempty.wellFormed.terminated
  constructor
  · rintro ⟨hrun, -⟩
    refine Along.imp (I := fun w => w.fs.fsInitialized = true ∧ w.fs.fsHeader.Terminated)
      (fun e he t ht => fsStep_terminated (hcalls e he) ht.1 ht.2) ?_ ⟨hinit, hterm⟩ hrun
    rintro e t ⟨ht, hn⟩ ⟨-, hfind⟩ name content he
    by_contra hcut
    simp only [not_or, Nat.not_lt] at hcut
    obtain ⟨hlong, hfree, hlen⟩ := hcut
    obtain ⟨slot, hslot⟩ := Option.ne_none_iff_exists'.mp hfree
    obtain ⟨hzero, hgone⟩ := create_long_name (P := e.1) ht hn hlong hslot hlen
    have hfound := hfind name content he hzero e.1
    rw [hgone e.1] at hfound
    exact absurd hfound (by simp)
  · intro hkept
    have hstep : ∀ e ∈ calls, ∀ t : World σ,
        ((t.fs.fsInitialized = true ∧ t.fs.fsHeader.Terminated) ∧ t.fs.fsHeader.UniqueNames) →
        NameKept e t → (t.fs.fsHeader.UniqueNames ∧ CreatedFindable e t) ∧
          ((fsStep e t).2.fs.fsInitialized = true ∧ (fsStep e t).2.fs.fsHeader.Terminated) ∧
          (fsStep e t).2.fs.fsHeader.UniqueNames := by
      rintro e he t ⟨⟨ht, hn⟩, hu⟩ hk
      obtain ⟨hfind, hu'⟩ := fsStep_unique (hcalls e he) hn hu hk
      exact ⟨⟨hu, hfind⟩, fsStep_terminated (hcalls e he) ht hn, hu'⟩
    obtain ⟨hrun, hfin⟩ := along_of_step
      (I := fun t : World σ =>
        (t.fs.fsInitialized = true ∧ t.fs.fsHeader.Terminated) ∧ t.fs.fsHeader.UniqueNames)
      hstep ⟨⟨hinit, hterm⟩, hempty.wellFormed.unique⟩ hkept
    exact ⟨hrun, hfin.2⟩

/-- A name of one byte is kept. -/
theorem unique_and_findable_short :
    Along fsStep (fun e w => w.fs.fsHeader.UniqueNames ∧ CreatedFindable e w)
      [(Platform.bare, .create nameA nameA)] bareWorld := by
  refine ((unique_and_findable_iff bareWorld_initialized bareWorld_empty
    [(Platform.bare, .create nameA nameA)] (by simp)).mpr ⟨?_, trivial⟩).1
  intro name content hcall
  cases hcall
  exact Or.inl (by decide)

/-- A name of 32 bytes. -/
def longName : CString := CString.ofLiterals ["abcdefghijklmnopqrstuvwxyz012345"] (by decide)

/-- A file of that name is created, twice, and not found. -/
theorem long_name_not_findable : ¬ Along fsStep
    (fun e w => w.fs.fsHeader.UniqueNames ∧ CreatedFindable e w)
    [(Platform.bare, .create longName nameA), (Platform.bare, .create longName nameA)]
    bareWorld := by
  rintro ⟨⟨-, hfind⟩, -⟩
  have hfree : fsFindFreeSlot bareWorld.fs.fsHeader = some 0 :=
    fsFindFreeSlot_eq_some_iff.mpr ⟨bareWorld_empty.2 0, fun j hj => absurd hj (Nat.not_lt_zero _)⟩
  obtain ⟨hzero, hgone⟩ := create_long_name (P := Platform.bare) bareWorld_initialized
    bareWorld_empty.wellFormed.terminated (show 32 ≤ longName.length by decide) hfree
    (show nameA.length ≤ 4096 by decide)
  have hfound := hfind longName nameA rfl hzero Platform.bare
  rw [hgone] at hfound
  exact absurd hfound (by simp)

end SzymOS
