import SzymOS.Filesystem.Interruption

/-!
# The other files

An interrupted save leaves at most one entry that is neither the old one nor the new one, and at
most one slot with bytes of two contents.  So a file with another name than the one that is created
or deleted is kept, whatever sector the save stops at — as long as the name in the entry is the one
that was asked for.

`fs_create_file` stores the first 31 bytes of the name and looks for the whole of it before.  A name
of 32 bytes or more is never found, so its entry may get the name of a file that is there already.
If the free slot lies before that file, the directory is searched up to the new entry from then on,
and the file behind it is hidden: its name is found, with another content.

* `FsCall.Hides` — the calls that hide a file, by the state before and the number of sectors.
* `keeps_others_of_not_hides` — all other calls keep every file.
* `interrupted_save_keeps_others_iff` — the two together, in every state that can be reached.
* `long_name_hides_file` — a file that is hidden, on a drive with three calls behind it.

What is kept is proved on the lookup.  A file whose name is not the one in the new entry is covered
by `Interruption.lean`.  A file with exactly this name is a case of its own (`keepsFile_cut`): if
the free slot lies behind it, it is still found first, and if the entry is not in use after the
boot, it is found as before.  In the remaining case the new entry is found in its place, and whether
that makes a difference is a question of its content (`not_keepsOthers_of_hides`).
-/

set_option autoImplicit false

namespace SzymOS

open Bytes Blocks Transition

/-! ## Files that are kept

That a file is kept is stated with the functions of the source: it is found, and a read with any
buffer returns what it returned.  Behind this stand two facts about the directory, that the lookup
of the name finds an entry with the same offset and size, and that the data there are the same. -/

/-- The call creates or deletes a file of this name. -/
def FsCall.Names : FsCall → CString → Prop
  | .create name _, n => name = n
  | .delete name, n => name = n
  | _, _ => False

/-- The file is found, and read as before. -/
def KeepsFile (w after : SectorWorld) (other : CString) : Prop :=
  ∀ around : Env, fsFileExists (sectorPlatform around) after other = true ∧
    ∀ maxSize : UInt32, 1 ≤ maxSize.toNat → fsReadFile (sectorPlatform around) after other maxSize
      = fsReadFile (sectorPlatform around) w other maxSize

/-- Every file there was is kept, up to the one of this name. -/
def KeepsOthers (w after : SectorWorld) (name : CString) : Prop :=
  ∀ other : CString, other.bytes ≠ name.bytes →
    ∀ env : Env, fsFileExists (sectorPlatform env) w other = true → KeepsFile w after other

section Kept

variable {w after : SectorWorld} {other : CString} {i j : Fin 32}

/-- Found in some slot, with the content of before. -/
lemma keepsFile_of_found (hinit : w.fs.fsInitialized = true) (hterm : w.fs.fsHeader.Terminated)
    (hlaid : w.fs.fsHeader.LaidOut) (hinit' : after.fs.fsInitialized = true)
    (hterm' : after.fs.fsHeader.Terminated) (hlaid' : after.fs.fsHeader.LaidOut)
    (hi : w.fs.fsHeader.lookup other.bytes = some i)
    (hj : after.fs.fsHeader.lookup other.bytes = some j)
    (hcontent : fileContent after.fs j = fileContent w.fs i) : KeepsFile w after other := by
  intro around
  constructor
  · rw [fsFileExists, fsFindFile_eq_lookup _ hterm', hj]
    rfl
  · intro maxSize hmax
    rw [fsReadFile_eq _ hinit' hterm' hlaid' other hmax,
      fsReadFile_eq _ hinit hterm hlaid other hmax, hi, hj, Option.map_some, Option.map_some,
      hcontent]

/-- A file that exists has an entry. -/
lemma lookup_of_exists (hterm : w.fs.fsHeader.Terminated) {env : Env}
    (h : fsFileExists (sectorPlatform env) w other = true) :
    ∃ i, w.fs.fsHeader.lookup other.bytes = some i := by
  rw [fsFileExists, fsFindFile_eq_lookup _ hterm] at h
  exact Option.isSome_iff_exists.mp h

lemma exists_of_lookup (hterm : w.fs.fsHeader.Terminated) (env : Env)
    (h : w.fs.fsHeader.lookup other.bytes = some i) :
    fsFileExists (sectorPlatform env) w other = true := by
  rw [fsFileExists, fsFindFile_eq_lookup _ hterm, h]
  rfl

end Kept

/-! ## Files that are hidden

Four things must come together for a file to be hidden by a creation: the name is cut to the name of
the file, the new entry lies before that of the file, the save gets far enough for the entry to be
in use after the boot, and what the new entry then shows as content differs from the content of the
file.  If one of them is missing, the file is kept; in the case of the last one it is kept by
accident. -/

/-- Creating a file hides the one in slot `i`: the name is cut to its name, the entry goes into a
slot before it, the save gets as far as the used byte of this entry, and what the slot holds then is
not the content of the file. -/
structure HidesFile (s : FsState) (name content : CString) (k : ℕ) (slot i : Fin 32) : Prop where
  long : 32 ≤ name.length
  fits : content.length ≤ 4096
  free : fsFindFreeSlot s.fsHeader = some slot
  hidden : s.fsHeader.lookup (storedName name) = some i
  before : slot < i
  written : usedByteSector slot < k
  differs : tornContent s slot content k ≠ fileContent s i

/-- The call hides a file if its save stops after `k` sectors. -/
def FsCall.Hides (s : FsState) (k : ℕ) : FsCall → Prop
  | .create name content => ∃ slot i, HidesFile s name content k slot i
  | _ => False

/-- The name in the entry. -/
def cutName (name : CString) : CString where
  bytes := storedName name
  noNul b hb := name.noNul b (List.mem_of_mem_take hb)
  fits := Nat.lt_of_le_of_lt (List.length_take_le' 31 name.bytes) name.fits

lemma cutName_ne {name : CString} (h : 32 ≤ name.length) :
    (cutName name).bytes ≠ name.bytes := by
  intro hsame
  have hlen : (storedName name).length = name.length := congrArg List.length hsame
  rw [storedName, List.length_take] at hlen
  omega

/-- A read with room for every file tells contents apart. -/
lemma readOf_injective {a b : List UInt8} (ha : a.length ≤ 4096) (hb : b.length ≤ 4096)
    (h : readOf (some a) 4097 = readOf (some b) 4097) : a = b := by
  have hbytes := (Prod.mk.inj h).2
  rw [List.take_of_length_le ha, List.take_of_length_le hb] at hbytes
  exact List.append_cancel_right hbytes

lemma fileContent_length_le {s : FsState} {i : Fin 32} (hlaid : s.fsHeader.LaidOut)
    (hused : s.fsHeader.Used i) : (fileContent s i).length ≤ 4096 := by
  obtain ⟨hsize, -⟩ := hlaid i hused
  rw [fileContent, slice_length]
  omega

section Hidden

variable {w : SectorWorld} {name content : CString} {slot i : Fin 32} {env again : Env} {k : ℕ}

/-- **A file that is hidden is not kept.** -/
lemma not_keepsOthers_of_hides (drive : DriveId) (hev : Everywhere FilesystemHeader.LaidOut w)
    (hterm : w.fs.fsHeader.Terminated) (hdisk : OnDisk w.fs w.dev.disk) (hcut : env.CutAfter k)
    (hagain : again.AllRead) (h : HidesFile w.fs name content k slot i) :
    ¬ KeepsOthers w (reboot drive again (diskStep (env, .create name content) w).2.dev) name := by
  intro hkeeps
  have hinit := hev.booted.initialized
  have hfree : ¬ w.fs.fsHeader.Used slot := (fsFindFreeSlot_eq_some_iff.mp h.free).1
  have hhidden : w.fs.fsHeader.lookup (cutName name).bytes = some i := h.hidden
  obtain ⟨⟨hused, -⟩, hnone⟩ := FilesystemHeader.lookup_eq_some_iff.mp hhidden
  have hafter : AfterCreate w name content slot k
      (reboot drive again (diskStep (env, .create name content) w).2.dev) := by
    simp only [diskStep, fsCall, fsCreateFile_long hinit hterm h.long h.free h.fits]
    exact reboot_afterCreate drive hev.booted hdisk hcut hagain
  obtain ⟨hterm', hlaid'⟩ := hafter.entries hterm hev.memory hfree h.fits
  have hfind := hafter.lookup_stored (rfl : (cutName name).bytes = storedName name)
    (fun j hj => hnone j (Nat.lt_trans hj h.before)) h.written
  -- what is read of it before and after
  have hread := (hkeeps (cutName name) (cutName_ne h.long) env (exists_of_lookup hterm env hhidden)
    env).2 4097 (by decide)
  rw [fsReadFile_eq _ hafter.initialized hterm' hlaid' (cutName name) (by decide),
    fsReadFile_eq _ hinit hterm hev.memory (cutName name) (by decide), hfind, hhidden,
    Option.map_some, Option.map_some, hafter.content_slot h.fits h.written] at hread
  have hlen : (tornContent w.fs slot content k).length ≤ 4096 := by
    rw [tornContent, slice_length]
    exact h.fits
  exact h.differs (readOf_injective hlen (fileContent_length_le hev.memory hused) hread)

/-- If the new entry lies behind a file, or is not in use, the file is found as before. -/
lemma tornFill_lookup_kept {bytes : List UInt8} (hfree : ¬ w.fs.fsHeader.Used slot)
    (hi : w.fs.fsHeader.lookup bytes = some i) (hkept : ¬ (slot < i ∧ usedByteSector slot < k)) :
    (tornFill slot name content w.fs k).lookup bytes = some i := by
  obtain ⟨⟨hused, hname⟩, hnone⟩ := FilesystemHeader.lookup_eq_some_iff.mp hi
  have hne : i ≠ slot := fun hc => hfree (hc ▸ hused)
  refine FilesystemHeader.lookup_eq_some_iff.mpr ⟨?_, ?_⟩
  · rw [FilesystemHeader.Used, tornFill_frame i hne]
    exact ⟨hused, hname⟩
  · intro j hj hc
    by_cases hnew : j = slot
    · rw [hnew] at hj hc
      exact tornFill_not_reached hfree (Nat.le_of_not_lt fun hk => hkept ⟨hj, hk⟩) hc.1
    · rw [FilesystemHeader.Used, tornFill_frame j hnew] at hc
      exact hnone j hj hc

/-- Creating a file under the name of another one keeps that file, unless it hides it. -/
lemma keepsFile_cut (drive : DriveId) (hev : Everywhere FilesystemHeader.LaidOut w)
    (hterm : w.fs.fsHeader.Terminated) (hdisk : OnDisk w.fs w.dev.disk) (hcut : env.CutAfter k)
    (hagain : again.AllRead) (hlong : 32 ≤ name.length)
    (hnot : ¬ ∃ slot i, HidesFile w.fs name content k slot i) {other : CString}
    (hother : other.bytes = storedName name) (hi : w.fs.fsHeader.lookup other.bytes = some i) :
    KeepsFile w (reboot drive again (diskStep (env, .create name content) w).2.dev) other := by
  have hinit := hev.booted.initialized
  obtain ⟨⟨hused, -⟩, hnone⟩ := FilesystemHeader.lookup_eq_some_iff.mp hi
  by_cases hstored : (fsCreateFile (sectorPlatform env) name content w).1 = 0
  swap
  · -- nothing is stored
    have hsame : (diskStep (env, .create name content) w).2 = w := fsCreateFile_of_nonzero hstored
    obtain ⟨hh, hd, -⟩ := reboot_onDisk drive w.dev hagain hdisk hev.booted.magic
    rw [hsame]
    refine keepsFile_of_found hinit hterm hev.memory (reboot_ready drive _).2 (hh ▸ hterm)
      (hh ▸ hev.memory) hi (hh ▸ hi) ?_
    exact fileContent_congr hev.memory hused (by rw [hh]) fun q _ hq => hd q (by omega)
  obtain ⟨slot, -, hslot, hlen, hr⟩ := fsCreateFile_of_zero hstored
  have hfree : ¬ w.fs.fsHeader.Used slot := (fsFindFreeSlot_eq_some_iff.mp hslot).1
  have hne : i ≠ slot := fun hc => hfree (hc ▸ hused)
  have hafter : AfterCreate w name content slot k
      (reboot drive again (diskStep (env, .create name content) w).2.dev) := by
    simp only [diskStep, fsCall, hr]
    exact reboot_afterCreate drive hev.booted hdisk hcut hagain
  obtain ⟨hterm', hlaid'⟩ := hafter.entries hterm hev.memory hfree hlen
  by_cases hbefore : slot < i ∧ usedByteSector slot < k
  · -- the new entry is found first, with the same content
    obtain ⟨hlt, hk⟩ := hbefore
    have hsame : tornContent w.fs slot content k = fileContent w.fs i := by
      by_contra hdiffers
      exact hnot ⟨slot, i, hlong, hlen, hslot, hother ▸ hi, hlt, hk, hdiffers⟩
    have hfind := hafter.lookup_stored hother (fun j hj => hnone j (Nat.lt_trans hj hlt)) hk
    exact keepsFile_of_found hinit hterm hev.memory hafter.initialized hterm' hlaid' hi hfind
      ((hafter.content_slot hlen hk).trans hsame)
  · -- the file is found where it was
    have hfind : (tornFill slot name content w.fs k).lookup other.bytes = some i :=
      tornFill_lookup_kept hfree hi hbefore
    refine keepsFile_of_found hinit hterm hev.memory hafter.initialized hterm' hlaid' hi
      (hafter.header ▸ hfind) ?_
    refine fileContent_congr hev.memory hused
      (by rw [hafter.header]; exact tornFill_frame i hne) ?_
    intro q h1 h2
    have hval : (i : ℕ) ≠ slot := fun hc => hne (Fin.ext hc)
    rw [hafter.data q (by omega), fsFillSlot_fsData_outside hlen (by omega), ite_self]

end Hidden

/-! ## Exactly the calls that hide nothing

Both directions use that the state has been reached by the machine: the files lie in their slots, so
what a creation writes is not part of another file. -/

section Reached

variable {drive : DriveId} {dev : SectorDev} {boot : Env} {events : List MachineEvent}
  {w : SectorWorld}

/-- **A call that hides no file keeps every other one.** -/
lemma keeps_others_of_not_hides (hformat : Formats boot dev)
    (hevents : ∀ e ∈ events, e.Admissible fun _ => True)
    (hw : w = final (machineStep drive) events (reboot drive boot dev))
    (hdisk : OnDisk w.fs w.dev.disk)
    (hnames : ∀ i, w.fs.fsHeader.Used i →
      0 < nameLen (w.fs.fsHeader.files i).name ∧ nameLen (w.fs.fsHeader.files i).name < 32)
    {call : FsCall} {name : CString} (hcall : call.Names name)
    {env : Env} {k : ℕ} (hcut : env.CutAfter k) {again : Env} (hagain : again.AllRead)
    (hnot : ¬ call.Hides w.fs k) :
    KeepsOthers w (reboot drive again (diskStep (env, call) w).2.dev) name := by
  intro other hother around hexists
  have hev : Everywhere FilesystemHeader.LaidOut w := hw ▸ reachable_laidOut drive hformat hevents
  have hterm : w.fs.fsHeader.Terminated := fun i hi => (hnames i hi).2
  obtain ⟨i, hi⟩ := lookup_of_exists hterm hexists
  have hkept (entry : List UInt8) (hentry : call.EntryName entry) (hne : other.bytes ≠ entry) :
      KeepsFile w (reboot drive again (diskStep (env, call) w).2.dev) other :=
    interrupted_save_keeps_others drive dev boot hformat events hevents w hw hdisk hnames call entry
      hentry env k hcut again hagain other hne (exists_of_lookup hterm env hi)
  cases call with
  | create n content =>
      obtain rfl : n = name := hcall
      by_cases hentry : other.bytes = storedName n
      swap
      · exact hkept (storedName n) rfl hentry
      refine keepsFile_cut drive hev hterm hdisk hcut hagain ?_ hnot hentry hi
      by_contra hshort
      exact hother (hentry.trans (storedName_of_short (Nat.lt_of_not_le hshort)))
  | delete n =>
      obtain rfl : n = name := hcall
      exact hkept n.bytes rfl hother
  | init => exact absurd hcall id
  | save => exact absurd hcall id
  | fileExists _ => exact absurd hcall id
  | read _ _ => exact absurd hcall id
  | list => exact absurd hcall id

end Reached

/-- **When an interrupted save harms no other file.**  In any state that a freshly formatted drive
can reach, however many of its saves were interrupted and whatever its boots could read, and that is
on disk: let the save of a creation or a deletion stop after any number of sectors.  The reboot
finds every file with another name, with the content it had, exactly if the call hides no file. -/
theorem interrupted_save_keeps_others_iff (drive : DriveId) (dev : SectorDev) (boot : Env)
    (hformat : Formats boot dev) (events : List MachineEvent)
    (hevents : ∀ e ∈ events, e.Admissible fun _ => True)
    (w : SectorWorld) (hw : w = final (machineStep drive) events (reboot drive boot dev))
    (hdisk : OnDisk w.fs w.dev.disk)
    (hnames : ∀ i, w.fs.fsHeader.Used i →
      0 < nameLen (w.fs.fsHeader.files i).name ∧ nameLen (w.fs.fsHeader.files i).name < 32)
    (call : FsCall) (name : CString) (hcall : call.Names name)
    (env : Env) (k : ℕ) (hcut : env.CutAfter k) (again : Env) (hagain : again.AllRead) :
    KeepsOthers w (reboot drive again (diskStep (env, call) w).2.dev) name
      ↔ ¬ call.Hides w.fs k := by
  constructor
  · intro hkeeps hhides
    have hterm : w.fs.fsHeader.Terminated := fun i hi => (hnames i hi).2
    have hev : Everywhere FilesystemHeader.LaidOut w := hw ▸ reachable_laidOut drive hformat hevents
    cases call with
    | create n content =>
        obtain rfl : n = name := hcall
        obtain ⟨slot, i, hides⟩ := hhides
        exact not_keepsOthers_of_hides drive hev hterm hdisk hcut hagain hides hkeeps
    | init | delete _ | save | fileExists _ | read _ _ | list => exact hhides
  · exact keeps_others_of_not_hides hformat hevents hw hdisk hnames hcall hcut hagain

/-- One file on a formatted drive, and a second creation cut after five sectors. -/
theorem interrupted_save_keeps_letter :
    KeepsOthers
      (final (machineStep .primaryMaster) (lettersCreated 1)
        (reboot .primaryMaster Env.faultless .blank))
      (reboot .primaryMaster Env.faultless
        (diskStep (Env.cutAfter 5, .create (letter 1) (letter 1))
          (final (machineStep .primaryMaster) (lettersCreated 1)
            (reboot .primaryMaster Env.faultless .blank))).2.dev) (letter 1) := by
  have h := filled_letters .primaryMaster formats_blank 1 (by omega)
  have hnames : ∀ i, (final (machineStep .primaryMaster) (lettersCreated 1)
      (reboot .primaryMaster Env.faultless .blank)).fs.fsHeader.Used i →
      0 < nameLen ((final (machineStep .primaryMaster) (lettersCreated 1)
        (reboot .primaryMaster Env.faultless .blank)).fs.fsHeader.files i).name ∧
      nameLen ((final (machineStep .primaryMaster) (lettersCreated 1)
        (reboot .primaryMaster Env.faultless .blank)).fs.fsHeader.files i).name < 32 := by
    intro i hi
    rw [h.nameLen_eq hi]
    omega
  refine (interrupted_save_keeps_others_iff .primaryMaster .blank Env.faultless formats_blank
    (lettersCreated 1) (lettersCreated_admissible _ 1) _ rfl h.onDisk hnames
    (.create (letter 1) (letter 1)) (letter 1) rfl (Env.cutAfter 5) 5 rfl
    Env.faultless Env.faultless_allRead).mpr ?_
  rintro ⟨slot, i, hides⟩
  have hlong := hides.long
  rw [letter_length] at hlong
  omega

/-! ### A file that is hidden

The drive is formatted and holds one file; another is created whose name has 31 bytes, and the first
one is deleted.  Slot 0 is free then, and a name of 32 bytes that begins with those 31 goes there.
-/

/-- Two files, the second with a name of 31 bytes; then the first is deleted. -/
def hidingRun : List MachineEvent :=
  lettersCreated 1 ++ [.call (Env.cutAfter 259) (.create (cutName longName) (letter 0)),
    .call (Env.cutAfter 259) (.delete (letter 0))]

lemma hidingRun_admissible : ∀ e ∈ hidingRun, e.Admissible fun _ => True := by
  rw [hidingRun, List.forall_mem_append]
  refine ⟨lettersCreated_admissible _ 1, ?_⟩
  simp only [List.forall_mem_cons, List.not_mem_nil, false_implies, implies_true, and_true]
  exact ⟨⟨by simp, 259, rfl⟩, ⟨by simp, 259, rfl⟩⟩

lemma cutName_longName_length : (cutName longName).length = 31 := by decide

section Hiding

variable {w : SectorWorld}

/-- The directory after these calls. -/
def hidingState (s : FsState) : FsState :=
  fsClearSlot 0 (fsFillSlot 1 (cutName longName) (letter 0) s)

lemma hidingState_used_iff (h : Filled 1 w) (i : Fin 32) :
    (hidingState w.fs).fsHeader.Used i ↔ i = 1 := by
  rw [hidingState, fsClearSlot_used_iff, fsFillSlot_used_iff, h.used i]
  omega

/-- The file that is hidden. -/
lemma hidingState_files (s : FsState) :
    entryName ((hidingState s).fsHeader.files 1) = (cutName longName).bytes ∧
      fileContent (hidingState s) 1 = (letter 0).bytes := by
  have hne : (1 : Fin 32) ≠ 0 := by decide
  rw [hidingState, fsClearSlot_files_of_ne hne, fsFillSlot_files_self,
    fileContent_fsClearSlot_of_ne hne, fileContent_fsFillSlot_self]
  refine ⟨(nameBytes_storeName _ _).trans (storedName_of_short ?_), rfl⟩
  rw [cutName_longName_length]
  omega

/-- The two calls behind the first creation. -/
lemma diskStep_hiding (h : Filled 1 w) (env : Env) :
    ∃ v : SectorWorld, Booted v.fs ∧ v.fs.fsHeader = (hidingState w.fs).fsHeader ∧
      v.fs.fsData = (hidingState w.fs).fsData ∧
      (diskStep (env, .delete (letter 0))
        (diskStep (env, .create (cutName longName) (letter 0)) w).2).2
        = fsSaveToDisk (sectorPlatform env) v := by
  have hfresh : w.fs.fsHeader.lookup (cutName longName).bytes = none := by
    rw [FilesystemHeader.lookup_eq_none_iff]
    intro i hi hc
    have hlen : (letter i).length = (cutName longName).length :=
      congrArg List.length ((h.names i ((h.used i).mp hi)).symm.trans hc)
    rw [letter_length, cutName_longName_length] at hlen
    omega
  -- what the first of the two saves
  obtain ⟨s, hs⟩ : ∃ s, s = fsFillSlot 1 (cutName longName) (letter 0) w.fs := ⟨_, rfl⟩
  have hcreate : (diskStep (env, .create (cutName longName) (letter 0)) w).2
      = fsSaveToDisk (sectorPlatform env) { w with fs := s } := by
    rw [hs, diskStep, fsCall, h.create_fresh (by omega) env hfresh (letter_length 0 ▸ by omega)]
    rfl
  obtain ⟨u, hu⟩ : ∃ u, u = fsSaveToDisk (sectorPlatform env) { w with fs := s } := ⟨_, rfl⟩
  have hbooted : Booted u.fs := by
    rw [hu]
    exact Booted.save (sectorPlatform env) (hs ▸ h.booted.fill 1 (cutName longName) (letter 0))
  have hheader : u.fs.fsHeader = s.fsHeader := by rw [hu, fsSaveToDisk_fsHeader]
  have hdata : u.fs.fsData = s.fsData := by rw [hu, fsSaveToDisk_fsData]
  -- which the second finds its file in
  have hterm : u.fs.fsHeader.Terminated := by
    rw [hheader, hs]
    exact fsFillSlot_terminated h.terminated
  have hfind : fsFindFile (sectorPlatform env) u (letter 0) = some 0 := by
    rw [fsFindFile_eq_lookup _ hterm, hheader, FilesystemHeader.lookup_eq_some_iff,
      FilesystemHeader.Used, hs, fsFillSlot_files_of_ne (by decide)]
    exact ⟨⟨(h.used 0).mpr (by decide), h.names 0 (by decide)⟩,
      fun j hj => absurd hj (Nat.not_lt_zero j)⟩
  refine ⟨{ u with fs := fsClearSlot 0 u.fs }, ?_, ?_, ?_, ?_⟩
  · exact ⟨hbooted.hasDrive.congr rfl rfl, hbooted.initialized, hbooted.magic⟩
  · simp only [hidingState, fsClearSlot, hheader, hs]
  · simp only [hidingState, fsClearSlot, hdata, hs]
  · rw [hcreate, ← hu, diskStep, fsCall, fsDeleteFile, if_neg (by simp [hbooted.initialized]),
      hfind]

/-- What the run leaves: one file, in the second slot, on the disk as in memory. -/
lemma hidingRun_leaves (hw : w = final (machineStep .primaryMaster) hidingRun
      (reboot .primaryMaster Env.faultless .blank)) :
    OnDisk w.fs w.dev.disk ∧ (∀ i, w.fs.fsHeader.Used i ↔ i = 1) ∧
      entryName (w.fs.fsHeader.files 1) = (cutName longName).bytes ∧
      fileContent w.fs 1 = (letter 0).bytes := by
  have hfilled := filled_letters .primaryMaster formats_blank 1 (by omega)
  obtain ⟨v, hbooted, hheader, hdata, hv⟩ := diskStep_hiding hfilled (Env.cutAfter 259)
  have hsaved : w = fsSaveToDisk (sectorPlatform (Env.cutAfter 259)) v := by
    rw [← hv, hw]
    simp only [hidingRun, final_append, final_cons, final_nil, machineStep]
  generalize hw₁ : final (machineStep .primaryMaster) (lettersCreated 1)
    (reboot .primaryMaster Env.faultless .blank) = w₁ at hfilled hheader hdata
  have hheader' : w.fs.fsHeader = (hidingState w₁.fs).fsHeader := by
    rw [hsaved, fsSaveToDisk_fsHeader, hheader]
  obtain ⟨hname, hfile⟩ := hidingState_files w₁.fs
  refine ⟨?_, fun i => ?_, ?_, ?_⟩
  · rw [hsaved]
    exact (save_onDisk hbooted.hasDrive fun lba h1 h2 => Env.cutAfter_stored h1 h2).saved _
  · rw [hheader']
    exact hidingState_used_iff hfilled i
  · rw [hheader', hname]
  · rw [← hfile, fileContent, fileContent, hheader', hsaved, fsSaveToDisk_fsData, hdata]

/-- In such a directory the name of 32 bytes goes before the file. -/
lemma hidesFile_longName (hused : ∀ i, w.fs.fsHeader.Used i ↔ i = 1)
    (hname : entryName (w.fs.fsHeader.files 1) = (cutName longName).bytes)
    (hfile : fileContent w.fs 1 = (letter 0).bytes) :
    HidesFile w.fs longName (letter 1) 4 0 1 where
  long := by decide
  fits := by rw [letter_length]; omega
  free := by
    refine fsFindFreeSlot_eq_some_iff.mpr ⟨?_, fun j hj => absurd hj (Nat.not_lt_zero j)⟩
    rw [hused 0]
    decide
  hidden := by
    refine FilesystemHeader.lookup_eq_some_iff.mpr ⟨⟨(hused 1).mpr rfl, hname⟩, ?_⟩
    intro j hj hc
    exact Fin.ne_of_lt hj ((hused j).mp hc.1)
  before := by decide
  written := by decide
  differs := by
    rw [tornContent_all (by rw [letter_length]; decide), hfile]
    decide

end Hiding

/-- **A hidden file.**  The names in the directory are shorter than 32 bytes, but the one that is
created has 32: its first 31 are the name of the file in the second slot, and the first one is
free. -/
theorem long_name_hides_file :
    let w := final (machineStep .primaryMaster) hidingRun
      (reboot .primaryMaster Env.faultless .blank)
    (∀ e ∈ hidingRun, e.Admissible fun _ => True) ∧ OnDisk w.fs w.dev.disk ∧
      (∀ i, w.fs.fsHeader.Used i →
        0 < nameLen (w.fs.fsHeader.files i).name ∧ nameLen (w.fs.fsHeader.files i).name < 32) ∧
      ¬ KeepsOthers w (reboot .primaryMaster Env.faultless
        (diskStep (Env.cutAfter 4, .create longName (letter 1)) w).2.dev) longName := by
  intro w
  obtain ⟨hdisk, hused, hname, hfile⟩ := hidingRun_leaves (w := w) rfl
  have hnames (i : Fin 32) (hi : w.fs.fsHeader.Used i) :
      0 < nameLen (w.fs.fsHeader.files i).name ∧ nameLen (w.fs.fsHeader.files i).name < 32 := by
    have hlen : nameLen (w.fs.fsHeader.files 1).name = 31 := by
      rw [← nameBytes_length]
      exact (congrArg List.length hname).trans cutName_longName_length
    rw [(hused i).mp hi, hlen]
    omega
  have hev := reachable_laidOut .primaryMaster formats_blank hidingRun_admissible
  exact ⟨hidingRun_admissible, hdisk, hnames,
    not_keepsOthers_of_hides .primaryMaster hev (fun i hi => (hnames i hi).2) hdisk rfl
      Env.faultless_allRead (hidesFile_longName hused hname hfile)⟩

end SzymOS
