import SzymOS.Filesystem.TornImage
import SzymOS.Filesystem.Refinement

/-!
# Creating and deleting when the save is interrupted

A machine that may lose power during any save is a run of `machineStep`: calls, each with a save
that stops after some number of sectors, and reboots.  There is no journal and no order of writes
that would protect the directory: `fs_save_to_disk` writes the three sectors of the header and then
the 256 of the data, and the entries of slots 11 and 23 lie across two of the header's sectors.  So
a boot may find half of an entry, and the new directory with the old data.

What saves the other files is that a call changes one entry and the bytes of one slot.  The torn
header agrees with the old one in all other entries, and the torn entry is one of four: the old
one, the new one, one that is not used, or one whose name starts with the NUL of a cleared entry.

* `reachable_header` — the invariant rule for such runs: a property of headers that holds of empty
  ones, that filling and clearing a slot keep, and that torn headers inherit, holds in memory and
  on disk in every state reached.
* `interrupted_save_keeps_others` — an interrupted creation or deletion leaves every file with
  another name than its entry as it was.
* `interrupted_create` — what becomes of the file itself: there or not, by where its entry's used
  byte lies, and with its content sector by sector.

**The state before.** What holds in every state of such a machine is proved by `reachable_header`,
which reduces it to facts about headers: for an empty one, for filling an entry, for clearing it,
for a torn header and for what a boot reads.  Its step is `machineStep_everywhere`.  By this rule
entries stay in their slots whatever happens (`reachable_laidOut`), and `FileCount.lean` uses it for
the count.

**The save that is cut.** `torn_others` is about the directory alone: after a call has been
interrupted, the names other than that of its entry are found where they were, and no byte outside
one slot has changed.  `reboot_keeps_file` adds the boot, which reads the torn header and the data
as far as they have been written.

**The new file.** `AfterCreate` collects what a boot finds after an interrupted creation; its lemmas
answer, one by one, whether the file is there, what a read returns and what has become of the other
entries.
-/

set_option autoImplicit false

namespace SzymOS

open Bytes Blocks Transition

/-! ## A machine that loses power

A run of the machine is a list of calls and restarts.  Each call comes with the surroundings it is
made in, and among them with the number of sectors that its save gets through; each restart with the
reads that it can do.  Power failures are not events of their own: a save that is cut short,
followed by a restart, is one, and a cut save with the machine going on is a drive that has begun to
refuse. -/

/-- What happens to the machine: a call is made, while the surroundings behave as `env` says, or
the machine is started again. -/
inductive MachineEvent where
  | call (env : Env) (call : FsCall)
  | reboot (env : Env)

def machineStep (drive : DriveId) : MachineEvent → SectorWorld → FsResult × SectorWorld
  | .call env call, w => diskStep (env, call) w
  | .reboot env, w => (.done, reboot drive env w.dev)

/-- The save of a call stops after some number of sectors; a boot reads what it is allowed to. -/
def MachineEvent.Admissible (reads : Env → Prop) : MachineEvent → Prop
  | .call env c => c ≠ .init ∧ ∃ k, env.CutAfter k
  | .reboot env => reads env

/-- A save that stops after `k` sectors does so where it is allowed, by the header on disk and the
header to be saved. -/
def MachineEvent.StopsWhere (allowed : FilesystemHeader → FilesystemHeader → ℕ → Prop) :
    MachineEvent → SectorWorld → Prop
  | .call env c, w => ∀ k saved, env.CutAfter k → savePoint (sectorPlatform env) c w = some saved →
      allowed (diskHeader w.dev.disk) saved.fs.fsHeader k
  | .reboot _, _ => True

/-- A boot that formats the drive, with every read and write successful. -/
structure Formats (env : Env) (dev : SectorDev) : Prop where
  read : env.AllRead
  stored : env.AllStored
  foreign : (diskHeader dev.disk).magic ≠ szymfsMagic

/-- A formatted drive holds what is in memory: a directory with no file. -/
theorem reboot_formats (drive : DriveId) {env : Env} {dev : SectorDev} (h : Formats env dev) :
    (reboot drive env dev).fs.fsHeader.Empty ∧
      OnDisk (reboot drive env dev).fs (reboot drive env dev).dev.disk ∧
      ∀ q < 131072, (reboot drive env dev).fs.fsData q = 0 := by
  obtain ⟨w, hfs, -, hboot, hdisk⟩ := reboot_blank drive dev h.read.headerReads h.foreign
  have hdrive : w.fs.HasDrive := by
    rw [hfs]
    exact (bootState_hasDrive drive).congr rfl rfl
  have hon := save_onDisk hdrive fun lba _ _ => (h.stored lba : env.write lba = .stored)
  rw [hboot, hdisk]
  refine ⟨?_, hon.saved env, ?_⟩
  · rw [fsSaveToDisk_fsHeader, hfs]
    exact ⟨rfl, fun i hi => hi rfl⟩
  · intro q hq
    rw [fsSaveToDisk_fsData, hfs]
    have hin : q < 0 + fsDataSize := by
      simp only [fsDataSize]
      omega
    simp only [fsFormat]
    rw [splice_inside (Nat.zero_le q) hin]

/-- A property of the header in memory, of the header on disk, and of what else a reboot needs. -/
structure Everywhere (I : FilesystemHeader → Prop) (w : SectorWorld) : Prop where
  booted : Booted w.fs
  memory : I w.fs.fsHeader
  diskMagic : (diskHeader w.dev.disk).magic = szymfsMagic
  disk : I (diskHeader w.dev.disk)

section Reachable

variable {I : FilesystemHeader → Prop} {reads : Env → Prop}
  {allowed : FilesystemHeader → FilesystemHeader → ℕ → Prop}

/-- The step lemma. -/
lemma machineStep_everywhere
    (hfill : ∀ s slot name content, ¬ s.fsHeader.Used slot → content.length ≤ 4096 →
      I s.fsHeader → I (fsFillSlot slot name content s).fsHeader)
    (hclear : ∀ s slot, s.fsHeader.Used slot → I s.fsHeader → I (fsClearSlot slot s).fsHeader)
    (htorn : ∀ old new k, allowed old new k → I old → I new → I (tornHeader old new k))
    (drive : DriveId) (hload : ∀ env d, reads env → I (diskHeader d) → I (bootHeader drive env d))
    {e : MachineEvent} (he : e.Admissible reads) {w : SectorWorld}
    (hw : Everywhere I w) (hstop : e.StopsWhere allowed w) :
    Everywhere I (machineStep drive e w).2 := by
  cases e with
  | reboot env =>
      obtain ⟨hh, hsame⟩ := reboot_header drive env hw.diskMagic
      refine ⟨reboot_booted_of_magic drive env hw.diskMagic, ?_, ?_, ?_⟩
      · simp only [machineStep, hh]
        exact hload env w.dev.disk he hw.disk
      · simp only [machineStep, hsame]
        exact hw.diskMagic
      · simp only [machineStep, hsame]
        exact hw.disk
  | call env call =>
      obtain ⟨hcall, k, hcut⟩ := he
      simp only [machineStep, diskStep]
      rcases fsCall_cases (sectorPlatform env) hcall w with
        ⟨-, calls, hr⟩ | ⟨s, hs, hpoint, hr⟩
      · rw [hr]
        exact ⟨hw.booted, hw.memory, by rw [print_disk]; exact hw.diskMagic,
          by rw [print_disk]; exact hw.disk⟩
      · have hbooted : Booted s := hs.booted hw.booted
        have hI : I s.fsHeader := by
          cases hs with
          | save => exact hw.memory
          | fill hfind hslot hlen =>
              exact hfill _ _ _ _ (fsFindFreeSlot_eq_some_iff.mp hslot).1 hlen hw.memory
          | clear hfind => exact hclear _ _ (fsFindFile_used hfind) hw.memory
        have hheader := diskHeader_save_cut (w := { w with fs := s }) hbooted.hasDrive hcut
        rw [hr]
        refine ⟨?_, ?_, ?_, ?_⟩
        · exact hbooted.save (sectorPlatform env) (w := { w with fs := s })
        · rw [fsSaveToDisk_fsHeader]
          exact hI
        · rw [hheader, tornHeader_magic]
          split_ifs
          · exact hw.diskMagic
          · exact hbooted.magic
        · rw [hheader]
          exact htorn _ _ k (hstop k _ hcut hpoint) hw.disk hI

/-- **The invariant rule for interrupted machines.** -/
theorem reachable_header (hempty : ∀ h : FilesystemHeader, h.Empty → I h)
    (hfill : ∀ s slot name content, ¬ s.fsHeader.Used slot → content.length ≤ 4096 →
      I s.fsHeader → I (fsFillSlot slot name content s).fsHeader)
    (hclear : ∀ s slot, s.fsHeader.Used slot → I s.fsHeader → I (fsClearSlot slot s).fsHeader)
    (htorn : ∀ old new k, allowed old new k → I old → I new → I (tornHeader old new k))
    (drive : DriveId) (hload : ∀ env d, reads env → I (diskHeader d) → I (bootHeader drive env d))
    {env : Env} {dev : SectorDev} (hformat : Formats env dev)
    {events : List MachineEvent} (hevents : ∀ e ∈ events, e.Admissible reads)
    (hstops : Along (machineStep drive) (MachineEvent.StopsWhere allowed) events
      (reboot drive env dev)) :
    Everywhere I (final (machineStep drive) events (reboot drive env dev)) := by
  obtain ⟨he, hdisk, -⟩ := reboot_formats drive hformat
  have hbooted := reboot_booted drive dev hformat.read.headerReads
  refine (along_of_step (P := fun _ _ => True) (I := Everywhere I) (fun e he' w hw hstop =>
    ⟨trivial, machineStep_everywhere hfill hclear htorn drive hload (hevents e he') hw hstop⟩)
    ?_ hstops).2
  refine ⟨hbooted, hempty _ he, ?_, ?_⟩
  · rw [hdisk.header]
    exact hbooted.magic
  · rw [hdisk.header]
    exact hempty _ he

/-- Anywhere is where saves may stop. -/
lemma stopsWhere_anywhere (drive : DriveId) (events : List MachineEvent) (w : SectorWorld) :
    Along (machineStep drive) (MachineEvent.StopsWhere fun _ _ _ => True) events w :=
  along_of_forall fun e _ _ => by
    cases e with
    | call env c => exact fun _ _ _ _ => trivial
    | reboot env => exact trivial

end Reachable

/-- Whatever the boots can read and wherever saves stop, the entries of a formatted drive stay in
their slots. -/
lemma reachable_laidOut (drive : DriveId) {env : Env} {dev : SectorDev} (hformat : Formats env dev)
    {events : List MachineEvent} (hevents : ∀ e ∈ events, e.Admissible fun _ => True) :
    Everywhere FilesystemHeader.LaidOut
      (final (machineStep drive) events (reboot drive env dev)) :=
  reachable_header (fun _ he => he.wellFormed.laidOut)
    (fun _ _ _ _ _ hlen h => fsFillSlot_laidOut hlen h)
    (fun _ _ _ h => fsClearSlot_laidOut h) (fun _ _ _ _ h h' => tornHeader_laidOut h h')
    drive (fun _ _ _ h => tornHeader_laidOut (bootState_empty drive).wellFormed.laidOut h)
    hformat hevents (stopsWhere_anywhere drive _ _)

/-! ### A drive with `j` files

The drive that concrete runs below start from: formatted, then filled with files whose names are
single letters. -/

/-- A one-byte string. -/
def letter (j : ℕ) : CString where
  bytes := [UInt8.ofNat (65 + j % 64)]
  noNul := by
    intro b hb hz
    rw [List.mem_singleton.mp hb, ← UInt8.toNat_inj, UInt8.toNat_ofNat'] at hz
    have h0 : (0 : UInt8).toNat = 0 := rfl
    omega
  fits := by simp

lemma letter_length (j : ℕ) : (letter j).length = 1 := rfl

lemma letter_injective {i j : ℕ} (hi : i < 64) (hj : j < 64)
    (h : (letter i).bytes = (letter j).bytes) : i = j := by
  have hbyte : UInt8.ofNat (65 + i % 64) = UInt8.ofNat (65 + j % 64) := List.head_eq_of_cons_eq h
  rw [← UInt8.toNat_inj, UInt8.toNat_ofNat', UInt8.toNat_ofNat'] at hbyte
  omega

/-- Slots below `j` hold the files named by the first `j` letters, the others are free, and all of
it is on disk. -/
structure Filled (j : ℕ) (w : SectorWorld) : Prop where
  booted : Booted w.fs
  onDisk : OnDisk w.fs w.dev.disk
  used : ∀ i : Fin 32, w.fs.fsHeader.Used i ↔ (i : ℕ) < j
  names : ∀ i : Fin 32, (i : ℕ) < j → entryName (w.fs.fsHeader.files i) = (letter i).bytes
  count : w.fs.fsHeader.fileCount.toNat = j
  laidOut : w.fs.fsHeader.LaidOut
  counted : w.fs.fsHeader.Counted

namespace Filled

variable {j : ℕ} {w : SectorWorld}

lemma nameLen_eq (h : Filled j w) {i : Fin 32} (hi : w.fs.fsHeader.Used i) :
    nameLen (w.fs.fsHeader.files i).name = 1 := by
  rw [← nameBytes_length]
  exact congrArg List.length (h.names i ((h.used i).mp hi))

lemma terminated (h : Filled j w) : w.fs.fsHeader.Terminated := by
  intro i hi
  rw [h.nameLen_eq hi]
  omega

lemma lookup_next (h : Filled j w) (hj : j < 32) :
    w.fs.fsHeader.lookup (letter j).bytes = none := by
  rw [FilesystemHeader.lookup_eq_none_iff]
  intro i hi hc
  have hlt := (h.used i).mp hi
  rw [h.names i hlt] at hc
  have heq := letter_injective (by omega) (by omega) hc
  omega

lemma free_next (h : Filled j w) (hj : j < 32) :
    fsFindFreeSlot w.fs.fsHeader = some ⟨j, hj⟩ := by
  rw [fsFindFreeSlot_eq_some_iff]
  refine ⟨fun hc => Nat.lt_irrefl j ((h.used _).mp hc), fun i hi => (h.used i).mpr hi⟩

/-- Creating another file, whatever happens to its save. -/
lemma create_fresh (h : Filled j w) (hj : j < 32) (env : Env) {name content : CString}
    (hfresh : w.fs.fsHeader.lookup name.bytes = none) (hlen : content.length ≤ 4096) :
    fsCreateFile (sectorPlatform env) name content w
      = (0, fsSaveToDisk (sectorPlatform env)
          { w with fs := fsFillSlot ⟨j, hj⟩ name content w.fs }) := by
  have hfits : ¬ contentLen content > UInt32.ofNat maxFileSize := by
    rw [contentLen_gt_iff]
    omega
  rw [fsCreateFile, if_neg (by simp [h.booted.initialized]),
    fsFindFile_eq_lookup _ h.terminated, hfresh, if_neg (by simp), h.free_next hj]
  exact if_neg hfits

lemma create_next (h : Filled j w) (hj : j < 32) (env : Env) :
    fsCreateFile (sectorPlatform env) (letter j) (letter j) w
      = (0, fsSaveToDisk (sectorPlatform env)
          { w with fs := fsFillSlot ⟨j, hj⟩ (letter j) (letter j) w.fs }) :=
  h.create_fresh hj env (h.lookup_next hj) (letter_length j ▸ by omega)

lemma succ (h : Filled j w) (hj : j < 32) {env : Env}
    (hstored : ∀ lba, 2048 ≤ lba → lba < 2307 → env.write lba = .stored) :
    Filled (j + 1) (diskStep (env, .create (letter j) (letter j)) w).2 := by
  have hbooted := h.booted.fill ⟨j, hj⟩ (letter j) (letter j)
  have hsave := save_onDisk (w := { w with fs := fsFillSlot ⟨j, hj⟩ (letter j) (letter j) w.fs })
    hbooted.hasDrive hstored
  simp only [diskStep, fsCall, h.create_next hj]
  constructor
  · exact hbooted.save (sectorPlatform env)
      (w := { w with fs := fsFillSlot ⟨j, hj⟩ (letter j) (letter j) w.fs })
  · exact hsave.saved env
  · intro i
    rw [fsSaveToDisk_fsHeader, fsFillSlot_used_iff, h.used i, Fin.ext_iff, Nat.lt_succ_iff_lt_or_eq]
    exact or_comm
  · intro i hi
    rw [fsSaveToDisk_fsHeader]
    by_cases heq : i = ⟨j, hj⟩
    · subst heq
      rw [fsFillSlot_files_self]
      exact (nameBytes_storeName _ _).trans (storedName_of_short (letter_length j ▸ by omega))
    · have hne : (i : ℕ) ≠ j := fun hc => heq (Fin.ext hc)
      rw [fsFillSlot_files_of_ne heq]
      exact h.names i (by omega)
  · have hcount : (w.fs.fsHeader.fileCount + 1).toNat = w.fs.fsHeader.fileCount.toNat + 1 := by
      rw [UInt32.toNat_add, UInt32.toNat_one, h.count]
      omega
    rw [fsSaveToDisk_fsHeader]
    exact hcount.trans (by rw [h.count])
  · rw [fsSaveToDisk_fsHeader]
    exact fsFillSlot_laidOut (letter_length j ▸ by omega) h.laidOut
  · rw [fsSaveToDisk_fsHeader]
    exact fsFillSlot_counted (fun hc => Nat.lt_irrefl j ((h.used _).mp hc)) h.counted

end Filled

/-- Create the first `j` files. -/
def lettersCreated (j : ℕ) : List MachineEvent :=
  (List.range j).map fun i => .call (Env.cutAfter 259) (.create (letter i) (letter i))

lemma Env.cutAfter_stored {lba : ℕ} (_ : 2048 ≤ lba) (h : lba < 2307) :
    (Env.cutAfter 259).write lba = .stored := by
  simp only [Env.cutAfter, cut, fsStartSector]
  exact if_pos (by omega)

lemma filled_zero (drive : DriveId) {env : Env} {dev : SectorDev} (h : Formats env dev) :
    Filled 0 (reboot drive env dev) := by
  obtain ⟨he, hdisk, -⟩ := reboot_formats drive h
  constructor
  · exact reboot_booted drive dev h.read.headerReads
  · exact hdisk
  · exact fun i => ⟨fun hi => absurd hi (he.2 i), fun hi => absurd hi (Nat.not_lt_zero _)⟩
  · exact fun i hi => absurd hi (Nat.not_lt_zero _)
  · rw [he.1]
    rfl
  · exact he.wellFormed.laidOut
  · exact he.wellFormed.counted

lemma filled_letters (drive : DriveId) {env : Env} {dev : SectorDev} (h : Formats env dev) (j : ℕ)
    (hj : j ≤ 32) :
    Filled j (final (machineStep drive) (lettersCreated j) (reboot drive env dev)) := by
  induction j with
  | zero => exact filled_zero drive h
  | succ j ih =>
      rw [lettersCreated, List.range_succ, List.map_append, final_append]
      exact (ih (by omega)).succ (by omega) fun lba h1 h2 => Env.cutAfter_stored h1 h2

lemma lettersCreated_admissible (reads : Env → Prop) (j : ℕ) :
    ∀ e ∈ lettersCreated j, e.Admissible reads := by
  intro e he
  obtain ⟨i, -, rfl⟩ := List.mem_map.mp he
  exact ⟨by simp, 259, rfl⟩

lemma formats_blank : Formats Env.faultless SectorDev.blank where
  read := Env.faultless_allRead
  stored := Env.faultless_allStored
  foreign := by decide

/-! ## One entry, torn

The two headers of an interrupted creation or deletion differ in one entry and in the count, so all
other entries of the torn header are those of both.  The one in question is the new one, or the old
one, or the old one with the beginning of its name replaced.  After a creation the last case does no
harm, because the entry was not in use before.  After a deletion it does little: the new name begins
with a NUL, so the file that is left has an empty name. -/

section TornEntry

variable {s : FsState} {slot : Fin 32} {name content : CString} {k : ℕ}

/-- The header on disk after an interrupted creation. -/
def tornFill (slot : Fin 32) (name content : CString) (s : FsState) (k : ℕ) : FilesystemHeader :=
  tornHeader s.fsHeader (fsFillSlot slot name content s).fsHeader k

/-- The header on disk after an interrupted deletion. -/
def tornClear (slot : Fin 32) (s : FsState) (k : ℕ) : FilesystemHeader :=
  tornHeader s.fsHeader (fsClearSlot slot s).fsHeader k

lemma tornFill_frame (i : Fin 32) (hi : i ≠ slot) :
    (tornFill slot name content s k).files i = s.fsHeader.files i :=
  tornHeader_files_same (fsFillSlot_files_of_ne hi)

lemma tornClear_frame (i : Fin 32) (hi : i ≠ slot) :
    (tornClear slot s k).files i = s.fsHeader.files i :=
  tornHeader_files_same (fsClearSlot_files_of_ne hi)

/-- Once its used byte is written the new file is in the directory, under its name. -/
lemma tornFill_reached (h : usedByteSector slot < k) :
    (tornFill slot name content s k).Used slot ∧
      entryName ((tornFill slot name content s k).files slot) = storedName name ∧
      nameLen ((tornFill slot name content s k).files slot).name < 32 ∧
      (tornFill slot name content s k).files slot
        = (fsFillSlot slot name content s).fsHeader.files slot := by
  rw [usedByteSector] at h
  have hfile : (tornFill slot name content s k).files slot
      = (fsFillSlot slot name content s).fsHeader.files slot :=
    tornHeader_files_reached (by omega)
  rw [FilesystemHeader.Used, hfile, fsFillSlot_files_self]
  refine ⟨by simp, nameBytes_storeName _ _, ?_, rfl⟩
  rw [nameLen_storeName]
  omega

/-- Before that, it is not. -/
lemma tornFill_not_reached (hfree : ¬ s.fsHeader.Used slot) (h : k ≤ usedByteSector slot) :
    ¬ (tornFill slot name content s k).Used slot := by
  rw [usedByteSector] at h
  rw [FilesystemHeader.Used, tornFill, tornHeader_files_kept (by omega)]
  exact hfree

/-- A cleared entry is gone, or it keeps its name, or the name starts with the new NUL. -/
lemma tornClear_slot (h : (tornClear slot s k).Used slot) :
    (tornClear slot s k).files slot = s.fsHeader.files slot ∨
      nameLen ((tornClear slot s k).files slot).name = 0 := by
  rcases Nat.lt_or_ge (8 + 44 * (slot : ℕ) + 40) (512 * k) with hk | hk
  · rw [FilesystemHeader.Used, tornClear, tornHeader_files_reached hk, fsClearSlot_files_self] at h
    exact absurd rfl h
  · rw [tornClear, tornHeader_files_kept hk]
    by_cases hfirst : 8 + 44 * (slot : ℕ) < 512 * k
    · right
      refine nameLen_eq (n := 0) (by omega) ?_ fun j hj => absurd hj (Nat.not_lt_zero _)
      simp only [Nat.add_zero, if_pos hfirst, fsClearSlot_files_self]
      exact Function.update_self _ _ _
    · left
      have hname : ∀ j : Fin 32, ¬ 8 + 44 * (slot : ℕ) + j < 512 * k := fun j => by omega
      simp only [hname, if_false]

lemma tornFill_terminated (hfree : ¬ s.fsHeader.Used slot) (h : s.fsHeader.Terminated) :
    (tornFill slot name content s k).Terminated := by
  refine h.frame tornFill_frame ?_
  intro hused
  rcases Nat.lt_or_ge (usedByteSector slot) k with hk | hk
  · exact (tornFill_reached hk).2.2.1
  · exact absurd hused (tornFill_not_reached hfree hk)

lemma tornClear_terminated (hused : s.fsHeader.Used slot) (h : s.fsHeader.Terminated) :
    (tornClear slot s k).Terminated := by
  refine h.frame tornClear_frame ?_
  intro hu
  rcases tornClear_slot hu with hsame | hzero
  · rw [hsame]
    exact h slot hused
  · omega

/-- Every other name is found where it was: a torn creation adds its own name or none. -/
lemma tornFill_lookup_of_ne (hfree : ¬ s.fsHeader.Used slot) {other : List UInt8}
    (hother : other ≠ storedName name) :
    (tornFill slot name content s k).lookup other = s.fsHeader.lookup other := by
  refine FilesystemHeader.lookup_frame tornFill_frame (fun hc => absurd hc hfree) ?_
  intro hu hc
  rcases Nat.lt_or_ge (usedByteSector slot) k with hk | hk
  · exact hother (hc.symm.trans (tornFill_reached hk).2.1)
  · exact absurd hu (tornFill_not_reached hfree hk)

/-- Every other name is found where it was: a torn deletion leaves its own name, or an empty
one. -/
lemma tornClear_lookup_of_ne {other : List UInt8} (hne : other ≠ [])
    (hother : entryName (s.fsHeader.files slot) ≠ other) :
    (tornClear slot s k).lookup other = s.fsHeader.lookup other := by
  refine FilesystemHeader.lookup_frame tornClear_frame (fun _ => hother) ?_
  intro hu hc
  rcases tornClear_slot hu with hsame | hzero
  · rw [hsame] at hc
    exact hother hc
  · have hlen : other.length = 0 := by rw [← hc, entryName, nameBytes_length, hzero]
    exact hne (List.eq_nil_of_length_eq_zero hlen)

end TornEntry

/-! ## The other files

Lookups find the first entry with a name.  The other entries are what they were and in their places,
so it is enough to see that the torn entry does not get in their way: it is not in use, or its name
is the name of the entry, or empty. -/

/-- The name in the entry that a call fills or clears: creation stores the first 31 bytes of its
name. -/
def FsCall.EntryName : FsCall → List UInt8 → Prop
  | .create name _, entry => entry = storedName name
  | .delete name, entry => entry = name.bytes
  | _, _ => False

/-- After an interrupted call: the other names are where they were, and so are the bytes of their
files. -/
lemma torn_others {P : Platform SectorDev} {w : SectorWorld} {call : FsCall} {s : FsState}
    (hs : StoredBy P w call s) {target : List UInt8} (htarget : call.EntryName target)
    (hterm : w.fs.fsHeader.Terminated) (k : ℕ) :
    ∃ slot : Fin 32,
      (∀ i, i ≠ slot → (tornHeader w.fs.fsHeader s.fsHeader k).files i = w.fs.fsHeader.files i) ∧
      (tornHeader w.fs.fsHeader s.fsHeader k).Terminated ∧
      (w.fs.fsHeader.Used slot → entryName (w.fs.fsHeader.files slot) = target) ∧
      (∀ other, other ≠ target → other ≠ [] →
        (tornHeader w.fs.fsHeader s.fsHeader k).lookup other = w.fs.fsHeader.lookup other) ∧
      ∀ q : ℕ, q < 4096 * slot ∨ 4096 * slot + 4096 ≤ q → s.fsData q = w.fs.fsData q := by
  cases hs with
  | save => exact absurd htarget id
  | @fill name content slot hfind hslot hlen =>
      have hname : target = storedName name := htarget
      have hfree : ¬ w.fs.fsHeader.Used slot := (fsFindFreeSlot_eq_some_iff.mp hslot).1
      refine ⟨slot, tornFill_frame, tornFill_terminated hfree hterm, fun hu => absurd hu hfree,
        ?_, fun q hq => fsFillSlot_fsData_outside hlen hq⟩
      intro other hother _
      exact tornFill_lookup_of_ne hfree (hname ▸ hother)
  | @clear name slot hfind =>
      have hname : target = name.bytes := htarget
      have hused := fsFindFile_used hfind
      rw [fsFindFile_eq_lookup P hterm] at hfind
      have heq : entryName (w.fs.fsHeader.files slot) = target :=
        (FilesystemHeader.lookup_eq_some_iff.mp hfind).1.2.trans hname.symm
      refine ⟨slot, tornClear_frame, tornClear_terminated hused hterm, fun _ => heq,
        ?_, fun _ _ => rfl⟩
      intro other hother hne
      exact tornClear_lookup_of_ne hne fun hc => hother (hc.symm.trans heq)

/-- A file whose entry and bytes are those of before has the content of before. -/
lemma fileContent_congr {s s' : FsState} {i : Fin 32} (hlaid : s.fsHeader.LaidOut)
    (hused : s.fsHeader.Used i) (hfile : s'.fsHeader.files i = s.fsHeader.files i)
    (hdata : ∀ q : ℕ, 4096 * i ≤ q → q < 4096 * i + 4096 → s'.fsData q = s.fsData q) :
    fileContent s' i = fileContent s i := by
  obtain ⟨hsize, hoff⟩ := hlaid i hused
  rw [fileContent, fileContent, hfile]
  exact slice_congr fun j hj => hdata _ (by omega) (by omega)

/-- What the boot finds after such a save: the directory up to one entry, and the data up to that
entry's slot. -/
lemma reboot_keeps_file (drive : DriveId) {w : SectorWorld}
    (hev : Everywhere FilesystemHeader.LaidOut w) (hterm : w.fs.fsHeader.Terminated)
    (hdisk : OnDisk w.fs w.dev.disk) {call : FsCall} {target : List UInt8}
    (htarget : call.EntryName target) {env : Env} {k : ℕ} (hcut : env.CutAfter k) {again : Env}
    (hagain : again.AllRead) {other : CString} (hother : other.bytes ≠ target)
    (hne : other.bytes ≠ []) {i : Fin 32}
    (hi : w.fs.fsHeader.lookup other.bytes = some i) :
    let after := reboot drive again (diskStep (env, call) w).2.dev
    after.fs.fsHeader.Terminated ∧ after.fs.fsHeader.LaidOut ∧
      after.fs.fsHeader.lookup other.bytes = w.fs.fsHeader.lookup other.bytes ∧
      fileContent after.fs i = fileContent w.fs i := by
  intro after
  obtain ⟨⟨hused, hname⟩, -⟩ := FilesystemHeader.lookup_eq_some_iff.mp hi
  have hcall : call ≠ .init := by
    rintro rfl
    exact htarget
  rcases fsCall_cases (sectorPlatform env) hcall w with ⟨-, calls, hr⟩ | ⟨s, hs, -, hr⟩
  · have hsame : OnDisk w.fs (diskStep (env, call) w).2.dev.disk := by
      rw [diskStep, hr, print_disk]
      exact hdisk
    obtain ⟨hh, hd, -⟩ := reboot_onDisk drive _ hagain hsame hev.booted.magic
    refine ⟨hh ▸ hterm, hh ▸ hev.memory, by rw [hh], ?_⟩
    exact fileContent_congr hev.memory hused (by rw [hh]) fun q _ hq => hd q (by omega)
  · obtain ⟨slot, hframe, hterm', hslot, hlookup, hdata⟩ := torn_others hs htarget hterm k
    have hlaid : s.fsHeader.LaidOut := by
      cases hs with
      | save => exact hev.memory
      | fill hfind hslot hlen => exact fsFillSlot_laidOut hlen hev.memory
      | clear hfind => exact fsClearSlot_laidOut hev.memory
    have hafter : after = reboot drive again
        (fsSaveToDisk (sectorPlatform env) { w with fs := s }).dev := by rw [← hr]; rfl
    obtain ⟨hh, hd⟩ := reboot_save_cut (w := { w with fs := s }) drive hagain hdisk
      hev.booted.magic (hs.booted hev.booted) hcut
    rw [← hafter] at hh hd
    have hslot' : i ≠ slot := by
      rintro rfl
      exact hother (hname.symm.trans (hslot hused))
    have hval : (i : ℕ) ≠ slot := fun hc => hslot' (Fin.ext hc)
    refine ⟨hh ▸ hterm', hh ▸ tornHeader_laidOut hev.memory hlaid,
      by rw [hh]; exact hlookup _ hother hne, ?_⟩
    refine fileContent_congr hev.memory hused (by rw [hh]; exact hframe i hslot') ?_
    intro q h1 h2
    rw [hd q (by omega), hdata q (by omega), ite_self]

/-- **An interrupted save keeps the entries of other names.**  In any state that a freshly formatted
drive can reach, however many of its saves were interrupted and whatever its boots could read, and
that is on disk: let the save of a creation or a deletion stop after any number of sectors.  The
reboot finds every file with another name than the entry, with the content it had. -/
theorem interrupted_save_keeps_others (drive : DriveId) (dev : SectorDev) (boot : Env)
    (hformat : Formats boot dev) (events : List MachineEvent)
    (hevents : ∀ e ∈ events, e.Admissible fun _ => True)
    (w : SectorWorld) (hw : w = final (machineStep drive) events (reboot drive boot dev))
    (hdisk : OnDisk w.fs w.dev.disk)
    (hnames : ∀ i, w.fs.fsHeader.Used i →
      0 < nameLen (w.fs.fsHeader.files i).name ∧ nameLen (w.fs.fsHeader.files i).name < 32)
    (call : FsCall) (target : List UInt8) (htarget : call.EntryName target)
    (env : Env) (k : ℕ) (hcut : env.CutAfter k) (again : Env) (hagain : again.AllRead)
    (other : CString) (hother : other.bytes ≠ target)
    (hexists : fsFileExists (sectorPlatform env) w other = true) :
    let after := reboot drive again (diskStep (env, call) w).2.dev
    ∀ around : Env, fsFileExists (sectorPlatform around) after other = true ∧
      ∀ maxSize : UInt32, 1 ≤ maxSize.toNat → fsReadFile (sectorPlatform around) after other maxSize
        = fsReadFile (sectorPlatform around) w other maxSize := by
  intro after around
  have hev : Everywhere FilesystemHeader.LaidOut w := hw ▸ reachable_laidOut drive hformat hevents
  have hterm : w.fs.fsHeader.Terminated := fun i hi => (hnames i hi).2
  -- the file is there, so its name is that of an entry, and not empty
  rw [fsFileExists, fsFindFile_eq_lookup _ hterm, Option.isSome_iff_exists] at hexists
  obtain ⟨i, hi⟩ := hexists
  obtain ⟨⟨hused, hname⟩, -⟩ := FilesystemHeader.lookup_eq_some_iff.mp hi
  have hne : other.bytes ≠ [] := by
    intro hc
    have hlen : nameLen (w.fs.fsHeader.files i).name = other.bytes.length := by
      rw [← hname, entryName, nameBytes_length]
    have hpos := (hnames i hused).1
    rw [hlen, hc] at hpos
    exact Nat.lt_irrefl 0 hpos
  obtain ⟨hterm', hlaid', hlookup, hcontent⟩ :=
    reboot_keeps_file drive hev hterm hdisk htarget hcut hagain hother hne hi
  constructor
  · rw [fsFileExists, fsFindFile_eq_lookup _ hterm', hlookup, hi]
    rfl
  · intro maxSize hmax
    rw [fsReadFile_eq _ (reboot_ready drive _).2 hterm' hlaid' other hmax,
      fsReadFile_eq _ hev.booted.initialized hterm hev.memory other hmax, hlookup, hi,
      Option.map_some, Option.map_some, hcontent]

/-! ## The file itself

The file that is created is there after the next boot exactly if the sector with the `used` byte of
its entry has been written, and then its name and size are there too.  Its content is written after
the header, one sector after the other, so a prefix of it is new, and behind the prefix the slot
holds what it held. -/

/-- What an interrupted creation leaves of a content: the new bytes in the sectors that were
written, and whatever the slot held before in the others. -/
def tornContent (s : FsState) (slot : Fin 32) (content : CString) (k : ℕ) : List UInt8 :=
  slice (fun q => if 1536 + q < 512 * k then content.mem (q - 4096 * slot) else s.fsData q)
    (4096 * slot) content.length

/-- Once its last data sector is written the content is whole. -/
lemma tornContent_all {s : FsState} {slot : Fin 32} {content : CString} {k : ℕ}
    (h : 3 + 8 * (slot : ℕ) + (content.length + 511) / 512 ≤ k) :
    tornContent s slot content k = content.bytes := by
  refine slice_eq_iff.mpr ?_
  intro j hj
  have hj' : j < content.length := hj
  rw [if_pos (by omega), Nat.add_sub_cancel_left, content.mem_lt hj']
  rfl

section Create

variable {w : SectorWorld} {name content : CString} {slot : Fin 32} {env again : Env} {k : ℕ}
  {after : SectorWorld}

/-- What the boot after an interrupted creation has in memory. -/
structure AfterCreate (w : SectorWorld) (name content : CString) (slot : Fin 32) (k : ℕ)
    (after : SectorWorld) : Prop where
  initialized : after.fs.fsInitialized = true
  header : after.fs.fsHeader = tornFill slot name content w.fs k
  data : ∀ q < 131072, after.fs.fsData q
    = if 1536 + q < 512 * k then (fsFillSlot slot name content w.fs).fsData q else w.fs.fsData q

lemma reboot_afterCreate (drive : DriveId) (hbooted : Booted w.fs)
    (hdisk : OnDisk w.fs w.dev.disk) (hcut : env.CutAfter k) (hagain : again.AllRead) :
    AfterCreate w name content slot k (reboot drive again (fsSaveToDisk (sectorPlatform env)
      { w with fs := fsFillSlot slot name content w.fs }).dev) := by
  obtain ⟨hh, hd⟩ := reboot_save_cut (w := { w with fs := fsFillSlot slot name content w.fs })
    drive hagain hdisk hbooted.magic (hbooted.fill slot name content) hcut
  exact ⟨(reboot_ready drive _).2, hh, hd⟩

/-- Until its used byte is written, the new file is not found. -/
lemma AfterCreate.not_found (h : AfterCreate w name content slot k after)
    (hterm : w.fs.fsHeader.Terminated) (hfree : ¬ w.fs.fsHeader.Used slot)
    (hfresh : w.fs.fsHeader.lookup name.bytes = none) (hk : k ≤ usedByteSector slot)
    (P : Platform SectorDev) : fsFileExists P after name = false := by
  have hsame : (tornFill slot name content w.fs k).lookup name.bytes
      = w.fs.fsHeader.lookup name.bytes :=
    FilesystemHeader.lookup_frame tornFill_frame (fun hc => absurd hc hfree)
      fun hc => absurd hc (tornFill_not_reached hfree hk)
  rw [fsFileExists, fsFindFile_eq_lookup P (h.header ▸ tornFill_terminated hfree hterm), h.header,
    hsame, hfresh]
  rfl

/-- From then on the name in its entry is found there, if no earlier entry has it. -/
lemma AfterCreate.lookup_stored (h : AfterCreate w name content slot k after)
    {stored : List UInt8} (hstored : stored = storedName name)
    (hfirst : ∀ j < slot, ¬ (w.fs.fsHeader.Used j ∧ entryName (w.fs.fsHeader.files j) = stored))
    (hk : usedByteSector slot < k) : after.fs.fsHeader.lookup stored = some slot := by
  obtain ⟨hused, hname, -, -⟩ := @tornFill_reached w.fs slot name content k hk
  rw [h.header]
  refine FilesystemHeader.lookup_eq_some_iff.mpr ⟨⟨hused, hname.trans hstored.symm⟩, ?_⟩
  rintro j hj hc
  have hne : j ≠ slot := fun hc => Nat.lt_irrefl (slot : ℕ) (hc ▸ hj)
  rw [FilesystemHeader.Used, tornFill_frame j hne] at hc
  exact hfirst j hj hc

/-- There it has what has been written of its content. -/
lemma AfterCreate.content_slot (h : AfterCreate w name content slot k after)
    (hlen : content.length ≤ 4096) (hk : usedByteSector slot < k) :
    fileContent after.fs slot = tornContent w.fs slot content k := by
  obtain ⟨-, -, -, hfile⟩ := @tornFill_reached w.fs slot name content k hk
  rw [fileContent, h.header, hfile, fsFillSlot_files_self, tornContent]
  simp only [contentLen_toNat, slotOffset_toNat]
  refine slice_congr ?_
  intro j hj
  have hslot := slot.isLt
  have hnew : (fsFillSlot slot name content w.fs).fsData (4096 * slot + j)
      = content.mem (4096 * slot + j - 4096 * slot) := by
    simp only [fsFillSlot, contentLen_toNat, slotOffset_toNat]
    exact splice_inside (by omega) (by omega)
  rw [h.data _ (by omega), hnew]

/-- The entries of the directory after it. -/
lemma AfterCreate.entries (h : AfterCreate w name content slot k after)
    (hterm : w.fs.fsHeader.Terminated) (hlaid : w.fs.fsHeader.LaidOut)
    (hfree : ¬ w.fs.fsHeader.Used slot) (hlen : content.length ≤ 4096) :
    after.fs.fsHeader.Terminated ∧ after.fs.fsHeader.LaidOut := by
  rw [h.header]
  exact ⟨tornFill_terminated hfree hterm, tornHeader_laidOut hlaid (fsFillSlot_laidOut hlen hlaid)⟩

/-- A name that was not cut is the one in the entry. -/
lemma AfterCreate.read (h : AfterCreate w name content slot k after)
    (hterm : w.fs.fsHeader.Terminated) (hlaid : w.fs.fsHeader.LaidOut)
    (hfree : ¬ w.fs.fsHeader.Used slot) (hfresh : w.fs.fsHeader.lookup name.bytes = none)
    (hshort : name.length < 32) (hlen : content.length ≤ 4096) (hk : usedByteSector slot < k)
    (P : Platform SectorDev) {maxSize : UInt32} (hmax : 1 ≤ maxSize.toNat) :
    fsReadFile P after name maxSize
      = readOf (some (tornContent w.fs slot content k)) maxSize.toNat := by
  obtain ⟨hterm', hlaid'⟩ := h.entries hterm hlaid hfree hlen
  have hfind := h.lookup_stored (storedName_of_short hshort).symm
    (fun j _ hc => FilesystemHeader.lookup_eq_none_iff.mp hfresh j hc.1 hc.2) hk
  rw [fsReadFile_eq P h.initialized hterm' hlaid' name hmax, hfind, Option.map_some,
    h.content_slot hlen hk]

end Create

/-- **What an interrupted creation leaves of its file.**  The name is found after the reboot
exactly when the creation got as far as the sector with its used byte.  What is read then has the
length of the content, and its bytes in the sectors that were written; in the others are the bytes
the slot held before.  It is the content itself once the last of its sectors was written. -/
theorem interrupted_create (drive : DriveId) {w : SectorWorld} (hbooted : Booted w.fs)
    (hwf : w.fs.fsHeader.WellFormed) (hdisk : OnDisk w.fs w.dev.disk) (name content : CString)
    (hname : 1 ≤ name.length ∧ name.length < 32) (env again : Env)
    (hfresh : fsFileExists (sectorPlatform env) w name = false)
    (k : ℕ) (hcut : env.CutAfter k) (hagain : again.AllRead) :
    let result := (fsCreateFile (sectorPlatform env) name content w).1
    let after := reboot drive again (diskStep (env, .create name content) w).2.dev
    ∀ around : Env,
      (result ≠ 0 → fsFileExists (sectorPlatform around) after name = false) ∧
      ∀ slot, fsFindFreeSlot w.fs.fsHeader = some slot → result = 0 →
        (k ≤ usedByteSector slot → fsFileExists (sectorPlatform around) after name = false) ∧
        (usedByteSector slot < k → ∀ maxSize : UInt32, 1 ≤ maxSize.toNat →
          fsReadFile (sectorPlatform around) after name maxSize
            = readOf (some (tornContent w.fs slot content k)) maxSize.toNat) ∧
        (3 + 8 * (slot : ℕ) + (content.length + 511) / 512 ≤ k →
          tornContent w.fs slot content k = content.bytes) := by
  intro result after around
  have hlookup : w.fs.fsHeader.lookup name.bytes = none := by
    rw [fsFileExists, fsFindFile_eq_lookup _ hwf.terminated] at hfresh
    exact Option.isSome_eq_false_iff.mp hfresh |> Option.isNone_iff_eq_none.mp
  constructor
  · intro hfail
    have hsame : (diskStep (env, .create name content) w).2 = w := fsCreateFile_of_nonzero hfail
    obtain ⟨hh, -, -⟩ := reboot_onDisk drive w.dev hagain hdisk hbooted.magic
    have hheader : after.fs.fsHeader = w.fs.fsHeader := by
      simp only [after, hsame]
      exact hh
    rw [fsFileExists, fsFindFile_eq_lookup _ (hheader ▸ hwf.terminated), hheader, hlookup]
    rfl
  · intro slot hslot hzero
    obtain ⟨slot', -, hslot', hlen, hr⟩ := fsCreateFile_of_zero hzero
    rw [hslot, Option.some.injEq] at hslot'
    subst hslot'
    have hfree : ¬ w.fs.fsHeader.Used slot := (fsFindFreeSlot_eq_some_iff.mp hslot).1
    have hafter : AfterCreate w name content slot k after := by
      simp only [after, diskStep, fsCall, hr]
      exact reboot_afterCreate drive hbooted hdisk hcut hagain
    exact ⟨fun hk => hafter.not_found hwf.terminated hfree hlookup hk _,
      fun hk maxSize hmax => hafter.read hwf.terminated hwf.laidOut hfree hlookup hname.2 hlen hk _
        hmax, tornContent_all⟩

/-- A file in the first slot of a formatted drive, whole. -/
theorem interrupted_create_letter :
    fsReadFile (sectorPlatform Env.faultless)
      (reboot .primaryMaster Env.faultless
        (diskStep (Env.cutAfter 4, .create (letter 0) (letter 0))
          (reboot .primaryMaster Env.faultless .blank)).2.dev) (letter 0) 4097
      = readOf (some (letter 0).bytes) 4097 := by
  have h := filled_zero .primaryMaster formats_blank
  obtain ⟨he, -, -⟩ := reboot_formats .primaryMaster formats_blank
  generalize reboot .primaryMaster Env.faultless .blank = w at h he ⊢
  have hfresh : fsFileExists (sectorPlatform (Env.cutAfter 4)) w (letter 0) = false := by
    rw [fsFileExists, fsFindFile_eq_lookup _ h.terminated, h.lookup_next (by omega)]
    rfl
  have hzero : (fsCreateFile (sectorPlatform (Env.cutAfter 4)) (letter 0) (letter 0) w).1 = 0 := by
    rw [h.create_next (by omega)]
  obtain ⟨-, hread, hall⟩ := (interrupted_create .primaryMaster h.booted he.wellFormed h.onDisk
    (letter 0) (letter 0) (by rw [letter_length]; omega) (Env.cutAfter 4) Env.faultless hfresh 4 rfl
    Env.faultless_allRead Env.faultless).2 0 (h.free_next (by omega)) hzero
  rw [hread (by decide) 4097 (by decide), hall (by rw [letter_length]; simp)]
  rfl

/-- The same creation, stopped after the three header sectors: the file is there, with a NUL for
its content. -/
theorem create_not_atomic :
    let w := reboot .primaryMaster Env.faultless .blank
    (w.fs.fsHeader.WellFormed ∧ OnDisk w.fs w.dev.disk ∧
      fsFileExists (sectorPlatform Env.faultless) w (letter 0) = false) ∧
    fsReadFile (sectorPlatform Env.faultless)
      (reboot .primaryMaster Env.faultless
        (diskStep (Env.cutAfter 3, .create (letter 0) (letter 0)) w).2.dev) (letter 0) 4097
      = (1, [0, 0]) ∧ (letter 0).bytes = [65] := by
  have h := filled_zero .primaryMaster formats_blank
  obtain ⟨he, -, hdata⟩ := reboot_formats .primaryMaster formats_blank
  generalize reboot .primaryMaster Env.faultless .blank = w at h he hdata ⊢
  have hafter : AfterCreate w (letter 0) (letter 0) 0 3 (reboot .primaryMaster Env.faultless
      (diskStep (Env.cutAfter 3, .create (letter 0) (letter 0)) w).2.dev) := by
    simp only [diskStep, fsCall, h.create_next (show 0 < 32 by omega)]
    exact reboot_afterCreate .primaryMaster h.booted h.onDisk rfl Env.faultless_allRead
  have hcontent : tornContent w.fs 0 (letter 0) 3 = [0] := by
    rw [tornContent, letter_length]
    exact congrArg (fun b => [b]) (hdata 0 (by omega))
  refine ⟨⟨he.wellFormed, h.onDisk, ?_⟩, ?_, rfl⟩
  · rw [fsFileExists, fsFindFile_eq_lookup _ h.terminated, h.lookup_next (by omega)]
    rfl
  · rw [hafter.read h.terminated he.wellFormed.laidOut (he.2 0) (h.lookup_next (by omega))
      (by rw [letter_length]; omega) (by rw [letter_length]; omega) (by decide) _ (by decide),
      hcontent]
    rfl

end SzymOS
