import SzymOS.Filesystem.Interruption

/-!
# `file_count`

The count is in the first header sector, the entries it counts are in three.

The number is redundant: it could be counted.  Since it is stored, it can be wrong, and the listing
believes it, for it prints that there are no files whenever the count is zero and looks at no entry
then.  Filling a slot adds one to it and clearing a slot takes one off, so in memory it is always
right.  On the disk it is in the first sector, and a save that stops after this sector or after the
next has written the new count with some of the old entries.

Whether that is wrong depends on the two headers.  The count on the disk is right if in the sectors
that have not been written the number of used entries is what it is in memory, although the entries
themselves may be other ones.

* `tornHeader_counted_iff` — a save that stops between them leaves a count that is right exactly
  when the sectors not written hold as many used entries on disk as in memory.
* `file_count_eq_used` — as long as saves stop nowhere else, count and entries agree in every state
  a machine can reach.
* `file_count_torn` — a run in which they do not.
-/

set_option autoImplicit false

namespace SzymOS

open Blocks Transition

/-! ## What a listing prints

The listing looks at the count first, so a count of zero hides all files from it. -/

/-- What `fs_list_files` adds to the terminal. -/
def listed (env : Env) (w : SectorWorld) : List TermCall :=
  (fsListFiles (sectorPlatform env) w).dev.term.drop w.dev.term.length

/-- "No files found." is printed for a count of zero, and for nothing else. -/
lemma listed_noFiles_iff (env : Env) {w : SectorWorld} (hinit : w.fs.fsInitialized = true) :
    TermCall.writestring "No files found.\n" ∈ listed env w ↔ w.fs.fsHeader.fileCount = 0 := by
  rw [listed, fsListFiles, if_neg (by simp [hinit])]
  split_ifs with hcount
  · rw [print_eq, List.drop_left]
    simp [hcount]
  · rw [print_eq, List.drop_left]
    simp [hcount, coloured, fsListEntry]

/-! ## The count and the entries

The invariant is that the count is the number of used entries.  It holds for an empty directory,
filling and clearing keep it, and a torn header has it exactly under the condition above; so the
rule for interrupted machines applies, with the condition as the restriction on where saves may
stop. -/

/-- The used entries whose used byte is not in the first `k` sectors. -/
def FilesystemHeader.usedBeyond (h : FilesystemHeader) (k : ℕ) : Finset (Fin 32) :=
  h.usedSlots.filter fun i => ¬ usedByteSector i < k

/-- A save stops before its first sector, or where the sectors not written hold as many used
entries on disk as in memory. -/
def CountKept (old new : FilesystemHeader) (k : ℕ) : Prop :=
  k = 0 ∨ (old.usedBeyond k).card = (new.usedBeyond k).card

/-- Beyond the header there are no entries. -/
lemma countKept_of_three_le {old new : FilesystemHeader} {k : ℕ} (hk : 3 ≤ k) :
    CountKept old new k := by
  have hnone : ∀ h : FilesystemHeader, h.usedBeyond k = ∅ := by
    refine fun h => Finset.filter_false_of_mem fun i _ hi => hi ?_
    have hlt := i.isLt
    rw [usedByteSector]
    omega
  exact Or.inr (by rw [hnone, hnone])

/-- **When a torn header counts its entries.** -/
theorem tornHeader_counted_iff {old new : FilesystemHeader} {k : ℕ} (hold : old.Counted)
    (hnew : new.Counted) : (tornHeader old new k).Counted ↔ CountKept old new k := by
  rcases Nat.eq_zero_or_pos k with rfl | hk
  · rw [tornHeader_zero]
    exact ⟨fun _ => Or.inl rfl, fun _ => hold⟩
  have hsplit : ∀ h : FilesystemHeader, h.usedSlots.card
      = (h.usedSlots.filter fun i => usedByteSector i < k).card + (h.usedBeyond k).card :=
    fun h => (Finset.card_filter_add_card_filter_not _).symm
  have hbefore : ((tornHeader old new k).usedSlots.filter fun i => usedByteSector i < k)
      = new.usedSlots.filter fun i => usedByteSector i < k := by
    ext i
    simp only [Finset.mem_filter, FilesystemHeader.mem_usedSlots, tornHeader_used_iff]
    exact and_congr_left fun hi => by rw [if_pos hi]
  have hbeyond : (tornHeader old new k).usedBeyond k = old.usedBeyond k := by
    ext i
    simp only [FilesystemHeader.usedBeyond, Finset.mem_filter, FilesystemHeader.mem_usedSlots,
      tornHeader_used_iff]
    exact and_congr_left fun hi => by rw [if_neg hi]
  have hcount : new.fileCount.toNat = new.usedSlots.card := hnew
  rw [FilesystemHeader.Counted, tornHeader_fileCount, if_neg (by omega), hcount, hsplit new,
    hsplit (tornHeader old new k), hbefore, hbeyond, CountKept]
  omega

/-- **`file_count` is the number of used entries**, in every state that a freshly formatted drive
can reach when a save stops between the header sectors only where the count is kept.  So a listing
says that there are no files only when no name is found, and a deletion takes one off a count that
is not zero. -/
theorem file_count_eq_used (drive : DriveId) (dev : SectorDev) (boot : Env)
    (hformat : Formats boot dev) (events : List MachineEvent)
    (hevents : ∀ e ∈ events, e.Admissible Env.AllRead)
    (hstops : Along (machineStep drive) (MachineEvent.StopsWhere CountKept) events
      (reboot drive boot dev)) :
    let w := final (machineStep drive) events (reboot drive boot dev)
    w.fs.fsHeader.fileCount.toNat = w.fs.fsHeader.usedSlots.card ∧
      ∀ (env : Env) (name : CString),
        (TermCall.writestring "No files found.\n" ∈ listed env w →
          fsFindFile (sectorPlatform env) w name = none) ∧
        ((fsDeleteFile (sectorPlatform env) name w).1 = 0 →
          (fsDeleteFile (sectorPlatform env) name w).2.fs.fsHeader.fileCount.toNat + 1
            = w.fs.fsHeader.fileCount.toNat) := by
  intro w
  have hev : Everywhere FilesystemHeader.Counted w :=
    reachable_header (fun _ he => he.wellFormed.counted)
      (fun _ _ _ _ hfree _ h => fsFillSlot_counted hfree h)
      (fun _ _ hused h => (fsClearSlot_counted hused h).1)
      (fun _ _ _ hk hold hnew => (tornHeader_counted_iff hold hnew).mpr hk) drive
      (fun _ _ hread h => by rwa [bootHeader, hread.headerReads, tornHeader_all (Nat.le_refl 3)])
      hformat hevents hstops
  have hcount : w.fs.fsHeader.fileCount.toNat = w.fs.fsHeader.usedSlots.card := hev.memory
  refine ⟨hcount, fun env name => ⟨?_, ?_⟩⟩
  · intro hlist
    rw [listed_noFiles_iff env hev.booted.initialized] at hlist
    rw [hlist] at hcount
    cases hfind : fsFindFile (sectorPlatform env) w name with
    | none => rfl
    | some i =>
        have hmem : i ∈ w.fs.fsHeader.usedSlots :=
          FilesystemHeader.mem_usedSlots.mpr (fsFindFile_used hfind)
        rw [Finset.card_eq_zero.mp hcount.symm] at hmem
        exact absurd hmem (Finset.notMem_empty i)
  · intro hzero
    obtain ⟨slot, hfind, hr⟩ := fsDeleteFile_of_zero hzero
    obtain ⟨hcleared, hpos⟩ := fsClearSlot_counted (fsFindFile_used hfind) hev.memory
    have hmem : slot ∈ w.fs.fsHeader.usedSlots :=
      FilesystemHeader.mem_usedSlots.mpr (fsFindFile_used hfind)
    have hcleared' : (fsClearSlot slot w.fs).fsHeader.fileCount.toNat
        = w.fs.fsHeader.usedSlots.card - 1 := by
      rw [← Finset.card_erase_of_mem hmem, ← fsClearSlot_usedSlots]
      exact hcleared
    rw [hr, fsSaveToDisk_fsHeader]
    simp only
    omega

/-- A formatted drive with five files, after a creation that was interrupted at once and a
reboot. -/
theorem file_count_eq_used_five :
    let w := final (machineStep .primaryMaster)
      (lettersCreated 5 ++ [.call (Env.cutAfter 0) (.create (letter 5) (letter 5)),
        .reboot Env.faultless]) (reboot .primaryMaster Env.faultless .blank)
    w.fs.fsHeader.fileCount.toNat = w.fs.fsHeader.usedSlots.card := by
  refine (file_count_eq_used .primaryMaster .blank Env.faultless formats_blank _ ?_ ?_).1
  · intro e he
    rcases List.mem_append.mp he with he | he
    · exact lettersCreated_admissible _ 5 e he
    · rcases List.mem_cons.mp he with rfl | he
      · exact ⟨by simp, 0, rfl⟩
      · rw [List.mem_singleton.mp he]
        exact Env.faultless_allRead
  · -- none of these saves stops between the header sectors
    refine along_of_forall ?_
    intro e he w
    rcases List.mem_append.mp he with he | he
    · obtain ⟨i, -, rfl⟩ := List.mem_map.mp he
      intro k saved hcut _
      rw [← cut_injective hcut]
      exact countKept_of_three_le (by omega)
    · rcases List.mem_cons.mp he with rfl | he
      · intro k saved hcut _
        rw [← cut_injective hcut]
        exact Or.inl rfl
      · rw [List.mem_singleton.mp he]
        exact trivial

/-- Eleven files, and a twelfth whose save stops after the first sector: its entry lies across the
first two, and the count is already there. -/
theorem file_count_torn :
    let w := final (machineStep .primaryMaster)
      (lettersCreated 11 ++ [.call (Env.cutAfter 1) (.create (letter 11) (letter 11)),
        .reboot Env.faultless]) (reboot .primaryMaster Env.faultless .blank)
    w.fs.fsHeader.fileCount.toNat = 12 ∧ w.fs.fsHeader.usedSlots.card = 11 := by
  have h := filled_letters .primaryMaster formats_blank 11 (by omega)
  rw [final_append]
  generalize final (machineStep .primaryMaster) (lettersCreated 11)
    (reboot .primaryMaster Env.faultless .blank) = w at h ⊢
  have hbooted := h.booted.fill 11 (letter 11) (letter 11)
  obtain ⟨hheader, -⟩ := reboot_save_cut (k := 1)
    (w := { w with fs := fsFillSlot 11 (letter 11) (letter 11) w.fs }) .primaryMaster
    Env.faultless_allRead h.onDisk h.booted.magic hbooted
    (show (Env.cutAfter 1).CutAfter 1 from rfl)
  have hcreate : fsCreateFile (sectorPlatform (Env.cutAfter 1)) (letter 11) (letter 11) w
      = (0, fsSaveToDisk (sectorPlatform (Env.cutAfter 1))
          { w with fs := fsFillSlot 11 (letter 11) (letter 11) w.fs }) :=
    h.create_next (by omega) _
  simp only [final_cons, final_nil, machineStep, diskStep, fsCall, hcreate]
  -- the count is in the first sector, and the used byte of entry 11 in the second
  have hcount : (tornFill 11 (letter 11) (letter 11) w.fs 1).fileCount
      = w.fs.fsHeader.fileCount + 1 := tornHeader_fileCount
  have hused : ∀ i, (tornFill 11 (letter 11) (letter 11) w.fs 1).Used i ↔ (i : ℕ) < 11 := by
    intro i
    by_cases heq : i = 11
    · subst heq
      have hfree : ¬ w.fs.fsHeader.Used 11 := fun hc => Nat.lt_irrefl 11 ((h.used 11).mp hc)
      exact ⟨fun hc => absurd hc (tornFill_not_reached hfree (by decide)),
        fun hc => absurd hc (by decide)⟩
    · rw [FilesystemHeader.Used, tornFill_frame i heq]
      exact h.used i
  constructor
  · rw [hheader]
    refine (congrArg UInt32.toNat hcount).trans ?_
    rw [UInt32.toNat_add, h.count]
    rfl
  · rw [hheader]
    have hslots : (tornFill 11 (letter 11) (letter 11) w.fs 1).usedSlots
        = Finset.univ.filter fun i : Fin 32 => (i : ℕ) < 11 := by
      ext i
      rw [FilesystemHeader.mem_usedSlots, hused i, Finset.mem_filter]
      simp
    exact (congrArg Finset.card hslots).trans (by decide)

end SzymOS
