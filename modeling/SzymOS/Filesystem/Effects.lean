import SzymOS.Filesystem.Directory
import SzymOS.Kernel.Messages

/-!
# What every call does a step at a time

A call of the file system is made of elementary steps: it prints, reads a sector, writes a sector
of the file system, stores into its variables.  A reflexive and transitive relation between worlds
that holds across each of them (`StepRel`) holds across every call (`StepRel.call`).  What is
printed is sound, so it is enough that the relation holds across sound messages; and if it keeps
account of sectors, a call has its price (`PricedRel`).

The variables that say which drive is selected are not among those a call stores into.

A relation of this kind can be anything that is a matter of single steps: that some variable is
never stored into, that the log only grows, that all writes go to one region, that so many polls are
enough.  Each of these is then proved for the elementary steps, and the theorem on calls is used by
name.  The functions of `filesystem.c` are gone through once, in this file, and not again for every
property.

The price of a call is the sum of the prices of its sectors on its longest way: a save writes 259
sectors, and `fs_init` reads three and then reads 256 or writes 259.
-/

set_option autoImplicit false

namespace SzymOS

variable {σ : Type}

/-- The variables that say which drive is selected. -/
structure DriveKept (s s' : FsState) : Prop where
  selectedDrive : s'.selectedDrive = s.selectedDrive
  ioBase : s'.fsDriveIoBase = s.fsDriveIoBase
  driveNum : s'.fsDriveNum = s.fsDriveNum
  selected : s'.fsDriveSelected = s.fsDriveSelected

lemma DriveKept.refl (s : FsState) : DriveKept s s := ⟨rfl, rfl, rfl, rfl⟩

lemma DriveKept.trans {s s' s'' : FsState} (h : DriveKept s s') (h' : DriveKept s' s'') :
    DriveKept s s'' where
  selectedDrive := h'.selectedDrive.trans h.selectedDrive
  ioBase := h'.ioBase.trans h.ioBase
  driveNum := h'.driveNum.trans h.driveNum
  selected := h'.selected.trans h.selected

/-! ## The list of files

What is printed is computed first and printed at once.  The messages have formats, and all of them
are given arguments of the right kinds. -/

/-- What `fs_list_files` prints. -/
def listing (P : Platform σ) (w : World σ) : List TermCall :=
  if !w.fs.fsInitialized then [.writestring "Filesystem not initialized!\n"]
  else if w.fs.fsHeader.fileCount = 0 then [.writestring "No files found.\n"]
  else
    coloured .lightCyan (.writestring "=== SzymFS File List ===\n") ++
      [.printf "Total files: %d / %d\n" [w.fs.fsHeader.fileCount, UInt32.ofNat maxFiles]] ++
      [.setcolor (vgaEntryColor .yellow .black),
        .writestring "NAME                              SIZE\n",
        .writestring "------------------------------------\n",
        .setcolor (vgaEntryColor .white .black)] ++
      ((List.finRange 32).filter fun i => (w.fs.fsHeader.files i).used != 0).flatMap
        (fsListEntry P w)

lemma fsListFiles_eq (P : Platform σ) (w : World σ) :
    fsListFiles P w = w.print P (listing P w) := by
  rw [fsListFiles, listing]
  split_ifs <;> rfl

lemma fsListEntry_sound (P : Platform σ) (w : World σ) (i : Fin 32) :
    Sound (fsListEntry P w i) := by
  rw [fsListEntry, sound_cons, sound_append, sound_singleton]
  refine ⟨isText_strlen _, ?_, sound_printf rfl rfl rfl rfl⟩
  intro call hcall
  rw [List.eq_of_mem_replicate hcall]
  trivial

lemma listing_sound (P : Platform σ) (w : World σ) : Sound (listing P w) := by
  rw [listing]
  split_ifs
  · exact sound_singleton.mpr (sound_writestring rfl)
  · exact sound_singleton.mpr (sound_writestring rfl)
  · refine sound_append.mpr ⟨?_, ?_⟩
    · simp only [sound_append, sound_coloured, sound_cons]
      exact ⟨⟨sound_writestring rfl, sound_printf rfl rfl rfl rfl, sound_nil⟩, trivial,
        sound_writestring rfl, sound_writestring rfl, trivial, sound_nil⟩
    · intro call hcall
      obtain ⟨i, -, hentry⟩ := List.mem_flatMap.mp hcall
      exact fsListEntry_sound P w i call hentry

/-! ## Steps

The two structures list the steps.  The lemmas follow the functions of the source from the inside to
the outside, loops by induction on what is left to do. -/

/-- A relation between worlds that holds across every elementary step. -/
structure StepRel (P : Platform σ) (R : World σ → World σ → Prop) : Prop where
  refl : ∀ w, R w w
  trans : ∀ {w w' w''}, R w w' → R w' w'' → R w w''
  print : ∀ calls w, R w (w.print P calls)
  read : ∀ lba w, R w (fsReadSectorDirect P lba w).2
  write : ∀ lba buffer w, fsStartSector ≤ lba → lba < fsStartSector + headerSectors + dataSectors →
    R w (fsWriteSectorDirect P lba buffer w).2
  store : ∀ s (w : World σ), DriveKept w.fs s → R w { w with fs := s }

/-- A relation between worlds for every price, that holds across every elementary step at the price
of the step, as far as messages are sound: a sector that is read costs `r`, one that is written `t`,
and everything else is free. -/
structure PricedRel (P : Platform σ) (r t : ℕ) (R : ℕ → World σ → World σ → Prop) : Prop where
  refl : ∀ w, R 0 w w
  trans : ∀ {m n w w' w''}, R m w w' → R n w' w'' → R (m + n) w w''
  mono : ∀ {m n w w'}, R m w w' → m ≤ n → R n w w'
  print : ∀ calls w, Sound calls → R 0 w (w.print P calls)
  read : ∀ lba w, R r w (fsReadSectorDirect P lba w).2
  write : ∀ lba buffer w, fsStartSector ≤ lba → lba < fsStartSector + headerSectors + dataSectors →
    R t w (fsWriteSectorDirect P lba buffer w).2
  store : ∀ s (w : World σ), DriveKept w.fs s → R 0 w { w with fs := s }

/-- Without prices. -/
lemma StepRel.pricedRel {P : Platform σ} {R : World σ → World σ → Prop} (h : StepRel P R) :
    PricedRel P 0 0 fun _ => R :=
  { h with
    trans := h.trans
    mono := fun hR _ => hR
    print := fun calls w _ => h.print calls w }

/-- What a call costs at most. -/
def FsCall.price (r t : ℕ) : FsCall → ℕ
  | .init => 3 * r + max (256 * r) (259 * t)
  | .create _ _ => 259 * t
  | .delete _ => 259 * t
  | .save => 259 * t
  | .fileExists _ => 0
  | .read _ _ => 0
  | .list => 0

namespace PricedRel

variable {P : Platform σ} {r t : ℕ} {R : ℕ → World σ → World σ → Prop} (h : PricedRel P r t R)

include h

/-- What comes first is free. -/
lemma before {w w' w'' : World σ} {n : ℕ} (hfree : R 0 w w') (hnext : R n w' w'') : R n w w'' :=
  h.mono (h.trans hfree hnext) (Nat.zero_add n).le

/-- What comes last is free. -/
lemma after {w w' w'' : World σ} {n : ℕ} (hfirst : R n w w') (hfree : R 0 w' w'') : R n w w'' :=
  h.trans hfirst hfree

/-- A message in a colour. -/
lemma message {call : TermCall} (hcall : call.Sound) (fg : VgaColor) (w : World σ) :
    R 0 w (w.print P (coloured fg call)) := h.print _ w (sound_coloured.mpr hcall)

lemma writeSectors {start : ℕ} {sectorBuffer : World σ → ℕ → Sector} {error : String}
    (herror : IsLiteral error) (hstart : fsStartSector ≤ start) (n i : ℕ)
    (hend : start + i + n ≤ fsStartSector + headerSectors + dataSectors) (w : World σ) :
    R (n * t) w (fsWriteSectors P start sectorBuffer error n i w).2 := by
  induction n generalizing i w with
  | zero => exact h.mono (h.refl w) (Nat.zero_le _)
  | succ n ih =>
      have hone : R t w (fsWriteSectorDirect P (start + i) (sectorBuffer w i) w).2 :=
        h.write _ _ _ (by omega) (by omega)
      rw [fsWriteSectors]
      split
      next result w' hw =>
        rw [hw] at hone
        split_ifs
        · have hsound : (TermCall.writestring error).Sound := herror
          refine h.mono (h.after (h.after hone (h.message hsound _ w')) (h.store _ _ ?_))
            (Nat.le_mul_of_pos_left t n.succ_pos)
          exact ⟨rfl, rfl, rfl, rfl⟩
        · refine h.mono (h.trans hone (ih (i + 1) (by omega) w')) ?_
          rw [Nat.succ_mul, Nat.add_comm]

lemma save (w : World σ) : R (259 * t) w (fsSaveToDisk P w) := by
  rw [fsSaveToDisk]
  split_ifs
  · refine h.mono (h.after (h.message (sound_writestring rfl) _ w) (h.store _ _ ?_)) (Nat.zero_le _)
    exact ⟨rfl, rfl, rfl, rfl⟩
  · have hheader : R (3 * t) w (fsWriteHeaderSectors P w).2 :=
      h.writeSectors (isLiteral_ofList rfl) (Nat.le_refl _) _ _ (by decide) w
    split
    next w₁ h₁ =>
      rw [h₁] at hheader
      exact h.mono hheader (by omega)
    next w₁ h₁ =>
      rw [h₁] at hheader
      have hdata : R (256 * t) w₁ (fsWriteDataSectors P w₁).2 :=
        h.writeSectors (isLiteral_ofList rfl) (by decide) _ _ (by decide) w₁
      split
      next w₂ h₂ =>
        rw [h₂] at hdata
        exact h.mono (h.trans hheader hdata) (by omega)
      next w₂ h₂ =>
        rw [h₂] at hdata
        have hboth : R (259 * t) w w₂ := h.mono (h.trans hheader hdata) (by omega)
        split_ifs
        · exact h.after hboth (h.message (sound_writestring rfl) _ w₂)
        · exact hboth

lemma readHeaderSectors (n i : ℕ) (w : World σ) :
    R (n * r) w (fsReadHeaderSectors P n i w).2 := by
  induction n generalizing i w with
  | zero => exact h.mono (h.refl w) (Nat.zero_le _)
  | succ n ih =>
      have hone := h.read (fsStartSector + i) w
      rw [fsReadHeaderSectors]
      split
      next buffer w₁ h₁ =>
        rw [h₁] at hone
        have hkept : DriveKept w₁.fs (copyHeaderSector i buffer w₁.fs) := by
          rw [copyHeaderSector]
          split_ifs
          · exact ⟨rfl, rfl, rfl, rfl⟩
          · exact DriveKept.refl _
        refine h.mono (h.trans (h.after hone (h.store _ _ hkept)) (ih (i + 1) _)) ?_
        rw [Nat.succ_mul, Nat.add_comm]
      next w₁ h₁ =>
        rw [h₁] at hone
        exact h.mono (h.after hone (h.message (sound_writestring rfl) _ w₁))
          (Nat.le_mul_of_pos_left r n.succ_pos)

lemma readDataSectors (n i : ℕ) (w : World σ) : R (n * r) w (fsReadDataSectors P n i w) := by
  induction n generalizing i w with
  | zero => exact h.mono (h.refl w) (Nat.zero_le _)
  | succ n ih =>
      have hone := h.read (fsStartSector + headerSectors + i) w
      have hprice : r + n * r ≤ (n + 1) * r := by rw [Nat.succ_mul, Nat.add_comm]
      rw [fsReadDataSectors]
      split
      next buffer w₁ h₁ =>
        rw [h₁] at hone
        refine h.mono (h.trans (h.after hone ?_) (ih (i + 1) _)) hprice
        exact h.store _ w₁ ⟨rfl, rfl, rfl, rfl⟩
      next w₁ h₁ =>
        rw [h₁] at hone
        refine h.mono (h.trans (h.after hone ?_) (ih (i + 1) _)) hprice
        exact h.print _ _ (sound_singleton.mpr (sound_printf rfl rfl rfl rfl))

lemma load (w : World σ) :
    R (3 * r + max (256 * r) (259 * t)) w (fsLoadFromDisk P w) := by
  rw [fsLoadFromDisk]
  split_ifs
  · exact h.mono (h.refl w) (Nat.zero_le _)
  · have hread : R (3 * r) w (fsReadHeaderSectors P headerSectors 0 w).2 :=
      h.readHeaderSectors headerSectors 0 w
    split
    next w₁ h₁ =>
      rw [h₁] at hread
      exact h.mono hread (Nat.le_add_right _ _)
    next w₁ h₁ =>
      rw [h₁] at hread
      refine h.trans hread ?_
      split_ifs with hmagic
      · refine h.mono ?_ (Nat.le_max_right _ _)
        generalize hp : w₁.print P (coloured .yellow (.writestring
          "[INFO] No existing filesystem found, creating new one\n")) = w₂
        have hprint : R 0 w₁ w₂ := hp ▸ h.message (sound_writestring rfl) _ w₁
        have hformat : R 0 w₂ { w₂ with fs := fsFormat w₂.fs } := h.store _ w₂ ⟨rfl, rfl, rfl, rfl⟩
        have hsaved := h.before hprint (h.before hformat (h.save _))
        simp only
        split_ifs
        · exact h.after hsaved (h.message (sound_writestring rfl) _ _)
        · exact hsaved
      · refine h.mono ?_ (Nat.le_max_left _ _)
        generalize hp : w₁.print P
          [.printf "[DEBUG] Reading %d data sectors...\n" [UInt32.ofNat dataSectors]] = w₂
        have hprint : R 0 w₁ w₂ :=
          hp ▸ h.print _ w₁ (sound_singleton.mpr (sound_printf rfl rfl rfl rfl))
        generalize hd : fsReadDataSectors P dataSectors 0 w₂ = w₃
        have hdata : R (256 * r) w₂ w₃ := hd ▸ h.readDataSectors dataSectors 0 w₂
        simp only [hd]
        generalize hl : w₃.print P (.printf "[DEBUG] Data load complete\n" [] ::
          coloured .lightGreen
            (.printf "[OK] Loaded %d files from disk\n" [w₃.fs.fsHeader.fileCount])) = w₄
        have hreport : R 0 w₃ w₄ := hl ▸ h.print _ w₃ (sound_cons.mpr
          ⟨sound_printf rfl rfl rfl rfl, sound_coloured.mpr (sound_printf rfl rfl rfl rfl)⟩)
        exact h.after (h.after (h.before hprint hdata) hreport)
          (h.store _ w₄ ⟨rfl, rfl, rfl, rfl⟩)

lemma init (w : World σ) : R (3 * r + max (256 * r) (259 * t)) w (fsInit P w) := by
  have hempty : R 0 w { w with fs := fsInitEmpty w.fs } := h.store _ _ ⟨rfl, rfl, rfl, rfl⟩
  have hmessage : ∀ {text : String} (htext : (TermCall.writestring text).Sound) (fg : VgaColor),
      R (3 * r + max (256 * r) (259 * t)) w
        (World.print P (coloured fg (.writestring text)) { w with fs := fsInitEmpty w.fs }) :=
    fun htext fg => h.mono (h.after hempty (h.message htext fg _)) (Nat.zero_le _)
  rw [fsInit]
  simp only
  split_ifs
  · exact h.after (h.before hempty (h.load _)) (h.message (sound_writestring rfl) _ _)
  · exact h.after (h.before hempty (h.load _)) (h.message (sound_writestring rfl) _ _)
  · exact hmessage (sound_writestring rfl) _
  · exact hmessage (sound_writestring rfl) _

lemma create (name content : CString) (w : World σ) :
    R (259 * t) w (fsCreateFile P name content w).2 := by
  by_cases hz : (fsCreateFile P name content w).1 = 0
  · obtain ⟨slot, -, -, -, hr⟩ := fsCreateFile_of_zero hz
    rw [hr]
    exact h.before (h.store (fsFillSlot slot name content w.fs) w ⟨rfl, rfl, rfl, rfl⟩) (h.save _)
  · rw [fsCreateFile_of_nonzero hz]
    exact h.mono (h.refl w) (Nat.zero_le _)

lemma delete (name : CString) (w : World σ) : R (259 * t) w (fsDeleteFile P name w).2 := by
  by_cases hz : (fsDeleteFile P name w).1 = 0
  · obtain ⟨slot, -, hr⟩ := fsDeleteFile_of_zero hz
    rw [hr]
    exact h.before (h.store (fsClearSlot slot w.fs) w ⟨rfl, rfl, rfl, rfl⟩) (h.save _)
  · rw [fsDeleteFile_of_nonzero hz]
    exact h.mono (h.refl w) (Nat.zero_le _)

lemma list (w : World σ) : R 0 w (fsListFiles P w) := by
  rw [fsListFiles_eq]
  exact h.print _ w (listing_sound P w)

/-- **What holds across these steps holds across every call**, at the price of the call. -/
theorem call (call : FsCall) (w : World σ) : R (call.price r t) w (fsCall P call w).2 := by
  cases call with
  | init => exact h.init w
  | create name content => exact h.create name content w
  | delete name => exact h.delete name w
  | save => exact h.save w
  | fileExists name => exact h.refl w
  | read name maxSize => exact h.refl w
  | list => exact h.list w

end PricedRel

namespace StepRel

variable {P : Platform σ} {R : World σ → World σ → Prop} (h : StepRel P R)

include h

lemma readHeaderSectors (n i : ℕ) (w : World σ) : R w (fsReadHeaderSectors P n i w).2 :=
  h.pricedRel.readHeaderSectors n i w

lemma load (w : World σ) : R w (fsLoadFromDisk P w) := h.pricedRel.load w

lemma init (w : World σ) : R w (fsInit P w) := h.pricedRel.init w

lemma create (name content : CString) (w : World σ) : R w (fsCreateFile P name content w).2 :=
  h.pricedRel.create name content w

lemma delete (name : CString) (w : World σ) : R w (fsDeleteFile P name w).2 :=
  h.pricedRel.delete name w

lemma save (w : World σ) : R w (fsSaveToDisk P w) := h.pricedRel.save w

/-- **What holds across every elementary step holds across every call.** -/
theorem call (call : FsCall) (w : World σ) : R w (fsCall P call w).2 := h.pricedRel.call call w

end StepRel

end SzymOS
