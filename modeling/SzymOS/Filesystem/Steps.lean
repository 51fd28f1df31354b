import SzymOS.Filesystem.Effects

/-!
# One call, as a step

All that a call can do, said once.  A call that returns without saving changes no variable of the
file system and prints at most.  Every other call ends in `fs_save_to_disk`, and `savePoint` is the
world in which it gets there: directly, after a slot has been filled or cleared, or after
`fs_init` has formatted the drive.

The point of `savePoint` is that a save is a separate matter.  What a call decides it has decided
when the save begins, and the variables are then what they will be; all that can still happen is
that the drive keeps or loses sectors, and that `fs_persistent` is cleared.  So results about files
are results about the state at the save point, and results about the drive are results about the
save.

* `fsCall_of_savePoint` — a call that saves ends with the save.
* `fsCall_cases` — what a call other than `fs_init` does.
* `fsCall_preserves` — the invariant rule: what filling and clearing a slot keep, calls keep.
-/

set_option autoImplicit false

namespace SzymOS

open Bytes

variable {σ : Type} (P : Platform σ)

/-! ## Where a call saves

A call saves at most once.  Only `fs_init` is more than its save: it loads, and it is the load that
formats. -/

/-- The world in which a load formats the drive, if it does. -/
def formatPoint (w : World σ) : Option (World σ) :=
  if !diskAvailable w.fs then none
  else
    match fsReadHeaderSectors P headerSectors 0 w with
    | (false, _) => none
    | (true, w) =>
        if w.fs.fsHeader.magic ≠ szymfsMagic then
          let w := w.print P (coloured .yellow
            (.writestring "[INFO] No existing filesystem found, creating new one\n"))
          some { w with fs := fsFormat w.fs }
        else none

/-- The world in which a call enters `fs_save_to_disk`, if it does. -/
def savePoint : FsCall → World σ → Option (World σ)
  | .init, w => formatPoint P { w with fs := fsInitEmpty w.fs }
  | .create name content, w =>
      if (fsCreateFile P name content w).1 = 0 then
        (fsFindFreeSlot w.fs.fsHeader).map fun slot =>
          { w with fs := fsFillSlot slot name content w.fs }
      else none
  | .delete name, w =>
      if (fsDeleteFile P name w).1 = 0 then
        (fsFindFile P w name).map fun slot => { w with fs := fsClearSlot slot w.fs }
      else none
  | .save, w => some w
  | _, _ => none

lemma print_print (calls calls' : List TermCall) (w : World σ) :
    (w.print P calls).print P calls' = w.print P (calls ++ calls') := by
  simp only [World.print, List.foldl_append]

lemma print_nil (w : World σ) : w.print P [] = w := rfl

/-- A load that formats saves, and may then print a warning. -/
lemma fsLoadFromDisk_of_formatPoint {w w₁ : World σ} (h : formatPoint P w = some w₁) :
    ∃ calls, fsLoadFromDisk P w = (fsSaveToDisk P w₁).print P calls := by
  rw [formatPoint] at h
  rw [fsLoadFromDisk]
  split_ifs at h ⊢ with hav
  cases hh : fsReadHeaderSectors P headerSectors 0 w with
  | mk ok w0 =>
      rw [hh] at h
      cases ok with
      | false => exact absurd h (by simp)
      | true =>
          simp only at h ⊢
          by_cases hm : w0.fs.fsHeader.magic ≠ szymfsMagic
          · rw [if_pos hm, Option.some.injEq] at h
            rw [if_pos hm, ← h]
            split_ifs
            · exact ⟨_, rfl⟩
            · exact ⟨[], rfl⟩
          · rw [if_neg hm] at h
            exact absurd h (by simp)

/-- **A call that saves ends with the save**, apart from what it prints after it. -/
theorem fsCall_of_savePoint {call : FsCall} {w w₁ : World σ} (h : savePoint P call w = some w₁) :
    ∃ calls, (fsCall P call w).2 = (fsSaveToDisk P w₁).print P calls := by
  cases call with
  | init =>
      obtain ⟨calls, hload⟩ := fsLoadFromDisk_of_formatPoint P h
      simp only [savePoint, formatPoint] at h
      have hav : diskAvailable (fsInitEmpty w.fs) = true := by
        by_contra hc
        rw [if_pos (by simpa using hc)] at h
        exact absurd h (by simp)
      simp only [fsCall, fsInit, hav, if_true, hload, print_print]
      split_ifs <;> exact ⟨_, rfl⟩
  | create name content =>
      simp only [savePoint] at h
      split_ifs at h with hz
      obtain ⟨slot, -, hslot, -, hr⟩ := fsCreateFile_of_zero hz
      rw [hslot, Option.map_some, Option.some.injEq] at h
      refine ⟨[], ?_⟩
      simp only [fsCall, hr, ← h, print_nil]
  | delete name =>
      simp only [savePoint] at h
      split_ifs at h with hz
      obtain ⟨slot, hslot, hr⟩ := fsDeleteFile_of_zero hz
      rw [hslot, Option.map_some, Option.some.injEq] at h
      refine ⟨[], ?_⟩
      simp only [fsCall, hr, ← h, print_nil]
  | save =>
      rw [savePoint, Option.some.injEq] at h
      exact ⟨[], by rw [← h]; rfl⟩
  | fileExists name => exact absurd h (by simp [savePoint])
  | read name maxSize => exact absurd h (by simp [savePoint])
  | list => exact absurd h (by simp [savePoint])

/-! ## What has been stored when a call saves

For all calls but `fs_init` there are three possibilities: the variables as they were, one slot
filled, one slot cleared.  An invariant of directories is kept by calls if it is kept by these. -/

/-- The variables a call other than `fs_init` saves: those it found, or those with the slot it
chose filled or cleared. -/
inductive StoredBy (w : World σ) : FsCall → FsState → Prop where
  | save : StoredBy w .save w.fs
  | fill {name content : CString} {slot : Fin 32} (hfind : fsFindFile P w name = none)
      (hslot : fsFindFreeSlot w.fs.fsHeader = some slot) (hlen : content.length ≤ 4096) :
      StoredBy w (.create name content) (fsFillSlot slot name content w.fs)
  | clear {name : CString} {slot : Fin 32} (hfind : fsFindFile P w name = some slot) :
      StoredBy w (.delete name) (fsClearSlot slot w.fs)

/-- **All a call can do.**  It prints at most, or it stores what `StoredBy` says and saves. -/
theorem fsCall_cases {call : FsCall} (hcall : call ≠ .init) (w : World σ) :
    (savePoint P call w = none ∧ ∃ calls, (fsCall P call w).2 = w.print P calls) ∨
    (∃ s, StoredBy P w call s ∧ savePoint P call w = some { w with fs := s } ∧
      (fsCall P call w).2 = fsSaveToDisk P { w with fs := s }) := by
  cases call with
  | init => exact absurd rfl hcall
  | save => exact Or.inr ⟨w.fs, .save, rfl, rfl⟩
  | fileExists name => exact Or.inl ⟨rfl, [], rfl⟩
  | read name maxSize => exact Or.inl ⟨rfl, [], rfl⟩
  | list =>
      refine Or.inl ⟨rfl, ?_⟩
      simp only [fsCall, fsListFiles]
      split_ifs <;> exact ⟨_, rfl⟩
  | create name content =>
      by_cases hz : (fsCreateFile P name content w).1 = 0
      · obtain ⟨slot, hfind, hslot, hlen, hr⟩ := fsCreateFile_of_zero hz
        refine Or.inr ⟨_, .fill hfind hslot hlen, ?_, ?_⟩
        · rw [savePoint, if_pos hz, hslot, Option.map_some]
        · rw [fsCall, hr]
      · exact Or.inl ⟨if_neg hz, [], fsCreateFile_of_nonzero hz⟩
  | delete name =>
      by_cases hz : (fsDeleteFile P name w).1 = 0
      · obtain ⟨slot, hfind, hr⟩ := fsDeleteFile_of_zero hz
        refine Or.inr ⟨_, .clear hfind, ?_, ?_⟩
        · rw [savePoint, if_pos hz, hfind, Option.map_some]
        · rw [fsCall, hr]
      · exact Or.inl ⟨if_neg hz, [], fsDeleteFile_of_nonzero hz⟩

/-- **The invariant rule for calls.**  A property that filling and clearing a slot keep, and that
does not speak of `fs_persistent`, is kept by every call. -/
theorem fsCall_preserves {I : FsState → Prop} (hper : ∀ s b, I s → I { s with fsPersistent := b })
    {call : FsCall} (hcall : call ≠ .init) {w : World σ}
    (hstored : ∀ s, StoredBy P w call s → I s) (hI : I w.fs) : I (fsCall P call w).2.fs := by
  rcases fsCall_cases P hcall w with ⟨-, calls, hr⟩ | ⟨s, hs, -, hr⟩
  · rw [hr]
    exact hI
  · obtain ⟨b, hb⟩ := fsSaveToDisk_fs P { w with fs := s }
    rw [hr, hb]
    exact hper s b (hstored s hs)

/-! ## The drive selection is never touched

Both variables that say which drive is selected are set before `fs_init`, and no call of the file
system stores to either. -/

/-- The two variables are what they were. -/
def SameDrive (s s' : FsState) : Prop :=
  s'.selectedDrive = s.selectedDrive ∧ s'.fsDriveSelected = s.fsDriveSelected

lemma stepRel_sameDrive : StepRel P fun w w' => SameDrive w.fs w'.fs where
  refl _ := ⟨rfl, rfl⟩
  trans h h' := ⟨h'.1.trans h.1, h'.2.trans h.2⟩
  print _ _ := ⟨rfl, rfl⟩
  read lba w := by
    rw [fsReadSectorDirect_fs]
    exact ⟨rfl, rfl⟩
  write lba buffer w _ _ := by
    rw [fsWriteSectorDirect_fs]
    exact ⟨rfl, rfl⟩
  store _ _ h := ⟨h.selectedDrive, h.selected⟩

/-- **No call touches the drive selection.** -/
theorem fsCall_drive (call : FsCall) (w : World σ) : SameDrive w.fs (fsCall P call w).2.fs :=
  (stepRel_sameDrive P).call call w

lemma formatPoint_drive {w w₁ : World σ} (h : formatPoint P w = some w₁) :
    SameDrive w.fs w₁.fs := by
  have hread := (stepRel_sameDrive P).readHeaderSectors headerSectors 0 w
  rw [formatPoint] at h
  split_ifs at h with hav
  cases hh : fsReadHeaderSectors P headerSectors 0 w with
  | mk ok w0 =>
      rw [hh] at h hread
      cases ok with
      | false => exact absurd h (by simp)
      | true =>
          simp only at h
          split_ifs at h
          rw [Option.some.injEq] at h
          rw [← h]
          exact hread

/-- Nor does it before it saves. -/
lemma savePoint_drive {call : FsCall} {w w₁ : World σ} (h : savePoint P call w = some w₁) :
    SameDrive w.fs w₁.fs := by
  by_cases hcall : call = .init
  · subst hcall
    exact formatPoint_drive P (w := { w with fs := fsInitEmpty w.fs }) h
  · rcases fsCall_cases P hcall w with ⟨hnone, -⟩ | ⟨s, hs, hpoint, -⟩
    · rw [hnone] at h
      exact absurd h (by simp)
    · rw [hpoint, Option.some.injEq] at h
      rw [← h]
      cases hs with
      | save => exact ⟨rfl, rfl⟩
      | fill hfind hslot hlen => exact ⟨rfl, rfl⟩
      | clear hfind => exact ⟨rfl, rfl⟩

/-- A call, made while the machine around the file system behaves as the platform says. -/
def fsStep (e : Platform σ × FsCall) (w : World σ) : FsResult × World σ := fsCall e.1 e.2 w

end SzymOS
