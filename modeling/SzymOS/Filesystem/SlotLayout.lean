import SzymOS.Filesystem.Interruption
import SzymOS.Filesystem.Refinement
import SzymOS.Filesystem.Untrusted

/-!
# Every file in its slot

Slots are reused with what a deleted file left in them, names are cut and contents can be as long
as a slot.  Through all of this a file in slot `i` lies in the 4096 bytes from `4096 * i` on.

The invariant is small: an entry in use has its offset at its slot, a size of at most 4096 and a NUL
in its name.  Entries that are not in use are not mentioned by it, since nothing is known of them
after deletions and cut saves, and nothing needs to be: a creation stores all fields of the entry it
fills.  It does not depend on the drive either, because saves do not change it.

What follows from it is what memory safety means here.  Two files share no byte, no file lies
outside the data, and the copies that a creation and a read make stay in the slot they are made
for.  The copies are listed by hand, so the lists are compared with the functions: a byte that is
not on the list of a creation is not changed by it, and what a read returns are the bytes on its
list.

* `copies` — the bytes that `fs_create_file` and `fs_read_file` copy, each with its slot.
* `fsCreateFile_frame`, `fsReadFile_copies` — the lists are complete: creation stores nothing else
  in names and data, and what a read returns is what it copied.
* `layout_invariant` — from every start without foreign files, after any calls, every file lies in
  its slot, and no copy leaves it.
-/

set_option autoImplicit false

namespace SzymOS

open Bytes Transition

variable {σ : Type} (P : Platform σ)

/-! ## Copies

An access has a slot or an address.  The list of a creation begins with the name and its NUL and
goes on with the content; the list of a read has the content alone.  Whether a call copies at all is
decided by its checks. -/

/-- Inside the name array, or inside the 4096 bytes, of this slot. -/
def Access.InSlot (slot : Fin 32) : Access → Prop
  | .name i k => i = slot ∧ k < 32
  | .data address => 4096 * slot ≤ address ∧ address < 4096 * slot + 4096

/-- What `fs_create_file` copies into a slot: the name and its NUL, then the content. -/
def fillCopies (slot : Fin 32) (name content : CString) : List Access :=
  (List.range (storedNameLen name + 1)).map (.name slot) ++
    (List.range (contentLen content).toNat).map fun j =>
      .data ((UInt32.ofNat (slot * maxFileSize)).toNat + j)

/-- What `fs_read_file` copies out of a slot. -/
def readCopies (w : World σ) (slot : Fin 32) (maxSize : UInt32) : List Access :=
  (List.range (readSize (w.fs.fsHeader.files slot).size maxSize).toNat).map fun j =>
    .data (((w.fs.fsHeader.files slot).offset.toNat + j) % 2 ^ 32)

/-- The copies of a call, each with the slot it is made for. -/
def copies (w : World σ) : FsCall → List (Fin 32 × Access)
  | .create name content =>
      if (fsCreateFile P name content w).1 = 0 then
        match fsFindFreeSlot w.fs.fsHeader with
        | none => []
        | some slot => (fillCopies slot name content).map (slot, ·)
      else []
  | .read name maxSize =>
      if !w.fs.fsInitialized then []
      else
        match fsFindFile P w name with
        | none => []
        | some slot => (readCopies w slot maxSize).map (slot, ·)
  | _ => []

/-- This byte of the names or of the data is what it was. -/
def Access.Kept (s s' : FsState) : Access → Prop
  | .name i k => ∀ h : k < 32, (s'.fsHeader.files i).name ⟨k, h⟩ = (s.fsHeader.files i).name ⟨k, h⟩
  | .data p => s'.fsData p = s.fsData p

/-- **Creation stores what it copies.**  In names and data it changes no other byte. -/
theorem fsCreateFile_frame (name content : CString) (w : World σ) {a : Access}
    (ha : ∀ slot, (slot, a) ∉ copies P w (.create name content)) :
    a.Kept w.fs (fsCreateFile P name content w).2.fs := by
  by_cases hz : (fsCreateFile P name content w).1 = 0
  · obtain ⟨slot, -, hslot, -, hr⟩ := fsCreateFile_of_zero hz
    have hout : a ∉ fillCopies slot name content := by
      intro hc
      refine ha slot ?_
      rw [copies, if_pos hz, hslot]
      exact List.mem_map_of_mem hc
    rw [fillCopies, List.mem_append, not_or] at hout
    rw [hr]
    cases a with
    | name i k =>
        intro h
        rw [fsSaveToDisk_fsHeader]
        by_cases heq : i = slot
        · subst heq
          have hk : ¬ k < storedNameLen name + 1 := fun hc =>
            hout.1 (List.mem_map_of_mem (List.mem_range.mpr hc))
          rw [fsFillSlot_files_self]
          simp only [storeName]
          rw [if_neg (by omega), if_neg (by omega)]
        · rw [fsFillSlot_files_of_ne heq]
    | data p =>
        rw [Access.Kept, fsSaveToDisk_fsData, fsFillSlot_fsData]
        refine splice_outside ?_
        by_contra hc
        refine hout.2 (List.mem_map.mpr ⟨p - 4096 * slot, ?_, ?_⟩)
        · rw [List.mem_range, contentLen_toNat]
          omega
        · rw [slotOffset_toNat]
          exact congrArg Access.data (by omega)
  · rw [fsCreateFile_of_nonzero hz]
    cases a with
    | name i k => exact fun _ => rfl
    | data p => rfl

/-- **A read returns what it copies**, with a NUL behind it. -/
theorem fsReadFile_copies {name : CString} {maxSize : UInt32} {w : World σ} {slot : Fin 32}
    (hinit : w.fs.fsInitialized = true) (hfind : fsFindFile P w name = some slot) :
    (fsReadFile P w name maxSize).2
      = (copies P w (.read name maxSize)).map (fun c => c.2.value P w) ++ [0] := by
  rw [fsReadFile, copies, if_neg (by simp [hinit]), if_neg (by simp [hinit]), hfind]
  simp only [readCopies, List.map_map, slice]
  refine congrArg (· ++ [0]) (List.map_congr_left ?_)
  intro j _
  simp [Access.value, dataMemory]

/-! ## The invariant

`Slotted` is what is carried along a run, `InSlots` what is read off it in every state. -/

/-- What of the directory the copies depend on. -/
structure Slotted (h : FilesystemHeader) : Prop where
  laidOut : h.LaidOut
  terminated : h.Terminated

lemma StoredBy.slotted {P : Platform σ} {w : World σ} {call : FsCall} {s : FsState}
    (h : StoredBy P w call s) (hw : Slotted w.fs.fsHeader) : Slotted s.fsHeader := by
  cases h with
  | save => exact hw
  | fill hfind hslot hlen =>
      exact ⟨fsFillSlot_laidOut hlen hw.laidOut, fsFillSlot_terminated hw.terminated⟩
  | clear hfind => exact ⟨fsClearSlot_laidOut hw.laidOut, fsClearSlot_terminated hw.terminated⟩

lemma Slotted.of_empty {h : FilesystemHeader} (he : h.Empty) : Slotted h :=
  ⟨he.wellFormed.laidOut, he.wellFormed.terminated⟩

/-- The bytes of the file in slot `i`. -/
def FilesystemHeader.range (h : FilesystemHeader) (i : Fin 32) : Set ℕ :=
  {p | (h.files i).offset.toNat ≤ p ∧ p < (h.files i).offset.toNat + (h.files i).size.toNat}

/-- Every file in its slot: where it lies, that its name ends, that it shares no byte with another
and that no copy leaves the slot it is made for.  The copies are all there are: what is not copied
a creation leaves alone, and a read returns what it copies. -/
structure InSlots (w : World σ) : Prop where
  offset : ∀ i, w.fs.fsHeader.Used i → (w.fs.fsHeader.files i).offset.toNat = 4096 * i
  size : ∀ i, w.fs.fsHeader.Used i → (w.fs.fsHeader.files i).size.toNat ≤ 4096
  nul : ∀ i, w.fs.fsHeader.Used i → ∃ k, (w.fs.fsHeader.files i).name k = 0
  disjoint : ∀ i j, w.fs.fsHeader.Used i → w.fs.fsHeader.Used j → i ≠ j →
    ∀ p ∈ w.fs.fsHeader.range i, p ∉ w.fs.fsHeader.range j
  inside : ∀ i, w.fs.fsHeader.Used i → w.fs.fsHeader.range i ⊆ {p | p < fsDataSize}
  copies : ∀ call, ∀ c ∈ copies P w call, c.2.InSlot c.1
  stores : ∀ name content a, (∀ slot, (slot, a) ∉ SzymOS.copies P w (.create name content)) →
    a.Kept w.fs (fsCreateFile P name content w).2.fs
  returns : ∀ name maxSize slot, w.fs.fsInitialized = true → fsFindFile P w name = some slot →
    (fsReadFile P w name maxSize).2
      = (SzymOS.copies P w (.read name maxSize)).map (fun c => c.2.value P w) ++ [0]

lemma mem_fillCopies_inSlot {slot : Fin 32} {name content : CString} (hlen : content.length ≤ 4096)
    {a : Access} (ha : a ∈ fillCopies slot name content) : a.InSlot slot := by
  rcases List.mem_append.mp ha with h | h
  · obtain ⟨k, hk, rfl⟩ := List.mem_map.mp h
    rw [List.mem_range, storedNameLen_eq] at hk
    exact ⟨rfl, by omega⟩
  · obtain ⟨j, hj, rfl⟩ := List.mem_map.mp h
    rw [List.mem_range, contentLen_toNat] at hj
    rw [slotOffset_toNat]
    exact ⟨by omega, by omega⟩

lemma readSize_le (size maxSize : UInt32) : (readSize size maxSize).toNat ≤ size.toNat := by
  rw [readSize]
  split_ifs with h
  · rw [gt_iff_lt, UInt32.lt_iff_toNat_lt] at h
    omega
  · exact Nat.le_refl _

lemma mem_readCopies_inSlot {w : World σ} {slot : Fin 32} {maxSize : UInt32}
    (hlaid : w.fs.fsHeader.LaidOut) (hused : w.fs.fsHeader.Used slot) {a : Access}
    (ha : a ∈ readCopies w slot maxSize) : a.InSlot slot := by
  obtain ⟨hsize, hoff⟩ := hlaid slot hused
  obtain ⟨j, hj, rfl⟩ := List.mem_map.mp ha
  have hle := readSize_le (w.fs.fsHeader.files slot).size maxSize
  have hslot := slot.isLt
  rw [List.mem_range] at hj
  rw [hoff, Nat.mod_eq_of_lt (by omega)]
  exact ⟨by omega, by omega⟩

/-- The invariant gives all of it. -/
theorem Slotted.inSlots {w : World σ} (h : Slotted w.fs.fsHeader) : InSlots P w where
  offset i hi := (h.laidOut i hi).2
  size i hi := (h.laidOut i hi).1
  nul i hi := ⟨⟨_, h.terminated i hi⟩, nameLen_zero _ (h.terminated i hi)⟩
  disjoint i j hi hj hne := by
    obtain ⟨hsize, hoff⟩ := h.laidOut i hi
    obtain ⟨hsize', hoff'⟩ := h.laidOut j hj
    have hne' : (i : ℕ) ≠ j := fun hc => hne (Fin.ext hc)
    rintro p ⟨h1, h2⟩ ⟨h3, h4⟩
    omega
  inside i hi := by
    obtain ⟨hsize, hoff⟩ := h.laidOut i hi
    rintro p ⟨h1, h2⟩
    have hlt : p < 131072 := by omega
    exact hlt
  copies call c hc := by
    cases call with
    | create name content =>
        rw [copies] at hc
        split_ifs at hc with hz
        · obtain ⟨slot, -, hslot, hlen, -⟩ := fsCreateFile_of_zero hz
          rw [hslot] at hc
          obtain ⟨a, ha, rfl⟩ := List.mem_map.mp hc
          exact mem_fillCopies_inSlot hlen ha
        · exact absurd hc (by simp)
    | read name maxSize =>
        rw [copies] at hc
        split_ifs at hc with hinit
        · exact absurd hc (by simp)
        · cases hfind : fsFindFile P w name with
          | none => rw [hfind] at hc; exact absurd hc (by simp)
          | some slot =>
              rw [hfind] at hc
              obtain ⟨a, ha, rfl⟩ := List.mem_map.mp hc
              exact mem_readCopies_inSlot h.laidOut (fsFindFile_used hfind) ha
    | _ => exact absurd hc (by simp [copies])
  stores name content a ha := fsCreateFile_frame P name content w ha
  returns name maxSize slot hinit hfind := fsReadFile_copies P hinit hfind

/-! ## Starts

Two kinds of start have no file: a machine without a drive, and a drive that `fs_init` formats.
From a drive that already holds a SzymFS the invariant need not hold, since its entries may come
from anywhere. -/

/-- The states `fs_init` leaves on a machine without a drive, and on a drive that is not a SzymFS
and that it could read. -/
inductive FreshStart : SectorWorld → Prop where
  | ramOnly (env : Env) (dev : SectorDev) :
      FreshStart (fsInit (sectorPlatform env) { fs := FsState.selected none, dev })
  | formatted (drive : DriveId) {env : Env} {dev : SectorDev} (hread : env.AllRead)
      (hforeign : (diskHeader dev.disk).magic ≠ szymfsMagic) :
      FreshStart (reboot drive env dev)

/-- Neither has a file. -/
lemma FreshStart.empty {w : SectorWorld} (h : FreshStart w) : w.fs.fsHeader.Empty := by
  cases h with
  | ramOnly env dev =>
      rw [fsInit_noDrive _ rfl]
      exact ⟨rfl, fun _ hi => hi rfl⟩
  | formatted drive hread hforeign =>
      obtain ⟨saved, hfs, -, hboot, -⟩ := reboot_blank drive _ hread.headerReads hforeign
      rw [hboot, fsSaveToDisk_fsHeader, hfs]
      exact ⟨rfl, fun _ hi => hi rfl⟩

/-- **Every file stays in its slot.**  From a fresh start, after any calls with any names and
contents, whatever becomes of their saves. -/
theorem layout_invariant {w : SectorWorld} (hw : FreshStart w) (calls : List (Env × FsCall))
    (hcalls : ∀ e ∈ calls, e.2 ≠ .init) (env : Env) :
    InSlots (sectorPlatform env) (final diskStep calls w) := by
  have hslotted : Slotted (final diskStep calls w).fs.fsHeader :=
    invariant_final (I := fun w : SectorWorld => Slotted w.fs.fsHeader)
      (fun e he w hw => fsCall_preserves (I := fun s => Slotted s.fsHeader) (sectorPlatform e.1)
        (fun _ _ h => h) (hcalls e he) (fun _ hs => hs.slotted hw) hw)
      (Slotted.of_empty hw.empty)
  exact hslotted.inSlots _

/-- On a blank drive, after a creation whose save fails at once, and a deletion. -/
theorem layout_invariant_letter :
    InSlots (sectorPlatform Env.faultless) (final diskStep
      [(Env.cutAfter 0, .create (letter 0) (letter 1)), (Env.faultless, .delete (letter 0))]
      (reboot .primaryMaster Env.faultless .blank)) :=
  layout_invariant (.formatted .primaryMaster Env.faultless_allRead formats_blank.foreign)
    [(Env.cutAfter 0, .create (letter 0) (letter 1)), (Env.faultless, .delete (letter 0))]
    (by simp) Env.faultless

end SzymOS
