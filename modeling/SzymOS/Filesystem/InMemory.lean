import SzymOS.Filesystem.Directory
import SzymOS.Kernel.Copies
import SzymOS.Lib.Run
import Mathlib.Tactic.IntervalCases

/-!
# The structures of SzymFS in memory

`Code.lean` works on the fields of `fs_header` and on the array `fs_data`.  The compiled code stores
bytes and words at addresses, and copies with `memcpy` and `memset`.  Here every place of
`filesystem.c` that stores into the two objects is translated a second time, on memory.

A structure of C and a record of Lean differ in one respect that matters: a store into the structure
is a store of bytes at an address, and if the address is wrong it hits something else.  The records
of `Code.lean` cannot express this.  So the places that store are listed and translated as what they
are in C: assignments of words and bytes to fields, `memcpy` into a name and into the data, `memset`
of the data, and copies of sectors over the header.

The statement is a simulation with a frame.  Memory holds the two objects before and after, with the
contents that the definitions on records give; and all bytes outside the two objects are what they
would be if the place had not run.  Nothing is assumed about where the objects lie, but that they do
not overlap.

* `Placement` — where the two objects lie.
* `FsStores.run` — the places that store into them, on memory; `FsStores.apply`, on the structures.
* `structures_in_memory` — over any number of them, and whatever happens to the rest of memory in
  between, memory holds the structures, and nothing else is stored.

A place of the source is a sequence of stores.  For each kind of store there is a lemma that
`Follows` is kept by it, with the change of the structures that it is: words and bytes of an entry
(`Follows.size`, `Follows.used`, `Follows.name`), the fields in front of the entries, ranges of the
data, and copies.  While an entry is being stored it is neither the old one nor the new one, so it
is kept apart as `withEntry`, and put in its place when it is complete.

A place is then followed store by store (`run_create` is the longest), and a run place by place,
with other modules free to store elsewhere in between (`Placement.Holds.refresh`).
-/

set_option autoImplicit false

namespace SzymOS

open Bytes Transition

/-! ## Fields and bytes

A store into a field of a record is a `splice` of its bytes.  One lemma for each field and for each
part of a field that is stored by itself. -/

section Fields

variable (h : FilesystemHeader) (e : FileEntry) {i : Fin 32} {g : ℕ → UInt8}

lemma splice_magic (v : UInt32) (p : ℕ) :
    splice (headerByte h) 0 4 (u32Byte v) p = headerByte { h with magic := v } p := by
  by_cases hp : p < 4
  · rw [splice_inside (Nat.zero_le p) (by omega), headerByte_magic _ hp]
    rfl
  · rw [splice_outside (by omega), headerByte, headerByte, if_neg hp, if_neg hp]

lemma splice_fileCount (v : UInt32) (p : ℕ) :
    splice (headerByte h) 4 4 (u32Byte v) p = headerByte { h with fileCount := v } p := by
  by_cases hp : 4 ≤ p ∧ p < 8
  · rw [splice_inside hp.1 hp.2, headerByte, if_neg (by omega), if_pos hp.2]
  · rw [splice_outside (by omega), headerByte, headerByte]
    split_ifs
    · rfl
    · omega
    · rfl

/-- Bytes of one entry. -/
lemma splice_entry {k m p : ℕ} (hk : k + m ≤ 44) (hp : p < 1416) :
    splice (headerByte h) (8 + 44 * i + k) m g p
      = headerByte { h with
          files := Function.update h.files i
            (entryOfBytes (splice (entryByte (h.files i)) k m g)) } p := by
  by_cases hfirst : p < 8
  · rw [splice_outside (by omega), headerByte, headerByte]
    split_ifs
    · rfl
    · rfl
  · obtain ⟨j, q, hq, rfl⟩ : ∃ (j : Fin 32) (q : ℕ), q < 44 ∧ p = 8 + 44 * j + q :=
      ⟨⟨(p - 8) / 44, by omega⟩, (p - 8) % 44, Nat.mod_lt _ (by decide), by simp only; omega⟩
    rw [headerByte_entry _ j hq]
    simp only
    by_cases hij : j = i
    · rw [hij, Function.update_self, entryByte_entryOfBytes _ hq]
      by_cases hin : k ≤ q ∧ q < k + m
      · rw [splice_inside (by omega) (by omega), splice_inside hin.1 hin.2]
        congr 1
        omega
      · rw [splice_outside (by omega), splice_outside (by omega), headerByte_entry _ i hq]
    · have hne : (j : ℕ) ≠ i := fun heq => hij (Fin.ext heq)
      rw [Function.update_of_ne hij, splice_outside (by omega), headerByte_entry _ j hq]

lemma entry_size (v : UInt32) :
    entryOfBytes (splice (entryByte e) 32 4 (u32Byte v)) = { e with size := v } := by
  rw [← entryOfBytes_entryByte { e with size := v }]
  refine entryOfBytes_congr fun k _ => ?_
  by_cases hk : 32 ≤ k ∧ k < 36
  · obtain ⟨j, rfl⟩ := Nat.exists_eq_add_of_le hk.1
    rw [splice_inside hk.1 hk.2, entryByte_size _ (by omega), Nat.add_sub_cancel_left]
  · rw [splice_outside (by omega), entryByte, entryByte]
    split_ifs <;> first | rfl | omega

lemma entry_offset (v : UInt32) :
    entryOfBytes (splice (entryByte e) 36 4 (u32Byte v)) = { e with offset := v } := by
  rw [← entryOfBytes_entryByte { e with offset := v }]
  refine entryOfBytes_congr fun k _ => ?_
  by_cases hk : 36 ≤ k ∧ k < 40
  · obtain ⟨j, rfl⟩ := Nat.exists_eq_add_of_le hk.1
    rw [splice_inside hk.1 hk.2, entryByte_offset _ (by omega), Nat.add_sub_cancel_left]
  · rw [splice_outside (by omega), entryByte, entryByte]
    split_ifs <;> first | rfl | omega

lemma entry_used (b : UInt8) :
    entryOfBytes (splice (entryByte e) 40 1 fun _ => b) = { e with used := b } := by
  rw [← entryOfBytes_entryByte { e with used := b }]
  refine entryOfBytes_congr fun k _ => ?_
  by_cases hk : k = 40
  · rw [hk, splice_inside (by decide) (by decide), entryByte_used]
  · rw [splice_outside (by omega), entryByte, entryByte]
    split_ifs <;> rfl

/-- Bytes of the name. -/
lemma entry_name {k m : ℕ} (hk : k + m ≤ 32) :
    entryOfBytes (splice (entryByte e) k m g)
      = { e with name := fun j => if k ≤ j ∧ (j : ℕ) < k + m then g (j - k) else e.name j } := by
  refine (entryOfBytes_of_tail (e := e) fun j h32 _ => splice_outside (by omega)).trans ?_
  congr 1
  funext j
  rw [splice]
  split_ifs
  · rfl
  · exact entryByte_name e j.isLt

end Fields

/-! ## Where the objects lie

Addresses are words and wrap around, so an object may begin near the end of memory.  That the two
objects are apart is part of the placement. -/

/-- The addresses of `fs_header` and `fs_data`. -/
structure Placement where
  header : UInt32
  data : UInt32
  apart : Apart header headerSize data fsDataSize

namespace Placement

variable (L : Placement)

/-- Byte `k` of entry `i`. -/
def entry (i : Fin 32) (k : ℕ) : UInt32 := L.header + UInt32.ofNat (8 + 44 * i + k)

/-- A byte of one of the two objects. -/
def Owns (a : UInt32) : Prop := (a - L.header).toNat < headerSize ∨ (a - L.data).toNat < fsDataSize

instance (a : UInt32) : Decidable (L.Owns a) := inferInstanceAs (Decidable (_ ∨ _))

/-- None of these bytes is. -/
def Outside (base : UInt32) (n : ℕ) : Prop := ∀ j < n, ¬ L.Owns (base + UInt32.ofNat j)

/-- Memory holds the two objects. -/
structure Holds (mem : Ram) (s : FsState) : Prop where
  header : Bytes.Holds mem L.header headerSize (headerByte s.fsHeader)
  data : Bytes.Holds mem L.data fsDataSize s.fsData

/-- The rest of memory has changed. -/
def refresh (mem others : Ram) : Ram := fun a => if L.Owns a then mem a else others a

end Placement

/-! ## The places that store

The constructors are the places of the source in which something is stored, `run` is what they do to
memory, and `apply` what they do to the structures.  What is read from elsewhere, such as a name or
a sector, is an argument. -/

/-- `for (int i = 0; i < MAX_FILES; i++)` -/
def forEntries (body : Fin 32 → Ram → Ram) (mem : Ram) : Ram :=
  (List.finRange 32).foldl (fun mem i => body i mem) mem

/-- A place of `filesystem.c` that stores into its objects, with the addresses of what it copies;
and what lies there. -/
inductive FsStores where
  | init
  | format
  | headerSector (i : ℕ) (sectorBuffer : UInt32) (sector : Sector)
  | dataSector (i : ℕ) (sectorBuffer : UInt32) (sector : Sector)
  | create (slot : Fin 32) (nameAt contentAt : UInt32) (name content : CString)
  | delete (slot : Fin 32)

namespace FsStores

/-- On memory; only the addresses are used. -/
def run (L : Placement) : FsStores → Ram → Ram
  | .init, mem =>
      let mem := store32 L.header szymfsMagic mem
      let mem := store32 (L.header + 4) 0 mem
      let mem := forEntries (fun i mem =>
        let mem := store8 (L.entry i 40) 0 mem
        let mem := store8 (L.entry i 0) 0 mem
        let mem := store32 (L.entry i 32) 0 mem
        store32 (L.entry i 36) 0 mem) mem
      memset L.data 0 (UInt32.ofNat fsDataSize) mem
  | .format, mem =>
      let mem := store32 L.header szymfsMagic mem
      let mem := store32 (L.header + 4) 0 mem
      let mem := forEntries (fun i mem => store8 (L.entry i 40) 0 mem) mem
      memset L.data 0 (UInt32.ofNat fsDataSize) mem
  | .headerSector i sectorBuffer _, mem =>
      let currentOffset := i * sectorSize
      if currentOffset < headerSize then
        memcpy (L.header + UInt32.ofNat currentOffset) sectorBuffer
          (UInt32.ofNat (clampedCopySize currentOffset headerSize)) mem
      else mem
  | .dataSector i sectorBuffer _, mem =>
      memcpy (L.data + UInt32.ofNat (i * sectorSize)) sectorBuffer (UInt32.ofNat sectorSize) mem
  | .create slot nameAt contentAt _ _, mem =>
      let contentLen := UInt32.ofNat (strlen fun k => mem (contentAt + UInt32.ofNat k))
      let nameLen := strlen fun k => mem (nameAt + UInt32.ofNat k)
      let nameLen := if nameLen ≥ maxFilename then maxFilename - 1 else nameLen
      let mem := memcpy (L.entry slot 0) nameAt (UInt32.ofNat nameLen) mem
      let mem := store8 (L.entry slot nameLen) 0 mem
      let mem := store32 (L.entry slot 32) contentLen mem
      let mem := store32 (L.entry slot 36) (UInt32.ofNat (slot * maxFileSize)) mem
      let mem := store8 (L.entry slot 40) 1 mem
      let mem := memcpy (L.data + load32 (L.entry slot 36) mem) contentAt contentLen mem
      store32 (L.header + 4) (load32 (L.header + 4) mem + 1) mem
  | .delete slot, mem =>
      let mem := store8 (L.entry slot 40) 0 mem
      let mem := store8 (L.entry slot 0) 0 mem
      store32 (L.header + 4) (load32 (L.header + 4) mem - 1) mem

/-- On the structures; the addresses are not used. -/
def apply : FsStores → FsState → FsState
  | .init, s => fsInitEmpty s
  | .format, s => fsFormat s
  | .headerSector i _ sector, s => copyHeaderSector i sector s
  | .dataSector i _ sector, s =>
      { s with fsData := splice s.fsData (i * sectorSize) sectorSize sector.byte }
  | .create slot _ _ name content, s => fsFillSlot slot name content s
  | .delete slot, s => fsClearSlot slot s

/-- What is copied lies at its address, outside the two objects; and the bounds that the code has
checked. -/
def Ready (L : Placement) (mem : Ram) : FsStores → Prop
  | .init => True
  | .format => True
  | .headerSector i sectorBuffer sector =>
      i < headerSectors ∧ Holds mem sectorBuffer sectorSize sector.byte ∧
        L.Outside sectorBuffer sectorSize
  | .dataSector i sectorBuffer sector =>
      i < dataSectors ∧ Holds mem sectorBuffer sectorSize sector.byte ∧
        L.Outside sectorBuffer sectorSize
  | .create _ nameAt contentAt name content =>
      content.length ≤ maxFileSize ∧
        (Holds mem nameAt (name.length + 1) name.mem ∧ L.Outside nameAt (name.length + 1)) ∧
        Holds mem contentAt (content.length + 1) content.mem ∧
        L.Outside contentAt (content.length + 1)
  | .delete _ => True

end FsStores

/-- The rest of memory changes, and then one place stores. -/
def memoryStep (L : Placement) (e : Ram × FsStores) (mem : Ram) : Unit × Ram :=
  ((), e.2.run L (L.refresh mem e.1))

def structureStep (e : Ram × FsStores) (s : FsState) : Unit × FsState := ((), e.2.apply s)

/-! ## One store after the other

`Follows` is the relation that is carried through a sequence of stores: memory holds the structures,
and the rest of it is what it was at the beginning.  Each lemma is one kind of store. -/

namespace Placement

/-- Memory holds the structures, and the rest of it is what it was. -/
structure Follows (L : Placement) (mem₀ mem : Ram) (s : FsState) : Prop where
  holds : L.Holds mem s
  frame : ∀ a, ¬ L.Owns a → mem a = mem₀ a

variable {L : Placement} {mem₀ mem : Ram} {s : FsState} {g : ℕ → UInt8} {d m : ℕ}

/-- What lies outside still does. -/
lemma Follows.outside (h : L.Follows mem₀ mem s) {base : UInt32} {n : ℕ}
    (hout : L.Outside base n) (hheld : Bytes.Holds mem₀ base n g) : Bytes.Holds mem base n g :=
  fun j hj => (h.frame _ (hout j hj)).trans (hheld j hj)

lemma not_owns_header {a : UInt32} (ha : ¬ L.Owns a) (hfits : d + m ≤ headerSize) (j : ℕ)
    (hj : j < m) : a ≠ L.header + UInt32.ofNat d + UInt32.ofNat j := by
  rintro rfl
  refine ha (Or.inl ?_)
  simp only [headerSize] at hfits ⊢
  rw [add_add_ofNat, distance_add _ (by omega)]
  omega

lemma not_owns_data {a : UInt32} (ha : ¬ L.Owns a) (hfits : d + m ≤ fsDataSize) (j : ℕ)
    (hj : j < m) : a ≠ L.data + UInt32.ofNat d + UInt32.ofNat j := by
  rintro rfl
  refine ha (Or.inr ?_)
  simp only [fsDataSize] at hfits ⊢
  rw [add_add_ofNat, distance_add _ (by omega)]
  omega

namespace Follows

/-- **A store into the header.** -/
lemma header (h : L.Follows mem₀ mem s) (hfits : d + m ≤ headerSize) {new : FilesystemHeader}
    (hnew : ∀ p < headerSize, splice (headerByte s.fsHeader) d m g p = headerByte new p) :
    L.Follows mem₀ (stored (L.header + UInt32.ofNat d) m g mem) { s with fsHeader := new } where
  holds :=
    { header := (h.holds.header.stored (by decide) hfits).congr hnew
      data := h.holds.data.stored_apart (L.apart.part hfits).symm }
  frame a ha := (stored_outside (not_owns_header ha hfits)).trans (h.frame a ha)

/-- **A store into the data.** -/
lemma data (h : L.Follows mem₀ mem s) (hfits : d + m ≤ fsDataSize) :
    L.Follows mem₀ (stored (L.data + UInt32.ofNat d) m g mem)
      { s with fsData := splice s.fsData d m g } where
  holds :=
    { header := h.holds.header.stored_apart (L.apart.symm.part hfits).symm
      data := h.holds.data.stored (by decide) hfits }
  frame a ha := (stored_outside (not_owns_data ha hfits)).trans (h.frame a ha)

/-- The other variables play no part. -/
lemma congr (h : L.Follows mem₀ mem s) {s' : FsState} (hheader : s'.fsHeader = s.fsHeader)
    (hdata : s'.fsData = s.fsData) : L.Follows mem₀ mem s' where
  holds := ⟨hheader ▸ h.holds.header, hdata ▸ h.holds.data⟩
  frame := h.frame

lemma magic (h : L.Follows mem₀ mem s) (v : UInt32) :
    L.Follows mem₀ (store32 L.header v mem)
      { s with fsHeader := { s.fsHeader with magic := v } } := by
  have hstored := h.header (d := 0) (m := 4) (g := u32Byte v) (by decide)
    fun p _ => splice_magic s.fsHeader v p
  rwa [show L.header + UInt32.ofNat 0 = L.header from add_zero _] at hstored

lemma fileCount (h : L.Follows mem₀ mem s) (v : UInt32) :
    L.Follows mem₀ (store32 (L.header + 4) v mem)
      { s with fsHeader := { s.fsHeader with fileCount := v } } :=
  h.header (d := 4) (m := 4) (by decide) fun p _ => splice_fileCount s.fsHeader v p

lemma load_fileCount (h : L.Follows mem₀ mem s) :
    load32 (L.header + 4) mem = s.fsHeader.fileCount := by
  have hload : load32 (L.header + 4) mem = u32Of fun k => headerByte s.fsHeader (4 + k) :=
    h.holds.header.load32 (d := 4) (by decide)
  rw [hload]
  exact congrArg FilesystemHeader.fileCount (headerOfBytes_headerByte s.fsHeader)

end Follows

end Placement

/-! ### An entry while it is stored

The stores into one entry come one after the other.  Between them the structures have an entry that
is neither the old one nor the new one. -/

/-- The structures with another entry `i`. -/
def FsState.withEntry (s : FsState) (i : Fin 32) (e : FileEntry) : FsState :=
  { s with fsHeader := { s.fsHeader with files := Function.update s.fsHeader.files i e } }

lemma FsState.withEntry_self (s : FsState) (i : Fin 32) :
    s.withEntry i (s.fsHeader.files i) = s := by
  rw [withEntry, Function.update_eq_self]

@[simp] lemma FsState.withEntry_files_self (s : FsState) (i : Fin 32) (e : FileEntry) :
    (s.withEntry i e).fsHeader.files i = e := by
  simp only [withEntry, Function.update_self]

namespace Placement.Follows

variable {L : Placement} {mem₀ mem : Ram} {s : FsState} {g : ℕ → UInt8} {k m : ℕ} {i : Fin 32}
  {e : FileEntry}

/-- **A store into an entry.** -/
lemma entry (h : L.Follows mem₀ mem (s.withEntry i e)) (hk : k + m ≤ 44) :
    L.Follows mem₀ (stored (L.entry i k) m g mem)
      (s.withEntry i (entryOfBytes (splice (entryByte e) k m g))) := by
  have hstored := h.header (g := g) (d := 8 + 44 * i + k) (m := m)
    (by simp only [headerSize]; omega) fun p hp => splice_entry _ hk hp
  rw [s.withEntry_files_self] at hstored
  refine hstored.congr ?_ rfl
  simp only [FsState.withEntry, Function.update_idem]

lemma size (h : L.Follows mem₀ mem (s.withEntry i e)) (v : UInt32) :
    L.Follows mem₀ (store32 (L.entry i 32) v mem) (s.withEntry i { e with size := v }) := by
  rw [← entry_size]
  exact h.entry (by decide)

lemma offset (h : L.Follows mem₀ mem (s.withEntry i e)) (v : UInt32) :
    L.Follows mem₀ (store32 (L.entry i 36) v mem) (s.withEntry i { e with offset := v }) := by
  rw [← entry_offset]
  exact h.entry (by decide)

lemma used (h : L.Follows mem₀ mem (s.withEntry i e)) (b : UInt8) :
    L.Follows mem₀ (store8 (L.entry i 40) b mem) (s.withEntry i { e with used := b }) := by
  rw [← entry_used]
  exact h.entry (by decide)

/-- Bytes of the name. -/
lemma name (h : L.Follows mem₀ mem (s.withEntry i e)) (hk : k + m ≤ 32) :
    L.Follows mem₀ (stored (L.entry i k) m g mem) (s.withEntry i { e with
      name := fun j => if k ≤ j ∧ (j : ℕ) < k + m then g (j - k) else e.name j }) := by
  rw [← entry_name e hk]
  exact h.entry (by omega)

lemma nameByte (h : L.Follows mem₀ mem (s.withEntry i e)) (hk : k < 32) (b : UInt8) :
    L.Follows mem₀ (store8 (L.entry i k) b mem) (s.withEntry i { e with
      name := fun j => if k ≤ j ∧ (j : ℕ) < k + 1 then b else e.name j }) :=
  h.name (g := fun _ => b) (by omega)

/-- The first byte of a name. -/
lemma name_zero (h : L.Follows mem₀ mem (s.withEntry i e)) :
    L.Follows mem₀ (store8 (L.entry i 0) 0 mem)
      (s.withEntry i { e with name := Function.update e.name 0 0 }) := by
  have hname : Function.update e.name 0 0
      = fun j : Fin 32 => if 0 ≤ (j : ℕ) ∧ (j : ℕ) < 0 + 1 then 0 else e.name j := by
    funext j
    by_cases hj : j = 0
    · rw [hj, Function.update_self, if_pos (by decide)]
    · have hpos : (j : ℕ) ≠ 0 := fun h0 => hj (Fin.ext h0)
      rw [Function.update_of_ne hj, if_neg (by omega)]
  rw [hname]
  exact h.nameByte (by decide) 0

lemma load_offset (h : L.Follows mem₀ mem (s.withEntry i e)) :
    load32 (L.entry i 36) mem = e.offset := by
  have hload : load32 (L.entry i 36) mem
      = u32Of fun k => headerByte (s.withEntry i e).fsHeader (8 + 44 * i + 36 + k) :=
    h.holds.header.load32 (by simp only [headerSize]; omega)
  rw [hload, ← u32Of_u32Byte e.offset]
  refine u32Of_congr fun k hk => ?_
  rw [Nat.add_assoc, headerByte_entry _ i (by omega), s.withEntry_files_self,
    entryByte_offset e hk]

/-! ## The loops over the entries

`fs_init` and the formatting store into every entry.  The loop is followed entry by entry. -/

/-- **The same for every entry.** -/
lemma forEntries (h : L.Follows mem₀ mem s) (body : Fin 32 → Ram → Ram)
    (f : FileEntry → FileEntry) (hbody : ∀ i mem s, L.Follows mem₀ mem s →
      L.Follows mem₀ (body i mem) (s.withEntry i (f (s.fsHeader.files i)))) :
    L.Follows mem₀ (forEntries body mem)
      { s with fsHeader := { s.fsHeader with files := fun i => f (s.fsHeader.files i) } } := by
  have hall : ∀ (rest : List (Fin 32)) (mem : Ram) (s : FsState), rest.Nodup →
      L.Follows mem₀ mem s → L.Follows mem₀ (rest.foldl (fun mem i => body i mem) mem)
        { s with
          fsHeader :=
            { s.fsHeader with
              files := fun i =>
                if i ∈ rest then f (s.fsHeader.files i) else s.fsHeader.files i } } := by
    intro rest
    induction rest with
    | nil => exact fun mem s _ h => h.congr (by simp) rfl
    | cons i rest ih =>
        intro mem s hnodup h
        obtain ⟨hi, hnodup⟩ := List.nodup_cons.mp hnodup
        refine (ih _ _ hnodup (hbody i mem s h)).congr ?_ rfl
        refine FilesystemHeader.ext rfl rfl (funext fun j => ?_)
        by_cases hj : j = i
        · simp [hj, hi, FsState.withEntry]
        · simp [hj, FsState.withEntry]
  refine (hall (List.finRange 32) mem s (List.nodup_finRange 32) h).congr ?_ rfl
  simp

/-! ## Copies

`memset` and `memcpy` are the loops of `kernel.c`, and are known to be stores of ranges when source
and destination are apart. -/

/-- `memset` of the data. -/
lemma clear_data (h : L.Follows mem₀ mem s) :
    L.Follows mem₀ (memset L.data 0 (UInt32.ofNat fsDataSize) mem)
      { s with fsData := splice s.fsData 0 fsDataSize fun _ => 0 } := by
  have hstored := h.data (d := 0) (m := fsDataSize) (g := fun _ => 0) (by decide)
  rw [show L.data + UInt32.ofNat 0 = L.data from add_zero _] at hstored
  rwa [memset_eq_stored]

variable {src len : UInt32} {d : ℕ}

/-- `memcpy` from outside into the header. -/
lemma memcpy_header (h : L.Follows mem₀ mem s) (hheld : Bytes.Holds mem₀ src len.toNat g)
    (hout : L.Outside src len.toNat) (hfits : d + len.toNat ≤ headerSize) :
    memcpy (L.header + UInt32.ofNat d) src len mem
      = stored (L.header + UInt32.ofNat d) len.toNat g mem :=
  memcpy_of_apart (h.outside hout hheld)
    fun i hi j hj heq => not_owns_header (hout j hj) hfits i hi heq.symm

/-- And into the data. -/
lemma memcpy_data (h : L.Follows mem₀ mem s) (hheld : Bytes.Holds mem₀ src len.toNat g)
    (hout : L.Outside src len.toNat) (hfits : d + len.toNat ≤ fsDataSize) :
    memcpy (L.data + UInt32.ofNat d) src len mem
      = stored (L.data + UInt32.ofNat d) len.toNat g mem :=
  memcpy_of_apart (h.outside hout hheld)
    fun i hi j hj heq => not_owns_data (hout j hj) hfits i hi heq.symm

end Placement.Follows

/-- A string in memory. -/
lemma strlen_held {mem : Ram} {a : UInt32} {str : CString}
    (h : Holds mem a (str.length + 1) str.mem) :
    strlen (fun k => mem (a + UInt32.ofNat k)) = str.length := by
  refine strlen_eq ?_ str.fits ?_
  · rw [h _ (Nat.lt_succ_self _), str.mem_length]
  · intro j hj
    rw [h j (by omega)]
    exact str.mem_ne_zero hj

/-! ## The places

Each place is a sequence of stores, so it is followed by composing the lemmas above. -/

namespace FsStores

variable {L : Placement} {mem₀ mem : Ram} {s : FsState}

lemma run_init (h : L.Follows mem₀ mem s) : L.Follows mem₀ (init.run L mem) (fsInitEmpty s) := by
  have hentries := ((h.magic szymfsMagic).fileCount 0).forEntries
    (fun i mem => store32 (L.entry i 36) 0 (store32 (L.entry i 32) 0
      (store8 (L.entry i 0) 0 (store8 (L.entry i 40) 0 mem))))
    (fun e => { e with used := 0, name := Function.update e.name 0 0, size := 0, offset := 0 })
    fun i mem s h => by
      rw [← s.withEntry_self i] at h
      exact (((h.used 0).name_zero).size 0).offset 0
  exact hentries.clear_data.congr rfl rfl

lemma run_format (h : L.Follows mem₀ mem s) : L.Follows mem₀ (format.run L mem) (fsFormat s) := by
  have hentries := ((h.magic szymfsMagic).fileCount 0).forEntries
    (fun i mem => store8 (L.entry i 40) 0 mem) (fun e => { e with used := 0 })
    fun i mem s h => by
      rw [← s.withEntry_self i] at h
      exact h.used 0
  exact hentries.clear_data.congr rfl rfl

lemma run_headerSector (h : L.Follows mem₀ mem s) {i : ℕ} {sectorBuffer : UInt32}
    {sector : Sector} (hready : (headerSector i sectorBuffer sector).Ready L mem₀) :
    L.Follows mem₀ ((headerSector i sectorBuffer sector).run L mem)
      (copyHeaderSector i sector s) := by
  obtain ⟨hi, hheld, hout⟩ := hready
  simp only [headerSectors] at hi
  have hin : i * sectorSize < headerSize := by
    simp only [sectorSize, headerSize]
    omega
  have hsize : clampedCopySize (i * sectorSize) headerSize ≤ sectorSize ∧
      i * sectorSize + clampedCopySize (i * sectorSize) headerSize ≤ headerSize := by
    simp only [clampedCopySize, sectorSize, headerSize] at hin ⊢
    split_ifs <;> omega
  have hlen : (UInt32.ofNat (clampedCopySize (i * sectorSize) headerSize)).toNat
      = clampedCopySize (i * sectorSize) headerSize := by
    refine UInt32.toNat_ofNat_of_lt' (Nat.lt_of_le_of_lt hsize.1 (by decide))
  simp only [run, copyHeaderSector, if_pos hin]
  rw [h.memcpy_header (g := sector.byte) (fun j hj => hheld j (by omega))
    (fun j hj => hout j (by omega)) (by omega), hlen]
  exact h.header hsize.2 fun p hp => (headerByte_headerOfBytes _ hp).symm

lemma run_dataSector (h : L.Follows mem₀ mem s) {i : ℕ} {sectorBuffer : UInt32}
    {sector : Sector} (hready : (dataSector i sectorBuffer sector).Ready L mem₀) :
    L.Follows mem₀ ((dataSector i sectorBuffer sector).run L mem)
      ((dataSector i sectorBuffer sector).apply s) := by
  obtain ⟨hi, hheld, hout⟩ := hready
  have hfits : i * sectorSize + sectorSize ≤ fsDataSize := by
    simp only [dataSectors, sectorSize, fsDataSize] at hi ⊢
    omega
  rw [run, apply, h.memcpy_data (g := sector.byte) hheld hout hfits]
  exact h.data hfits

lemma run_delete (h : L.Follows mem₀ mem s) (slot : Fin 32) :
    L.Follows mem₀ ((delete slot).run L mem) (fsClearSlot slot s) := by
  rw [← s.withEntry_self slot] at h
  have hentry := (h.used 0).name_zero
  rw [run, hentry.load_fileCount]
  refine (hentry.fileCount _).congr ?_ rfl
  simp only [fsClearSlot, FsState.withEntry]

lemma run_create (h : L.Follows mem₀ mem s) {slot : Fin 32} {nameAt contentAt : UInt32}
    {name content : CString}
    (hready : (create slot nameAt contentAt name content).Ready L mem₀) :
    L.Follows mem₀ ((create slot nameAt contentAt name content).run L mem)
      (fsFillSlot slot name content s) := by
  obtain ⟨hfits, ⟨hname, hnameOut⟩, hcontent, hcontentOut⟩ := hready
  have hcontentLen : UInt32.ofNat (strlen fun k => mem (contentAt + UInt32.ofNat k))
      = contentLen content := by
    rw [strlen_held (h.outside hcontentOut hcontent), contentLen, strlen_mem]
  have hnameLen : (if strlen (fun k => mem (nameAt + UInt32.ofNat k)) ≥ maxFilename
      then maxFilename - 1 else strlen fun k => mem (nameAt + UInt32.ofNat k))
        = storedNameLen name := by
    rw [strlen_held (h.outside hnameOut hname), storedNameLen, strlen_mem]
  have hstoredLen := storedNameLen_eq name
  have hstoredSize : (UInt32.ofNat (storedNameLen name)).toNat = storedNameLen name :=
    UInt32.toNat_ofNat_of_lt' (by simp only [UInt32.size]; omega)
  have hslot := slot.isLt
  simp only [run]
  rw [hcontentLen, hnameLen]
  -- the name
  rw [← s.withEntry_self slot] at h
  have hcopied : memcpy (L.entry slot 0) nameAt (UInt32.ofNat (storedNameLen name)) mem
      = stored (L.entry slot 0) (storedNameLen name) name.mem mem := by
    rw [Placement.entry, h.memcpy_header (g := name.mem) (fun j hj => hname j (by omega))
      (fun j hj => hnameOut j (by omega)) (by simp only [headerSize]; omega), hstoredSize]
  rw [hcopied]
  have hnamed := (h.name (k := 0) (m := storedNameLen name) (g := name.mem) (by omega)).nameByte
    (k := storedNameLen name) (by omega) 0
  -- the other members
  have hentry := ((hnamed.size (contentLen content)).offset
    (UInt32.ofNat (slot * maxFileSize))).used 1
  rw [hentry.load_offset]
  generalize store8 (L.entry slot 40) 1 _ = mem₁ at hentry ⊢
  -- the content
  have hlen := contentLen_toNat content
  have hplace : (slot : ℕ) * maxFileSize + (contentLen content).toNat ≤ fsDataSize := by
    simp only [maxFileSize, fsDataSize] at hfits ⊢
    omega
  rw [hentry.memcpy_data (g := content.mem) (fun j hj => hcontent j (by omega))
    (fun j hj => hcontentOut j (by omega)) hplace]
  have hstored := hentry.data (g := content.mem) hplace
  rw [hstored.load_fileCount]
  refine (hstored.fileCount _).congr ?_ ?_
  · have hstoredName : storeName (s.fsHeader.files slot).name name = fun j : Fin 32 =>
        if storedNameLen name ≤ j ∧ (j : ℕ) < storedNameLen name + 1 then 0
        else if 0 ≤ (j : ℕ) ∧ (j : ℕ) < 0 + storedNameLen name then name.mem (j - 0)
        else (s.fsHeader.files slot).name j := by
      funext j
      rw [storeName]
      split_ifs <;> first | rfl | omega
    simp only [fsFillSlot, hstoredName, FsState.withEntry]
  · have hoffset : (UInt32.ofNat (slot * maxFileSize)).toNat = slot * maxFileSize := by
      rw [slotOffset_toNat]
      exact Nat.mul_comm 4096 slot
    simp only [fsFillSlot, hoffset, FsState.withEntry]

/-- **Every place** stores what it should, and only there. -/
lemma run_follows (h : L.Follows mem₀ mem s) {stores : FsStores} (hready : stores.Ready L mem₀) :
    L.Follows mem₀ (stores.run L mem) (stores.apply s) := by
  cases stores with
  | init => exact run_init h
  | format => exact run_format h
  | headerSector i sectorBuffer sector => exact run_headerSector h hready
  | dataSector i sectorBuffer sector => exact run_dataSector h hready
  | create slot nameAt contentAt name content => exact run_create h hready
  | delete slot => exact run_delete h slot

end FsStores

section Runs

variable {L : Placement} {mem : Ram} {s : FsState}

/-- The two objects are still there when the rest of memory has changed. -/
lemma Placement.Holds.refresh (h : L.Holds mem s) (others : Ram) :
    L.Follows others (L.refresh mem others) s where
  holds :=
    { header := fun j hj => by
        have howns : L.Owns (L.header + UInt32.ofNat j) := Or.inl (by
          rw [distance_add _ (by simp only [headerSize] at hj; omega)]
          exact hj)
        rw [Placement.refresh, if_pos howns]
        exact h.header j hj
      data := fun j hj => by
        have howns : L.Owns (L.data + UInt32.ofNat j) := Or.inr (by
          rw [distance_add _ (by simp only [fsDataSize] at hj; omega)]
          exact hj)
        rw [Placement.refresh, if_pos howns]
        exact h.data j hj }
  frame a ha := if_neg ha

/-- **One step.** -/
lemma memoryStep_follows (h : L.Holds mem s) {e : Ram × FsStores} (hready : e.2.Ready L e.1) :
    L.Follows e.1 (memoryStep L e mem).2 (structureStep e s).2 :=
  FsStores.run_follows (h.refresh e.1) hready

/-- **The structures are in memory.**  Wherever the two objects lie, over any number of the places
that store into them, and whatever happens to the rest of memory in between: memory holds the
structures of the model, and no place stores anywhere else. -/
theorem structures_in_memory (L : Placement) {mem : Ram} {s : FsState} (h : L.Holds mem s)
    (steps : List (Ram × FsStores)) (hready : ∀ e ∈ steps, e.2.Ready L e.1) :
    L.Holds (final (memoryStep L) steps mem) (final structureStep steps s) ∧
      Along (memoryStep L)
        (fun e mem => ∀ a, ¬ L.Owns a → (memoryStep L e mem).2 a = e.1 a) steps mem := by
  constructor
  · have hstep : ∀ e ∈ steps, ∀ mem s, L.Holds mem s →
        (memoryStep L e mem).1 = (structureStep e s).1 ∧
          L.Holds (memoryStep L e mem).2 (structureStep e s).2 :=
      fun e he mem s h => ⟨rfl, (memoryStep_follows h (hready e he)).holds⟩
    have hrun := (outputs_eq_of_simulation (f := id) hstep h).2
    rwa [List.map_id] at hrun
  · have hstep : ∀ e ∈ steps, ∀ mem, (∃ s, L.Holds mem s) → True →
        (∀ a, ¬ L.Owns a → (memoryStep L e mem).2 a = e.1 a) ∧
          ∃ s, L.Holds (memoryStep L e mem).2 s := by
      rintro e he mem ⟨s, h⟩ -
      have hfollows := memoryStep_follows h (hready e he)
      exact ⟨hfollows.frame, _, hfollows.holds⟩
    exact (along_of_step hstep ⟨s, h⟩ (along_of_forall fun _ _ _ => trivial)).1

end Runs

lemma lowPlacement_apart : Apart 0 headerSize 4096 fsDataSize := by
  intro i hi j hj heq
  simp only [headerSize, fsDataSize] at hi hj
  have hplaces := congrArg UInt32.toNat heq
  rw [zero_add, UInt32.toNat_add, UInt32.toNat_ofNat_of_lt' (by simp only [UInt32.size]; omega),
    UInt32.toNat_ofNat_of_lt' (by simp only [UInt32.size]; omega)] at hplaces
  change i = (4096 + j) % 2 ^ 32 at hplaces
  omega

/-- The header at address 0, the data at address 4096. -/
def lowPlacement : Placement := ⟨0, 4096, lowPlacement_apart⟩

/-- Memory that holds these structures there, and zeros. -/
def lowMemory (s : FsState) : Ram := fun a =>
  if a.toNat < 1416 then headerByte s.fsHeader a.toNat
  else if 4096 ≤ a.toNat ∧ a.toNat < 135168 then s.fsData (a.toNat - 4096)
  else 0

/-- A name and a content of one letter each. -/
def lettersMemory : Ram := fun a => if a = 200000 then 97 else if a = 200100 then 98 else 0

lemma lowMemory_holds (s : FsState) : lowPlacement.Holds (lowMemory s) s where
  header := by
    intro j hj
    simp only [headerSize] at hj
    have hplace : ((0 : UInt32) + UInt32.ofNat j).toNat = j := by
      rw [zero_add, UInt32.toNat_ofNat_of_lt' (by simp only [UInt32.size]; omega)]
    simp only [lowPlacement, lowMemory, hplace, if_pos hj]
  data := by
    intro j hj
    simp only [fsDataSize] at hj
    have hplace : ((4096 : UInt32) + UInt32.ofNat j).toNat = 4096 + j := by
      rw [UInt32.toNat_add, UInt32.toNat_ofNat_of_lt' (by simp only [UInt32.size]; omega)]
      change (4096 + j) % 2 ^ 32 = 4096 + j
      omega
    have hout : ¬ 4096 + j < 1416 := by omega
    have hin : 4096 ≤ 4096 + j ∧ 4096 + j < 135168 := by omega
    simp only [lowPlacement, lowMemory, hplace, if_neg hout, if_pos hin, Nat.add_sub_cancel_left]

/-- A file is created. -/
theorem structures_in_memory_low :
    let steps := [(lettersMemory, FsStores.create 0 200000 200100
      (CString.ofLiterals ["a"] (by decide)) (CString.ofLiterals ["b"] (by decide)))]
    lowPlacement.Holds (final (memoryStep lowPlacement) steps (lowMemory FsState.powerOn))
        (final structureStep steps FsState.powerOn) ∧
      Along (memoryStep lowPlacement)
        (fun e mem => ∀ a, ¬ lowPlacement.Owns a → (memoryStep lowPlacement e mem).2 a = e.1 a)
        steps (lowMemory FsState.powerOn) := by
  intro steps
  refine structures_in_memory lowPlacement (lowMemory_holds _) steps ?_
  intro e he
  rw [List.mem_singleton.mp he]
  refine ⟨by decide, ⟨?_, ?_⟩, ?_, ?_⟩
  · intro j (hj : j < 2)
    interval_cases j <;> rfl
  · intro j (hj : j < 2)
    interval_cases j <;> decide
  · intro j (hj : j < 2)
    interval_cases j <;> rfl
  · intro j (hj : j < 2)
    interval_cases j <;> decide

end SzymOS
