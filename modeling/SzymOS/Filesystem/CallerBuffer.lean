import SzymOS.Filesystem.Refinement

/-!
# The caller's buffer

`fs_read_file` is told how many bytes its caller has room for.  It leaves one of them for the NUL,
and returns the number of the others that it has filled as a signed number.

The room is `max_size - 1`, computed without a sign.  A buffer of no bytes is thus treated as the
largest of all, and the content is copied, with a NUL behind it.  The other limit is the result, an
`int`: a size from 2^31 on comes out negative, which is what the function returns for a file that it
does not find.

No caller in the kernel passes such sizes.  The theorem is about the function by itself, for any
directory and any size, as somebody would use it who knows nothing but its declaration.

* `RespectsBuffer` — nothing is stored behind the buffer, and the result says what has been stored.
* `respects_buffer_iff` — for which sizes this holds.
* `cat_respects_buffer` — it holds for the buffer of `cat`, whatever is in the directory.
-/

set_option autoImplicit false

namespace SzymOS

open Bytes

variable {σ : Type}

/-! ## What a caller relies on

Stores behind the buffer, and a result that means something.  A file that is empty has the result 0,
so a negative result is the only sign of failure. -/

/-- With a buffer of `maxSize` bytes, nothing is stored at `buffer[maxSize]` or behind it; the
result is negative if and only if the name is not found; and otherwise it is the number of bytes of
the file that are copied before the NUL. -/
structure RespectsBuffer (P : Platform σ) (w : World σ) (name : CString) (maxSize : UInt32) :
    Prop where
  inside : (fsReadFile P w name maxSize).2.length ≤ maxSize.toNat
  negative : (fsReadFile P w name maxSize).1 < 0 ↔ fsFindFile P w name = none
  copied : ∀ slot, fsFindFile P w name = some slot → ∃ content : List UInt8,
    (fsReadFile P w name maxSize).2 = content ++ [0] ∧
      content = slice (dataMemory P w) (w.fs.fsHeader.files slot).offset.toNat content.length ∧
      (fsReadFile P w name maxSize).1 = content.length

/-- The buffer has room for the NUL, and what is copied can be counted by a signed number. -/
def FitsBuffer (size maxSize : UInt32) : Prop :=
  1 ≤ maxSize.toNat ∧ (size.toNat < 2 ^ 31 ∨ maxSize.toNat ≤ 2 ^ 31)

/-- A number of 32 bits as an `int`. -/
lemma asInt_nonneg_iff (x : UInt32) : 0 ≤ asInt x ↔ x.toNat < 2 ^ 31 := by
  have hlt := x.toNat_lt
  rw [asInt]
  split_ifs with h
  · exact iff_of_true (Int.natCast_nonneg _) h
  · refine iff_of_false ?_ h
    omega

section Buffer

variable {P : Platform σ} {w : World σ} {name : CString} {maxSize : UInt32}

/-- What is returned and stored for a file that is there. -/
lemma fsReadFile_found (maxSize : UInt32) {slot : Fin 32} (hinit : w.fs.fsInitialized = true)
    (hfind : fsFindFile P w name = some slot) : fsReadFile P w name maxSize
      = (asInt (readSize (w.fs.fsHeader.files slot).size maxSize),
        slice (dataMemory P w) (w.fs.fsHeader.files slot).offset.toNat
          (readSize (w.fs.fsHeader.files slot).size maxSize).toNat ++ [0]) := by
  rw [fsReadFile, if_neg (by simp [hinit]), hfind]

/-- A name that is not found. -/
lemma fsReadFile_missing (maxSize : UInt32) (hfind : fsFindFile P w name = none) :
    fsReadFile P w name maxSize = (-1, []) := by
  rw [fsReadFile, hfind]
  split_ifs <;> rfl

/-- **What fits is counted.** -/
lemma fitsBuffer_iff (size : UInt32) : FitsBuffer size maxSize ↔
    (readSize size maxSize).toNat < maxSize.toNat ∧ (readSize size maxSize).toNat < 2 ^ 31 := by
  by_cases hmax : 1 ≤ maxSize.toNat
  · rw [FitsBuffer, readSize_toNat size hmax]
    omega
  · exact iff_of_false (fun h => hmax h.1) fun h => by omega

lemma RespectsBuffer.of_missing (hfind : fsFindFile P w name = none) :
    RespectsBuffer P w name maxSize where
  inside := by simp [fsReadFile_missing maxSize hfind]
  negative := by simp [fsReadFile_missing maxSize hfind, hfind]
  copied := by simp [hfind]

lemma RespectsBuffer.of_fits {slot : Fin 32} (hinit : w.fs.fsInitialized = true)
    (hfind : fsFindFile P w name = some slot)
    (hfits : FitsBuffer (w.fs.fsHeader.files slot).size maxSize) :
    RespectsBuffer P w name maxSize := by
  obtain ⟨hlt, hcount⟩ := (fitsBuffer_iff _).mp hfits
  have hread := fsReadFile_found maxSize hinit hfind
  refine ⟨?_, ?_, ?_⟩
  · rw [hread, List.length_append, slice_length]
    exact hlt
  · rw [hread, hfind]
    exact iff_of_false (not_lt.mpr ((asInt_nonneg_iff _).mpr hcount)) (Option.some_ne_none slot)
  · intro slot' hslot
    rw [hfind] at hslot
    obtain rfl := Option.some.inj hslot
    rw [hread]
    refine ⟨_, rfl, by rw [slice_length], ?_⟩
    rw [slice_length, asInt, if_pos hcount]

lemma RespectsBuffer.fits (h : RespectsBuffer P w name maxSize) {slot : Fin 32}
    (hfind : fsFindFile P w name = some slot) :
    w.fs.fsInitialized = true ∧ FitsBuffer (w.fs.fsHeader.files slot).size maxSize := by
  have hpos : 0 ≤ (fsReadFile P w name maxSize).1 := by
    rw [← not_lt, h.negative, hfind]
    exact Option.some_ne_none slot
  have hinit : w.fs.fsInitialized = true := by
    by_contra hc
    rw [fsReadFile, if_pos (by simpa using hc)] at hpos
    exact absurd hpos (by decide)
  have hinside := h.inside
  rw [fsReadFile_found maxSize hinit hfind] at hpos hinside
  rw [List.length_append, slice_length] at hinside
  exact ⟨hinit, (fitsBuffer_iff _).mpr ⟨hinside, (asInt_nonneg_iff _).mp hpos⟩⟩

/-- **Whom `fs_read_file` respects.**  The name is not there, or the file system has been started
and the buffer fits. -/
theorem respects_buffer_iff (P : Platform σ) (w : World σ) (name : CString) (maxSize : UInt32) :
    RespectsBuffer P w name maxSize ↔ ∀ slot, fsFindFile P w name = some slot →
      w.fs.fsInitialized = true ∧ FitsBuffer (w.fs.fsHeader.files slot).size maxSize := by
  constructor
  · exact fun h slot hfind => h.fits hfind
  · intro h
    cases hfind : fsFindFile P w name with
    | none => exact .of_missing hfind
    | some slot => exact .of_fits (h slot hfind).1 hfind (h slot hfind).2

/-- **The buffer of `cat`** holds 4097 bytes, and is respected whatever has been loaded from a
disk. -/
theorem cat_respects_buffer (P : Platform σ) {w : World σ} (hinit : w.fs.fsInitialized = true)
    (name : CString) : RespectsBuffer P w name 4097 := by
  have hcat : (4097 : UInt32).toNat = 4097 := rfl
  cases hfind : fsFindFile P w name with
  | none => exact .of_missing hfind
  | some slot =>
      refine .of_fits hinit hfind ?_
      rw [FitsBuffer, hcat]
      omega

end Buffer

/-! ## A buffer of no bytes

The smallest case of the defect: one file of one byte, and a caller that has room for nothing. -/

/-- One file. -/
def letterFsWorld : World Unit :=
  { bareWorld with fs := fsFillSlot 0 nameA nameA bareWorld.fs }

lemma letterFsWorld_find : fsFindFile Platform.bare letterFsWorld nameA = some 0 := by
  have hterm : letterFsWorld.fs.fsHeader.Terminated :=
    fsFillSlot_terminated bareWorld_empty.wellFormed.terminated
  rw [fsFindFile_eq_lookup _ hterm, FilesystemHeader.lookup_eq_some_iff]
  refine ⟨⟨fsFillSlot_used_iff.mpr (Or.inl rfl), ?_⟩, fun j hj => absurd hj (Nat.not_lt_zero _)⟩
  have hname : entryName (letterFsWorld.fs.fsHeader.files 0) = storedName nameA := by
    simp only [letterFsWorld, fsFillSlot_files_self, entryName, nameBytes_storeName]
  rw [hname, storedName_of_short (by decide)]

/-- Two bytes are stored where there is room for none. -/
theorem empty_buffer_overrun : ¬ RespectsBuffer Platform.bare letterFsWorld nameA 0 := by
  intro h
  obtain ⟨hroom, -⟩ := (h.fits letterFsWorld_find).2
  exact absurd hroom (by decide)

end SzymOS
