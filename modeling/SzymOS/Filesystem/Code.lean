import SzymOS.Filesystem.Layout
import SzymOS.Kernel.Strings
import SzymOS.Kernel.Terminal
import Mathlib.Data.Fin.Basic
import Mathlib.Data.Int.Notation

/-!
# `filesystem.c`

The functions of SzymFS, translated one by one.  They run on a `World`: the static variables of
the module, and the rest of the machine (`dev`), which they reach only through the operations of
a `Platform`:

* one sector read and one sector write, the parts of `fs_read_sector_direct` and
  `fs_write_sector_direct` behind their `fs_drive_selected` test;
* the terminal;
* the memory next to `fs_header` and `fs_data`.  The header is saved in whole sectors, so the
  last copy reads 120 bytes past it; and a directory read from a foreign disk can send `strcmp`
  and `memcpy` outside their arrays.

The same definitions are used with a drive that is an array of sectors and with one that is a
stream of status bytes, and results that hold of every platform hold of both.

The translation keeps the order of the source inside each function: the tests come in the order of
the `if`s, an early return is a branch of its own, a loop is a recursion with the index of the
source as argument and returns what the loop leaves behind, and every message stands where it is
printed.  A C function that returns `int` returns an integer here, or an `Option` where the source
returns an index or `-1`.  Pointers into the two arrays are addresses relative to their beginning.
What the source stores into one of its structures the definition stores into a field.

Nothing in this file is abstract, and nothing is proved but the few equations that hold by
computation.  What the functions are for is said elsewhere, in terms of files; what they do to a
drive is said by the platforms that are put under them.
-/

set_option autoImplicit false

namespace SzymOS

open Bytes

/-! ## State

The module has seven static variables, and all of its functions take them from there.  So the state
of a run is a record of these variables together with whatever state the machine around them has,
about which the module knows nothing: it is a type variable. -/

/-- The static variables of `filesystem.c`, and `selected_drive` of `ata.c`, which it reads
through `ata_is_selected`.  `fsData p` is the byte at `fs_data + p`, for `p < 131072`. -/
structure FsState where
  fsHeader : FilesystemHeader
  fsData : ℕ → UInt8
  fsInitialized : Bool
  fsPersistent : Bool
  fsDriveIoBase : UInt16
  fsDriveNum : UInt8
  fsDriveSelected : Bool
  selectedDrive : ℤ

/-- The variables when `kernel_main` has run `ata_init`, with no drive selected. -/
def FsState.powerOn : FsState where
  fsHeader :=
    { magic := 0
      fileCount := 0
      files := fun _ =>
        { name := fun _ => 0, size := 0, offset := 0, used := 0, pad := fun _ => 0 } }
  fsData := fun _ => 0
  fsInitialized := false
  fsPersistent := false
  fsDriveIoBase := 0
  fsDriveNum := 0
  fsDriveSelected := false
  selectedDrive := -1

/-- A drive as `disk_selector_run` hands it over: its index in the drive table, its port base and
its number on the channel. -/
structure DriveId where
  index : ℕ
  ioBase : UInt16
  driveNum : UInt8
  deriving DecidableEq, Repr

def DriveId.primaryMaster : DriveId := { index := 0, ioBase := 0x1F0, driveNum := 0 }

/-- The variables when `disk_selector_run` has returned: a drive is selected, in both modules that
keep track of it, or none is. -/
def FsState.selected : Option DriveId → FsState
  | none => powerOn
  | some drive =>
      { powerOn with
        selectedDrive := drive.index
        fsDriveIoBase := drive.ioBase
        fsDriveNum := drive.driveNum
        fsDriveSelected := true }

/-- What the file system uses of the machine around it, `σ` being the machine's state. -/
structure Platform (σ : Type) where
  /-- Read a sector from the drive at this port base and with this number; `none` is `-1`. -/
  readSector : UInt16 → UInt8 → (lba : ℕ) → σ → Option Sector × σ
  /-- Write a sector; the result is the return code. -/
  writeSector : UInt16 → UInt8 → (lba : ℕ) → Sector → σ → ℤ × σ
  print : TermCall → σ → σ
  /-- The bytes that follow `fs_header` in memory. -/
  afterHeader : σ → ℕ → UInt8
  /-- The byte at `fs_data + p`, for an address `p` that is not inside `fs_data`. -/
  aroundData : σ → ℕ → UInt8

structure World (σ : Type) where
  fs : FsState
  dev : σ

variable {σ : Type} (P : Platform σ)

/-- Terminal output, in order. -/
def World.print (calls : List TermCall) (w : World σ) : World σ :=
  { w with dev := calls.foldl (fun dev call => P.print call dev) w.dev }

@[simp] lemma World.print_fs (calls : List TermCall) (w : World σ) :
    (w.print P calls).fs = w.fs := rfl

/-! ## Memory as the pointers see it

The functions of `kernel.c` for strings and copies are given pointers, and go as far as their
arguments tell them to.  Where that is behind the end of a name or of `fs_data`, they see what lies
there, and so do these three functions: the array inside, and what the platform says about its
surroundings outside. -/

/-- Memory from `fs_header` on. -/
def headerMemory (w : World σ) (p : ℕ) : UInt8 :=
  if p < headerSize then headerByte w.fs.fsHeader p else P.afterHeader w.dev (p - headerSize)

/-- Memory from `fs_header.files[i].name` on. -/
def nameMemory (w : World σ) (i : Fin 32) (j : ℕ) : UInt8 := headerMemory P w (8 + 44 * i + j)

/-- Memory at `fs_data + p`; addresses are 32 bits wide. -/
def dataMemory (w : World σ) (p : ℕ) : UInt8 :=
  if p % 2 ^ 32 < fsDataSize then w.fs.fsData (p % 2 ^ 32) else P.aroundData w.dev (p % 2 ^ 32)

/-! ## Sectors

`disk_available` asks `ata.c` whether a drive is selected, while the two sector functions ask a
variable of their own, `fs_drive_selected`.  The two are set by different calls of
`disk_selector_run`, so both are in the state, and it is a matter of proof that they agree. -/

def ataIsSelected (s : FsState) : Bool := 0 ≤ s.selectedDrive

def diskAvailable (s : FsState) : Bool := ataIsSelected s

def fsReadSectorDirect (lba : ℕ) (w : World σ) : Option Sector × World σ :=
  if !w.fs.fsDriveSelected then (none, w)
  else
    let (sector, dev) := P.readSector w.fs.fsDriveIoBase w.fs.fsDriveNum lba w.dev
    (sector, { w with dev })

def fsWriteSectorDirect (lba : ℕ) (buffer : Sector) (w : World σ) : ℤ × World σ :=
  if !w.fs.fsDriveSelected then (-1, w)
  else
    let (result, dev) := P.writeSector w.fs.fsDriveIoBase w.fs.fsDriveNum lba buffer w.dev
    (result, { w with dev })

/-! ## fs_save_to_disk

Two loops of the same shape, three sectors of the header and then 256 of the data.  Each fills a
buffer of one sector and writes it, and both return at the first write that fails, after clearing
`fs_persistent` and printing a message.  They differ in how the buffer is filled: the loop of the
data clamps its copy and clears the rest, the loop of the header does neither. -/

/-- The bytes a copy of one sector may move when it starts at `currentOffset` of an object of
`totalSize` bytes. -/
def clampedCopySize (currentOffset totalSize : ℕ) : ℕ :=
  if sectorSize > totalSize - currentOffset then totalSize - currentOffset else sectorSize

/-- The buffer of header sector `i`: all 512 bytes are copied, whatever the size of the header. -/
def headerSectorBuffer (w : World σ) (i : ℕ) : Sector :=
  Sector.ofMemory (headerMemory P w) (i * sectorSize)

/-- The buffer of data sector `i`: cleared, then filled with the clamped copy. -/
def dataSectorBuffer (w : World σ) (i : ℕ) : Sector :=
  let currentOffset := i * sectorSize
  let copySize :=
    if currentOffset < fsDataSize then clampedCopySize currentOffset fsDataSize else sectorSize
  Sector.ofMemory (splice (fun _ => 0) 0 copySize fun j => w.fs.fsData (currentOffset + j)) 0

/-- The two write loops of `fs_save_to_disk`: `n` sectors from index `i` on, stopping at the first
that fails.  The flag says whether the loop came to its end. -/
def fsWriteSectors (start : ℕ) (sectorBuffer : World σ → ℕ → Sector) (error : String) :
    (n i : ℕ) → World σ → Bool × World σ
  | 0, _, w => (true, w)
  | n + 1, i, w =>
      let (result, w) := fsWriteSectorDirect P (start + i) (sectorBuffer w i) w
      if result ≠ 0 then
        let w := w.print P (coloured .lightRed (.writestring error))
        (false, { w with fs := { w.fs with fsPersistent := false } })
      else fsWriteSectors start sectorBuffer error n (i + 1) w

def fsWriteHeaderSectors : World σ → Bool × World σ :=
  fsWriteSectors P fsStartSector (headerSectorBuffer P)
    "[ERROR] Failed to write filesystem header\n" headerSectors 0

def fsWriteDataSectors : World σ → Bool × World σ :=
  fsWriteSectors P (fsStartSector + headerSectors) dataSectorBuffer
    "[ERROR] Failed to write filesystem data\n" dataSectors 0

def fsSaveToDisk (w : World σ) : World σ :=
  if !diskAvailable w.fs then
    let w := w.print P
      (coloured .yellow (.writestring "Warning: No disk selected, changes are RAM-only\n"))
    { w with fs := { w.fs with fsPersistent := false } }
  else
    match fsWriteHeaderSectors P w with
    | (false, w) => w
    | (true, w) =>
        match fsWriteDataSectors P w with
        | (false, w) => w
        | (true, w) =>
            -- `write_failed` is still 0 here: both loops return as soon as they set it
            if w.fs.fsPersistent then
              w.print P (coloured .lightGreen (.writestring "Filesystem saved to disk!\n"))
            else w

/-! ## fs_load_from_disk

The header is read first, sector by sector over the live structure; a sector that cannot be read
ends the load at once, and those before it have been copied by then.  The magic number is the only
thing that is looked at.  If it is there the data follow, and a data sector that cannot be read is
skipped; if it is not, an empty file system is made and saved. -/

/-- `memcpy` of one sector over the live header, clamped to its size. -/
def copyHeaderSector (i : ℕ) (sectorBuffer : Sector) (s : FsState) : FsState :=
  let currentOffset := i * sectorSize
  if currentOffset < headerSize then
    { s with
      fsHeader := headerOfBytes (splice (headerByte s.fsHeader) currentOffset
        (clampedCopySize currentOffset headerSize) sectorBuffer.byte) }
  else s

/-- The header loop; the flag is false when it returned early. -/
def fsReadHeaderSectors : (n i : ℕ) → World σ → Bool × World σ
  | 0, _, w => (true, w)
  | n + 1, i, w =>
      match fsReadSectorDirect P (fsStartSector + i) w with
      | (some sectorBuffer, w) =>
          fsReadHeaderSectors n (i + 1) { w with fs := copyHeaderSector i sectorBuffer w.fs }
      | (none, w) =>
          (false, w.print P
            (coloured .lightRed (.writestring "[ERROR] Failed to read filesystem header\n")))

/-- The data loop; a sector that cannot be read is skipped. -/
def fsReadDataSectors : (n i : ℕ) → World σ → World σ
  | 0, _, w => w
  | n + 1, i, w =>
      match fsReadSectorDirect P (fsStartSector + headerSectors + i) w with
      | (some sectorBuffer, w) =>
          fsReadDataSectors n (i + 1)
            { w with fs := { w.fs with
                fsData := splice w.fs.fsData (i * sectorSize) sectorSize sectorBuffer.byte } }
      | (none, w) =>
          fsReadDataSectors n (i + 1)
            (w.print P [.printf "[DEBUG] Failed to read data sector %d\n" [UInt32.ofNat i]])

/-- The new, empty file system that replaces what is not SzymFS. -/
def fsFormat (s : FsState) : FsState :=
  { s with
    fsHeader :=
      { magic := szymfsMagic
        fileCount := 0
        files := fun i => { s.fsHeader.files i with used := 0 } }
    fsData := splice s.fsData 0 fsDataSize fun _ => 0
    fsPersistent := true }

def fsLoadFromDisk (w : World σ) : World σ :=
  if !diskAvailable w.fs then w
  else
    match fsReadHeaderSectors P headerSectors 0 w with
    | (false, w) => w
    | (true, w) =>
        if w.fs.fsHeader.magic ≠ szymfsMagic then
          let w := w.print P (coloured .yellow
            (.writestring "[INFO] No existing filesystem found, creating new one\n"))
          let w := fsSaveToDisk P { w with fs := fsFormat w.fs }
          if !w.fs.fsPersistent then
            w.print P
              (coloured .lightRed (.writestring "[WARN] Failed to initialize filesystem on disk\n"))
          else w
        else
          let w := w.print P
            [.printf "[DEBUG] Reading %d data sectors...\n" [UInt32.ofNat dataSectors]]
          let w := fsReadDataSectors P dataSectors 0 w
          let w := w.print P (.printf "[DEBUG] Data load complete\n" [] ::
            coloured .lightGreen
              (.printf "[OK] Loaded %d files from disk\n" [w.fs.fsHeader.fileCount]))
          { w with fs := { w.fs with fsPersistent := true } }

/-! ## fs_init

It begins with an empty file system in memory, whatever comes after.  So a load that fails leaves
this file system, or a mixture of it and what has been read. -/

/-- The first half of `fs_init`: an empty file system in memory. -/
def fsInitEmpty (s : FsState) : FsState :=
  { s with
    fsHeader :=
      { magic := szymfsMagic
        fileCount := 0
        files := fun i =>
          { s.fsHeader.files i with
            used := 0
            name := Function.update (s.fsHeader.files i).name 0 0
            size := 0
            offset := 0 } }
    fsData := splice s.fsData 0 fsDataSize fun _ => 0
    fsInitialized := true }

def fsInit (w : World σ) : World σ :=
  let w := { w with fs := fsInitEmpty w.fs }
  let w := if diskAvailable w.fs then fsLoadFromDisk P w else w
  if !diskAvailable w.fs then
    w.print P (coloured .yellow (.writestring "[OK] SzymFS initialized (RAM-only mode)\n"))
  else
    w.print P (coloured .yellow (.writestring "[OK] SzymFS initialized (persistent mode)\n"))

/-! ## Lookup

Both loops go through the entries from the first one on and return the first that fits.
`fs_find_file` compares the name with `strcmp`, in memory as it is; `fs_file_exists` is the question
whether it finds something. -/

/-- `none` is `-1`. -/
def fsFindFreeSlot (h : FilesystemHeader) : Option (Fin 32) :=
  Fin.find? fun i => (h.files i).used == 0

/-- `none` is `-1`. -/
def fsFindFile (w : World σ) (name : CString) : Option (Fin 32) :=
  Fin.find? fun i => (w.fs.fsHeader.files i).used != 0 && strcmp (nameMemory P w i) name == 0

def fsFileExists (w : World σ) (name : CString) : Bool := (fsFindFile P w name).isSome

/-! ## fs_create_file

The checks come in this order: the module is initialised, there is no such file, there is a free
slot, and the content fits.  Then the slot is filled and the file system is saved.  What the save
has made of it is not looked at: the function returns 0. -/

/-- The length under which a name is stored. -/
def storedNameLen (name : CString) : ℕ :=
  if strlen name.mem ≥ maxFilename then maxFilename - 1 else strlen name.mem

/-- The name array after `memcpy` of the name and its new NUL. -/
def storeName (old : Fin 32 → UInt8) (name : CString) : Fin 32 → UInt8 := fun k =>
  if (k : ℕ) < storedNameLen name then name.mem k
  else if (k : ℕ) = storedNameLen name then 0
  else old k

/-- `content_len` -/
def contentLen (content : CString) : UInt32 := UInt32.ofNat (strlen content.mem)

/-- What `fs_create_file` stores between its checks and its save. -/
def fsFillSlot (slot : Fin 32) (name content : CString) (s : FsState) : FsState :=
  let entry : FileEntry :=
    { s.fsHeader.files slot with
      name := storeName (s.fsHeader.files slot).name name
      size := contentLen content
      offset := UInt32.ofNat (slot * maxFileSize)
      used := 1 }
  { s with
    fsHeader :=
      { s.fsHeader with
        files := Function.update s.fsHeader.files slot entry
        fileCount := s.fsHeader.fileCount + 1 }
    fsData := splice s.fsData entry.offset.toNat (contentLen content).toNat content.mem }

def fsCreateFile (name content : CString) (w : World σ) : ℤ × World σ :=
  if !w.fs.fsInitialized then (-1, w)
  else if (fsFindFile P w name).isSome then (-2, w)
  else
    match fsFindFreeSlot w.fs.fsHeader with
    | none => (-3, w)
    | some slot =>
        if contentLen content > UInt32.ofNat maxFileSize then (-4, w)
        else (0, fsSaveToDisk P { w with fs := fsFillSlot slot name content w.fs })

/-! ## fs_read_file

The content is copied into the buffer of the caller, as much of it as `max_size - 1` allows, and a
NUL is put behind it.  The result is the number of bytes that have been copied. -/

/-- An unsigned 32-bit value returned as `int`. -/
def asInt (x : UInt32) : ℤ := if x.toNat < 2 ^ 31 then x.toNat else (x.toNat : ℤ) - 2 ^ 32

/-- `size`, limited by the caller's buffer. -/
def readSize (size maxSize : UInt32) : UInt32 :=
  if size > maxSize - 1 then maxSize - 1 else size

/-- The result, and the bytes stored at `buffer[0]`, `buffer[1]`, and so on. -/
def fsReadFile (w : World σ) (name : CString) (maxSize : UInt32) : ℤ × List UInt8 :=
  if !w.fs.fsInitialized then (-1, [])
  else
    match fsFindFile P w name with
    | none => (-1, [])
    | some slot =>
        let size := readSize (w.fs.fsHeader.files slot).size maxSize
        let offset := (w.fs.fsHeader.files slot).offset
        (asInt size, slice (dataMemory P w) offset.toNat size.toNat ++ [0])

/-! ## fs_delete_file

The entry is marked as free and its name is made empty; size, offset and content stay as they are.
The next file in this slot overwrites them. -/

/-- What `fs_delete_file` stores between its checks and its save. -/
def fsClearSlot (slot : Fin 32) (s : FsState) : FsState :=
  let entry : FileEntry :=
    { s.fsHeader.files slot with
      used := 0
      name := Function.update (s.fsHeader.files slot).name 0 0 }
  { s with
    fsHeader :=
      { s.fsHeader with
        files := Function.update s.fsHeader.files slot entry
        fileCount := s.fsHeader.fileCount - 1 } }

def fsDeleteFile (name : CString) (w : World σ) : ℤ × World σ :=
  if !w.fs.fsInitialized then (-1, w)
  else
    match fsFindFile P w name with
    | none => (-1, w)
    | some slot => (0, fsSaveToDisk P { w with fs := fsClearSlot slot w.fs })

/-! ## fs_list_files

The listing is printed line by line, with the number of files as the header has it and one row for
each entry in use. -/

/-- One line of the listing; the name is padded with spaces up to column 32. -/
def fsListEntry (w : World σ) (i : Fin 32) : List TermCall :=
  let name := nameMemory P w i
  let nameLen := asInt (UInt32.ofNat (strlen name))
  .writemem (slice name 0 (strlen name)) ::
    (List.replicate (32 - nameLen).toNat (.putchar 32) ++
      [.printf "  %d bytes\n" [(w.fs.fsHeader.files i).size]])

def fsListFiles (w : World σ) : World σ :=
  if !w.fs.fsInitialized then w.print P [.writestring "Filesystem not initialized!\n"]
  else if w.fs.fsHeader.fileCount = 0 then w.print P [.writestring "No files found.\n"]
  else
    let heading : List TermCall :=
      coloured .lightCyan (.writestring "=== SzymFS File List ===\n") ++
        [.printf "Total files: %d / %d\n" [w.fs.fsHeader.fileCount, UInt32.ofNat maxFiles]] ++
        [.setcolor (vgaEntryColor .yellow .black),
          .writestring "NAME                              SIZE\n",
          .writestring "------------------------------------\n",
          .setcolor (vgaEntryColor .white .black)]
    let used := (List.finRange 32).filter fun i => (w.fs.fsHeader.files i).used != 0
    w.print P (heading ++ used.flatMap (fsListEntry P w))

/-! ## fs_set_drive_info

`disk_selector_run` calls it once a drive has been selected, with the numbers of that drive.  From
then on sectors are read and written there. -/

def fsSetDriveInfo (ioBase : UInt16) (driveNum : UInt8) (w : World σ) : World σ :=
  let w := { w with fs := { w.fs with
    fsDriveIoBase := ioBase
    fsDriveNum := driveNum
    fsDriveSelected := true } }
  w.print P [.printf "[DEBUG] fs_set_drive_info: io_base=0x%x, drive=%d\n"
    [UInt32.ofNat ioBase.toNat, UInt32.ofNat driveNum.toNat]]

/-- What `disk_selector_run` has done once `ata_select_drive` has succeeded. -/
lemma fsSetDriveInfo_selected (drive : DriveId) (dev : σ) :
    (fsSetDriveInfo P drive.ioBase drive.driveNum
      { fs := { FsState.powerOn with selectedDrive := drive.index }, dev }).fs
      = FsState.selected (some drive) := rfl

/-! ## Calls

For statements about runs the functions are the cases of one call.  A result is what the C function
returns; where it returns nothing, `done`. -/

/-- The calls the rest of the kernel makes. -/
inductive FsCall where
  | init
  | create (name content : CString)
  | delete (name : CString)
  | save
  | fileExists (name : CString)
  | read (name : CString) (maxSize : UInt32)
  | list

/-- What a call returns. -/
inductive FsResult where
  | done
  | code (result : ℤ)
  | truth (result : Bool)
  | bytes (result : ℤ) (buffer : List UInt8)
  deriving DecidableEq, Repr

/-- Run one call. -/
def fsCall : FsCall → World σ → FsResult × World σ
  | .init, w => (.done, fsInit P w)
  | .create name content, w =>
      (.code (fsCreateFile P name content w).1, (fsCreateFile P name content w).2)
  | .delete name, w => (.code (fsDeleteFile P name w).1, (fsDeleteFile P name w).2)
  | .save, w => (.done, fsSaveToDisk P w)
  | .fileExists name, w => (.truth (fsFileExists P w name), w)
  | .read name maxSize, w =>
      (.bytes (fsReadFile P w name maxSize).1 (fsReadFile P w name maxSize).2, w)
  | .list, w => (.done, fsListFiles P w)

end SzymOS
