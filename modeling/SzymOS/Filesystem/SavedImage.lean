import SzymOS.Filesystem.SaveLoad

/-!
# What a save sends

The loop that saves the header copies 512 bytes for each of its three sectors, and the header has
1416.  The loop that saves the data, and the one that loads the header, clamp their copies.

The last copy of the first loop takes 120 bytes from behind the header.  What is there is decided by
the linker, and on the disk it is visible to whoever reads the sector.  So the same files can be
saved as different images, and the image can tell something about other modules.  The loop next to
it shows that this is a slip: it clears its buffer and clamps its copy, and the loop that loads the
header clamps as well.

That a save depends on the file system alone is stated by comparison: two saves of the same state,
in surroundings that differ in the memory around the two arrays, send the same sectors.  The
condition says when they do, for given surroundings and for all.

* `recording` — a platform that keeps what it is asked to write.
* `sentSectors_eq` — what a save sends is the image, up to the first write that is refused.
* `saved_image_iff` — when what it sends depends on nothing but the file system.

`sentSectors_eq` computes what is sent from the image, sector by sector.  Whether two images differ
is then a question about bytes: `byte_saveImage_last` says which bytes of the last sector of the
header come from behind it, and `saveImage_withMemory` that no other byte of the image does.  The
condition for the bytes to be visible is that this sector is sent, which depends on the writes
before it (`sends_last_iff`).
-/

set_option autoImplicit false

namespace SzymOS

open Bytes Blocks

/-! ## Recording

To speak of what is sent, and not of what is stored, the platform is given a list in which it writes
down each sector before it passes it on.  The list is not visible to the functions of the source, so
they do the same on both platforms. -/

/-- The platform `P`, with a record of every sector write: address and contents. -/
def recording {σ : Type} (P : Platform σ) : Platform (σ × List (ℕ × Sector)) where
  readSector ioBase driveNum lba s :=
    let (sector, dev) := P.readSector ioBase driveNum lba s.1
    (sector, (dev, s.2))
  writeSector ioBase driveNum lba buffer s :=
    let (result, dev) := P.writeSector ioBase driveNum lba buffer s.1
    (result, (dev, s.2 ++ [(lba, buffer)]))
  print call s := (P.print call s.1, s.2)
  afterHeader s := P.afterHeader s.1
  aroundData s := P.aroundData s.1

abbrev RecordingWorld := World (SectorDev × List (ℕ × Sector))

/-- The sectors `fs_save_to_disk` sends, in order. -/
def sentSectors (env : Env) (w : SectorWorld) : List (ℕ × Sector) :=
  (fsSaveToDisk (recording (sectorPlatform env)) { fs := w.fs, dev := (w.dev, []) }).dev.2

section Recording

variable {env : Env}

lemma writeSector_recording (ioBase : UInt16) (driveNum : UInt8) (lba : ℕ) (buffer : Sector)
    (s : SectorDev × List (ℕ × Sector)) :
    (recording (sectorPlatform env)).writeSector ioBase driveNum lba buffer s
      = (((sectorPlatform env).writeSector ioBase driveNum lba buffer s.1).1,
        (((sectorPlatform env).writeSector ioBase driveNum lba buffer s.1).2,
          s.2 ++ [(lba, buffer)])) := rfl

@[simp] lemma print_recorded (calls : List TermCall) (w : RecordingWorld) :
    (w.print (recording (sectorPlatform env)) calls).dev.2 = w.dev.2 := by
  obtain ⟨fs, dev⟩ := w
  simp only [World.print]
  induction calls generalizing dev with
  | nil => rfl
  | cons call calls ih =>
      rw [List.foldl_cons, ih]
      rfl

lemma headerSectorBuffer_recording (w : RecordingWorld) (i : ℕ) :
    headerSectorBuffer (recording (sectorPlatform env)) w i
      = headerSectorBuffer (sectorPlatform env) { fs := w.fs, dev := w.dev.1 } i := rfl

lemma dataSectorBuffer_recording (w : RecordingWorld) (i : ℕ) :
    dataSectorBuffer w i = dataSectorBuffer { fs := w.fs, dev := w.dev.1 } i := rfl

/-- **What a write loop sends.**  One sector for each attempt, out of the image. -/
lemma fsWriteSectors_sent (env : Env) (start : ℕ) (sectorBuffer : RecordingWorld → ℕ → Sector)
    (error : String) (image : ℕ → Sector) (n i : ℕ) (w : RecordingWorld)
    (hsel : w.fs.fsDriveSelected = true)
    (himage : ∀ (w' : RecordingWorld) (j : ℕ), w'.fs = w.fs → i ≤ j → j < i + n →
      sectorBuffer w' j = image (start + j)) :
    (fsWriteSectors (recording (sectorPlatform env)) start sectorBuffer error n i w).1
        = (writeFrom env.write image n (start + i) w.dev.1.disk).1 ∧
      (fsWriteSectors (recording (sectorPlatform env)) start sectorBuffer error n i w).2.dev.2
        = w.dev.2 ++ (List.range' (start + i) (attempts env.write n (start + i))).map
            fun lba => (lba, image lba) := by
  induction n generalizing i w with
  | zero => simp [fsWriteSectors, writeFrom, attempts]
  | succ n ih =>
      have hbuf : sectorBuffer w i = image (start + i) :=
        himage w i rfl (Nat.le_refl _) (by omega)
      have hnext : start + i + 1 = start + (i + 1) := by omega
      have hlater : ∀ (w' : RecordingWorld) (j : ℕ), w'.fs = w.fs → i + 1 ≤ j →
          j < i + 1 + n → sectorBuffer w' j = image (start + j) :=
        fun w' j h1 h2 h3 => himage w' j h1 (by omega) (by omega)
      simp only [fsWriteSectors, fsWriteSectorDirect, hsel, hbuf, writeFrom, attempts, hnext,
        writeSector_recording]
      cases ho : env.write (start + i) with
      | stored =>
          simp only [writeSector_stored ho]
          obtain ⟨hok, hsent⟩ := ih (i + 1) { w with dev :=
              ({ w.dev.1 with
                  disk := Function.update w.dev.1.disk (start + i) (image (start + i)) },
                w.dev.2 ++ [(start + i, image (start + i))]) } hsel hlater
          refine ⟨hok, hsent.trans ?_⟩
          simp [List.range'_succ, hnext]
      | lost =>
          simp only [writeSector_lost ho]
          obtain ⟨hok, hsent⟩ := ih (i + 1) { w with dev :=
              (w.dev.1, w.dev.2 ++ [(start + i, image (start + i))]) } hsel hlater
          refine ⟨hok, hsent.trans ?_⟩
          simp [List.range'_succ, hnext]
      | refused =>
          simp [writeSector_refused ho]

/-- The image a recorded save sends, by the world it started from. -/
lemma sectorBuffer_saveImage {w : SectorWorld} {w' : RecordingWorld}
    (hh : w'.fs.fsHeader = w.fs.fsHeader) (hd : w'.fs.fsData = w.fs.fsData) :
    (∀ i < 3, headerSectorBuffer (recording (sectorPlatform env)) w' i
        = saveImage env w (2048 + i)) ∧
      ∀ i, dataSectorBuffer w' i = saveImage env w (2051 + i) := by
  have himage : saveImage env { fs := w'.fs, dev := w'.dev.1 } = saveImage env w :=
    saveImage_congr hh hd
  rw [← himage]
  constructor
  · intro i hi
    rw [headerSectorBuffer_recording, saveImage, if_pos (by omega), Nat.add_sub_cancel_left]
  · intro i
    rw [dataSectorBuffer_recording, saveImage, if_neg (by omega), Nat.add_sub_cancel_left]

/-- **What a save sends**: the image, one sector for each write that is attempted. -/
theorem sentSectors_eq {w : SectorWorld} (h : w.fs.HasDrive) :
    sentSectors env w = (List.range' 2048 (attempts env.write 259 2048)).map
      fun lba => (lba, saveImage env w lba) := by
  have hadd := attempts_add (o := env.write) (b := saveImage env w) 3 256 2048 w.dev.disk
  simp only [Nat.reduceAdd] at hadd
  obtain ⟨hok, hsent⟩ := fsWriteSectors_sent env fsStartSector
    (headerSectorBuffer (recording (sectorPlatform env)))
    "[ERROR] Failed to write filesystem header\n" (saveImage env w) 3 0
    { fs := w.fs, dev := (w.dev, []) } h.2
    fun w' j hfs _ hj => (sectorBuffer_saveImage (by rw [hfs]) (by rw [hfs])).1 j (by omega)
  obtain ⟨b, hfs⟩ := fsWriteSectors_fs (recording (sectorPlatform env)) fsStartSector
    (headerSectorBuffer (recording (sectorPlatform env)))
    "[ERROR] Failed to write filesystem header\n" headerSectors 0
    { fs := w.fs, dev := (w.dev, []) }
  rw [sentSectors, fsSaveToDisk, if_neg (by simp [h.1]), hadd, fsWriteHeaderSectors]
  cases hh : fsWriteSectors (recording (sectorPlatform env)) fsStartSector
    (headerSectorBuffer (recording (sectorPlatform env)))
    "[ERROR] Failed to write filesystem header\n" headerSectors 0
    { fs := w.fs, dev := (w.dev, []) } with
  | mk ok w1 =>
      rw [hh] at hok hsent hfs
      simp only [fsStartSector, Nat.add_zero, List.nil_append] at hok hsent hfs
      rw [← hok]
      cases ok with
      | false => exact hsent
      | true =>
          -- three sectors are sent, and the data loop goes on from there
          rw [attempts_of_ok hok.symm] at hsent
          obtain ⟨-, hsent2⟩ := fsWriteSectors_sent env (fsStartSector + headerSectors)
            dataSectorBuffer "[ERROR] Failed to write filesystem data\n" (saveImage env w) 256 0 w1
            (by rw [hfs]; exact h.2)
            fun w' j hfs' _ _ => (sectorBuffer_saveImage (by rw [hfs', hfs])
              (by rw [hfs', hfs])).2 j
          simp only [fsStartSector, headerSectors, Nat.reduceAdd, Nat.add_zero] at hsent2
          rw [hsent, ← List.map_append, List.range'_append_1] at hsent2
          simp only [cond_true, fsWriteDataSectors]
          rw [← hsent2]
          cases fsWriteSectors (recording (sectorPlatform env)) (fsStartSector + headerSectors)
            dataSectorBuffer "[ERROR] Failed to write filesystem data\n" dataSectors 0 w1 with
          | mk ok2 w2 =>
              cases ok2 with
              | false => rfl
              | true =>
                  simp only
                  split_ifs
                  · exact print_recorded _ _
                  · rfl

/-- With no drive, or none that both modules take to be selected, nothing is sent. -/
lemma sentSectors_noDrive {w : SectorWorld} (h : ¬ w.fs.HasDrive) : sentSectors env w = [] := by
  rw [sentSectors, fsSaveToDisk]
  split_ifs with hav
  · exact print_recorded _ _
  · have hsel : w.fs.fsDriveSelected = false := by
      by_contra hc
      exact h ⟨by simpa using hav, by simpa using hc⟩
    have hrefused : ∃ w1 : RecordingWorld, fsWriteHeaderSectors (recording (sectorPlatform env))
        { fs := w.fs, dev := (w.dev, []) } = (false, w1) ∧ w1.dev.2 = [] := by
      simp only [fsWriteHeaderSectors, fsWriteSectors, fsWriteSectorDirect, hsel]
      exact ⟨_, rfl, print_recorded _ _⟩
    obtain ⟨w1, hw1, hnone⟩ := hrefused
    rw [hw1]
    exact hnone

/-- Sector 2050, the last of the header, is sent when the two before it are not refused. -/
def SendsLastHeaderSector (env : Env) (w : SectorWorld) : Prop :=
  w.fs.HasDrive ∧ env.write 2048 ≠ .refused ∧ env.write 2049 ≠ .refused

lemma mem_sentSectors {w : SectorWorld} {lba : ℕ} {buffer : Sector} :
    (lba, buffer) ∈ sentSectors env w ↔ w.fs.HasDrive ∧
      (2048 ≤ lba ∧ lba < 2048 + attempts env.write 259 2048) ∧ saveImage env w lba = buffer := by
  by_cases h : w.fs.HasDrive
  · rw [sentSectors_eq h, and_iff_right h]
    simp only [List.mem_map, List.mem_range'_1, Prod.mk.injEq]
    constructor
    · rintro ⟨x, hx, rfl, hb⟩
      exact ⟨hx, hb⟩
    · rintro ⟨hx, hb⟩
      exact ⟨lba, hx, rfl, hb⟩
  · simp [sentSectors_noDrive h, h]

lemma sends_last_iff {w : SectorWorld} : SendsLastHeaderSector env w
    ↔ w.fs.HasDrive ∧ 2050 < 2048 + attempts env.write 259 2048 := by
  have hlt : 2050 < 2048 + attempts env.write 259 2048 ↔ 2 < attempts env.write 259 2048 := by
    omega
  rw [SendsLastHeaderSector, hlt, lt_attempts_iff]
  refine and_congr_right fun _ => ⟨fun h => ⟨by omega, ?_⟩, ?_⟩
  · intro j hj
    obtain rfl | rfl : j = 0 ∨ j = 1 := by omega
    · exact h.1
    · exact h.2
  · intro h
    exact ⟨h.2 0 (by omega), h.2 1 (by omega)⟩

end Recording

/-! ## What the image depends on

The image is a function of the address.  Away from the last sector of the header it is made of bytes
of the two arrays and of zeros; there it has a tail that comes from elsewhere.  So the only question
is whether this sector is sent at all. -/

/-- The same surroundings, with other bytes in the memory around the two objects. -/
def Env.withMemory (env : Env) (afterHeader aroundData : ℕ → UInt8) : Env :=
  { env with afterHeader, aroundData }

/-- The tail of the last header sector is what follows the header in memory. -/
lemma byte_saveImage_last (env : Env) (w : SectorWorld) {k : ℕ} (hk : 392 ≤ k) (hk' : k < 512) :
    (saveImage env w 2050).byte k = env.afterHeader (k - 392) := by
  have hpos : (2050 - 2048) * sectorSize + k - headerSize = k - 392 := by
    simp only [sectorSize, headerSize]
    omega
  rw [saveImage, if_pos (by omega), headerSectorBuffer, Sector.byte_ofMemory _ _ hk', headerMemory,
    if_neg (by simp only [sectorSize, headerSize]; omega), hpos]
  rfl

/-- Nothing else in the image comes from outside the two objects. -/
lemma saveImage_withMemory (env : Env) (afterHeader aroundData : ℕ → UInt8) (w : SectorWorld)
    {lba : ℕ} (hlba : 2048 ≤ lba)
    (hsame : lba = 2050 → ∀ j < 120, afterHeader j = env.afterHeader j) :
    saveImage (env.withMemory afterHeader aroundData) w lba = saveImage env w lba := by
  rw [saveImage, saveImage]
  split_ifs with hheader
  · funext k
    simp only [headerSectorBuffer, Sector.ofMemory, headerMemory]
    split_ifs with hin
    · rfl
    · have hk := k.isLt
      simp only [sectorSize, headerSize] at hin ⊢
      exact hsame (by omega) _ (by omega)
  · rfl

/-- So the same sectors are sent if the same bytes follow the header, or if they are not sent. -/
lemma sentSectors_withMemory (env : Env) {afterHeader aroundData : ℕ → UInt8} {w : SectorWorld}
    (hsame : SendsLastHeaderSector env w → ∀ j < 120, afterHeader j = env.afterHeader j) :
    sentSectors (env.withMemory afterHeader aroundData) w = sentSectors env w := by
  by_cases h : w.fs.HasDrive
  · rw [sentSectors_eq h, sentSectors_eq h]
    refine List.map_congr_left ?_
    intro lba hlba
    rw [List.mem_range'_1] at hlba
    have heq : saveImage (env.withMemory afterHeader aroundData) w lba = saveImage env w lba := by
      refine saveImage_withMemory env afterHeader aroundData w hlba.1 ?_
      intro h2050
      rw [h2050] at hlba
      exact hsame (sends_last_iff.mpr ⟨h, hlba.2⟩)
    rw [heq]
  · rw [sentSectors_noDrive h, sentSectors_noDrive h]

lemma sends_last_of_mem {env : Env} {w : SectorWorld} {buffer : Sector}
    (h : (2050, buffer) ∈ sentSectors env w) : SendsLastHeaderSector env w := by
  obtain ⟨hdrive, hin, -⟩ := mem_sentSectors.mp h
  exact sends_last_iff.mpr ⟨hdrive, hin.2⟩

/-- The tail that is sent is what follows the header in memory. -/
lemma padded_iff {env : Env} {w : SectorWorld} (h : SendsLastHeaderSector env w) :
    (∀ buffer, (2050, buffer) ∈ sentSectors env w → ∀ k, 392 ≤ k → k < 512 → buffer.byte k = 0)
      ↔ ∀ j < 120, env.afterHeader j = 0 := by
  obtain ⟨hdrive, hsent⟩ := sends_last_iff.mp h
  constructor
  · intro hpadded j hj
    have hbyte := hpadded (saveImage env w 2050)
      (mem_sentSectors.mpr ⟨hdrive, ⟨by omega, hsent⟩, rfl⟩) (392 + j) (by omega) (by omega)
    rwa [byte_saveImage_last env w (by omega) (by omega), Nat.add_sub_cancel_left] at hbyte
  · intro hzero buffer hb k hk hk'
    obtain ⟨-, -, rfl⟩ := mem_sentSectors.mp hb
    rw [byte_saveImage_last env w hk hk']
    exact hzero _ (by omega)

/-- Two saves of one file system, with different memory around it: they send the same sectors, and
the tail of the last header sector is zero in both. -/
structure SameImage (env env' : Env) (w : SectorWorld) : Prop where
  same : sentSectors env' w = sentSectors env w
  padded : ∀ buffer, (2050, buffer) ∈ sentSectors env w → ∀ k, 392 ≤ k → k < 512 →
    buffer.byte k = 0
  padded' : ∀ buffer, (2050, buffer) ∈ sentSectors env' w → ∀ k, 392 ≤ k → k < 512 →
    buffer.byte k = 0

/-- **When what is sent depends on the file system alone.**  Exactly when the last header sector
is not sent, or the 120 bytes that follow the header in memory are zero in both. -/
theorem saved_image_iff (env : Env) (afterHeader aroundData : ℕ → UInt8) (w : SectorWorld) :
    SameImage env (env.withMemory afterHeader aroundData) w
      ↔ ¬ SendsLastHeaderSector env w ∨
        ∀ j < 120, env.afterHeader j = 0 ∧ afterHeader j = 0 := by
  by_cases hlast : SendsLastHeaderSector env w
  · have hlast' : SendsLastHeaderSector (env.withMemory afterHeader aroundData) w := hlast
    rw [or_iff_right (not_not.mpr hlast), forall₂_and]
    constructor
    · exact fun h => ⟨(padded_iff hlast).mp h.padded, (padded_iff hlast').mp h.padded'⟩
    · rintro ⟨hzero, hzero'⟩
      refine ⟨sentSectors_withMemory env ?_, (padded_iff hlast).mpr hzero,
        (padded_iff hlast').mpr hzero'⟩
      intro _ j hj
      rw [hzero j hj, hzero' j hj]
  · refine ⟨fun _ => Or.inl hlast, fun _ => ⟨sentSectors_withMemory env fun h => absurd h hlast,
      fun buffer hb => absurd (sends_last_of_mem hb) hlast, ?_⟩⟩
    intro buffer hb
    have hlast' : SendsLastHeaderSector (env.withMemory afterHeader aroundData) w :=
      sends_last_of_mem hb
    exact absurd hlast' hlast

/-- **And so for every memory** exactly when that sector is not sent. -/
theorem saved_image_independent_iff (env : Env) (w : SectorWorld) :
    (∀ afterHeader afterHeader' aroundData, SameImage (env.withMemory afterHeader aroundData)
        (env.withMemory afterHeader' aroundData) w) ↔ ¬ SendsLastHeaderSector env w := by
  constructor
  · intro h
    rcases (saved_image_iff (env.withMemory (fun _ => 1) fun _ => 0) (fun _ => 1) (fun _ => 0) w).mp
      (h (fun _ => 1) (fun _ => 1) fun _ => 0) with hlast | hzero
    · exact hlast
    · exact absurd (hzero 0 (by omega)).1 (by decide : ¬ (1 : UInt8) = 0)
  · intro h afterHeader afterHeader' aroundData
    exact (saved_image_iff (env.withMemory afterHeader aroundData) afterHeader' aroundData w).mpr
      (Or.inl h)

/-- The first save on a formatted drive, with nothing but zeros behind the header in memory, and
with ones there. -/
theorem saved_image_leaks : ¬ SameImage Env.faultless (Env.faultless.withMemory (fun _ => 1)
    fun _ => 0) (reboot .primaryMaster Env.faultless .blank) := by
  have hlast : SendsLastHeaderSector Env.faultless (reboot .primaryMaster Env.faultless .blank) :=
    ⟨(reboot_ready .primaryMaster SectorDev.blank).1, by decide, by decide⟩
  generalize reboot .primaryMaster Env.faultless .blank = w at hlast
  intro h
  have hlast' : SendsLastHeaderSector (Env.faultless.withMemory (fun _ => 1) fun _ => 0) w := hlast
  exact absurd ((padded_iff hlast').mp h.padded' 0 (by omega)) (by decide)

end SzymOS
