import SzymOS.Kernel.Detection
import Mathlib.Data.List.DropRight
import Mathlib.Data.Nat.Bitwise

/-!
# Identification data

What `ata_identify` makes of the 256 words that a drive gives: a number of sectors of 48 bits or of
32, cut to the 32 bits of the table, and a name of 40 characters without the spaces behind it.

The source builds both from the words, by shifts and by two characters a word; what the words say is
written here as a number in base 2 ^ 16 and as a list.  A number that does not fit becomes the
largest one, 0xFFFFFFFF.  The name is trimmed from its end, so spaces inside it stay, and a name of
nothing but spaces becomes the empty string.

* `trimSpaces_eq` — the loop that trims, in terms of the text.
* `identify_decodes` — the entry that is filled is the data.
-/

set_option autoImplicit false

namespace SzymOS

/-! ## What the words say

The words are those that the drive gives, counted from 0. -/

/-- The number of sectors: in words 100 to 103 if bit 10 of word 83 is set, else in words 60 and
61, the lowest word first. -/
def sectorCount (identify : ℕ → UInt16) : ℕ :=
  if (identify 83).toNat.testBit 10 then
    (identify 100).toNat + 2 ^ 16 * (identify 101).toNat + 2 ^ 32 * (identify 102).toNat +
      2 ^ 48 * (identify 103).toNat
  else (identify 60).toNat + 2 ^ 16 * (identify 61).toNat

/-- The 40 characters of words 27 to 46, the high byte of each word first. -/
def modelChars (identify : ℕ → UInt16) : List UInt8 :=
  (List.range 20).flatMap fun k =>
    [UInt8.ofNat ((identify (27 + k)).toNat / 256), UInt8.ofNat ((identify (27 + k)).toNat % 256)]

/-- Without the spaces behind them. -/
def modelText (identify : ℕ → UInt16) : List UInt8 := (modelChars identify).rdropWhile isSpace

/-! ## Numbers

The upper and the lower half of a long number are built apart, and the upper one is only compared
with zero. -/

lemma wordPair_toNat (hi lo : UInt16) : (wordPair hi lo).toNat = lo.toNat + 2 ^ 16 * hi.toNat := by
  have hhi := hi.toNat_lt
  have hlo := lo.toNat_lt
  have hshift : (hi.toUInt32 <<< 16).toNat = hi.toNat <<< 16 := by
    have hsixteen : (16 : UInt32).toNat % 32 = 16 := rfl
    rw [UInt32.toNat_shiftLeft, UInt16.toNat_toUInt32, hsixteen]
    refine Nat.mod_eq_of_lt ?_
    rw [Nat.shiftLeft_eq]
    omega
  rw [wordPair, UInt32.toNat_or, hshift, UInt16.toNat_toUInt32,
    ← Nat.shiftLeft_add_eq_or_of_lt hlo, Nat.shiftLeft_eq]
  omega

lemma and_bit_ne_zero_iff (x mask : UInt16) {k : ℕ} (hmask : mask.toNat = 2 ^ k) :
    x &&& mask ≠ 0 ↔ x.toNat.testBit k = true := by
  rw [ne_eq, ← UInt16.toNat_inj, UInt16.toNat_and, hmask, Nat.and_two_pow,
    UInt16.toNat_zero]
  cases x.toNat.testBit k with
  | false => simp
  | true => simp

/-- **The number of sectors**, saturated. -/
lemma identified_sectors (identify : ℕ → UInt16) (device : AtaDevice) :
    (identified identify device).sectors.toNat = min (sectorCount identify) (2 ^ 32 - 1) := by
  have h0 := (identify 100).toNat_lt
  have h1 := (identify 101).toNat_lt
  have h60 := (identify 60).toNat_lt
  have h61 := (identify 61).toNat_lt
  have hlba := and_bit_ne_zero_iff (identify 83) 0x0400 (k := 10) rfl
  simp only [identified, sectorCount]
  by_cases hbit : (identify 83).toNat.testBit 10 = true
  · rw [if_pos (hlba.mpr hbit), if_pos hbit]
    have hhigh : wordPair (identify 103) (identify 102) ≠ 0 ↔
        ¬ ((identify 102).toNat = 0 ∧ (identify 103).toNat = 0) := by
      rw [ne_eq, ← UInt32.toNat_inj, wordPair_toNat, UInt32.toNat_zero]
      omega
    split_ifs with hzero
    · rw [hhigh] at hzero
      have hfull : (0xFFFFFFFF : UInt32).toNat = 2 ^ 32 - 1 := rfl
      rw [hfull]
      omega
    · rw [hhigh, not_not] at hzero
      rw [wordPair_toNat]
      omega
  · rw [if_neg (mt hlba.mp hbit), if_neg hbit, wordPair_toNat]
    omega

/-! ## The name

The loop stores a NUL over the last space and goes on to the character before it.  On lists that is
`rdropWhile`, with NULs for what has been dropped. -/

/-- Element `j` of an array, as far as it has been copied to a list. -/
lemma getD_map_range (model : ℕ → UInt8) {n j : ℕ} (hj : j < n) :
    ((List.range n).map model).getD j 0 = model j := by
  rw [List.getD_eq_getElem _ _ (by simpa using hj)]
  simp

/-- **The loop that trims** leaves the text, and NULs behind it. -/
lemma trimSpaces_eq (n : ℕ) (model : ℕ → UInt8) (j : ℕ) : trimSpaces n model j
    = if j < n then (((List.range n).map model).rdropWhile isSpace).getD j 0 else model j := by
  induction n generalizing model with
  | zero => rfl
  | succ n ih =>
      rw [trimSpaces, List.range_succ, List.map_append, List.map_singleton]
      by_cases hspace : model n = 32
      · have hrest : (List.range n).map (Function.update model n 0) = (List.range n).map model := by
          refine List.map_congr_left fun i hi => Function.update_of_ne ?_ _ _
          exact Nat.ne_of_lt (List.mem_range.mp hi)
        have htrim : isSpace (model n) = true := decide_eq_true hspace
        rw [if_pos hspace, ih, hrest, List.rdropWhile_concat_pos _ _ _ htrim]
        rcases Nat.lt_trichotomy j n with hj | rfl | hj
        · rw [if_pos hj, if_pos (Nat.lt_succ_of_lt hj)]
        · have hlen : (((List.range j).map model).rdropWhile isSpace).length ≤ j := by
            have hprefix := (List.rdropWhile_prefix isSpace ((List.range j).map model)).length_le
            simpa using hprefix
          rw [if_neg (Nat.lt_irrefl j), if_pos (Nat.lt_succ_self j), Function.update_self,
            List.getD_eq_default _ _ hlen]
        · rw [if_neg (Nat.lt_asymm hj), if_neg (by omega),
            Function.update_of_ne (Nat.ne_of_gt hj)]
      · rw [if_neg hspace, List.rdropWhile_concat_neg _ _ _ (by simpa [isSpace] using hspace)]
        split_ifs with hj
        · have hall : (List.range n).map model ++ [model n] = (List.range (n + 1)).map model := by
            rw [List.range_succ, List.map_append, List.map_singleton]
          rw [hall, getD_map_range model hj]
        · rfl

/-- The two bytes of a word. -/
lemma wordBytes (word : UInt16) : (word >>> 8).toUInt8 = UInt8.ofNat (word.toNat / 256) ∧
    word.toUInt8 = UInt8.ofNat (word.toNat % 256) := by
  constructor
  · refine UInt8.toNat_inj.mp ?_
    rw [UInt16.toNat_toUInt8, UInt16.toNat_shiftRight, UInt8.toNat_ofNat',
      Nat.shiftRight_eq_div_pow]
    rfl
  · refine UInt8.toNat_inj.mp ?_
    rw [UInt16.toNat_toUInt8, UInt8.toNat_ofNat']
    omega

/-- The loop that copies, two characters at a time. -/
lemma map_modelBytes (identify : ℕ → UInt16) :
    (List.range 40).map (modelBytes identify) = modelChars identify := by
  have hpairs : ∀ n, (List.range (2 * n)).map (modelBytes identify)
      = (List.range n).flatMap fun k =>
          [modelBytes identify (2 * k), modelBytes identify (2 * k + 1)] := by
    intro n
    induction n with
    | zero => rfl
    | succ n ih =>
        rw [Nat.mul_succ, List.range_succ, List.range_succ, List.range_succ, List.flatMap_append,
          ← ih]
        simp
  refine (hpairs 20).trans (List.flatMap_congr fun k hk => ?_)
  obtain ⟨hhigh, hlow⟩ := wordBytes (identify (27 + k))
  have hlt : k < 20 := List.mem_range.mp hk
  have heven : 2 * k / 2 = k := by omega
  have hodd : (2 * k + 1) / 2 = k := by omega
  simp only [modelBytes]
  rw [if_pos (by omega), if_pos (by omega), if_pos (by omega), if_neg (by omega), heven, hodd,
    hhigh, hlow]

lemma modelText_length_le (identify : ℕ → UInt16) : (modelText identify).length ≤ 40 := by
  have hprefix := (List.rdropWhile_prefix isSpace (modelChars identify)).length_le
  rwa [← map_modelBytes, List.length_map, List.length_range, map_modelBytes] at hprefix

/-- **The name** is the text, with NULs behind it up to the end of the array. -/
lemma identified_model (identify : ℕ → UInt16) (device : AtaDevice) {j : ℕ} (hj : j ≤ 40) :
    (identified identify device).model j = (modelText identify).getD j 0 := by
  have htrim := trimSpaces_eq 40 (modelBytes identify) j
  rw [map_modelBytes] at htrim
  refine htrim.trans ?_
  rcases Nat.lt_or_eq_of_le hj with hlt | rfl
  · rw [if_pos hlt, modelText]
  · rw [if_neg (Nat.lt_irrefl 40), List.getD_eq_default _ _ (modelText_length_le identify)]
    rfl

/-! ## The entry

The statement is about the words that the call has read: they begin where the stream of words was
when it was made. -/

section Identify

variable (drive : PortDrive) (io : UInt16) (driveNum : UInt8) (device : AtaDevice) (d : PortDev)

/-- The entry that is filled, if the drive answers. -/
lemma ataIdentify_identified (h : (ataIdentify drive io driveNum device d).1 = true) :
    (ataIdentify drive io driveNum device d).2.1 = identified (fun i => drive.words (d.fetched + i))
      { device with ioBase := io, drive := driveNum, present := false } := by
  revert h
  rw [ataIdentify]
  simp only
  split_ifs
  · exact False.elim
  · split
    · exact fun h => absurd h Bool.false_ne_true
    · split_ifs
      · exact False.elim
      · exact fun _ => rfl

/-- **Identification data is decoded faithfully.**  If `ata_identify` returns 1, then the entry
holds the number of sectors of the 256 words that follow, cut to 32 bits, the whole megabytes that
these are, bit 7 of word 0, and the 40 characters without the spaces behind them, with NULs up to
the end of the 41 bytes. -/
theorem identify_decodes (h : (ataIdentify drive io driveNum device d).1 = true) :
    let entry := (ataIdentify drive io driveNum device d).2.1
    let identify := fun i => drive.words (d.fetched + i)
    entry.sectors.toNat = min (sectorCount identify) (2 ^ 32 - 1) ∧
      entry.sizeMb.toNat = entry.sectors.toNat / 2048 ∧
      entry.isRemovable = (identify 0).toNat.testBit 7 ∧
      (modelText identify).length ≤ 40 ∧
      ∀ j ≤ 40, entry.model j = (modelText identify).getD j 0 := by
  intro entry identify
  have hentry : entry = identified identify
      { device with ioBase := io, drive := driveNum, present := false } :=
    ataIdentify_identified drive io driveNum device d h
  rw [hentry]
  refine ⟨identified_sectors _ _, ?_, ?_, modelText_length_le _,
    fun j hj => identified_model _ _ hj⟩
  · exact UInt32.toNat_div _ _
  · have hbit := and_bit_ne_zero_iff (identify 0) 0x80 (k := 7) rfl
    rw [Bool.eq_iff_iff, ← hbit]
    exact bne_iff_ne

end Identify

/-- A drive that answers at once, with a removable disk of 2 ^ 32 + 5 sectors called `AB`. -/
def bigDrive : PortDrive where
  status _ := 0x48
  words i :=
    if i = 0 then 0x80 else if i = 27 then 0x4142 else if i < 47 then 0x2020
    else if i = 83 then 0x0400 else if i = 100 then 5 else if i = 102 then 1 else 0
  afterHeader _ := 0
  aroundData _ := 0

theorem identify_decodes_big :
    let entry := (ataIdentify bigDrive 0x1F0 0 (AtaTable.init.drives 0) ⟨0, 0, []⟩).2.1
    entry.sectors.toNat = 4294967295 ∧ entry.sizeMb.toNat = 2097151 ∧ entry.isRemovable = true ∧
      entry.model 0 = 65 ∧ entry.model 1 = 66 ∧ entry.model 2 = 0 := by
  intro entry
  have hanswer : (ataIdentify bigDrive 0x1F0 0 (AtaTable.init.drives 0) ⟨0, 0, []⟩).1 = true := by
    decide
  obtain ⟨hsectors, hsize, hremovable, -, hmodel⟩ := identify_decodes bigDrive 0x1F0 0
    (AtaTable.init.drives 0) ⟨0, 0, []⟩ hanswer
  have hcount : entry.sectors.toNat = 4294967295 := hsectors.trans (by decide)
  refine ⟨hcount, ?_, hremovable.trans (by decide), ?_, ?_, ?_⟩
  · rw [hsize, hcount]
  · exact (hmodel 0 (by omega)).trans (by decide)
  · exact (hmodel 1 (by omega)).trans (by decide)
  · exact (hmodel 2 (by omega)).trans (by decide)

end SzymOS
