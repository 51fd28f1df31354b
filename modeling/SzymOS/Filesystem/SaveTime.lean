import SzymOS.Filesystem.Effects
import SzymOS.Filesystem.PortDrive
import Mathlib.Order.Bounds.Basic

/-!
# How long a drive can keep the file system waiting

Every wait has a counter, so however a drive answers, the driver reads its status a bounded number
of times.  Here a status read is what time is counted in.

The bound is met, so it is the time of a save, not an estimate of it.  A drive that meets it must be
late on every wait and still give no reason for giving up: each wait ends with the last answer that
lets the loop count as successful.  The last wait of a sector write can be longer by one, since
nobody looks at how it ended.

* `readTime`, `writeTime` — what one sector takes at most.
* `pricedRel_time` — so every call of the file system takes its price at most.
* `save_time_greatest` — no bound on the time of a save is better than its price.
-/

set_option autoImplicit false

namespace SzymOS

open Polling

/-! ## One sector

The times are sums over the waits of the two functions.  A wait that must succeed reads at most as
many answers as its counter says, a wait that may fail one more. -/

/-- A wait that ends in time, and one that may not. -/
def readTime : ℕ := 100000 + 100001

/-- Two waits that end in time, and one that may not. -/
def writeTime : ℕ := 100000 + 100000 + 100001

section Sector

variable (drive : PortDrive)

lemma waitWhile_time (waiting : UInt8 → Bool) (port : UInt16) (d : PortDev) :
    (waitWhile drive waiting port d).2.polled ≤ d.polled + 100001 := poll_le 100000 d.polled

/-- A wait that is not given up. -/
lemma waitWhile_time_of_pos {waiting : UInt8 → Bool} {port : UInt16} {d : PortDev}
    (h : ¬ (waitWhile drive waiting port d).1 ≤ 0) :
    (waitWhile drive waiting port d).2.polled ≤ d.polled + 100000 := by
  have hpos : 0 < (poll waiting drive.status 100000 d.polled).1 := not_le.mp h
  exact poll_le_of_pos hpos

lemma portReadSector_time (io : UInt16) (driveNum : UInt8) (lba : ℕ) (d : PortDev) :
    (portReadSector drive io driveNum lba d).2.polled ≤ d.polled + readTime := by
  have hready := waitWhile_time drive busy (io + 7) d
  simp only [portReadSector, readTime]
  split_ifs with hbusy
  · exact Nat.le_trans hready (by omega)
  all_goals
    have hfirst := waitWhile_time_of_pos drive hbusy
    refine Nat.le_trans (waitWhile_time drive noRequest (io + 7) _) ?_
    simp only
    omega

lemma portWriteSector_time (io : UInt16) (driveNum : UInt8) (lba : ℕ) (buffer : Sector)
    (d : PortDev) :
    (portWriteSector drive io driveNum lba buffer d).2.polled ≤ d.polled + writeTime := by
  have hready := waitWhile_time drive busy (io + 7) d
  simp only [portWriteSector, writeTime]
  split_ifs with hbusy hrequest
  · exact Nat.le_trans hready (by omega)
  · have hfirst := waitWhile_time_of_pos drive hbusy
    refine Nat.le_trans (waitWhile_time drive noRequest (io + 7) _) ?_
    simp only
    omega
  · have hfirst := waitWhile_time_of_pos drive hbusy
    have hsecond := waitWhile_time_of_pos drive hrequest
    refine Nat.le_trans (waitWhile_time drive busy (io + 7) _) ?_
    simp only at hsecond ⊢
    omega

end Sector

/-! ## A call

The elementary steps have their prices, so the theorem on calls applies.  Nothing about the calls
has to be proved again. -/

lemma print_polled (drive : PortDrive) (calls : List TermCall) (w : PortWorld) :
    (w.print (portPlatform drive) calls).dev.polled = w.dev.polled := by
  obtain ⟨fs, dev⟩ := w
  simp only [World.print]
  induction calls generalizing dev with
  | nil => rfl
  | cons call calls ih => exact ih _

/-- **Every call takes its price at most.** -/
lemma pricedRel_time (drive : PortDrive) : PricedRel (portPlatform drive) readTime writeTime
    fun n w w' => w'.dev.polled ≤ w.dev.polled + n where
  refl w := Nat.le_refl _
  trans h h' := by omega
  mono h hle := by omega
  print calls w _ := (print_polled drive calls w).le
  read lba w := by
    rw [fsReadSectorDirect]
    split_ifs
    · exact Nat.le_add_right _ _
    · exact portReadSector_time drive _ _ lba w.dev
  write lba buffer w _ _ := by
    rw [fsWriteSectorDirect]
    split_ifs
    · exact Nat.le_add_right _ _
    · exact portWriteSector_time drive _ _ lba buffer w.dev
  store s w _ := Nat.le_refl _

/-! ## The slowest drive

Its stream is periodic, with the time of one sector as the period.  A save therefore meets the same
answers at each of its sectors, and the induction over the write loops has only the period to carry.
-/

/-- Every wait ends as late as it can, but for the last one of a write, which does not end. -/
def PortDrive.slowest : PortDrive where
  status n :=
    if n % writeTime < 99999 then 0x80
    else if n % writeTime < 199999 then 0x00
    else if n % writeTime = 199999 then 0x08
    else 0x80
  words _ := 0
  afterHeader _ := 0
  aroundData _ := 0

section Slowest

variable {n : ℕ} (hn : n % writeTime = 0)

include hn

lemma slowest_mod {j : ℕ} (hj : j < writeTime) : (n + j) % writeTime = j := by
  rw [Nat.add_mod, hn, Nat.zero_add, Nat.mod_mod, Nat.mod_eq_of_lt hj]

lemma slowest_ready : FirstAt busy PortDrive.slowest.status n 99999 := by
  constructor
  · intro j hj
    simp only [PortDrive.slowest, slowest_mod hn (j := j) (by rw [writeTime]; omega), if_pos hj]
    rfl
  · simp only [PortDrive.slowest, slowest_mod hn (j := 99999) (by decide)]
    rfl

lemma slowest_asks : FirstAt noRequest PortDrive.slowest.status (n + 100000) 99999 := by
  constructor
  · intro j hj
    have hmod := slowest_mod hn (j := 100000 + j) (by rw [writeTime]; omega)
    have hlate : ¬ 100000 + j < 99999 := by omega
    have hearly : 100000 + j < 199999 := by omega
    simp only [PortDrive.slowest, Nat.add_assoc, hmod, if_neg hlate, if_pos hearly]
    rfl
  · have hmod := slowest_mod hn (j := 100000 + 99999) (by decide)
    simp only [PortDrive.slowest, Nat.add_assoc, hmod]
    rfl

lemma slowest_stays_busy (j : ℕ) (hj : j ≤ 100000) :
    busy (PortDrive.slowest.status (n + 200000 + j)) = true := by
  have hmod := slowest_mod hn (j := 200000 + j) (by rw [writeTime]; omega)
  have hlate : ¬ 200000 + j < 99999 := by omega
  have hlater : ¬ 200000 + j < 199999 := by omega
  have hlast : ¬ 200000 + j = 199999 := by omega
  simp only [PortDrive.slowest, Nat.add_assoc, hmod, if_neg hlate, if_neg hlater, if_neg hlast]
  rfl

/-- It accepts a write, which takes the time that a write can take. -/
lemma slowest_writeEnd : writeEnd PortDrive.slowest.status n = some (n + writeTime) := by
  have hready : (poll busy PortDrive.slowest.status 100000 n).2 = n + 100000 :=
    (poll_snd_of_firstAt (by omega) (slowest_ready hn)).trans (by omega)
  have hasks : (poll noRequest PortDrive.slowest.status 100000 (n + 100000)).2 = n + 200000 :=
    (poll_snd_of_firstAt (by omega) (slowest_asks hn)).trans (by omega)
  have hready' := (poll_pos_iff 100000 n).mpr ⟨99999, by omega, slowest_ready hn⟩
  have hasks' := (poll_pos_iff 100000 (n + 100000)).mpr ⟨99999, by omega, slowest_asks hn⟩
  rw [writeEnd, requestEnd]
  simp only [hready, hasks, if_neg (not_le.mpr hready'), if_neg (not_le.mpr hasks'),
    Option.map_some, poll_of_never (slowest_stays_busy hn), writeTime, Nat.add_assoc]

lemma slowest_writesEnd (k : ℕ) :
    writesEnd PortDrive.slowest.status k n = some (n + k * writeTime) := by
  induction k generalizing n with
  | zero => rw [writesEnd, Nat.zero_mul, Nat.add_zero]
  | succ k ih =>
      have hnext : (n + writeTime) % writeTime = 0 := by rw [Nat.add_mod_right, hn]
      rw [writesEnd, slowest_writeEnd hn, Option.bind_some, ih hnext, Nat.succ_mul,
        Nat.add_assoc, Nat.add_comm writeTime]

end Slowest

/-- Where a save leaves the stream when the drive accepts all its writes. -/
lemma save_polled {drive : PortDrive} {w : PortWorld} (hav : diskAvailable w.fs = true)
    (hsel : w.fs.fsDriveSelected = true) {n : ℕ}
    (hend : writesEnd drive.status 259 w.dev.polled = some n) :
    (fsSaveToDisk (portPlatform drive) w).dev.polled = n := by
  rw [← sectors_split, writesEnd_add, Option.bind_eq_some_iff] at hend
  obtain ⟨m, hm, hn⟩ := hend
  obtain ⟨header, hheader, -, -⟩ := (fsWriteHeaderSectors_log drive hsel).1 m hm
  obtain ⟨data, hdata, -, -⟩ := (fsWriteDataSectors_log drive (w := { w with
    dev := { w.dev with polled := m, log := w.dev.log ++ header } }) hsel).1 n hn
  rw [fsSaveToDisk, if_neg (by simp [hav]), hheader]
  simp only [hdata]
  split_ifs
  · rw [print_polled]
  · rfl

/-- **The time of a save.**  Whatever drive is selected and whatever it answers, a save reads its
status at most 77700259 times; and there is a drive with which it does. -/
theorem save_time_greatest :
    IsGreatest {n | ∃ (drive : PortDrive) (w : PortWorld),
      (fsSaveToDisk (portPlatform drive) w).dev.polled = w.dev.polled + n} 77700259 := by
  constructor
  · exact ⟨.slowest, formattingWorld, save_polled rfl rfl (slowest_writesEnd rfl 259)⟩
  · rintro n ⟨drive, w, htime⟩
    have hbound := (pricedRel_time drive).save w
    rw [htime, Nat.add_le_add_iff_left] at hbound
    exact hbound

end SzymOS
