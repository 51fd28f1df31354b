import SzymOS.Filesystem.SaveTime
import SzymOS.Kernel.Start

/-!
# How long drives can keep the kernel waiting

The waits of `ata.c` have counters too.  So the kernel spends a bounded time on its drives before
the shell is there, and a bounded time on every line that is entered, whatever the drives answer.

A request waits for BSY and for DRQ, and a write once more for BSY; each of these waits reads the
status 100001 times at most.  A save writes 259 sectors.  The numbers in the bound are these, added
up: a line saves once at most, and what is done before the first prompt is a detection, a selection,
a start of the file system, which reads or formats, and the file that may be created.

* `kernelRel_time` — everything the kernel does takes its price at most.
* `run_time_le` — the bound for a run.
-/

set_option autoImplicit false

namespace SzymOS

open Polling Transition

/-! ## Prices

What a function of `ata.c` can cost, each loop taken to its end. -/

/-- Nine status reads, and a loop of 10000. -/
def identifyTime : ℕ := 4 + 4 + 1 + 10000

def detectTime : ℕ := 4 * identifyTime

def selectTime : ℕ := 4 + 100001 + 1

section Ports

variable (drive : PortDrive)

lemma ataIdentify_time (io : UInt16) (driveNum : UInt8) (device : AtaDevice) (d : PortDev) :
    (ataIdentify drive io driveNum device d).2.2.polled ≤ d.polled + identifyTime := by
  have hloop := pollUntil_le errorSet (fun status => !busy status && !noRequest status)
    (s := drive.status) 10000 (d.polled + 9)
  have hstart := le_pollUntil errorSet (fun status => !busy status && !noRequest status)
    (s := drive.status) 10000 (d.polled + 9)
  simp only [ataIdentify, ata400nsDelay, readStatuses, PortDev.emit, identifyTime]
  simp only [Nat.add_assoc, Nat.reduceAdd]
  split_ifs
  · simp only
    omega
  · generalize pollUntil _ _ _ _ _ = r at hloop hstart
    obtain ⟨timeout, polled⟩ := r
    simp only at hloop hstart
    cases timeout with
    | none =>
        simp only
        omega
    | some timeout =>
        simp only
        split_ifs
        · simp only
          omega
        · simp only
          omega

/-- **Detection** tries four positions. -/
lemma ataDetectDrives_time (d : AtaDev) :
    (ataDetectDrives drive d).port.polled ≤ d.port.polled + detectTime := by
  have hall : ∀ (rest : List (UInt16 × UInt8)) (d : AtaDev),
      (rest.foldl (fun d position => detectAt drive position d) d).port.polled
        ≤ d.port.polled + rest.length * identifyTime := by
    intro rest
    induction rest with
    | nil =>
        intro d
        exact Nat.le_add_right _ _
    | cons position rest ih =>
        intro d
        have hone : (detectAt drive position d).port.polled ≤ d.port.polled + identifyTime :=
          ataIdentify_time drive position.1 position.2 _ d.port
        refine Nat.le_trans (ih (detectAt drive position d)) ?_
        rw [List.length_cons, Nat.succ_mul]
        omega
  have hlength : positions.length = 4 := rfl
  rw [ataDetectDrives]
  refine Nat.le_trans (hall positions _) ?_
  rw [hlength, detectTime]

lemma ataSelectDevice_time (driveIndex : ℤ) (d : AtaDev) :
    (ataSelectDevice drive driveIndex d).2.port.polled ≤ d.port.polled + selectTime := by
  have hloop := poll_le (p := busy) (s := drive.status) 100000 (d.port.polled + 4)
  have hstart := lt_poll (p := busy) (s := drive.status) 100000 (d.port.polled + 4)
  simp only [ataSelectDevice, ataWaitBsy, ataWait, ata400nsDelay, readStatuses, PortDev.emit,
    countDown_eq, selectTime]
  split_ifs
  all_goals
    simp only
    omega

lemma print_time (calls : List TermCall) (w : AtaWorld) :
    (w.print (ataPlatform drive) calls).dev.port.polled = w.dev.port.polled := by
  rw [print_ata]
  rfl

/-! ## The bound

The time that has passed is the number of status reads so far, and a relation with prices is that it
has grown by the price at most. -/

/-- **Everything the kernel does takes its price at most.** -/
lemma kernelRel_time : KernelRel drive readTime writeTime detectTime selectTime
    fun n w w' => w'.dev.port.polled ≤ w.dev.port.polled + n where
  shell around :=
    { refl := fun w => Nat.le_refl _
      trans := fun h h' => by omega
      mono := fun h hle => by omega
      print := fun calls w _ => (print_time drive calls w).le
      read := by
        intro lba w
        rw [fsReadSectorDirect]
        split_ifs
        · exact Nat.le_add_right _ _
        · exact portReadSector_time drive _ _ lba w.dev.port
      write := by
        intro lba buffer w _ _
        rw [fsWriteSectorDirect]
        split_ifs
        · exact Nat.le_add_right _ _
        · exact portWriteSector_time drive _ _ lba buffer w.dev.port
      store := fun s w _ => Nat.le_refl _
      outb := fun port value w _ => Nat.le_refl _ }
  store s w := Nat.le_refl _
  detect w := ataDetectDrives_time drive w.dev
  device i w := ataSelectDevice_time drive i w.dev

end Ports

/-! ### Runs

With the prices of the drives the rule for runs gives numbers. -/

/-- **No drive keeps the kernel waiting for ever.**  Whatever the drives answer and whatever is
typed, their status is read at most 156140563 times up to the first prompt, and from then on at
most 77700259 times for each line that is entered. -/
theorem run_time_le (c : Computer) (chars : List UInt8) :
    (¬ c.Prompted chars.dropLast → (c.run chars).dev.port.polled ≤ 156140563) ∧
      (c.Prompted chars → ∀ typed, (c.run (chars ++ typed)).dev.port.polled
        ≤ (c.run chars).dev.port.polled + 77700259 * typed.count 10) := by
  have hprompt : promptPrice readTime writeTime detectTime selectTime = 156140563 := rfl
  have hline : linePrice writeTime detectTime = 77700259 := rfl
  refine ⟨fun hearlier => ?_, fun hprompted typed => ?_⟩
  · have hrun := Computer.prompt_holds (kernelRel_time c.drive) hearlier
    rw [hprompt] at hrun
    exact Nat.le_trans hrun (Nat.zero_add _).le
  · rw [← hline]
    exact Computer.typed_holds (kernelRel_time c.drive) hprompted typed

/-- A key at the dialogue, and a line. -/
theorem run_time_plain :
    (plainComputer.run [10]).dev.port.polled ≤ 156140563 ∧
      (plainComputer.run ([10] ++ [108, 115, 10])).dev.port.polled
        ≤ (plainComputer.run [10]).dev.port.polled + 77700259 := by
  have hdialogue : (kernelMainSelect PortDrive.absent [10]).1 = some [] := by decide +kernel
  have hprompted : plainComputer.Prompted [10] := Option.isSome_iff_exists.mpr ⟨[], hdialogue⟩
  have hline := (run_time_le plainComputer [10]).2 hprompted [108, 115, 10]
  have hcount : [(108 : UInt8), 115, 10].count 10 = 1 := by decide
  rw [hcount, Nat.mul_one] at hline
  exact ⟨(run_time_le plainComputer [10]).1 Computer.not_prompted_nil, hline⟩

end SzymOS
