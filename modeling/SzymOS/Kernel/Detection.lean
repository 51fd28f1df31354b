import SzymOS.Kernel.Ata
import Mathlib.Data.List.Nodup

/-!
# What `ata_detect_drives` finds

Which drives answer IDENTIFY is decided by the status bytes they give.  `answering` reads it off
the stream, without a table: the positions that answer, in the order in which they are probed.

A detection probes the four positions in their order, and each probe reads as many status bytes as
the drive makes it read.  Which byte is the answer to which probe depends on all that came before,
so the position in the stream is carried along.

The table is filled from the front: entry `i` is the `i`-th drive that answered, and an entry behind
the last of them is not looked at.

* `ataIdentify_answer` — `ata_identify` returns 1 exactly when the drive answers.
* `ataDetectDrives_lists` — after a detection the table lists the drives that answered, in order.
-/

set_option autoImplicit false

namespace SzymOS

open Bytes Polling

/-- Whether the drive probed after `n` status bytes answers IDENTIFY, and how many bytes have been
read then.  Eight reads are two delays; the next tells whether there is a drive at all. -/
def identifyAnswer (status : ℕ → UInt8) (n : ℕ) : Bool × ℕ :=
  if status (n + 8) = 0 then (false, n + 9)
  else
    let (timeout, polled) := pollUntil errorSet (fun status => !busy status && !noRequest status)
      status 10000 (n + 9)
    match timeout with
    | none => (false, polled)
    | some timeout => (0 < timeout, polled)

/-- The positions that answer when they are probed one after the other. -/
def answering (status : ℕ → UInt8) : List (UInt16 × UInt8) → (n : ℕ) → List (UInt16 × UInt8)
  | [], _ => []
  | position :: rest, n =>
      let (answer, n) := identifyAnswer status n
      if answer then position :: answering status rest n else answering status rest n

/-- How many status bytes have been read when they have all been probed. -/
def probed (status : ℕ → UInt8) : List (UInt16 × UInt8) → (n : ℕ) → ℕ
  | [], n => n
  | _ :: rest, n => probed status rest (identifyAnswer status n).2

lemma answering_subset (status : ℕ → UInt8) (rest : List (UInt16 × UInt8)) (n : ℕ) :
    (answering status rest n).Sublist rest := by
  induction rest generalizing n with
  | nil => exact List.Sublist.refl _
  | cons position rest ih =>
      rw [answering]
      simp only
      split_ifs
      · exact (ih _).cons_cons position
      · exact (ih _).cons position

/-! ## One probe

The status 0 after the two delays means that there is no drive.  Otherwise the loop decides: it
fails at once when ERR is set, and it succeeds at the first status with DRQ set and BSY clear, if
that is not the last one it can read. -/

section Identify

variable (drive : PortDrive) (io : UInt16) (driveNum : UInt8) (device : AtaDevice) (d : PortDev)

/-- **`ata_identify` returns 1 exactly when the drive answers**, and reads as far as it must. -/
theorem ataIdentify_answer :
    ((ataIdentify drive io driveNum device d).1,
      (ataIdentify drive io driveNum device d).2.2.polled)
      = identifyAnswer drive.status d.polled := by
  have hpolled : (ata400nsDelay drive io ((ata400nsDelay drive io
      (d.emit [deviceEvent io driveNum])).emit [.outb (io + 7) 0xEC])).polled = d.polled + 8 := rfl
  rw [ataIdentify, identifyAnswer]
  simp only [hpolled]
  split_ifs with h0
  · rfl
  · generalize hd : readStatuses drive io 1 (ata400nsDelay drive io ((ata400nsDelay drive io
      (d.emit [deviceEvent io driveNum])).emit [.outb (io + 7) 0xEC])) = d'
    have hnext : d'.polled = d.polled + 9 := by rw [← hd]; rfl
    have hle := le_pollUntil (s := drive.status) errorSet
      (fun status => !busy status && !noRequest status) 10000 (d.polled + 9)
    simp only [hnext]
    cases hpoll : pollUntil errorSet (fun status => !busy status && !noRequest status)
      drive.status 10000 (d.polled + 9) with
    | mk timeout m =>
        rw [hpoll] at hle
        have hread : d.polled + 9 + (m - (d.polled + 9)) = m := Nat.add_sub_cancel' hle
        cases timeout with
        | none => simp only [readStatuses, hnext, hread]
        | some timeout =>
            simp only
            split_ifs with ht
            · simp only [readStatuses, hnext, hread, decide_eq_false (Int.not_lt.mpr ht)]
            · simp only [readStatuses, hnext, hread, decide_eq_true (Int.not_le.mp ht)]

/-- What it stores of the position, and whether it says that a drive is present. -/
lemma ataIdentify_device :
    (ataIdentify drive io driveNum device d).2.1.ioBase = io ∧
      (ataIdentify drive io driveNum device d).2.1.drive = driveNum ∧
      (ataIdentify drive io driveNum device d).2.1.present
        = (ataIdentify drive io driveNum device d).1 := by
  rw [ataIdentify]
  simp only
  split_ifs
  · exact ⟨rfl, rfl, rfl⟩
  · split
    · exact ⟨rfl, rfl, rfl⟩
    · split_ifs
      · exact ⟨rfl, rfl, rfl⟩
      · exact ⟨rfl, rfl, rfl⟩

end Identify

/-! ## The table

The invariant of the four probes: what has been found so far stands in the table, in order and
marked as present. -/

/-- The table lists these positions, each with a drive present. -/
structure AtaTable.Lists (table : AtaTable) (found : List (UInt16 × UInt8)) : Prop where
  count : table.driveCount = found.length
  entry : ∀ i (h : i < found.length), ((table.drives i).ioBase, (table.drives i).drive) = found[i]
  present : ∀ i < found.length, (table.drives i).present = true

section Detect

variable (drive : PortDrive)

/-- One probe appends what it finds. -/
lemma detectAt_lists {d : AtaDev} {found : List (UInt16 × UInt8)} (position : UInt16 × UInt8)
    (h : d.table.Lists found) :
    (detectAt drive position d).table.Lists
        (found ++ if (identifyAnswer drive.status d.port.polled).1 then [position] else []) ∧
      (detectAt drive position d).port.polled
        = (identifyAnswer drive.status d.port.polled).2 := by
  have hanswer := ataIdentify_answer drive position.1 position.2
    (d.table.drives d.table.driveCount) d.port
  obtain ⟨hio, hnum, hpresent⟩ := ataIdentify_device drive position.1 position.2
    (d.table.drives d.table.driveCount) d.port
  rw [← hanswer, detectAt]
  generalize ataIdentify drive position.1 position.2 (d.table.drives d.table.driveCount) d.port
    = result at hio hnum hpresent
  obtain ⟨found', device, port⟩ := result
  refine ⟨?_, rfl⟩
  simp only at hio hnum hpresent ⊢
  -- the entries before the one that is written stay as they were
  have hold : ∀ i < found.length,
      Function.update d.table.drives d.table.driveCount device i = d.table.drives i := by
    intro i hi
    exact Function.update_of_ne (by rw [h.count]; omega) _ _
  have hnew : Function.update d.table.drives d.table.driveCount device found.length = device := by
    rw [h.count, Function.update_self]
  generalize Function.update d.table.drives d.table.driveCount device = drives at hold hnew ⊢
  cases found' with
  | false =>
      simp only [Bool.false_eq_true, if_false, List.append_nil]
      exact
        { count := h.count
          entry := fun i hi => by simp only [hold i hi]; exact h.entry i hi
          present := fun i hi => by simp only [hold i hi]; exact h.present i hi }
  | true =>
      simp only [if_true]
      refine ⟨by simp [h.count], ?_, ?_⟩
      · intro i hi
        rcases Nat.lt_or_ge i found.length with hlt | hge
        · simp only [hold i hlt, List.getElem_append_left hlt]
          exact h.entry i hlt
        · obtain rfl : i = found.length := by
            simp only [List.length_append, List.length_singleton] at hi
            omega
          simp [hnew, hio, hnum]
      · intro i hi
        rcases Nat.lt_or_ge i found.length with hlt | hge
        · simp only [hold i hlt]
          exact h.present i hlt
        · obtain rfl : i = found.length := by
            simp only [List.length_append, List.length_singleton] at hi
            omega
          simp only [hnew, hpresent]

lemma foldl_detectAt_lists (rest : List (UInt16 × UInt8)) {d : AtaDev}
    {found : List (UInt16 × UInt8)} (h : d.table.Lists found) :
    (rest.foldl (fun d position => detectAt drive position d) d).table.Lists
        (found ++ answering drive.status rest d.port.polled) ∧
      (rest.foldl (fun d position => detectAt drive position d) d).port.polled
        = probed drive.status rest d.port.polled := by
  induction rest generalizing d found with
  | nil => exact ⟨by rwa [answering, List.append_nil], rfl⟩
  | cons position rest ih =>
      obtain ⟨hlists, hpolled⟩ := detectAt_lists drive position h
      obtain ⟨hrest, hend⟩ := ih hlists
      rw [List.foldl_cons]
      refine ⟨?_, by rw [hend, hpolled, probed]⟩
      have happend : found ++ answering drive.status (position :: rest) d.port.polled
          = (found ++ if (identifyAnswer drive.status d.port.polled).1 then [position] else []) ++
            answering drive.status rest (detectAt drive position d).port.polled := by
        rw [answering, hpolled]
        simp only
        split_ifs
        · rw [List.append_assoc]; rfl
        · rw [List.append_nil]
      rw [happend]
      exact hrest

/-- **After a detection the table lists the drives that answered, in order.** -/
theorem ataDetectDrives_lists (d : AtaDev) :
    (ataDetectDrives drive d).table.Lists (answering drive.status positions d.port.polled) ∧
      (ataDetectDrives drive d).port.polled = probed drive.status positions d.port.polled := by
  have hempty : AtaTable.Lists { d.table with driveCount := 0 } [] :=
    ⟨rfl, fun _ h => absurd h (Nat.not_lt_zero _), fun _ h => absurd h (Nat.not_lt_zero _)⟩
  rw [ataDetectDrives]
  generalize positions = rest
  obtain ⟨hlists, hpolled⟩ := foldl_detectAt_lists drive rest
    (d := { d with table := { d.table with driveCount := 0 } }) hempty
  rw [List.nil_append] at hlists
  exact ⟨hlists, hpolled⟩

end Detect

end SzymOS
