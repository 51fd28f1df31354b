import SzymOS.Kernel.Handshake

/-!
# Drives that answer by what they have been sent

The stream of status bytes of `PortDrive.lean` is what one run of one driver has been answered.
Two drivers that read the status a different number of times are not given the same stream by the
same drive.  Here a drive is a function: its next status byte depends on the writes so far and on
how often the status has been read since.  A run is one with that drive if the events of its log
are answered by this function.

* `Answered` — the answers in a list of events are those of the drive.
* `wait_answered_iff`, `poll_of_answers` — a wait that is answered by the drive.
-/

set_option autoImplicit false

namespace SzymOS

open Bytes Polling

/-! ## What the drive sees

Data that is fetched and messages to the user are not among it.  A write to a register starts both
counts anew, a data word only one of them, so that a drive can tell how long ago it got its command.
-/

/-- What has been written, to the registers and to the data port, and how many status reads there
have been since the last write to a register and since the last write of any kind. -/
structure Seen where
  writes : List PortEvent
  sinceRegister : ℕ
  sinceWrite : ℕ

namespace Seen

/-- After `n` more status reads. -/
def later (s : Seen) (n : ℕ) : Seen :=
  { s with sinceRegister := s.sinceRegister + n, sinceWrite := s.sinceWrite + n }

def after (s : Seen) : PortEvent → Seen
  | .outb port value => ⟨s.writes ++ [.outb port value], 0, 0⟩
  | .outw port value => ⟨s.writes ++ [.outw port value], s.sinceRegister, 0⟩
  | .wait _ answers => s.later answers.length
  | .inw _ => s
  | .term _ => s

def afterAll (s : Seen) (events : List PortEvent) : Seen := events.foldl after s

@[simp] lemma afterAll_nil (s : Seen) : s.afterAll [] = s := rfl

@[simp] lemma afterAll_cons (s : Seen) (e : PortEvent) (events : List PortEvent) :
    s.afterAll (e :: events) = (s.after e).afterAll events := rfl

lemma afterAll_append (s : Seen) (events events' : List PortEvent) :
    s.afterAll (events ++ events') = (s.afterAll events).afterAll events' :=
  List.foldl_append

end Seen

/-- What has been seen when the log is this. -/
def seen (log : List PortEvent) : Seen := Seen.afterAll ⟨[], 0, 0⟩ log

/-- A write to a register or to the data port. -/
def PortEvent.IsSent : PortEvent → Bool
  | .outb _ _ => true
  | .outw _ _ => true
  | _ => false

/-- The register and data writes among the events. -/
def writesOf (events : List PortEvent) : List PortEvent := events.filter PortEvent.IsSent

/-- They are what is added to the writes that the drive has seen. -/
lemma afterAll_writes (s : Seen) (events : List PortEvent) :
    (s.afterAll events).writes = s.writes ++ writesOf events := by
  induction events generalizing s with
  | nil => exact (List.append_nil _).symm
  | cons e events ih =>
      rw [Seen.afterAll_cons, ih]
      cases e with
      | outb port value => exact List.append_assoc _ _ _
      | outw port value => exact List.append_assoc _ _ _
      | _ => rfl

/-! ## Drives

A drive has no other memory than this history, and it may be any function of it.  It may stay busy
for any number of reads, set ERR, or answer nonsense. -/

/-- A drive: the next status byte, and word `i` that is fetched after these writes. -/
structure Responder where
  status : Seen → UInt8
  word : (writes : List PortEvent) → (i : ℕ) → UInt16

namespace Responder

variable (R : Responder)

/-- The status bytes from now on, as long as nothing is written. -/
def answers (s : Seen) (i : ℕ) : UInt8 := R.status (s.later i)

/-- A wait: the final counter, and how often the status is read. -/
def wait (waiting : UInt8 → Bool) (s : Seen) : ℤ × ℕ := poll waiting (R.answers s) 100000 0

end Responder

/-- The answers in these events are those of the drive. -/
def Answered (R : Responder) : Seen → List PortEvent → Prop
  | _, [] => True
  | s, .wait port answers :: events =>
      answers = slice (R.answers s) 0 answers.length ∧
        Answered R (s.after (.wait port answers)) events
  | s, e :: events => Answered R (s.after e) events

section Answers

variable {R : Responder} {s : Seen}

lemma answered_append {events events' : List PortEvent} : Answered R s (events ++ events') ↔
    Answered R s events ∧ Answered R (s.afterAll events) events' := by
  induction events generalizing s with
  | nil => exact (iff_of_eq (true_and _)).symm
  | cons e events ih =>
      cases e with
      | wait port answers =>
          rw [List.cons_append, Answered, Answered, ih, and_assoc]
          rfl
      | _ => exact ih

/-- Events that are no status reads need no answers. -/
lemma answered_of_forall {events : List PortEvent} (h : ∀ e ∈ events, ∀ port answers,
    e ≠ .wait port answers) : Answered R s events := by
  induction events generalizing s with
  | nil => trivial
  | cons e events ih =>
      have hrest : ∀ e ∈ events, ∀ port answers, e ≠ .wait port answers := fun e' he' =>
        h e' (List.mem_cons_of_mem _ he')
      cases e with
      | wait port answers => exact absurd rfl (h _ List.mem_cons_self port answers)
      | _ => exact ih hrest

variable (status : ℕ → UInt8) (n : ℕ) (waiting : UInt8 → Bool)

/-- **A wait on a stream** whose answers are those of the drive, as far as the drive is asked. -/
lemma poll_of_answers
    (h : slice status n (R.wait waiting s).2 = slice (R.answers s) 0 (R.wait waiting s).2) :
    poll waiting status 100000 n = ((R.wait waiting s).1, n + (R.wait waiting s).2) := by
  rw [slice_eq_slice_iff] at h
  refine poll_congr (n := 0) fun j hj => h j ?_
  rwa [Nat.zero_add] at hj

/-- **The answers that a wait reads** are those of the drive exactly when the answers are that the
drive would be asked for. -/
lemma wait_answered_iff :
    slice status n ((poll waiting status 100000 n).2 - n)
        = slice (R.answers s) 0 ((poll waiting status 100000 n).2 - n) ↔
      slice status n (R.wait waiting s).2 = slice (R.answers s) 0 (R.wait waiting s).2 := by
  constructor
  · intro h
    have hsame : R.wait waiting s
        = ((poll waiting status 100000 n).1, 0 + ((poll waiting status 100000 n).2 - n)) := by
      rw [slice_eq_slice_iff] at h
      refine poll_congr fun j hj => (h j ?_).symm
      omega
    rwa [hsame, Nat.zero_add]
  · intro h
    rwa [poll_of_answers status n waiting h, Nat.add_sub_cancel_left]

/-- A wait in the log. -/
lemma answered_wait {port : UInt16} {n k : ℕ} {events : List PortEvent} :
    Answered R s (.wait port (slice status n k) :: events) ↔
      slice status n k = slice (R.answers s) 0 k ∧ Answered R (s.later k) events := by
  rw [Answered, Seen.after, slice_length]

end Answers

end SzymOS
