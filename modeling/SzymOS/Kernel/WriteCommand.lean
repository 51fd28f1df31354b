import SzymOS.Kernel.Shell

/-!
# How `cmd_write` takes its arguments apart

The first word is the name and the rest is the content.  `cmd_write` copies at most 31 characters of
the name, and then looks for the content where it has stopped.

A word that is longer than its array is cut, and the rest of it is what the content begins with.
Whether a file is created with such a name is the business of `fs_create_file`, whose result is a
parameter here: the question is only what it is called with.

* `createCalls_eq` — the call to `fs_create_file`, from the word and the rest.
* `write_splits_iff` — for which arguments these are the name and the content.
-/

set_option autoImplicit false

namespace SzymOS

/-! ## The word and the rest

Spaces in front of the word and between it and the rest do not count; spaces inside the rest and
behind it do. -/

/-- Not a space. -/
def inWord (c : UInt8) : Bool := !isSpace c

/-- The first word of a line. -/
def firstWord (line : List UInt8) : List UInt8 := (line.dropWhile isSpace).takeWhile inWord

/-- What follows it, after more spaces. -/
def afterWord (line : List UInt8) : List UInt8 :=
  ((line.dropWhile isSpace).dropWhile inWord).dropWhile isSpace

/-- What is left where the loop that copies the name has stopped, after spaces. -/
def contentRead (line : List UInt8) : List UInt8 :=
  ((line.dropWhile isSpace).drop (min 31 (firstWord line).length)).dropWhile isSpace

/-! ## The calls

The command is written once more with its calls as parameters, and shown to be that of the shell.
Run with calls that are noted down, it gives the list of them. -/

/-- `cmd_write`, with what it calls as parameters. -/
def cmdWriteOn {σ : Type} (print : List TermCall → σ → σ)
    (create : CString → CString → σ → ℤ × σ) (args : CString) (w : σ) : σ :=
  let contentStart := args.drop (leadingSpaces args.bytes)
  let i := filenameLength (maxFilename - 1) contentStart.bytes
  let filename := contentStart.take i
  let contentStart := contentStart.drop i
  if filename.bytes = [] then
    print [.writestring "Usage: write <filename> <content>\n",
      .writestring "Example: write hello.txt Hello World!\n"] w
  else
    let contentStart := contentStart.drop (leadingSpaces contentStart.bytes)
    if contentStart.bytes = [] then print [.writestring "Error: No content provided\n"] w
    else
      let (result, w) := create filename contentStart w
      print (writeReport result filename) w

/-- The calls that it makes to `fs_create_file`, with what that would return. -/
def createCalls (result : CString → CString → ℤ) (args : CString) : List (CString × CString) :=
  cmdWriteOn (fun _ calls => calls)
    (fun name content calls => (result name content, calls ++ [(name, content)])) args []

section Calls

variable {σ : Type}

lemma cmdWrite_eq (M : Machine σ) (args : CString) (w : World σ) : cmdWrite M args w
    = cmdWriteOn (fun calls w => w.print M.toPlatform calls) (fsCreateFile M.toPlatform) args w :=
  rfl

lemma drop_leadingSpaces (line : List UInt8) :
    line.drop (leadingSpaces line) = line.dropWhile isSpace := by
  induction line with
  | nil => rfl
  | cons c line ih =>
      rw [leadingSpaces, List.dropWhile_cons, isSpace]
      by_cases hspace : c = 32
      · rw [if_pos hspace, if_pos (decide_eq_true hspace), List.drop_succ_cons, ih]
      · rw [if_neg hspace, if_neg (by simpa using hspace), List.drop_zero]

lemma filenameLength_word (room : ℕ) (line : List UInt8) :
    filenameLength room line = min room (line.takeWhile inWord).length := by
  induction line generalizing room with
  | nil => cases room <;> simp [filenameLength]
  | cons c line ih =>
      cases room with
      | zero => simp [filenameLength]
      | succ room =>
          rw [filenameLength, List.takeWhile_cons, inWord, isSpace]
          by_cases hspace : c = 32
          · rw [if_neg (not_not.mpr hspace), if_neg (by simpa using hspace)]
            exact (Nat.min_zero _).symm
          · rw [if_pos hspace, if_pos (by simpa using hspace), ih, List.length_cons,
              Nat.add_min_add_right]

/-- **The call.** -/
lemma createCalls_eq (result : CString → CString → ℤ) (args : CString) :
    ∃ name content : CString, name.bytes = (firstWord args.bytes).take 31 ∧
      content.bytes = contentRead args.bytes ∧ createCalls result args =
        if firstWord args.bytes = [] ∨ contentRead args.bytes = [] then []
        else [(name, content)] := by
  let start := args.drop (leadingSpaces args.bytes)
  let i := filenameLength (maxFilename - 1) start.bytes
  let behind := start.drop i
  let content := behind.drop (leadingSpaces behind.bytes)
  have hstart : start.bytes = args.bytes.dropWhile isSpace := drop_leadingSpaces args.bytes
  have hi : i = min 31 (firstWord args.bytes).length := by
    rw [firstWord, ← hstart]
    exact filenameLength_word 31 start.bytes
  have hname : (start.take i).bytes = (firstWord args.bytes).take 31 := by
    rw [CString.take_bytes, hstart, hi]
    conv_lhs => rw [← List.takeWhile_append_dropWhile (p := inWord)
      (l := args.bytes.dropWhile isSpace)]
    exact (List.take_append_of_le_length (Nat.min_le_right _ _)).trans List.take_eq_take_min.symm
  have hcontent : content.bytes = contentRead args.bytes := by
    have hskip := drop_leadingSpaces behind.bytes
    rw [contentRead, ← hi, ← hstart]
    exact hskip
  have hempty : (start.take i).bytes = [] ↔ firstWord args.bytes = [] := by
    rw [hname, List.take_eq_nil_iff]
    exact ⟨fun h => h.resolve_left (by decide), Or.inr⟩
  refine ⟨start.take i, content, hname, hcontent, ?_⟩
  show (if (start.take i).bytes = [] then [] else if content.bytes = [] then []
    else [] ++ [(start.take i, content)]) = _
  rw [← hcontent]
  by_cases hword : firstWord args.bytes = []
  · rw [if_pos (hempty.mpr hword), if_pos (Or.inl hword)]
  · rw [if_neg (mt hempty.mp hword), List.nil_append]
    exact if_congr (or_iff_right hword).symm rfl rfl

/-- A short name: the content begins behind it. -/
lemma contentRead_short {line : List UInt8} (h : (firstWord line).length ≤ 31) :
    contentRead line = afterWord line := by
  have hsplit := List.takeWhile_append_dropWhile (p := inWord) (l := line.dropWhile isSpace)
  rw [contentRead, afterWord, Nat.min_eq_right h]
  conv_lhs => rw [← hsplit]
  rw [firstWord, List.drop_left]

/-- A long name: the content begins inside it. -/
lemma contentRead_long {line : List UInt8} (h : 31 < (firstWord line).length) :
    contentRead line = (firstWord line).drop 31 ++ (line.dropWhile isSpace).dropWhile inWord := by
  have hsplit := List.takeWhile_append_dropWhile (p := inWord) (l := line.dropWhile isSpace)
  have hdrop : (line.dropWhile isSpace).drop 31
      = (firstWord line).drop 31 ++ (line.dropWhile isSpace).dropWhile inWord := by
    conv_lhs => rw [← hsplit]
    exact List.drop_append_of_le_length (Nat.le_of_lt h)
  rw [contentRead, Nat.min_eq_left (Nat.le_of_lt h), hdrop]
  cases hrest : (firstWord line).drop 31 with
  | nil =>
      rw [List.drop_eq_nil_iff] at hrest
      exact absurd hrest (Nat.not_le_of_lt h)
  | cons c rest =>
      have hc : c ∈ firstWord line :=
        List.mem_of_mem_drop (by rw [hrest]; exact List.mem_cons_self)
      have hword : inWord c = true := List.mem_takeWhile_imp hc
      rw [List.cons_append, List.dropWhile_cons, if_neg]
      simpa [inWord] using hword

lemma afterWord_length_lt {line : List UInt8} (h : 31 < (firstWord line).length) :
    (afterWord line).length < (contentRead line).length := by
  have hle : (afterWord line).length ≤ ((line.dropWhile isSpace).dropWhile inWord).length :=
    (List.dropWhile_sublist _).length_le
  rw [contentRead_long h, List.length_append, List.length_drop]
  omega

end Calls

/-! ## The name and the content

A short word is found whole.  Of a long one the content begins with a part, so it is longer than the
rest of the line and cannot be equal to it. -/

/-- The file is created exactly if there are a word and a rest, though a word of more than 31
characters may be refused; and what is passed is the word, or its first 31 characters, and the
rest. -/
def SplitsCorrectly (args : CString) (calls : List (CString × CString)) : Prop :=
  (calls ≠ [] → firstWord args.bytes ≠ [] ∧ afterWord args.bytes ≠ []) ∧
    (firstWord args.bytes ≠ [] ∧ afterWord args.bytes ≠ [] →
      calls ≠ [] ∨ 31 < (firstWord args.bytes).length) ∧
    ∀ name content, (name, content) ∈ calls →
      name.bytes = (firstWord args.bytes).take 31 ∧ content.bytes = afterWord args.bytes

/-- **When the name and the content are right**: exactly when the word has at most 31
characters. -/
theorem write_splits_iff (result : CString → CString → ℤ) (args : CString) :
    SplitsCorrectly args (createCalls result args) ↔ (firstWord args.bytes).length ≤ 31 := by
  obtain ⟨name, content, hname, hcontent, hcalls⟩ := createCalls_eq result args
  rw [hcalls]
  constructor
  · rintro ⟨-, -, hpassed⟩
    by_contra hlong
    rw [not_le] at hlong
    have hword : firstWord args.bytes ≠ [] := List.ne_nil_of_length_pos (Nat.zero_lt_of_lt hlong)
    have hlt := afterWord_length_lt hlong
    have hread : contentRead args.bytes ≠ [] := List.ne_nil_of_length_pos (Nat.zero_lt_of_lt hlt)
    rw [if_neg (not_or.mpr ⟨hword, hread⟩)] at hpassed
    have hsame := (hpassed name content List.mem_cons_self).2
    rw [← hsame, hcontent] at hlt
    exact Nat.lt_irrefl _ hlt
  · intro hshort
    rw [contentRead_short hshort] at hcontent ⊢
    by_cases hnone : firstWord args.bytes = [] ∨ afterWord args.bytes = []
    · rw [if_pos hnone]
      refine ⟨fun h => absurd rfl h, fun h => absurd hnone (not_or.mpr h), ?_⟩
      exact fun _ _ hmem => absurd hmem List.not_mem_nil
    · rw [if_neg hnone]
      refine ⟨fun _ => not_or.mp hnone, fun _ => Or.inl (List.cons_ne_nil _ _), ?_⟩
      intro _ _ hmem
      obtain ⟨rfl, rfl⟩ := Prod.mk.inj (List.mem_singleton.mp hmem)
      exact ⟨hname, hcontent⟩

/-- One word of 32 characters, and nothing behind it. -/
def longWord : CString := CString.ofLiterals ["abcdefghijklmnopqrstuvwxyzABCDEF"] (by decide)

/-- Its last character becomes the content of a file. -/
theorem long_word_splits_wrongly :
    ¬ SplitsCorrectly longWord (createCalls (fun _ _ => 0) longWord) := by
  have hcalls : createCalls (fun _ _ => 0) longWord
      = [(CString.ofLiterals ["abcdefghijklmnopqrstuvwxyzABCDE"] (by decide),
        CString.ofLiterals ["F"] (by decide))] := by decide
  rintro ⟨honly, -⟩
  rw [hcalls] at honly
  exact (honly (List.cons_ne_nil _ _)).2 rfl

end SzymOS
