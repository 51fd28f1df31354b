import SzymOS.Filesystem.SaveLoad

/-!
# Reading an untrusted image

A load checks the magic number and nothing else, so after it the directory can hold anything.
This file records which bytes the functions of `filesystem.c` read through the fields of an entry:
`Access` is one such byte, and `reads` lists those of a call.

The functions that use an entry trust it.  A name without a NUL sends `strcmp` past its 32 bytes
into the next field, and an offset near the end of the data, or beyond, sends the copy of a read
past `fs_data`.  What is there belongs to other modules, and a read hands it out.  `fs_create_file`
never makes such an entry, so the question arises for images that something else has written.

The condition is on the image alone, each used entry by itself.  It is sufficient, since a safe
entry is never used outside its arrays and calls do not make unsafe ones.  And it is necessary: for
any unsafe entry there is a run that uses it, even if another entry of the same name hides it at
first, because deleting that one uncovers it.

* `fsFindFile_congr_reads`, `fsReadFile_congr_reads` — the lists are complete: what a call
  returns is decided by the bytes they name.
* `reads_inBounds` — on a directory whose entries are safe, every call stays inside its arrays.
* `untrusted_image_safe_iff` — for an image, this is so along every run exactly when all its
  entries are safe.

Two lemmas carry the direction in which the code fails.  `unterminated_escapes`: an entry without a
NUL is read behind its name by the lookup of a string that begins with its 32 bytes.
`range_escapes`: a file that is not inside the data is read there by `cat`.  The second one needs
that the file is found under its name, and for this `deletes_uncover` removes all files in front of
it that have the same name; by induction on their number.
-/

set_option autoImplicit false

namespace SzymOS

open Bytes Transition

/-! ## Accesses

Only accesses through an entry are recorded, those to which the content of the image decides the
address.  Each is a pair of an entry and a distance in its name, or an address relative to
`fs_data`; addresses are taken modulo 2^32, as the processor does. -/

/-- A byte read through an entry: at a distance from the start of its name, or at an address
relative to `fs_data`. -/
inductive Access where
  | name (slot : Fin 32) (k : ℕ)
  | data (address : ℕ)

/-- Inside the 32-byte name array, and inside `fs_data`. -/
def Access.InBounds : Access → Prop
  | .name _ k => k < 32
  | .data address => address < 131072

variable {σ : Type} (P : Platform σ)

/-- What an access finds. -/
def Access.value (w : World σ) : Access → UInt8
  | .name slot k => nameMemory P w slot k
  | .data address => dataMemory P w address

/-- The name bytes that the loop of `fs_find_file` reads: of each used entry up to where `strcmp`
stops, until one compares equal. -/
def findReads (w : World σ) (name : CString) : List (Fin 32) → List Access
  | [] => []
  | i :: slots =>
      if (w.fs.fsHeader.files i).used ≠ 0 then
        (List.range (strcmpStop (nameMemory P w i) name + 1)).map (.name i) ++
          if strcmp (nameMemory P w i) name = 0 then [] else findReads w name slots
      else findReads w name slots

def fsFindFileReads (w : World σ) (name : CString) : List Access :=
  findReads P w name (List.finRange 32)

/-- The bytes `fs_read_file` reads: those of the lookup, then the ones it copies. -/
def fsReadFileReads (w : World σ) (name : CString) (maxSize : UInt32) : List Access :=
  if !w.fs.fsInitialized then []
  else
    fsFindFileReads P w name ++
      match fsFindFile P w name with
      | none => []
      | some slot =>
          (List.range (readSize (w.fs.fsHeader.files slot).size maxSize).toNat).map fun j =>
            .data (((w.fs.fsHeader.files slot).offset.toNat + j) % 2 ^ 32)

/-- The name bytes a listing reads: of each used entry up to its NUL. -/
def fsListFilesReads (w : World σ) : List Access :=
  if !w.fs.fsInitialized ∨ w.fs.fsHeader.fileCount = 0 then []
  else
    ((List.finRange 32).filter fun i => (w.fs.fsHeader.files i).used != 0).flatMap fun i =>
      (List.range (strlen (nameMemory P w i) + 1)).map (.name i)

/-- The bytes a call reads through entries. -/
def reads (w : World σ) : FsCall → List Access
  | .create name _ => if !w.fs.fsInitialized then [] else fsFindFileReads P w name
  | .delete name => if !w.fs.fsInitialized then [] else fsFindFileReads P w name
  | .fileExists name => fsFindFileReads P w name
  | .read name maxSize => fsReadFileReads P w name maxSize
  | .list => fsListFilesReads P w
  | .save => []
  | .init => []

/-! ## The lists are complete

That a list names all bytes which matter is a theorem about the function: in another memory, in
which these bytes are the same and all others are arbitrary, the function returns the same.  So
nothing that a call reads is missing from its list. -/

/-- `strcmp` is decided by the bytes up to where it stops. -/
lemma strcmpFrom_congr {str str' : ℕ → UInt8} (rest : List UInt8) (i : ℕ)
    (h : ∀ j, i ≤ j → j ≤ strcmpFrom str rest i → str' j = str j) :
    strcmpFrom str' rest i = strcmpFrom str rest i := by
  induction rest generalizing i with
  | nil => rfl
  | cons c rest ih =>
      rw [strcmpFrom] at h
      rw [strcmpFrom, strcmpFrom]
      by_cases hc : str i ≠ 0 ∧ str i = c
      · obtain ⟨k, hk, -⟩ := strcmpFrom_spec str rest (i + 1)
        rw [if_pos hc] at h
        have hi : str' i = str i := h i (Nat.le_refl i) (by omega)
        rw [if_pos hc, hi, if_pos hc]
        exact ih (i + 1) fun j h1 h2 => h j (by omega) h2
      · rw [if_neg hc] at h
        have hi : str' i = str i := h i (Nat.le_refl i) (Nat.le_refl i)
        rw [if_neg hc, hi, if_neg hc]

lemma strcmp_congr {str str' : ℕ → UInt8} {s : CString}
    (h : ∀ j ≤ strcmpStop str s, str' j = str j) : strcmp str' s = strcmp str s := by
  have hstop : strcmpStop str' s = strcmpStop str s :=
    strcmpFrom_congr s.bytes 0 fun j _ hj => h j hj
  rw [strcmp, strcmp, hstop, h _ (Nat.le_refl _)]

/-- The loop reads names only, of used entries, up to where `strcmp` stops. -/
lemma of_mem_findReads {w : World σ} {name : CString} {slots : List (Fin 32)} {a : Access}
    (h : a ∈ findReads P w name slots) :
    ∃ i k, w.fs.fsHeader.Used i ∧ k ≤ strcmpStop (nameMemory P w i) name ∧ a = .name i k := by
  induction slots with
  | nil => exact absurd h (by simp [findReads])
  | cons i slots ih =>
      rw [findReads] at h
      split_ifs at h with hused hzero
      · rw [List.append_nil] at h
        obtain ⟨k, hk, rfl⟩ := List.mem_map.mp h
        exact ⟨i, k, hused, by rw [List.mem_range] at hk; omega, rfl⟩
      · rcases List.mem_append.mp h with hi | hrest
        · obtain ⟨k, hk, rfl⟩ := List.mem_map.mp hi
          exact ⟨i, k, hused, by rw [List.mem_range] at hk; omega, rfl⟩
        · exact ih hrest
      · exact ih h

/-- And it reads all of these, of every entry it gets to. -/
lemma mem_findReads {w : World σ} {name : CString} {slots : List (Fin 32)} {i : Fin 32}
    (hsorted : slots.Pairwise (· < ·)) (hi : i ∈ slots) (hused : w.fs.fsHeader.Used i)
    (hearlier : ∀ j < i, ¬ Matches P w name j) {k : ℕ}
    (hk : k ≤ strcmpStop (nameMemory P w i) name) : .name i k ∈ findReads P w name slots := by
  induction slots with
  | nil => exact absurd hi (by simp)
  | cons j slots ih =>
      obtain ⟨hlt, hsorted⟩ := List.pairwise_cons.mp hsorted
      rw [findReads]
      rcases List.mem_cons.mp hi with rfl | hrest
      · have hrange : k ∈ List.range (strcmpStop (nameMemory P w i) name + 1) := by
          rw [List.mem_range]
          omega
        rw [if_pos (show (w.fs.fsHeader.files i).used ≠ 0 from hused)]
        exact List.mem_append_left _ (List.mem_map_of_mem hrange)
      · -- entry `j` comes before entry `i`, so the loop goes on after it
        have hno := hearlier j (hlt i hrest)
        split_ifs with hj hzero
        · exact absurd ⟨hj, hzero⟩ hno
        · exact List.mem_append_right _ (ih hsorted hrest)
        · exact ih hsorted hrest

lemma mem_fsFindFileReads {w : World σ} {name : CString} {i : Fin 32}
    (hused : w.fs.fsHeader.Used i) (hearlier : ∀ j < i, ¬ Matches P w name j) {k : ℕ}
    (hk : k ≤ strcmpStop (nameMemory P w i) name) : .name i k ∈ fsFindFileReads P w name :=
  mem_findReads P (List.pairwise_lt_finRange 32) (List.mem_finRange i) hused hearlier hk

/-- **The list of a lookup is complete.**  Another memory with the same used bytes, in which these
accesses find the same, gives the same result. -/
theorem fsFindFile_congr_reads {P' : Platform σ} {w w' : World σ} {name : CString}
    (hused : ∀ i, w'.fs.fsHeader.Used i ↔ w.fs.fsHeader.Used i)
    (hsame : ∀ a ∈ fsFindFileReads P w name, a.value P' w' = a.value P w) :
    fsFindFile P' w' name = fsFindFile P w name := by
  have hmatch : ∀ i, (∀ j < i, ¬ Matches P w name j) →
      (Matches P' w' name i ↔ Matches P w name i) := by
    intro i hearlier
    rw [Matches, Matches, hused i]
    refine and_congr_right ?_
    intro hi
    have hcmp : strcmp (nameMemory P' w' i) name = strcmp (nameMemory P w i) name :=
      strcmp_congr fun k hk => hsame (.name i k) (mem_fsFindFileReads P hi hearlier hk)
    rw [hcmp]
  cases hfind : fsFindFile P w name with
  | none =>
      rw [fsFindFile_eq_none_iff] at hfind ⊢
      exact fun j hj => hfind j ((hmatch j fun j' _ => hfind j').mp hj)
  | some i =>
      rw [fsFindFile_eq_some_iff] at hfind ⊢
      obtain ⟨hi, hearlier⟩ := hfind
      exact ⟨(hmatch i hearlier).mpr hi, fun j hj hc =>
        hearlier j hj ((hmatch j fun j' hj' => hearlier j' (hj'.trans hj)).mp hc)⟩

/-- **The list of a read is complete.** -/
theorem fsReadFile_congr_reads {P' : Platform σ} {w w' : World σ} {name : CString}
    {maxSize : UInt32} (hinit : w'.fs.fsInitialized = w.fs.fsInitialized)
    (hused : ∀ i, w'.fs.fsHeader.Used i ↔ w.fs.fsHeader.Used i)
    (hsize : ∀ i, (w'.fs.fsHeader.files i).size = (w.fs.fsHeader.files i).size)
    (hoffset : ∀ i, (w'.fs.fsHeader.files i).offset = (w.fs.fsHeader.files i).offset)
    (hsame : ∀ a ∈ fsReadFileReads P w name maxSize, a.value P' w' = a.value P w) :
    fsReadFile P' w' name maxSize = fsReadFile P w name maxSize := by
  rw [fsReadFile, fsReadFile, hinit]
  split_ifs with hni
  · rfl
  · rw [fsReadFileReads, if_neg hni] at hsame
    rw [fsFindFile_congr_reads P hused fun a ha => hsame a (List.mem_append_left _ ha)]
    cases hfind : fsFindFile P w name with
    | none => rfl
    | some slot =>
        simp only [hfind] at hsame
        simp only [hsize, hoffset]
        refine congrArg (fun bytes => (_, bytes ++ [0])) (slice_congr ?_)
        intro j hj
        have hmem := hsame (.data (((w.fs.fsHeader.files slot).offset.toNat + j) % 2 ^ 32))
          (List.mem_append_right _ (List.mem_map_of_mem (List.mem_range.mpr hj)))
        simpa [Access.value, dataMemory] using hmem

/-! ## Safe entries

The reader of the kernel is `cat`, with a buffer of 4097 bytes, of which it fills 4096.  A file may
therefore claim to be longer than a slot, as long as what `cat` copies of it lies in the data. -/

/-- The name ends inside its array, and what `cat` copies of the content lies in `fs_data`. -/
def FileEntry.Safe (e : FileEntry) : Prop :=
  nameLen e.name < 32 ∧
    (min e.size.toNat 4096 = 0 ∨ e.offset.toNat + min e.size.toNat 4096 ≤ 131072)

def FilesystemHeader.Safe (h : FilesystemHeader) : Prop := ∀ i, h.Used i → (h.files i).Safe

lemma FilesystemHeader.Safe.terminated {h : FilesystemHeader} (hs : h.Safe) : h.Terminated :=
  fun i hi => (hs i hi).1

/-- The sizes callers read with: `cat` has a buffer for 4096 bytes and a NUL. -/
def FsCall.CatSized : FsCall → Prop
  | .read _ maxSize => maxSize = 4097
  | _ => True

lemma readSize_cat (size : UInt32) : (readSize size 4097).toNat = min size.toNat 4096 :=
  readSize_toNat size (show 1 ≤ 4097 by omega)

/-- `strcmp` stops at the NUL of a terminated name at the latest. -/
lemma strcmpStop_le {w : World σ} {i : Fin 32}
    (hterm : nameLen (w.fs.fsHeader.files i).name < 32) (name : CString) :
    strcmpStop (nameMemory P w i) name ≤ nameLen (w.fs.fsHeader.files i).name := by
  by_contra hlong
  obtain ⟨-, hsame, -⟩ := strcmpStop_spec (nameMemory P w i) name
  have hne := (hsame (nameLen (w.fs.fsHeader.files i).name) (by omega)).2
  exact hne ((nameMemory_eq P w i ⟨_, hterm⟩).trans (nameLen_zero _ hterm))

lemma strlen_nameMemory {w : World σ} {i : Fin 32}
    (hterm : nameLen (w.fs.fsHeader.files i).name < 32) :
    strlen (nameMemory P w i) = nameLen (w.fs.fsHeader.files i).name := by
  refine strlen_eq ?_ (by omega) ?_
  · exact (nameMemory_eq P w i ⟨_, hterm⟩).trans (nameLen_zero _ hterm)
  · intro j hj
    rw [nameMemory_eq P w i ⟨j, by omega⟩]
    exact nameLen_ne_zero _ ⟨j, by omega⟩ hj

/-- **On safe entries every call stays inside its arrays.** -/
theorem reads_inBounds {w : World σ} (hsafe : w.fs.fsHeader.Safe) {call : FsCall}
    (hcat : call.CatSized) : ∀ a ∈ reads P w call, a.InBounds := by
  have hfind : ∀ name, ∀ a ∈ fsFindFileReads P w name, a.InBounds := by
    intro name a ha
    obtain ⟨i, k, hi, hk, rfl⟩ := of_mem_findReads P ha
    have hstop := strcmpStop_le P (hsafe i hi).1 name
    have hterm := (hsafe i hi).1
    exact show k < 32 by omega
  intro a ha
  cases call with
  | init => exact absurd ha (by simp [reads])
  | save => exact absurd ha (by simp [reads])
  | fileExists name => exact hfind name a ha
  | create name content =>
      rw [reads] at ha
      split_ifs at ha
      · exact absurd ha (by simp)
      · exact hfind name a ha
  | delete name =>
      rw [reads] at ha
      split_ifs at ha
      · exact absurd ha (by simp)
      · exact hfind name a ha
  | list =>
      rw [reads, fsListFilesReads] at ha
      split_ifs at ha
      · exact absurd ha (by simp)
      · obtain ⟨i, hi, hmem⟩ := List.mem_flatMap.mp ha
        obtain ⟨k, hk, rfl⟩ := List.mem_map.mp hmem
        have hused : w.fs.fsHeader.Used i := bne_iff_ne.mp (List.mem_filter.mp hi).2
        have hterm := (hsafe i hused).1
        rw [List.mem_range, strlen_nameMemory P hterm] at hk
        exact show k < 32 by omega
  | read name maxSize =>
      have hmax : maxSize = 4097 := hcat
      subst hmax
      rw [reads, fsReadFileReads] at ha
      split_ifs at ha
      · exact absurd ha (by simp)
      · rcases List.mem_append.mp ha with ha | ha
        · exact hfind name a ha
        · cases hl : fsFindFile P w name with
          | none => rw [hl] at ha; exact absurd ha (by simp)
          | some slot =>
              rw [hl] at ha
              obtain ⟨j, hj, rfl⟩ := List.mem_map.mp ha
              obtain ⟨-, hrange⟩ := hsafe slot ((fsFindFile_eq_some_iff P).mp hl).1.1
              rw [List.mem_range, readSize_cat] at hj
              have hmod := Nat.mod_le ((w.fs.fsHeader.files slot).offset.toNat + j) (2 ^ 32)
              exact show ((w.fs.fsHeader.files slot).offset.toNat + j) % 2 ^ 32 < 131072 by omega

/-! ## Unsafe entries

For the other direction there must be a call that leaves the arrays.  An entry without a NUL is met
by the lookup of a suitable name.  A file outside the data is met by reading it, once all entries
with the same name in front of it have been deleted. -/

/-- The first unterminated name lets a lookup of its 32 bytes read past it. -/
lemma unterminated_escapes {w : World σ} {i : Fin 32} (hused : w.fs.fsHeader.Used i)
    (hlong : ¬ nameLen (w.fs.fsHeader.files i).name < 32)
    (hearlier : ∀ j < i, w.fs.fsHeader.Used j → nameLen (w.fs.fsHeader.files j).name < 32) :
    .name i 32 ∈ fsFindFileReads P w (nameString (w.fs.fsHeader.files i).name) := by
  have hlen : nameLen (w.fs.fsHeader.files i).name = 32 := by
    have hle := nameLen_le (w.fs.fsHeader.files i).name
    omega
  have hlength : (nameString (w.fs.fsHeader.files i).name).length = 32 := by
    rw [CString.length, nameString, nameBytes_length, hlen]
  refine mem_fsFindFileReads P hused ?_ ?_
  · -- the earlier names are shorter, so none of them compares equal
    rintro j hj ⟨hu, hc⟩
    rw [strcmp_nameMemory P (hearlier j hj hu)] at hc
    have hshort := hearlier j hj hu
    have heq := congrArg List.length hc
    rw [entryName, nameBytes_length] at heq
    rw [CString.length] at hlength
    omega
  · obtain ⟨hle, -, hend⟩ := strcmpStop_spec (nameMemory P w i)
      (nameString (w.fs.fsHeader.files i).name)
    by_contra hstop
    have hlt : strcmpStop (nameMemory P w i) (nameString (w.fs.fsHeader.files i).name) < 32 := by
      omega
    have hmem := nameMemory_eq P w i ⟨_, hlt⟩
    rcases hend (by omega) with h0 | hne
    · exact nameLen_ne_zero _ ⟨_, hlt⟩ (by rw [hlen]; exact hlt) (hmem.symm.trans h0)
    · exact hne (hmem.trans (nameString_mem _ (k := ⟨_, hlt⟩) (by rw [hlen]; exact hlt)).symm)

/-- Deleting a name often enough uncovers any of the files that have it. -/
lemma deletes_uncover (env : Env) {i : Fin 32} {name : CString} (n : ℕ) :
    ∀ (w : SectorWorld) (j : Fin 32), (i : ℕ) - j = n → w.fs.fsInitialized = true →
      w.fs.fsHeader.Terminated → w.fs.fsHeader.Used i →
      entryName (w.fs.fsHeader.files i) = name.bytes → w.fs.fsHeader.lookup name.bytes = some j →
      ∃ m, let w' := final diskStep (List.replicate m (env, FsCall.delete name)) w
        w'.fs.fsInitialized = true ∧ w'.fs.fsHeader.Terminated ∧
          w'.fs.fsHeader.files i = w.fs.fsHeader.files i ∧
          w'.fs.fsHeader.lookup name.bytes = some i := by
  induction n using Nat.strong_induction_on with
  | _ n ih =>
      intro w j hn hinit hterm hused hname hj
      obtain ⟨-, hearlier⟩ := FilesystemHeader.lookup_eq_some_iff.mp hj
      have hle : j ≤ i := by
        by_contra hlt
        exact hearlier i (by omega) ⟨hused, hname⟩
      rcases eq_or_lt_of_le hle with rfl | hlt
      · exact ⟨0, hinit, hterm, rfl, hj⟩
      · -- one deletion takes away file `j`; the next one found comes after it
        have hne : i ≠ j := Ne.symm (Fin.ne_of_lt hlt)
        have hdelete : fsDeleteFile (sectorPlatform env) name w
            = (0, fsSaveToDisk (sectorPlatform env) { w with fs := fsClearSlot j w.fs }) := by
          rw [fsDeleteFile, if_neg (by simp [hinit]), fsFindFile_eq_lookup _ hterm, hj]
        have hheader : (diskStep (env, .delete name) w).2.fs.fsHeader
            = (fsClearSlot j w.fs).fsHeader := by
          simp only [diskStep, fsCall, hdelete, fsSaveToDisk_fsHeader]
        have hinit' : (diskStep (env, .delete name) w).2.fs.fsInitialized = true := by
          simp only [diskStep, fsCall, hdelete, fsSaveToDisk_fsInitialized]
          exact hinit
        have hused' : (fsClearSlot j w.fs).fsHeader.Used i := fsClearSlot_used_iff.mpr ⟨hne, hused⟩
        have hfile : (fsClearSlot j w.fs).fsHeader.files i = w.fs.fsHeader.files i :=
          fsClearSlot_files_of_ne hne
        obtain ⟨j', hj'⟩ : ∃ j', (fsClearSlot j w.fs).fsHeader.lookup name.bytes = some j' := by
          rw [← Option.isSome_iff_exists, ← Option.ne_none_iff_isSome]
          intro hc
          exact FilesystemHeader.lookup_eq_none_iff.mp hc i hused' (by rw [hfile]; exact hname)
        obtain ⟨⟨hu', hn'⟩, -⟩ := FilesystemHeader.lookup_eq_some_iff.mp hj'
        obtain ⟨hne', hu⟩ := fsClearSlot_used_iff.mp hu'
        rw [fsClearSlot_files_of_ne hne'] at hn'
        have hlater : j < j' := by
          rcases lt_trichotomy j j' with h | h | h
          · exact h
          · exact absurd h.symm hne'
          · exact absurd ⟨hu, hn'⟩ (hearlier j' h)
        obtain ⟨m, hm⟩ := ih ((i : ℕ) - j') (by omega) (diskStep (env, .delete name) w).2 j' rfl
          hinit' (hheader ▸ fsClearSlot_terminated hterm) (hheader ▸ hused')
          (by rw [hheader, hfile]; exact hname) (by rw [hheader]; exact hj')
        refine ⟨m + 1, ?_⟩
        rw [hheader, hfile] at hm
        exact hm

/-- Reading a file that does not lie in `fs_data` reads outside it. -/
lemma range_escapes {w : World σ} {i : Fin 32} {name : CString} (hinit : w.fs.fsInitialized = true)
    (hfind : fsFindFile P w name = some i)
    (hrange : ¬ (min (w.fs.fsHeader.files i).size.toNat 4096 = 0 ∨
      (w.fs.fsHeader.files i).offset.toNat + min (w.fs.fsHeader.files i).size.toNat 4096
        ≤ 131072)) : ∃ a ∈ reads P w (.read name 4097), ¬ a.InBounds := by
  have hoff := (w.fs.fsHeader.files i).offset.toNat_lt
  have hmem : ∀ j < min (w.fs.fsHeader.files i).size.toNat 4096,
      .data (((w.fs.fsHeader.files i).offset.toNat + j) % 2 ^ 32)
        ∈ reads P w (.read name 4097) := by
    intro j hj
    rw [reads, fsReadFileReads, if_neg (by simp [hinit]), hfind]
    exact List.mem_append_right _
      (List.mem_map_of_mem (List.mem_range.mpr (by rw [readSize_cat]; exact hj)))
  -- the first byte read that is outside: the first of all, or the one at the end of `fs_data`
  rcases Nat.lt_or_ge (w.fs.fsHeader.files i).offset.toNat 131072 with hlt | hge
  · refine ⟨_, hmem (131072 - (w.fs.fsHeader.files i).offset.toNat) (by omega), ?_⟩
    exact show ¬ ((w.fs.fsHeader.files i).offset.toNat
      + (131072 - (w.fs.fsHeader.files i).offset.toNat)) % 2 ^ 32 < 131072 by omega
  · refine ⟨_, hmem 0 (by omega), ?_⟩
    exact show ¬ ((w.fs.fsHeader.files i).offset.toNat + 0) % 2 ^ 32 < 131072 by omega

/-! ## Images

Both are put together for the runs of a machine that has booted from the image.  The boot copies it
into memory byte for byte, so the entries in memory are those of the image. -/

/-- What a call stores keeps entries safe. -/
lemma StoredBy.safe {w : World σ} {call : FsCall} {s : FsState} (h : StoredBy P w call s)
    (hs : w.fs.fsHeader.Safe) : s.fsHeader.Safe := by
  intro i hi
  cases h with
  | save => exact hs i hi
  | @fill name content slot hfind hslot hlen =>
      by_cases heq : i = slot
      · subst heq
        rw [fsFillSlot_files_self, FileEntry.Safe, nameLen_storeName]
        simp only [contentLen_toNat, slotOffset_toNat]
        omega
      · rw [fsFillSlot_files_of_ne heq]
        exact hs i ((fsFillSlot_used_iff.mp hi).resolve_left heq)
  | @clear name slot hfind =>
      obtain ⟨hne, hu⟩ := fsClearSlot_used_iff.mp hi
      rw [fsClearSlot_files_of_ne hne]
      exact hs i hu

/-- The call reads inside the arrays of the directory and the data. -/
def ReadsInBounds (e : Env × FsCall) (w : SectorWorld) : Prop :=
  ∀ a ∈ reads (sectorPlatform e.1) w e.2, a.InBounds

/-- **When an untrusted image is safe.**  After a boot that has read it, every call of every run
stays inside the arrays exactly when each used entry of the image has its NUL inside its name and
what `cat` copies of its content inside `fs_data`. -/
theorem untrusted_image_safe_iff (drive : DriveId) (dev : SectorDev) (boot : Env)
    (hboot : boot.AllRead) (hmagic : (diskHeader dev.disk).magic = szymfsMagic) :
    (∀ calls : List (Env × FsCall), (∀ e ∈ calls, e.2 ≠ .init ∧ e.2.CatSized) →
        Along diskStep ReadsInBounds calls (reboot drive boot dev))
      ↔ ∀ i, (diskHeader dev.disk).Used i → ((diskHeader dev.disk).files i).Safe := by
  have hbooted := reboot_booted drive dev hboot.headerReads
  have hheader : (reboot drive boot dev).fs.fsHeader = diskHeader dev.disk := by
    rw [(reboot_szymfs drive dev hboot.headerReads hmagic).1]
  rw [← hheader]
  constructor
  · intro hall
    -- names first: the least unterminated one would be read past
    have hterm : (reboot drive boot dev).fs.fsHeader.Terminated := by
      intro i
      induction i using WellFoundedLT.induction with
      | _ i ih =>
          intro hi
          by_contra hlong
          have hrun := hall [(boot, .fileExists (nameString
            ((reboot drive boot dev).fs.fsHeader.files i).name))] (by simp [FsCall.CatSized])
          exact Nat.lt_irrefl 32 (hrun.1 (.name i 32)
            (unterminated_escapes (sectorPlatform boot) hi hlong ih))
    intro i hi
    refine ⟨hterm i hi, ?_⟩
    by_contra hrange
    -- then contents: the files that hide this one are deleted, and it is read
    obtain ⟨name, hname⟩ : ∃ name : CString,
        entryName ((reboot drive boot dev).fs.fsHeader.files i) = name.bytes :=
      ⟨nameString _, rfl⟩
    obtain ⟨j, hj⟩ : ∃ j, (reboot drive boot dev).fs.fsHeader.lookup name.bytes = some j := by
      rw [← Option.isSome_iff_exists, ← Option.ne_none_iff_isSome]
      exact fun hc => FilesystemHeader.lookup_eq_none_iff.mp hc i hi hname
    obtain ⟨m, hinit, hterm', hfile, hfound⟩ :=
      deletes_uncover boot _ _ j rfl hbooted.initialized hterm hi hname hj
    have hrun := Along.after (hall (List.replicate m (boot, .delete name) ++
      (boot, .read name 4097) :: []) (by
        intro e he
        rcases List.mem_append.mp he with he | he
        · rw [List.eq_of_mem_replicate he]
          exact ⟨by simp, trivial⟩
        · rw [List.mem_singleton.mp he]
          exact ⟨by simp, rfl⟩))
    rw [← fsFindFile_eq_lookup (sectorPlatform boot) hterm'] at hfound
    obtain ⟨a, ha, hout⟩ := range_escapes (sectorPlatform boot) hinit hfound
      (by rw [hfile]; exact hrange)
    exact hout (hrun a ha)
  · intro hsafe calls hcalls
    refine (along_of_step (I := fun w : SectorWorld => w.fs.fsHeader.Safe)
      (Q := fun e _ => e.2 ≠ .init ∧ e.2.CatSized) ?_ hsafe
      (along_of_forall fun e he _ => hcalls e he)).1
    intro e _ w hs ⟨hcall, hcat⟩
    refine ⟨reads_inBounds (sectorPlatform e.1) hs hcat, ?_⟩
    exact fsCall_preserves (I := fun s => s.fsHeader.Safe) (sectorPlatform e.1) (fun _ _ h => h)
      hcall (fun s hstored => hstored.safe (sectorPlatform e.1) hs) hs

/-! ### One file, placed anywhere

A header with a single file of one byte, whose offset is a parameter.  It is the smallest image that
can be safe or unsafe. -/

/-- A drive whose file system starts with this header. -/
def SectorDev.ofHeader (h : FilesystemHeader) : SectorDev where
  disk lba := Sector.ofMemory (headerByte h) (512 * (lba - 2048))
  term := []

lemma diskHeader_ofHeader (h : FilesystemHeader) :
    diskHeader (SectorDev.ofHeader h).disk = h := by
  refine (headerOfBytes_congr ?_).trans (headerOfBytes_headerByte h)
  intro p _
  have hpos : 512 * (2048 + p / 512 - 2048) + p % 512 = p := by omega
  rw [diskByte, SectorDev.ofHeader, Sector.byte_ofMemory _ _ (by omega), hpos]

/-- A file with a name and a content of one byte. -/
def oneFile (offset : UInt32) : FilesystemHeader where
  magic := szymfsMagic
  fileCount := 1
  files i :=
    { name := fun k => if k = 0 then 97 else 0
      size := 1
      offset
      used := if i = 0 then 1 else 0
      pad := fun _ => 0 }

lemma oneFile_nameLen (offset : UInt32) (i : Fin 32) :
    nameLen ((oneFile offset).files i).name = 1 :=
  nameLen_eq (by omega) rfl fun k hk => by
    have hk0 : k = 0 := Fin.ext (by simpa using hk)
    simp [oneFile, hk0]

/-- Placed at the start of `fs_data` the file is safe to look up, to list and to read. -/
theorem untrusted_image_safe_oneFile : Along diskStep ReadsInBounds
    [(Env.faultless, .read (nameString ((oneFile 0).files 0).name) 4097), (Env.faultless, .list)]
    (reboot .primaryMaster Env.faultless (.ofHeader (oneFile 0))) := by
  refine (untrusted_image_safe_iff .primaryMaster (.ofHeader (oneFile 0)) Env.faultless
    Env.faultless_allRead (by rw [diskHeader_ofHeader]; rfl)).mpr ?_ _ ?_
  · intro i _
    rw [diskHeader_ofHeader, FileEntry.Safe, oneFile_nameLen]
    exact ⟨by omega,
      Or.inr (show (0 : UInt32).toNat + min (1 : UInt32).toNat 4096 ≤ 131072 by decide)⟩
  · intro e he
    rcases List.mem_cons.mp he with rfl | he
    · exact ⟨by simp, rfl⟩
    · rw [List.mem_singleton.mp he]
      exact ⟨by simp, trivial⟩

/-- Placed right behind `fs_data` it is read from there. -/
theorem untrusted_image_escapes : ¬ Along diskStep ReadsInBounds
    [(Env.faultless, .read (nameString ((oneFile 131072).files 0).name) 4097)]
    (reboot .primaryMaster Env.faultless (.ofHeader (oneFile 131072))) := by
  have hmagic : (diskHeader (SectorDev.ofHeader (oneFile 131072)).disk).magic = szymfsMagic := by
    rw [diskHeader_ofHeader]
    rfl
  have hheader : (reboot .primaryMaster Env.faultless
      (.ofHeader (oneFile 131072))).fs.fsHeader = oneFile 131072 := by
    rw [(reboot_szymfs _ _ Env.faultless_allRead.headerReads hmagic).1]
    exact diskHeader_ofHeader _
  have hinit : (reboot .primaryMaster Env.faultless
      (.ofHeader (oneFile 131072))).fs.fsInitialized = true := (reboot_ready _ _).2
  generalize reboot .primaryMaster Env.faultless (.ofHeader (oneFile 131072)) = w
    at hheader hinit ⊢
  have hterm : w.fs.fsHeader.Terminated := by
    intro i _
    rw [hheader, oneFile_nameLen]
    omega
  have hfind : fsFindFile (sectorPlatform Env.faultless) w
      (nameString ((oneFile 131072).files 0).name) = some 0 := by
    rw [fsFindFile_eq_lookup _ hterm, hheader, FilesystemHeader.lookup_eq_some_iff]
    exact ⟨⟨by decide, rfl⟩, fun j hj => absurd hj (Nat.not_lt_zero _)⟩
  obtain ⟨a, ha, hout⟩ := range_escapes (sectorPlatform Env.faultless) hinit hfind (by
    rw [hheader]
    decide)
  exact fun h => hout (h.1 a ha)

end SzymOS
