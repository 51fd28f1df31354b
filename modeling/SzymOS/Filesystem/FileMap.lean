import SzymOS.Filesystem.Code
import Mathlib.Data.Finmap

/-!
# What a file system is for

The purpose of SzymFS, without slots, offsets or sectors: a finite map from names to contents, of
capacity 32, with contents of at most 4096 bytes.  Mathlib's `Finmap` is that map; this file adds
what each call answers and what it does to the map.  `Refinement.lean` proves that
`filesystem.c` computes nothing else.

The limits are part of the purpose: a file system that refuses a thirty-third file, or a content
that does not fit into a slot, does what it should.  What a map does not have is as important.  It
has no order in which files were made, no slot that a file lies in, and no name that is in the way
of another one.
-/

set_option autoImplicit false

namespace SzymOS

/-- Names bound to contents. -/
abbrev FileMap := Finmap fun _ : List UInt8 => List UInt8

/-- What a read hands out of a file's content: as much of it as leaves room for the NUL that
follows, with the number of bytes as the result. -/
def readOf (content : Option (List UInt8)) (maxSize : ℕ) : ℤ × List UInt8 :=
  match content with
  | none => (-1, [])
  | some bytes => (((bytes.take (maxSize - 1)).length : ℕ), bytes.take (maxSize - 1) ++ [0])

namespace FileMap

/-! ## The calls on the map

A call answers with the return code of the C function, so that the answers can be compared as they
are.  A refused call leaves the map alone. -/

/-- Bind a fresh name, if there is room for it. -/
def create (name content : List UInt8) (m : FileMap) : ℤ × FileMap :=
  if name ∈ m then (-2, m)
  else if m.keys.card = maxFiles then (-3, m)
  else if maxFileSize < content.length then (-4, m)
  else (0, m.insert name content)

/-- A creation that succeeds binds a name that was not bound. -/
lemma create_of_zero {name content : List UInt8} {m : FileMap} (h : (create name content m).1 = 0) :
    name ∉ m ∧ (create name content m).2 = m.insert name content := by
  rw [create] at h ⊢
  split_ifs at h ⊢ with hmem hfull hlong
  · exact absurd h (by simp)
  · exact absurd h (by simp)
  · exact absurd h (by simp)
  · exact ⟨hmem, rfl⟩

/-- Unbind a name. -/
def delete (name : List UInt8) (m : FileMap) : ℤ × FileMap :=
  if name ∈ m then (0, m.erase name) else (-1, m)

/-- A deletion that succeeds unbinds a name that was bound. -/
lemma delete_of_zero {name : List UInt8} {m : FileMap} (h : (delete name m).1 = 0) :
    name ∈ m ∧ (delete name m).2 = m.erase name := by
  rw [delete] at h ⊢
  split_ifs at h ⊢ with hmem
  · exact ⟨hmem, rfl⟩
  · exact absurd h (by simp)

/-- What each call answers, and what it does to the map. -/
def call : FsCall → FileMap → FsResult × FileMap
  | .create name content, m =>
      (.code (create name.bytes content.bytes m).1, (create name.bytes content.bytes m).2)
  | .delete name, m => (.code (delete name.bytes m).1, (delete name.bytes m).2)
  | .fileExists name, m => (.truth (decide (name.bytes ∈ m)), m)
  | .read name maxSize, m =>
      (.bytes (readOf (m.lookup name.bytes) maxSize.toNat).1
        (readOf (m.lookup name.bytes) maxSize.toNat).2, m)
  | .save, m => (.done, m)
  | .list, m => (.done, m)
  | .init, _ => (.done, ∅)

end FileMap

end SzymOS
