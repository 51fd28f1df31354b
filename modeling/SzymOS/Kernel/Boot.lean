import Mathlib.Algebra.Order.BigOperators.Group.List
import SzymOS.Filesystem.Code

/-!
# The end of `kernel_main`

What `kernel_main` does between the selection of a drive and the shell: start the file system, and
create `README.txt` if it is not there.

The file is looked for by name, so it is created on every boot that does not find it, also after it
has been removed on purpose; and what the user has written under this name is left alone.

The text is one string of the source, put together from adjacent literals.  How long it is matters:
it is below the 4096 bytes of an entry, so it is stored whole.  The bound is proved from the lengths
of the literals, without decoding a character.
-/

set_option autoImplicit false

namespace SzymOS

def readmeName : CString := CString.ofLiterals ["README.txt"] (by decide)

/-- The literals that make up the text. -/
def readmeLiterals : List String :=
  ["SzymOS is a custom operating system kernel built from scratch, ",
    "focused on being fast, clean, and extensible. This project is aimed ",
    "at building a serious low-level system with real functionality, while ",
    "keeping the codebase approachable enough for contributors to extend ",
    "and improve. ",
    "| Core Focus: Performance and simplicity. Clean, understandable ",
    "architecture. Real hardware support. Expandable system design. ",
    "| Features: Bootable on real x86 hardware. Persistent filesystem (SzymFS). ",
    "Interactive shell with 16+ commands. CPU, memory, and disk detection ",
    "VGA text-mode interface (80x25). Keyboard driver (QWERTY + shift support). ",
    "File operations (create, read, delete)."]

/-- The characters of a literal need not be decoded to be counted. -/
lemma readmeLiterals_forall_length_le : ∀ text ∈ readmeLiterals, text.toList.length ≤ 80 := by
  simp only [readmeLiterals, List.forall_mem_cons]
  and_intros
  on_goal 12 => exact fun _ h => absurd h List.not_mem_nil
  all_goals exact (congrArg List.length String.toList_ofList).trans_le (by decide)

lemma readmeLiterals_length_le : (CString.literalChars readmeLiterals).length ≤ 4096 := by
  have hlines : (readmeLiterals.map fun text => text.toList.length).sum
      ≤ (readmeLiterals.map fun _ => 80).sum :=
    List.sum_le_sum readmeLiterals_forall_length_le
  rw [CString.literalChars, List.length_flatMap]
  exact hlines.trans (by decide)

def readmeText : CString :=
  CString.ofLiterals readmeLiterals (readmeLiterals_length_le.trans_lt (by omega))

lemma readmeText_length_le : readmeText.length ≤ 4096 :=
  (CString.ofLiterals_length_le _ _).trans readmeLiterals_length_le

variable {σ : Type} (P : Platform σ)

/-- `kernel_main` from `fs_init` to the shell. -/
def kernelMainBoot (w : World σ) : World σ :=
  let w := fsInit P w
  if !fsFileExists P w readmeName then
    (fsCreateFile P readmeName readmeText w).2.print P
      (coloured .lightCyan (.writestring "[OK] README.txt created\n"))
  else w

end SzymOS
