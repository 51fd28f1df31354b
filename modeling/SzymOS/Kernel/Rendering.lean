import SzymOS.Kernel.Start
import SzymOS.Kernel.OnScreen

/-!
# What the user sees of a run

The kernel's calls are known by what they are given.  `terminal.c` is given addresses: the format
and the strings lie in memory, behind them whatever lies there.  What it draws is the text that
each call spells, on a page that is as long as is needed.

The model of a call has its strings as values, and the call of `terminal.c` has them in memory.  The
two are related whenever memory holds the strings at the addresses that are passed, wherever these
are.  For every sound call there is such a memory, so the relation is not empty.

* `TermCall.text` — what a call spells.
* `Realizes` — the call of `terminal.c` that it is.
* `displays_call` — such a call returns, and draws this text.
* `screen_shows_run` — the screen, at every moment of a run of the kernel.

There are two halves.  The first is about `terminal_printf` alone: a format whose directives are
given what they ask for is printed with the arguments in their places (`formatText_fillIn`), by
recursion on the format, with `Passed` as the link between the words of the list and the arguments.
The second is about the page: the characters of a call are drawn one after the other, which is
`displays_write` of `Screen.lean`, and a call of another kind is a change of the colour or a blank
page (`displays_call`).

That a run makes sound calls is `Computer.calls_sound`; every prefix of them is sound, so the screen
can be spoken of at every moment.
-/

set_option autoImplicit false

namespace SzymOS

open Bytes Transition Scan

/-! ## Text

A call spells its literal, its string, its character, or its format with every directive replaced by
what it makes of the next argument. -/

/-- What a directive makes of its argument. -/
def PrintfArg.text (leastBuffer : List UInt8) : PrintfArg → UInt8 → List UInt8
  | .num n, c =>
      if c = 100 then (decimalBuffer leastBuffer n.toInt32).reverse
      else if c = 120 then hexText n
      else [n.toUInt8]
  | .str bytes, _ => bytes

/-- A format with its arguments in their places. -/
def fillIn (leastBuffer : List UInt8) : List UInt8 → List PrintfArg → List UInt8
  | [], _ => []
  | [c], _ => [c]
  | c :: d :: rest, args =>
      if c = 37 then
        if d = 37 then 37 :: fillIn leastBuffer rest args
        else (args.head?.elim [] fun arg => arg.text leastBuffer d) ++
          fillIn leastBuffer rest args.tail
      else c :: fillIn leastBuffer (d :: rest) args

/-- The characters of a call. -/
def TermCall.text (leastBuffer : List UInt8) : TermCall → List UInt8
  | .writestring text => textBytes text
  | .writemem bytes => bytes
  | .putchar c => [c]
  | .printf format args => fillIn leastBuffer (textBytes format) (args.map .num)
  | .formatted format args => fillIn leastBuffer (textBytes format) args
  | .setcolor _ | .clear => []

/-- A call, on a page. -/
def Page.call (leastBuffer : List UInt8) (p : Page) : TermCall → Page
  | .setcolor color => { p with color }
  | .clear => Page.blank p.color
  | call => (call.text leastBuffer).foldl (fun p c => p.putchar c) p

/-- The page after these calls. -/
def pageOf (leastBuffer : List UInt8) (calls : List TermCall) : Page :=
  calls.foldl (Page.call leastBuffer) (Page.blank (vgaEntryColor .lightGreen .black))

/-! ## Memory

An argument is a word of the list: the number itself, or the address of a string. -/

/-- The argument list holds these arguments from place `n` on, the strings by their addresses. -/
def Passed (vargs : VarArgs) : (n : ℕ) → List PrintfArg → Prop
  | _, [] => True
  | n, .num x :: args => vargs.word n = x ∧ Passed vargs (n + 1) args
  | n, .str bytes :: args =>
      stringAt (vargs.memory (vargs.word n)) = bytes ∧ Passed vargs (n + 1) args

/-- The call of `terminal.c`, for strings that lie somewhere in memory, in a program that leaves
these bytes in the buffer of `%d` for the least number. -/
inductive Realizes (leastBuffer : List UInt8) : TermCall → DisplayCall → Prop
  | setcolor (color : UInt8) : Realizes leastBuffer (.setcolor color) (.setcolor color)
  | writestring {text : String} {mem : ℕ → UInt8} (htext : TextAt mem 0 0 (textBytes text)) :
      Realizes leastBuffer (.writestring text) (.write (stringAt mem))
  | writemem (mem : ℕ → UInt8) :
      Realizes leastBuffer (.writemem (stringAt mem)) (.write (stringAt mem))
  | putchar (c : UInt8) : Realizes leastBuffer (.putchar c) (.putchar c)
  | printf {format : String} {args : List UInt32} {mem : ℕ → UInt8} {vargs : VarArgs}
      (hformat : TextAt mem 0 0 (textBytes format)) (hargs : Passed vargs 0 (args.map .num))
      (hleast : vargs.leastBuffer = leastBuffer) :
      Realizes leastBuffer (.printf format args) (.printf mem vargs)
  | formatted {format : String} {args : List PrintfArg} {mem : ℕ → UInt8} {vargs : VarArgs}
      (hformat : TextAt mem 0 0 (textBytes format)) (hargs : Passed vargs 0 args)
      (hleast : vargs.leastBuffer = leastBuffer) :
      Realizes leastBuffer (.formatted format args) (.printf mem vargs)
  | clear : Realizes leastBuffer .clear .clear

/-- A string of memory, up to its NUL. -/
lemma strlenFrom_textAt {mem : ℕ → UInt8} {p fuel : ℕ} {text : List UInt8}
    (htext : TextAt mem 0 p text) (hnul : 0 ∉ text) :
    strlenFrom mem fuel p = p + min text.length fuel := by
  induction fuel generalizing p text with
  | zero => simp [strlenFrom]
  | succ fuel ih =>
      rw [strlenFrom]
      cases text with
      | nil =>
          have hend : mem p = 0 := htext
          rw [if_neg (by simp [hend]), List.length_nil, Nat.zero_min, Nat.add_zero]
      | cons c text =>
          obtain ⟨hfirst, hrest⟩ := htext
          have hc : mem p ≠ 0 := by
            rintro h0
            exact hnul (by rw [← hfirst, h0]; exact List.mem_cons_self)
          rw [if_pos hc, ih hrest fun h => hnul (List.mem_cons_of_mem _ h), List.length_cons]
          omega

lemma slice_textAt {mem : ℕ → UInt8} {p : ℕ} {text : List UInt8} (htext : TextAt mem 0 p text) :
    slice mem p text.length = text := by
  induction text generalizing p with
  | nil => rfl
  | cons c text ih =>
      rw [List.length_cons, slice_cons, htext.1, ih htext.2]

/-- **A string that lies in memory** is found there. -/
lemma stringAt_textAt {mem : ℕ → UInt8} {text : List UInt8} (htext : TextAt mem 0 0 text)
    (h : IsText text) : stringAt mem = text := by
  have hlen : strlenFrom mem (2 ^ 32) 0 = 0 + min text.length (2 ^ 32) :=
    strlenFrom_textAt htext fun h0 => h.noNul 0 h0 rfl
  rw [Nat.zero_add, Nat.min_eq_left h.fits] at hlen
  rw [stringAt, strlen, hlen]
  exact slice_textAt htext

/-! ### A place for every string

For a single call it is enough to put each string at an address of its own. -/

/-- Memory that holds these bytes, and nothing else. -/
def memoryOf (bytes : List UInt8) (j : ℕ) : UInt8 := bytes.getD j 0

lemma textAt_memoryOf (bytes : List UInt8) : TextAt (memoryOf bytes) 0 0 bytes := by
  rw [textAt_iff]
  intro j _
  rw [Nat.zero_add, memoryOf]

/-- The number of an argument serves as the address of its string. -/
def VarArgs.of (leastBuffer : List UInt8) (args : List PrintfArg) : VarArgs where
  word j :=
    match args[j]? with
    | some (.num x) => x
    | _ => UInt32.ofNat j
  memory address :=
    match args[address.toNat]? with
    | some (.str bytes) => memoryOf bytes
    | _ => memoryOf []
  leastBuffer := leastBuffer

/-- A call with its strings in memory. -/
def TermCall.layOut (leastBuffer : List UInt8) : TermCall → DisplayCall
  | .setcolor color => .setcolor color
  | .writestring text => .write (stringAt (memoryOf (textBytes text)))
  | .writemem bytes => .write (stringAt (memoryOf bytes))
  | .putchar c => .putchar c
  | .printf format args =>
      .printf (memoryOf (textBytes format)) (VarArgs.of leastBuffer (args.map .num))
  | .formatted format args => .printf (memoryOf (textBytes format)) (VarArgs.of leastBuffer args)
  | .clear => .clear

/-- A format does not ask for more arguments than it has characters. -/
lemma directives_length_le {text asked : List UInt8} (h : directives text = some asked) :
    asked.length ≤ text.length := by
  induction text using directives.induct generalizing asked with
  | case1 =>
      rw [← Option.some.inj h]
  | case2 => exact absurd h (by simp [directives])
  | case3 c hc =>
      rw [directives, if_neg hc] at h
      rw [← Option.some.inj h]
      exact Nat.zero_le _
  | case4 rest ih =>
      rw [directives, if_pos rfl, if_pos rfl] at h
      exact (ih h).trans (Nat.le_add_right _ 2)
  | case5 d rest hd ih =>
      rw [directives, if_pos rfl, if_neg hd] at h
      obtain ⟨asked', hrest, rfl⟩ := Option.map_eq_some_iff.mp h
      have hle := ih hrest
      simp only [List.length_cons]
      omega
  | case6 c d rest hc ih =>
      rw [directives, if_neg hc] at h
      exact (ih h).trans (Nat.le_succ _)

lemma passed_of (leastBuffer : List UInt8) {args rest : List PrintfArg} {n : ℕ}
    (hrest : args.drop n = rest) (hfew : args.length < 2 ^ 32)
    (htext : ∀ bytes, .str bytes ∈ args → IsText bytes) :
    Passed (VarArgs.of leastBuffer args) n rest := by
  induction rest generalizing n with
  | nil => trivial
  | cons arg rest ih =>
      have harg : args[n]? = some arg := by
        have hhead := congrArg List.head? hrest
        rwa [List.head?_drop] at hhead
      have htail : args.drop (n + 1) = rest := by
        rw [← List.tail_drop, hrest, List.tail_cons]
      have hn : n < args.length := (List.getElem?_eq_some_iff.mp harg).1
      cases arg with
      | num x =>
          refine ⟨?_, ih htail⟩
          simp only [VarArgs.of, harg]
      | str bytes =>
          refine ⟨?_, ih htail⟩
          have haddress : (UInt32.ofNat n).toNat = n :=
            UInt32.toNat_ofNat_of_lt' (hn.trans hfew)
          simp only [VarArgs.of, harg, haddress]
          exact stringAt_textAt (textAt_memoryOf bytes) (htext bytes (List.mem_of_getElem? harg))

/-- The strings among the arguments that a format asks for. -/
lemma Asks.passed (leastBuffer : List UInt8) {format : String} {args : List PrintfArg}
    (hliteral : IsLiteral format) (hasks : Asks (textBytes format) args) :
    Passed (VarArgs.of leastBuffer args) 0 args := by
  obtain ⟨asked, hasked, hfits⟩ := hasks
  have hshort := hliteral.short
  have hfew := directives_length_le hasked
  have hlen := hfits.length_eq
  refine passed_of leastBuffer rfl (by omega) ?_
  intro bytes hbytes
  obtain ⟨i, hi, harg⟩ := List.getElem_of_mem hbytes
  have hfit := hfits.get hi (by omega)
  rw [List.get_eq_getElem, harg] at hfit
  exact hfit.2

/-- **Every sound call can be made.** -/
lemma realizes_layOut (leastBuffer : List UInt8) {call : TermCall} (h : call.Sound) :
    Realizes leastBuffer call (call.layOut leastBuffer) := by
  cases call with
  | setcolor color => exact .setcolor color
  | writestring text => exact .writestring (textAt_memoryOf _)
  | writemem bytes =>
      have hreal : Realizes leastBuffer _ _ := .writemem (memoryOf bytes)
      rw [stringAt_textAt (textAt_memoryOf bytes) h] at hreal
      rw [TermCall.layOut, stringAt_textAt (textAt_memoryOf bytes) h]
      exact hreal
  | putchar c => exact .putchar c
  | printf format args => exact .printf (textAt_memoryOf _) (h.2.passed leastBuffer h.1) rfl
  | formatted format args => exact .formatted (textAt_memoryOf _) (h.2.passed leastBuffer h.1) rfl
  | clear => exact .clear

lemma forall₂_layOut (leastBuffer : List UInt8) {calls : List TermCall} (h : Sound calls) :
    List.Forall₂ (Realizes leastBuffer) calls (calls.map (TermCall.layOut leastBuffer)) := by
  rw [List.forall₂_map_right_iff, List.forall₂_same]
  exact fun call hcall => realizes_layOut leastBuffer (h call hcall)

/-! ## What terminal.c draws

On a sound format the scan ends and prints the text; and what is printed is drawn on the page
character by character. -/

/-- A format that says what it asks for has no lone `%`. -/
lemma complete_of_directives {text asked : List UInt8} (h : directives text = some asked) :
    Complete text := by
  induction text using directives.induct generalizing asked with
  | case1 => trivial
  | case2 => exact absurd h (by simp [directives])
  | case3 c hc => exact hc
  | case4 rest ih =>
      rw [directives, if_pos rfl, if_pos rfl] at h
      rw [Complete, if_pos rfl]
      exact ih h
  | case5 d rest hd ih =>
      rw [directives, if_pos rfl, if_neg hd] at h
      obtain ⟨asked', hrest, -⟩ := Option.map_eq_some_iff.mp h
      rw [Complete, if_pos rfl]
      exact ih hrest
  | case6 c d rest hc ih =>
      rw [directives, if_neg hc] at h
      rw [Complete, if_neg hc]
      exact ih h

/-- One directive. -/
lemma directive_passed {vargs : VarArgs} {n : ℕ} {arg : PrintfArg} {args : List PrintfArg}
    {c : UInt8} (hpassed : Passed vargs n (arg :: args)) (hfits : arg.Fits c) :
    directive vargs c n = (arg.text vargs.leastBuffer c, n + 1) ∧
      Passed vargs (n + 1) args := by
  cases arg with
  | num x =>
      obtain ⟨hword, hrest⟩ := hpassed
      refine ⟨?_, hrest⟩
      rcases hfits with rfl | rfl | rfl <;> rw [← hword] <;> rfl
  | str bytes =>
      obtain ⟨hstring, hrest⟩ := hpassed
      obtain ⟨rfl, -⟩ := hfits
      refine ⟨?_, hrest⟩
      rw [directive, if_pos rfl, hstring]
      rfl

/-- **A format with what it asks for** is printed with its arguments in their places. -/
lemma formatText_fillIn {vargs : VarArgs} {text asked : List UInt8} {args : List PrintfArg} {n : ℕ}
    (hasked : directives text = some asked) (hfits : List.Forall₂ PrintfArg.Fits args asked)
    (hpassed : Passed vargs n args) :
    formatText vargs text n = fillIn vargs.leastBuffer text args := by
  induction text using directives.induct generalizing asked args n with
  | case1 => rfl
  | case2 => exact absurd hasked (by simp [directives])
  | case3 c hc => rw [formatText, if_neg hc, fillIn]
  | case4 rest ih =>
      rw [directives, if_pos rfl, if_pos rfl] at hasked
      rw [formatText, if_pos rfl, fillIn, if_pos rfl, if_pos rfl]
      exact congrArg ([37] ++ ·) (ih hasked hfits hpassed)
  | case5 d rest hd ih =>
      rw [directives, if_pos rfl, if_neg hd] at hasked
      obtain ⟨asked', hrest, rfl⟩ := Option.map_eq_some_iff.mp hasked
      obtain ⟨arg, args', hfit, hfits', rfl⟩ := List.forall₂_cons_right_iff.mp hfits
      obtain ⟨hdirective, hpassed'⟩ := directive_passed hpassed hfit
      rw [formatText, if_pos rfl, fillIn, if_pos rfl, if_neg hd, hdirective]
      exact congrArg (arg.text vargs.leastBuffer d ++ ·) (ih hrest hfits' hpassed')
  | case6 c d rest hc ih =>
      rw [directives, if_neg hc] at hasked
      rw [formatText, if_neg hc, fillIn, if_neg hc, ih hasked hfits hpassed]

section Calls

variable {leastBuffer : List UInt8} {t : Terminal} {p : Page}

/-- `terminal_printf` on a sound format. -/
lemma terminalPrintf_fillIn {format : String} {args : List PrintfArg} {mem : ℕ → UInt8}
    {vargs : VarArgs} (hliteral : IsLiteral format) (hasks : Asks (textBytes format) args)
    (hformat : TextAt mem 0 0 (textBytes format)) (hargs : Passed vargs 0 args) (t : Terminal) :
    terminalPrintf mem vargs t
      = (.returned, terminalWrite (fillIn vargs.leastBuffer (textBytes format) args) t) := by
  obtain ⟨asked, hasked, hfits⟩ := hasks
  have hfuel : (textBytes format).length < 2 ^ 32 :=
    Nat.lt_trans hliteral.short (by decide)
  rw [terminalPrintf, printfFrom_text vargs hformat hliteral.noNul
    (complete_of_directives hasked) hfuel 0, formatText_fillIn hasked hfits hargs]

/-- **One call.**  It returns, and the screen goes on showing the page. -/
lemma displays_call (h : Displays t p) {call : TermCall} {d : DisplayCall} (hsound : call.Sound)
    (hreal : Realizes leastBuffer call d) :
    (displayStep d t).1 = .returned ∧
      Displays (displayStep d t).2 (p.call leastBuffer call) := by
  cases hreal with
  | setcolor color => exact ⟨rfl, displays_setcolor h color⟩
  | @writestring text mem htext =>
      have hstring := stringAt_textAt htext hsound.isText
      refine ⟨rfl, ?_⟩
      rw [displayStep, hstring]
      exact displays_write h (textBytes text)
  | writemem mem => exact ⟨rfl, displays_write h (stringAt mem)⟩
  | putchar c => exact ⟨rfl, displays_write h [c]⟩
  | printf hformat hargs hleast =>
      rw [displayStep, terminalPrintf_fillIn hsound.1 hsound.2 hformat hargs, hleast]
      exact ⟨rfl, displays_write h _⟩
  | formatted hformat hargs hleast =>
      rw [displayStep, terminalPrintf_fillIn hsound.1 hsound.2 hformat hargs, hleast]
      exact ⟨rfl, displays_write h _⟩
  | clear =>
      have hclear := displays_cleared t
      rw [h.color] at hclear
      exact ⟨rfl, hclear⟩

/-- **Several calls**, each with its own memory. -/
lemma displays_calls (h : Displays t p) {calls : List TermCall} {ds : List DisplayCall}
    (hsound : Sound calls) (hreal : List.Forall₂ (Realizes leastBuffer) calls ds) :
    (∀ ending ∈ outputs displayStep ds t, ending = .returned) ∧
      Displays (final displayStep ds t) (calls.foldl (Page.call leastBuffer) p) := by
  induction hreal generalizing t p with
  | nil => exact ⟨fun _ he => absurd he List.not_mem_nil, h⟩
  | @cons call d calls ds hcall hcalls ih =>
      obtain ⟨hfirst, hrest⟩ := sound_cons.mp hsound
      obtain ⟨hreturned, hdisplays⟩ := displays_call h hfirst hcall
      obtain ⟨hreturns, hfinal⟩ := ih hdisplays hrest
      exact ⟨List.forall_mem_cons.mpr ⟨hreturned, hreturns⟩, hfinal⟩

end Calls

/-! ## The screen during a run

The calls of a run are sound, and this is all that is needed of the kernel here. -/

/-- **What the user sees.**  Whatever the loader, the drives and the user do, wherever the strings
lie and whatever the program makes of the least number: every call of a run to the terminal returns,
and after each of them the screen shows the last 25 rows of a page on which the texts of all calls
so far are written one after the other. -/
theorem screen_shows_run (c : Computer) (leastBuffer : List UInt8) (t : Terminal)
    {ds : List DisplayCall} (hreal : List.Forall₂ (Realizes leastBuffer) c.calls ds) :
    (∀ ending ∈ outputs displayStep ds (terminalInitialize t), ending = .returned) ∧
      ∀ k, Displays (final displayStep (ds.take k) (terminalInitialize t))
        (pageOf leastBuffer (c.calls.take k)) := by
  have hstart := displays_initialized t
  refine ⟨(displays_calls hstart c.calls_sound hreal).1, ?_⟩
  intro k
  exact (displays_calls hstart (fun call hcall => c.calls_sound call (List.mem_of_mem_take hcall))
    (List.forall₂_take k hreal)).2

theorem screen_shows_run_plain :
    (∀ ending ∈ outputs displayStep (plainComputer.calls.map (TermCall.layOut [45]))
        (terminalInitialize bootTerminal), ending = .returned) ∧
      ∀ k, Displays (final displayStep ((plainComputer.calls.map (TermCall.layOut [45])).take k)
        (terminalInitialize bootTerminal)) (pageOf [45] (plainComputer.calls.take k)) :=
  screen_shows_run plainComputer [45] bootTerminal (forall₂_layOut [45] plainComputer.calls_sound)

end SzymOS
