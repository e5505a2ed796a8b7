import Mathlib.Data.List.Basic
import Mathlib.Data.List.TakeWhile
import Mathlib.Data.Nat.Notation

/-!
The command line of a child process.

A process is started with one line, and takes it apart again by rules of its own. Blanks separate
the arguments, quotes hold blanks together, and backslashes are themselves except in front of a
quote, where half of them escape. The program's name comes first and is read by a simpler rule
without backslashes.
-/

namespace Digitiz

/-- Code units of UTF-16. -/
abbrev WString := List UInt16

namespace CommandLine

def quote : UInt16 := 34
def backslash : UInt16 := 92
def space : UInt16 := 32
def tab : UInt16 := 9

/-! ### Quoting -/

/-- The loop over an argument, with the number of backslashes counted in front of what is left. -/
def quoteLoop : ℕ → WString → WString
  | backslashes, [] => List.replicate (backslashes * 2) backslash
  | backslashes, c :: rest =>
    if c = backslash then quoteLoop (backslashes + 1) rest
    else if c = quote then
      List.replicate (backslashes * 2 + 1) backslash ++ c :: quoteLoop 0 rest
    else List.replicate backslashes backslash ++ c :: quoteLoop 0 rest

def quoteArg (arg : WString) : WString :=
  if arg ≠ [] ∧ arg.find? (· ∈ [space, tab, quote]) = none then arg
  else quote :: quoteLoop 0 arg ++ [quote]

section line

variable (multiByteToWideChar : List UInt8 → WString)

/-- What the system makes of UTF-8. -/
def widen (s : List UInt8) : WString := if s = [] then [] else multiByteToWideChar s

/-- The line a process is started with. -/
def commandLine (exe : WString) (args : List (List UInt8)) : WString :=
  args.foldl (fun line a => line ++ [space] ++ quoteArg (widen multiByteToWideChar a))
    (quoteArg exe)

end line

/-! ### Splitting -/

def isBlank (c : UInt16) : Bool := c = space ∨ c = tab

/-- Where the splitting of the arguments stands. -/
inductive ArgMode
  | between
  /-- Inside an argument, maybe inside quotes, behind some backslashes that may escape. -/
  | inside (inQuotes : Bool) (backslashes : ℕ) (arg : WString)
  /-- Behind a quote that closed. -/
  | closed (arg : WString)

structure Splitter where
  args : List WString
  mode : ArgMode

namespace Splitter

def read (args : List WString) (inQuotes : Bool) (backslashes : ℕ) (arg : WString) (c : UInt16) :
    Splitter :=
  if c = backslash then ⟨args, .inside inQuotes (backslashes + 1) arg⟩
  else if c = quote then
    let arg := arg ++ List.replicate (backslashes / 2) backslash
    if backslashes % 2 = 1 then ⟨args, .inside inQuotes 0 (arg ++ [quote])⟩
    else if inQuotes then ⟨args, .closed arg⟩
    else ⟨args, .inside true 0 arg⟩
  else
    let arg := arg ++ List.replicate backslashes backslash
    if isBlank c ∧ !inQuotes then ⟨args ++ [arg], .between⟩
    else ⟨args, .inside inQuotes 0 (arg ++ [c])⟩

/-- One code unit. By the documented rules a quote right behind one that closed opens again. There
are versions to which it is a literal quote, and the quotes stay open or do not. -/
def step (doubled : Option Bool) (s : Splitter) (c : UInt16) : Splitter :=
  match s.mode with
  | .between => if isBlank c then s else read s.args false 0 [] c
  | .inside inQuotes backslashes arg => read s.args inQuotes backslashes arg c
  | .closed arg =>
    match doubled with
    | some stay =>
      if c = quote then ⟨s.args, .inside stay 0 (arg ++ [quote])⟩ else read s.args false 0 arg c
    | none => read s.args false 0 arg c

def run (doubled : Option Bool) (s : Splitter) (line : WString) : Splitter :=
  line.foldl (step doubled) s

/-- The arguments when the line ends here. -/
def finish (s : Splitter) : List WString :=
  match s.mode with
  | .between => s.args
  | .inside _ backslashes arg => s.args ++ [arg ++ List.replicate backslashes backslash]
  | .closed arg => s.args ++ [arg]

end Splitter

/-- The program's name and the rest of the line. A name in quotes ends at the next quote, another
one at the first blank or control character. -/
def splitName : WString → WString × WString
  | [] => ([], [])
  | c :: rest =>
    if c = quote then
      (rest.takeWhile (· ≠ quote), (rest.dropWhile (· ≠ quote)).drop 1)
    else ((c :: rest).takeWhile (space < ·), (c :: rest).dropWhile (space < ·))

/-- `CommandLineToArgvW` of a line that is not empty. The line ends at its first zero. -/
def commandLineToArgv (doubled : Option Bool) (line : WString) : List WString :=
  let (name, rest) := splitName (line.takeWhile (· ≠ 0))
  name :: (Splitter.run doubled ⟨[], .between⟩ rest).finish

/-! ### Reading what was quoted -/

namespace Splitter

variable (doubled : Option Bool)

@[simp] lemma run_nil (s : Splitter) : run doubled s [] = s := rfl

@[simp] lemma run_cons (s : Splitter) (c : UInt16) (line : WString) :
    run doubled s (c :: line) = run doubled (step doubled s c) line := rfl

lemma run_append (s : Splitter) (u v : WString) :
    run doubled s (u ++ v) = run doubled (run doubled s u) v := List.foldl_append

lemma run_backslashes (args : List WString) (q : Bool) (n k : ℕ) (arg : WString) :
    run doubled ⟨args, .inside q n arg⟩ (List.replicate k backslash) =
      ⟨args, .inside q (n + k) arg⟩ := by
  induction k generalizing n with
  | zero => rfl
  | succ k ih =>
    rw [List.replicate_succ, run_cons, Nat.add_comm k 1, ← Nat.add_assoc]
    exact ih (n + 1)

/-- Backslashes in front of a quote. -/
lemma run_escaped (args : List WString) (n : ℕ) (arg : WString) :
    run doubled ⟨args, .inside true 0 arg⟩
        (List.replicate (n * 2 + 1) backslash ++ [quote]) =
      ⟨args, .inside true 0 (arg ++ List.replicate n backslash ++ [quote])⟩ := by
  rw [run_append, run_backslashes, Nat.zero_add, run_cons, run_nil]
  have hhalf : (n * 2 + 1) / 2 = n := by omega
  have hodd : (n * 2 + 1) % 2 = 1 := by omega
  show read args true (n * 2 + 1) arg quote = _
  unfold read
  rw [if_neg (by decide), if_pos rfl, hhalf, if_pos hodd]

lemma run_closing (args : List WString) (n : ℕ) (arg : WString) :
    run doubled ⟨args, .inside true 0 arg⟩ (List.replicate (n * 2) backslash ++ [quote]) =
      ⟨args, .closed (arg ++ List.replicate n backslash)⟩ := by
  rw [run_append, run_backslashes, Nat.zero_add, run_cons, run_nil]
  have hhalf : n * 2 / 2 = n := by omega
  have heven : ¬n * 2 % 2 = 1 := by omega
  show read args true (n * 2) arg quote = _
  unfold read
  rw [if_neg (by decide), if_pos rfl, hhalf, if_neg heven, if_pos rfl]

/-- Backslashes in front of anything else, inside quotes. -/
lemma run_literal (args : List WString) (n : ℕ) (arg : WString) {c : UInt16}
    (hb : c ≠ backslash) (hq : c ≠ quote) :
    run doubled ⟨args, .inside true 0 arg⟩ (List.replicate n backslash ++ [c]) =
      ⟨args, .inside true 0 (arg ++ List.replicate n backslash ++ [c])⟩ := by
  rw [run_append, run_backslashes, Nat.zero_add, run_cons, run_nil]
  show read args true n arg c = _
  unfold read
  rw [if_neg hb, if_neg hq, if_neg (by simp)]

/-- The loop is read back, up to the quote that closes. -/
lemma run_quoteLoop (args : List WString) (n : ℕ) (arg rest : WString) :
    run doubled ⟨args, .inside true 0 arg⟩ (quoteLoop n rest ++ [quote]) =
      ⟨args, .closed (arg ++ List.replicate n backslash ++ rest)⟩ := by
  induction rest generalizing n arg with
  | nil =>
    rw [List.append_nil]
    exact run_closing doubled args n arg
  | cons c rest ih =>
    by_cases hb : c = backslash
    · rw [quoteLoop, if_pos hb, ih, hb, List.replicate_succ']
      simp only [List.append_assoc, List.cons_append, List.nil_append]
    · rw [quoteLoop, if_neg hb]
      by_cases hq : c = quote
      · rw [if_pos hq, hq, List.append_assoc, List.cons_append, List.append_cons _ quote (_ ++ _),
          run_append, run_escaped, ih]
        simp only [List.append_assoc, List.cons_append, List.nil_append, List.replicate_zero]
      · rw [if_neg hq, List.append_assoc, List.cons_append, List.append_cons _ c (_ ++ _),
          run_append, run_literal doubled args n arg hb hq, ih]
        simp only [List.append_assoc, List.cons_append, List.nil_append, List.replicate_zero]

/-- An argument that needs no quotes is read as it is. -/
lemma run_plain (args : List WString) (n : ℕ) (arg : WString) {rest : WString}
    (h : ∀ c ∈ rest, c ∉ [space, tab, quote]) :
    (run doubled ⟨args, .inside false n arg⟩ rest).finish =
        args ++ [arg ++ List.replicate n backslash ++ rest] ∧
      ∃ n' arg', run doubled ⟨args, .inside false n arg⟩ rest = ⟨args, .inside false n' arg'⟩ := by
  induction rest generalizing n arg with
  | nil => exact ⟨by rw [List.append_nil]; rfl, n, arg, rfl⟩
  | cons c rest ih =>
    have hrest : ∀ c ∈ rest, c ∉ [space, tab, quote] := fun c hc => h c (List.mem_cons_of_mem _ hc)
    have hc := h c List.mem_cons_self
    rw [run_cons]
    by_cases hb : c = backslash
    · have hstep : step doubled ⟨args, .inside false n arg⟩ c =
          ⟨args, .inside false (n + 1) arg⟩ := if_pos hb
      obtain ⟨hfin, hmode⟩ := ih (n + 1) arg hrest
      rw [hstep]
      refine ⟨hfin.trans ?_, hmode⟩
      rw [hb, List.replicate_succ']
      simp only [List.append_assoc, List.cons_append, List.nil_append]
    · have hstep : step doubled ⟨args, .inside false n arg⟩ c =
          ⟨args, .inside false 0 (arg ++ List.replicate n backslash ++ [c])⟩ := by
        simp only [List.mem_cons, List.not_mem_nil, or_false, not_or] at hc
        show read args false n arg c = _
        unfold read
        rw [if_neg hb, if_neg hc.2.2, if_neg (by simp [isBlank, hc.1, hc.2.1])]
      obtain ⟨hfin, hmode⟩ := ih 0 (arg ++ List.replicate n backslash ++ [c]) hrest
      rw [hstep]
      refine ⟨hfin.trans ?_, hmode⟩
      simp only [List.append_assoc, List.cons_append, List.nil_append, List.replicate_zero]

/-- A space ends the argument here, if there is one. -/
def Ready (s : Splitter) : Prop := step doubled s space = ⟨s.finish, .between⟩

lemma ready_between (args : List WString) : Ready doubled ⟨args, .between⟩ := rfl

lemma ready_inside (args : List WString) (n : ℕ) (arg : WString) :
    Ready doubled ⟨args, .inside false n arg⟩ := rfl

lemma ready_closed (args : List WString) (arg : WString) :
    Ready doubled ⟨args, .closed arg⟩ := by
  have hread : read args false 0 arg space = ⟨args ++ [arg], .between⟩ := by
    show (⟨args ++ [arg ++ []], .between⟩ : Splitter) = _
    rw [List.append_nil]
  cases doubled with
  | none => exact hread
  | some stay => exact hread

/-- **An argument is read back.** -/
theorem run_quoteArg (args : List WString) (a : WString) :
    (run doubled ⟨args, .between⟩ (quoteArg a)).finish = args ++ [a] ∧
      Ready doubled (run doubled ⟨args, .between⟩ (quoteArg a)) := by
  unfold quoteArg
  split_ifs with hplain
  · obtain ⟨hne, hplain⟩ := hplain
    rw [List.find?_eq_none] at hplain
    simp only [decide_eq_true_iff] at hplain
    obtain ⟨c, rest, rfl⟩ := List.exists_cons_of_ne_nil hne
    have hc := hplain c List.mem_cons_self
    simp only [List.mem_cons, List.not_mem_nil, or_false, not_or] at hc
    have hbetween : run doubled ⟨args, .between⟩ (c :: rest) =
        run doubled ⟨args, .inside false 0 []⟩ (c :: rest) := by
      rw [run_cons, run_cons]
      exact congrArg (fun s => run doubled s rest) (if_neg (by simp [isBlank, hc.1, hc.2.1]))
    obtain ⟨hfin, n, arg, hmode⟩ := run_plain doubled args 0 [] hplain
    rw [hbetween]
    refine ⟨hfin, ?_⟩
    rw [hmode]
    exact ready_inside doubled args n arg
  · have hopen : run doubled ⟨args, .between⟩ (quote :: quoteLoop 0 a ++ [quote]) =
        ⟨args, .closed a⟩ :=
      (run_quoteLoop doubled args 0 [] a)
    rw [hopen]
    exact ⟨rfl, ready_closed doubled args a⟩

/-- Every argument of a line, behind a space. -/
lemma run_args {s : Splitter} (hs : Ready doubled s) (args : List WString) :
    (run doubled s (args.flatMap fun a => space :: quoteArg a)).finish = s.finish ++ args := by
  induction args generalizing s with
  | nil => exact (List.append_nil _).symm
  | cons a args ih =>
    obtain ⟨hfin, hready⟩ := run_quoteArg doubled s.finish a
    have hspace : step doubled s space = ⟨s.finish, .between⟩ := hs
    rw [List.flatMap_cons, List.cons_append, run_cons, hspace, run_append, ih hready, hfin,
      List.append_assoc]
    rfl

end Splitter

/-! ### The name of the program -/

/-- Backslashes that no quote follows stay as they are. -/
lemma quoteLoop_eq {n : ℕ} {arg : WString} (hquote : quote ∉ arg) (hnil : arg = [] → n = 0)
    (hlast : arg.getLast? ≠ some backslash) :
    quoteLoop n arg = List.replicate n backslash ++ arg := by
  induction arg generalizing n with
  | nil =>
    rw [hnil rfl]
    rfl
  | cons c rest ih =>
    have hrest : quote ∉ rest := fun h => hquote (List.mem_cons_of_mem _ h)
    by_cases hb : c = backslash
    · have hne : rest ≠ [] := by
        rintro rfl
        exact hlast (congrArg some hb)
      have hlast' : rest.getLast? ≠ some backslash := by
        rwa [List.getLast?_cons_of_ne_nil hne] at hlast
      rw [quoteLoop, if_pos hb, ih hrest (fun h => absurd h hne) hlast', hb,
        List.replicate_succ', List.append_assoc]
      rfl
    · have hq : c ≠ quote := fun h => hquote (h ▸ List.mem_cons_self)
      have htail : quoteLoop 0 rest = rest := by
        cases rest with
        | nil => rfl
        | cons d rest => exact ih hrest (fun h => nomatch h) hlast
      rw [quoteLoop, if_neg hb, if_neg hq, htail]

/-- The name is read back, up to where the arguments begin. -/
lemma splitName_quoteArg {exe : WString} (hne : exe ≠ []) (hquote : quote ∉ exe)
    (hcontrol : ∀ c ∈ exe, space ≤ c) (hlast : exe.getLast? ≠ some backslash) {rest : WString}
    (hrest : ∀ c ∈ rest.head?, c = space) : splitName (quoteArg exe ++ rest) = (exe, rest) := by
  unfold quoteArg
  split_ifs with hplain
  · have habove : ∀ c ∈ exe, decide (space < c) = true := fun c hc => by
      have hc' : c ≠ space := fun h =>
        List.find?_eq_none.mp hplain.2 c hc (decide_eq_true (h ▸ List.mem_cons_self))
      exact decide_eq_true (UInt16.lt_of_le_of_ne (hcontrol c hc) hc'.symm)
    obtain ⟨c, exe, rfl⟩ := List.exists_cons_of_ne_nil hne
    have hc : c ≠ quote := fun h => hquote (h ▸ List.mem_cons_self)
    have htake : rest.takeWhile (space < ·) = [] ∧ rest.dropWhile (space < ·) = rest := by
      cases rest with
      | nil => exact ⟨rfl, rfl⟩
      | cons d rest =>
        rw [hrest d rfl]
        exact ⟨rfl, rfl⟩
    show splitName (c :: (exe ++ rest)) = _
    rw [splitName, if_neg hc, ← List.cons_append, List.takeWhile_append_of_pos habove,
      List.dropWhile_append_of_pos habove, htake.1, htake.2, List.append_nil]
  · have hother : ∀ c ∈ exe, decide (c ≠ quote) = true := fun c hc =>
      decide_eq_true fun h => hquote (h ▸ hc)
    have hloop : quoteLoop 0 exe = exe := quoteLoop_eq hquote (fun _ => rfl) hlast
    rw [hloop, List.append_assoc, List.cons_append]
    show splitName (quote :: (exe ++ ([quote] ++ rest))) = _
    rw [splitName, if_pos rfl, List.takeWhile_append_of_pos hother,
      List.dropWhile_append_of_pos hother]
    show (exe ++ [], rest) = _
    rw [List.append_nil]

/-! ### The whole line -/

lemma mem_quoteLoop {c : UInt16} {n : ℕ} {arg : WString} (h : c ∈ quoteLoop n arg) :
    c ∈ arg ∨ c = backslash := by
  induction arg generalizing n with
  | nil => exact Or.inr (List.eq_of_mem_replicate h)
  | cons d rest ih =>
    have htail : ∀ k, c ∈ List.replicate k backslash ++ d :: quoteLoop 0 rest →
        c ∈ d :: rest ∨ c = backslash := fun k hk => by
      rcases List.mem_append.mp hk with hrun | hmem
      · exact Or.inr (List.eq_of_mem_replicate hrun)
      · rcases List.mem_cons.mp hmem with rfl | hmem
        · exact Or.inl List.mem_cons_self
        · exact (ih hmem).imp_left (List.mem_cons_of_mem d)
    unfold quoteLoop at h
    split_ifs at h
    · exact (ih h).imp_left (List.mem_cons_of_mem d)
    · exact htail _ h
    · exact htail _ h

/-- Quoting adds no zeros. -/
lemma zero_not_mem_quoteArg {arg : WString} (h : 0 ∉ arg) : 0 ∉ quoteArg arg := by
  unfold quoteArg
  split_ifs
  · exact h
  · intro hmem
    rcases List.mem_append.mp hmem with hopen | hclose
    · rcases List.mem_cons.mp hopen with hquote | hloop
      · exact absurd hquote (by decide)
      · exact (mem_quoteLoop hloop).elim h (by decide)
    · exact absurd (List.mem_singleton.mp hclose) (by decide)

lemma commandLine_eq (toWide : List UInt8 → WString) (exe : WString) (args : List (List UInt8)) :
    commandLine toWide exe args =
      quoteArg exe ++ (args.map (widen toWide)).flatMap fun a => space :: quoteArg a := by
  have hfold : ∀ line : WString,
      args.foldl (fun line a => line ++ [space] ++ quoteArg (widen toWide a)) line =
        line ++ (args.map (widen toWide)).flatMap fun a => space :: quoteArg a := by
    induction args with
    | nil => exact fun line => (List.append_nil line).symm
    | cons a args ih =>
      intro line
      rw [List.foldl_cons, ih, List.map_cons, List.flatMap_cons, List.append_assoc,
        List.append_assoc]
      rfl
  exact hfold _

/-- **Quoting is undone by splitting.** The child finds the program and the arguments it was given,
whatever is made of a quote right behind one that closed. -/
theorem commandLine_roundTrip (doubled : Option Bool) (toWide : List UInt8 → WString)
    {exe : WString} (hne : exe ≠ []) (hquote : quote ∉ exe) (hcontrol : ∀ c ∈ exe, space ≤ c)
    (hlast : exe.getLast? ≠ some backslash) {args : List (List UInt8)}
    (hzero : ∀ a ∈ args, 0 ∉ widen toWide a) :
    commandLineToArgv doubled (commandLine toWide exe args) =
      exe :: args.map (widen toWide) := by
  have hexe : 0 ∉ exe := fun h => absurd (hcontrol 0 h) (by decide)
  have hline : 0 ∉ commandLine toWide exe args := by
    rw [commandLine_eq, List.mem_append, List.mem_flatMap]
    rintro (hmem | ⟨w, hw, hmem⟩)
    · exact zero_not_mem_quoteArg hexe hmem
    · obtain ⟨a, ha, rfl⟩ := List.mem_map.mp hw
      rcases List.mem_cons.mp hmem with hspace | hmem
      · exact absurd hspace (by decide)
      · exact zero_not_mem_quoteArg (hzero a ha) hmem
  have hwhole : (commandLine toWide exe args).takeWhile (· ≠ 0) = commandLine toWide exe args :=
    List.takeWhile_eq_self_iff.mpr fun c hc => decide_eq_true fun h => hline (h ▸ hc)
  have hhead : ∀ c ∈ ((args.map (widen toWide)).flatMap fun a => space :: quoteArg a).head?,
      c = space := by
    cases args with
    | nil => exact fun c hc => nomatch hc
    | cons a args => exact fun c hc => (Option.some.inj hc).symm
  unfold commandLineToArgv
  rw [hwhole, commandLine_eq, splitName_quoteArg hne hquote hcontrol hlast hhead]
  exact congrArg (exe :: ·)
    (Splitter.run_args doubled (Splitter.ready_between doubled []) (args.map (widen toWide)))

/-- `C:\a b\adb`, a path with a space in it. -/
def spacedPath : WString := [67, 58, 92, 97, 32, 98, 92, 97, 100, 98]

/-- Blanks, line feeds, quotes, and backslashes in front of quotes and at the end. -/
def awkwardArgs : List (List UInt8) :=
  [[], [97, 98], [97, 32, 9], [10, 11], [92, 92, 34, 92], [32, 92, 92], [92, 92], [34, 34, 34]]

theorem commandLine_roundTrip_awkward :
    commandLineToArgv none (commandLine (List.map UInt8.toUInt16) spacedPath awkwardArgs) =
      spacedPath :: awkwardArgs.map (widen (List.map UInt8.toUInt16)) :=
  commandLine_roundTrip none _ (by decide) (by decide) (by simp [spacedPath, space]) (by decide)
    (by decide)

end CommandLine

end Digitiz
