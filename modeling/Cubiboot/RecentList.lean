import Mathlib.Tactic.Common
import Cubiboot.Lib.Fields
import Cubiboot.Listing
import Cubiboot.Lib.Trim

/-
  The last game played, out of Swiss's list (`gm_read_last_played`, `games.c`).

  The first 511 bytes of `recent.ini` are read into a buffer of 512 and taken line by line;
  the first line that names a game or a program has the answer. A line ends at a CR or an LF,
  or where the buffer's string ends: at the first NUL byte of the file, else behind the bytes
  read. The line terminators the parser writes over the line breaks stand behind the place it
  goes on from, so they do not show in the model.

  What is proved:
    1. `recentLoop_fields` — the parser takes the lines of the string one after the other.
    2. `recentEntry_iff` — which lines have an answer, and what it is (`Names`).
    3. `gmReadLastPlayed_eq` — so the parser sees the lines of the file that end in the string,
       and the beginning of the one that does not.
    4. `last_played_iff` — the answer is that of the first complete line within the bytes
       read exactly if one ends in the string, or if the line cut there names nothing; where
       the cut is a NUL byte, if it names what the lines behind it do.
    5. `settled_of_text` — the condition for a file without NUL bytes.
    6. `cut_line_is_taken` — a path ending in `.dol+cli`, cut behind `.dol`.

  Correspondence (C ↔ Lean):
    `gm_strip_device`     ↔ `gmStripDevice`
    `gm_read_last_played` ↔ `gmReadLastPlayed` (`recentLoop`, its loop; `recentEntry`, one line)
-/

set_option autoImplicit false

namespace Cubiboot

def cr : UInt8 := 13
def lf : UInt8 := 10
def equals : UInt8 := 61
def colon : UInt8 := 58

def recentReadSize : Nat := 512

def isBreak (c : UInt8) : Bool := c = cr || c = lf

/-- The line goes on at `c`. -/
def inLine (c : UInt8) : Bool := c ≠ 0 && !isBreak c

/-- `strchr`: the string from the first `c` on. -/
def strchr (s : Path) (c : UInt8) : Option Path := if c ∈ s then some (s.dropWhile (· ≠ c)) else none

def gmStripDevice (value : Path) : Path :=
  match strchr value colon with
  | some rest => rest.tail
  | none => value

/-- A path that can be selected in the browser. -/
def recentPath (path : Path) : Option Path :=
  let type := if path ≠ [] then gmGetFileType path else .unknown
  if type = .game ∨ type = .program then some path else none

/-- What a line gives, if anything. -/
def recentEntry (line : Path) : Option Path :=
  if (cstr "Recent_").isPrefixOf line then
    match strchr line equals with
    | none => none
    | some eq =>
      if (cstr "dvd:").isPrefixOf eq.tail then none else recentPath (gmStripDevice eq.tail)
  else none

theorem afterLine_shorter {p rest : List UInt8} {saved : UInt8} (h : p.dropWhile inLine = saved :: rest) :
    (rest.dropWhile isBreak).length < p.length := by
  have hline := (List.dropWhile_suffix inLine (l := p)).length_le
  have hskip := (List.dropWhile_suffix isBreak (l := rest)).length_le
  rw [h, List.length_cons] at hline
  omega

/-- The loop, from `p` to the end of the buffer. -/
def recentLoop (p : List UInt8) : Option Path :=
  if p.headD 0 = 0 then none
  else
    match recentEntry (p.takeWhile inLine) with
    | some path => some path
    | none =>
      match _h : p.dropWhile inLine with
      | [] => none
      | saved :: rest => if saved = 0 then none else recentLoop (rest.dropWhile isBreak)
termination_by p.length
decreasing_by exact afterLine_shorter _h

/-- How the calls on the file end: `status` is nothing for a null pointer, else its `result`. -/
structure RecentFile where
  openRet : Int
  status : Option UInt32
  readRet : Int
  content : List UInt8

/-- The buffer, cleared and then read into. -/
def recentBuf (content : List UInt8) : List UInt8 :=
  content.take (recentReadSize - 1) ++ List.replicate (recentReadSize - (content.take (recentReadSize - 1)).length) 0

/-- Nothing for `false`, else what `out` holds; `outLen` is at least 1. -/
def gmReadLastPlayed (file : RecentFile) (outLen : Nat) : Option Path :=
  if file.openRet ≠ 0 then none
  else if file.status ≠ some 0 then none
  else if file.readRet ≠ 0 then none
  else (recentLoop (recentBuf file.content)).map fun path => path.take (outLen - 1)

/-! ## What the answer should be -/

/-- A line that has an answer: its value is behind the first `=`, and what is named begins
behind the value's first colon, if it has one. -/
def Names (line path : Path) : Prop :=
  cstr "Recent_" <+: line ∧ ∃ name value, line = name ++ equals :: value ∧ equals ∉ name ∧
    ¬ cstr "dvd:" <+: value ∧
    ((colon ∉ value ∧ path = value) ∨ ∃ device, value = device ++ colon :: path ∧ colon ∉ device) ∧
    (gmGetFileType path = .game ∨ gmGetFileType path = .program)

/-- The first line with an answer has this one. -/
def FirstNamed (lines : List Path) (path : Path) : Prop :=
  ∃ before line after, lines = before ++ line :: after ∧ (∀ l ∈ before, ∀ p, ¬ Names l p) ∧ Names line path

/-- The lines of the file that end within the bytes read. -/
def completeLines (content : List UInt8) : List Path := Fields.whole isBreak (recentReadSize - 1) content

def readable (content : List UInt8) : RecentFile := ⟨0, some 0, 0, content⟩

/-- On a file that can be read the answer is that of the first complete line that has one. -/
def LastPlayedOk (content : List UInt8) (outLen : Nat) : Prop :=
  ∀ out, gmReadLastPlayed (readable content) outLen = some out ↔
    ∃ path, FirstNamed (completeLines content) path ∧ out = path.take (outLen - 1)

/-! ## One line -/

theorem strchr_first {a : Path} {c : UInt8} (h : c ∉ a) (b : Path) : strchr (a ++ c :: b) c = some (c :: b) := by
  rw [strchr, if_pos (List.mem_append_right a (List.mem_cons_self ..)), Trim.dropWhile_first h]

theorem strchr_cases (s : Path) (c : UInt8) :
    (c ∉ s ∧ strchr s c = none) ∨ ∃ a b, s = a ++ c :: b ∧ c ∉ a ∧ strchr s c = some (c :: b) := by
  by_cases hc : c ∈ s
  · obtain ⟨a, b, rfl, ha⟩ := List.eq_append_cons_of_mem hc
    exact .inr ⟨a, b, rfl, ha, strchr_first ha b⟩
  · exact .inl ⟨hc, if_neg hc⟩

theorem gmStripDevice_iff {value path : Path} : gmStripDevice value = path ↔
    (colon ∉ value ∧ path = value) ∨ ∃ device, value = device ++ colon :: path ∧ colon ∉ device := by
  obtain ⟨hno, hnone⟩ | ⟨device, rest, rfl, hfirst, hsome⟩ := strchr_cases value colon
  · rw [gmStripDevice, hnone]
    constructor
    · exact fun h => .inl ⟨hno, h.symm⟩
    · rintro (⟨-, rfl⟩ | ⟨device, rfl, -⟩)
      · rfl
      · exact absurd (List.mem_append_right device (List.mem_cons_self ..)) hno
  · rw [gmStripDevice, hsome]
    constructor
    · rintro rfl
      exact .inr ⟨device, rfl, hfirst⟩
    · rintro (⟨hno, -⟩ | ⟨device', heq, hfirst'⟩)
      · exact absurd (List.mem_append_right device (List.mem_cons_self ..)) hno
      · have hsame := strchr_first hfirst' path
        rw [← heq, hsome] at hsame
        exact congrArg List.tail (Option.some.inj hsame)

theorem recentPath_eq (path : Path) : recentPath path =
    if gmGetFileType path = .game ∨ gmGetFileType path = .program then some path else none := by
  cases path <;> rfl

/-- A line that starts right, behind its first `=`. -/
theorem recentEntry_value {name value : Path} (hname : cstr "Recent_" <+: name ++ equals :: value)
    (hfirst : equals ∉ name) : recentEntry (name ++ equals :: value) =
      if cstr "dvd:" <+: value then none else recentPath (gmStripDevice value) := by
  simp only [recentEntry, List.isPrefixOf_iff_prefix, if_pos hname, strchr_first hfirst, List.tail_cons]

theorem recentEntry_iff {line path : Path} : recentEntry line = some path ↔ Names line path := by
  by_cases hname : cstr "Recent_" <+: line
  · obtain ⟨hno, hnone⟩ | ⟨name, value, rfl, hfirst, -⟩ := strchr_cases line equals
    · constructor
      · intro h
        simp only [recentEntry, hnone, ite_self] at h
        cases h
      · rintro ⟨-, name, value, rfl, -⟩
        exact absurd (List.mem_append_right name (List.mem_cons_self ..)) hno
    · rw [recentEntry_value hname hfirst]
      constructor
      · intro h
        split at h
        · cases h
        · rename_i hdvd
          rw [recentPath_eq] at h
          split at h
          · rename_i htype
            obtain rfl := Option.some.inj h
            exact ⟨hname, name, value, rfl, hfirst, hdvd, gmStripDevice_iff.mp rfl, htype⟩
          · cases h
      · rintro ⟨-, name', value', heq, hfirst', hdvd, hpath, htype⟩
        have hsame := strchr_first hfirst' value'
        rw [← heq, strchr_first hfirst] at hsame
        obtain rfl : value = value' := congrArg List.tail (Option.some.inj hsame)
        rw [if_neg hdvd, gmStripDevice_iff.mpr hpath, recentPath_eq, if_pos htype]
  · constructor
    · intro h
      simp only [recentEntry, List.isPrefixOf_iff_prefix, if_neg hname] at h
      cases h
    · exact fun h => absurd h.1 hname

/-! ## The loop -/

theorem recentEntry_nil : recentEntry [] = none := by decide

theorem recentLoop_eq (p : List UInt8) : recentLoop p =
    if p.headD 0 = 0 then none
    else
      (recentEntry (p.takeWhile inLine)).or
        (match p.dropWhile inLine with
        | [] => none
        | saved :: rest => if saved = 0 then none else recentLoop (rest.dropWhile isBreak)) := by
  rw [recentLoop]
  split
  · rfl
  · cases recentEntry (p.takeWhile inLine) with
    | some path => rfl
    | none =>
      simp only [Option.none_or]
      split <;> rename_i h <;> rw [h]

/-- The line at the beginning of the string, and what is behind it. -/
theorem line_of_text {text : List UInt8} (hnul : 0 ∉ text) (junk : List UInt8) :
    (text ++ 0 :: junk).takeWhile inLine = (text.takeWhile fun c => !isBreak c) ∧
      (text ++ 0 :: junk).dropWhile inLine = (text.dropWhile fun c => !isBreak c) ++ 0 :: junk := by
  induction text with
  | nil => exact ⟨rfl, rfl⟩
  | cons c text ih =>
    rw [List.mem_cons, not_or] at hnul
    obtain ⟨htake, hdrop⟩ := ih hnul.2
    have hgoes : inLine c = !isBreak c := by
      rw [inLine, decide_eq_true (Ne.symm hnul.1), Bool.true_and]
    rw [List.cons_append, List.takeWhile_cons, List.takeWhile_cons, List.dropWhile_cons, List.dropWhile_cons, hgoes,
      htake, hdrop]
    cases isBreak c <;> exact ⟨rfl, rfl⟩

theorem skip_of_text (rest junk : List UInt8) :
    (rest ++ 0 :: junk).dropWhile isBreak = rest.dropWhile isBreak ++ 0 :: junk := by
  have hstop : (0 :: junk).dropWhile isBreak = 0 :: junk := List.dropWhile_cons_of_neg (by decide)
  rw [List.dropWhile_append, hstop]
  split
  · rename_i hall
    rw [List.isEmpty_iff.mp hall, List.nil_append]
  · rfl

theorem findSome?_single (line : Path) : (Fields.single line).findSome? recentEntry = recentEntry line := by
  cases line with
  | nil => exact recentEntry_nil.symm
  | cons c line =>
    show [c :: line].findSome? recentEntry = recentEntry (c :: line)
    rw [List.findSome?_cons]
    cases recentEntry (c :: line) <;> rfl

/-- Line after line, where the string `text` ends in a NUL. -/
theorem recentLoop_fields (m : Nat) : ∀ text junk : List UInt8, text.length = m → 0 ∉ text →
    recentLoop (text ++ 0 :: junk) = (Fields.fields isBreak text).findSome? recentEntry := by
  induction m using Nat.strongRecOn with
  | _ m ih =>
    intro text junk hm hnul
    obtain ⟨htake, hdrop⟩ := line_of_text hnul junk
    rw [recentLoop_eq, htake, hdrop, Fields.fields_eq_single, List.findSome?_append, findSome?_single]
    cases text with
    | nil =>
      rw [List.takeWhile_nil, List.dropWhile_nil, Fields.fields_nil, recentEntry_nil]
      rfl
    | cons c text =>
      have hc : ¬ (c :: text ++ 0 :: junk).headD 0 = 0 := fun h => hnul (h ▸ List.mem_cons_self ..)
      rw [if_neg hc]
      congr 1
      have hsuffix := List.dropWhile_suffix (fun c => !isBreak c) (l := c :: text)
      cases hrest : (c :: text).dropWhile fun c => !isBreak c with
      | nil => rfl
      | cons saved rest =>
        -- a line break ends the line, and the next one is looked for behind it
        have hbreak : isBreak saved = true := Fields.sep_of_dropWhile hrest
        rw [hrest] at hsuffix
        have hsaved : ¬ saved = 0 := fun h => by
          rw [h] at hbreak
          cases hbreak
        have hshort : (rest.dropWhile isBreak).length < m := by
          have hle := (List.dropWhile_suffix isBreak (l := rest)).length_le
          have hlt := hsuffix.length_le
          rw [List.length_cons] at hlt
          omega
        have hclean : 0 ∉ rest.dropWhile isBreak := fun h =>
          hnul (hsuffix.subset (List.mem_cons_of_mem _ ((List.dropWhile_suffix isBreak).subset h)))
        rw [List.cons_append]
        simp only [if_neg hsaved, skip_of_text]
        rw [ih _ hshort _ junk rfl hclean, Fields.fields_skip, Fields.fields_cons_sep hbreak]

/-! ## What the parser sees of the file -/

/-- The string in the buffer: the bytes read, up to the first NUL. -/
def stringIn (content : List UInt8) : List UInt8 := (content.take (recentReadSize - 1)).takeWhile (· ≠ 0)

theorem stringIn_noNul (content : List UInt8) : 0 ∉ stringIn content := fun h => by
  have hne := List.mem_takeWhile_imp h
  simp at hne

theorem stringIn_take (content : List UInt8) : content.take (stringIn content).length = stringIn content := by
  have hprefix : stringIn content <+: content := (List.takeWhile_prefix _).trans (List.take_prefix _ _)
  exact (List.prefix_iff_eq_take.mp hprefix).symm

theorem stringIn_length (content : List UInt8) : (stringIn content).length ≤ recentReadSize - 1 :=
  Nat.le_trans (List.takeWhile_prefix _).length_le (List.length_take_le _ _)

/-- The buffer's string has its NUL. -/
theorem recentBuf_string (content : List UInt8) : ∃ junk, recentBuf content = stringIn content ++ 0 :: junk := by
  have hshort : (content.take (recentReadSize - 1)).length ≤ recentReadSize - 1 := List.length_take_le _ _
  rw [recentBuf, stringIn]
  generalize content.take (recentReadSize - 1) = read at hshort
  have hsplit := List.takeWhile_append_dropWhile (p := fun c : UInt8 => decide (c ≠ 0)) (l := read)
  cases hrest : read.dropWhile fun c : UInt8 => decide (c ≠ 0) with
  | nil =>
    -- no NUL was read; the next byte of the buffer is one
    have hroom : recentReadSize - read.length = recentReadSize - read.length - 1 + 1 := by
      have hpos : 0 < recentReadSize := by decide
      omega
    rw [hrest, List.append_nil] at hsplit
    rw [hsplit, hroom, List.replicate_succ]
    exact ⟨_, rfl⟩
  | cons c rest =>
    obtain rfl : c = 0 := by simpa using Fields.dropWhile_head hrest
    rw [hrest] at hsplit
    rw [← hsplit, List.append_assoc]
    exact ⟨_, by rw [hsplit, List.cons_append]⟩

/-- The lines of the file that end in the string. -/
def seenLines (content : List UInt8) : List Path := Fields.whole isBreak (stringIn content).length content

/-- The beginning of the one that does not. -/
def cutLine (content : List UInt8) : Path := Fields.cut isBreak (stringIn content).length content

/-- The lines read that are behind the string. -/
def unseenLines (content : List UInt8) : List Path := (completeLines content).drop (seenLines content).length

theorem completeLines_eq (content : List UInt8) : completeLines content = seenLines content ++ unseenLines content :=
  (List.prefix_iff_eq_append.mp (Fields.whole_prefix (stringIn_length content) content)).symm

/-- What the parser comes to. -/
theorem gmReadLastPlayed_eq (content : List UInt8) (outLen : Nat) : gmReadLastPlayed (readable content) outLen =
    ((seenLines content).findSome? recentEntry |>.or (recentEntry (cutLine content))).map
      fun path => path.take (outLen - 1) := by
  obtain ⟨junk, hbuf⟩ := recentBuf_string content
  have hloop : recentLoop (recentBuf content) = _ := hbuf ▸ recentLoop_fields _ _ junk rfl (stringIn_noNul content)
  have hfields : Fields.fields isBreak (content.take (stringIn content).length) = _ := Fields.fields_of_take _ content
  rw [stringIn_take] at hfields
  calc gmReadLastPlayed (readable content) outLen
      = (recentLoop (recentBuf content)).map fun path => path.take (outLen - 1) := rfl
    _ = ((Fields.fields isBreak (stringIn content)).findSome? recentEntry).map fun path => path.take (outLen - 1) := by
        rw [hloop]
    _ = ((seenLines content ++ Fields.single (cutLine content)).findSome? recentEntry).map
          fun path => path.take (outLen - 1) := by
        rw [hfields]
        rfl
    _ = _ := by rw [List.findSome?_append, findSome?_single]

/-- A call that fails finds nothing. -/
theorem gmReadLastPlayed_failed {file : RecentFile} (outLen : Nat)
    (h : file.openRet ≠ 0 ∨ file.status ≠ some 0 ∨ file.readRet ≠ 0) : gmReadLastPlayed file outLen = none := by
  rw [gmReadLastPlayed]
  split
  · rfl
  · rename_i hopen
    split
    · rfl
    · rename_i hstatus
      exact if_pos ((h.resolve_left hopen).resolve_left hstatus)

/-! ## When it is so -/

theorem recentEntry_eq_none {line : Path} : recentEntry line = none ↔ ∀ path, ¬ Names line path := by
  rw [Option.eq_none_iff_forall_ne_some]
  exact forall_congr' fun path => not_congr recentEntry_iff

theorem firstNamed_iff {lines : List Path} {path : Path} :
    FirstNamed lines path ↔ lines.findSome? recentEntry = some path := by
  rw [List.findSome?_eq_some_iff]
  constructor
  · rintro ⟨before, line, after, rfl, hbefore, hnames⟩
    exact ⟨before, line, after, rfl, recentEntry_iff.mpr hnames, fun l hl => recentEntry_eq_none.mpr (hbefore l hl)⟩
  · rintro ⟨before, line, after, rfl, hnames, hbefore⟩
    exact ⟨before, line, after, rfl, fun l hl => recentEntry_eq_none.mp (hbefore l hl), recentEntry_iff.mp hnames⟩

/-- A line that ends in the string has an answer; or what is left of the line cut there has
the one of the lines behind it, or none like them. -/
def Settled (content : List UInt8) (outLen : Nat) : Prop :=
  (∃ line ∈ seenLines content, ∃ path, Names line path) ∨
    (recentEntry (cutLine content)).map (List.take (outLen - 1)) =
      ((unseenLines content).findSome? recentEntry).map (List.take (outLen - 1))

theorem lastPlayedOk_iff (content : List UInt8) (outLen : Nat) : LastPlayedOk content outLen ↔
    gmReadLastPlayed (readable content) outLen =
      ((completeLines content).findSome? recentEntry).map (List.take (outLen - 1)) := by
  rw [Option.ext_iff]
  refine forall_congr' fun out => iff_congr Iff.rfl ?_
  rw [Option.map_eq_some_iff]
  refine exists_congr fun path => and_congr firstNamed_iff eq_comm

/-- For every content of the file and every size of `out`. -/
theorem last_played_iff (content : List UInt8) (outLen : Nat) :
    LastPlayedOk content outLen ↔ Settled content outLen := by
  rw [lastPlayedOk_iff, gmReadLastPlayed_eq, completeLines_eq, List.findSome?_append, Settled]
  cases hseen : (seenLines content).findSome? recentEntry with
  | some path =>
    obtain ⟨line, hline, hentry⟩ := List.exists_of_findSome?_eq_some hseen
    exact iff_of_true rfl (.inl ⟨line, hline, path, recentEntry_iff.mp hentry⟩)
  | none =>
    have hno : ¬ ∃ line ∈ seenLines content, ∃ path, Names line path := by
      rintro ⟨line, hline, path, hnames⟩
      exact recentEntry_eq_none.mp (List.findSome?_eq_none_iff.mp hseen line hline) path hnames
    rw [Option.none_or, Option.none_or]
    exact (or_iff_right hno).symm

/-- In a file without NUL bytes nothing is behind the string but what the limit cuts. -/
theorem settled_of_text {content : List UInt8} (h : 0 ∉ content) (outLen : Nat) : Settled content outLen ↔
    (∃ line ∈ completeLines content, ∃ path, Names line path) ∨ ∀ path, ¬ Names (cutLine content) path := by
  have hstring : stringIn content = content.take (recentReadSize - 1) := by
    apply Trim.takeWhile_none
    exact fun hmem => h (List.mem_of_mem_take hmem)
  have hseen : seenLines content = completeLines content := by
    rw [seenLines, hstring, List.length_take]
    obtain hlong | hshort := Nat.le_total (recentReadSize - 1) content.length
    · rw [Nat.min_eq_left hlong]
      rfl
    · rw [Nat.min_eq_right hshort, completeLines, Fields.whole_of_length_le (Nat.le_refl _),
        Fields.whole_of_length_le hshort]
  have hunseen : unseenLines content = [] := by
    rw [unseenLines, hseen]
    exact List.drop_length
  rw [Settled, hseen, hunseen, ← recentEntry_eq_none]
  exact or_congr Iff.rfl Option.map_eq_none_iff

/-! ## A line cut behind an extension -/

/-- One entry, a program that is started with arguments: its path ends in `.dol+cli`, and the
511 bytes read end behind the `.dol`. -/
def cutFile : List UInt8 :=
  cstr "Recent_0=/" ++ List.replicate 248 97 ++ [slash] ++ List.replicate 248 97 ++ cstr ".dol+cli" ++ [cr, lf]

/-- The program beside it is the answer. -/
theorem cut_line_is_taken : ¬ ∀ content outLen, LastPlayedOk content outLen := by
  intro hall
  have hok := (lastPlayedOk_iff cutFile 256).mp (hall cutFile 256)
  have hlines : completeLines cutFile = [] := by decide +kernel
  have hcut : (recentEntry (cutLine cutFile)).isSome = true := by decide +kernel
  have hseen : seenLines cutFile = [] := by decide +kernel
  rw [gmReadLastPlayed_eq, hlines, hseen, List.findSome?_nil, Option.none_or, Option.map_none,
    Option.map_eq_none_iff] at hok
  rw [hok] at hcut
  cases hcut

end Cubiboot
