import Cubiboot.Lib.Chars
import Cubiboot.Navigation
import Mathlib.Data.List.GetD
import Mathlib.Data.List.TakeWhile

/-
  The title marquee (`menu.c`): what `marquee_tick` draws, frame after frame.

  The text that goes round is the title, a gap and the title again. An offset into it is
  drawn from; it goes on by one character at a time, and at the end of the gap back to the
  start, where it holds. A title is at most the 64 bytes of its field, and need not end in
  it: `strlen` goes on behind. `inBuffer` says whether the text fits the loop buffer; a tick
  is nothing where it does not.

  A character is one byte, or a lead byte with the byte behind it. In the text that goes
  round a lead byte at the very end of the title has one behind it: the gap's first.

  What is proved:
    1. `scrollNext_eq` — the step is to the next boundary of the text.
    2. `exists_cycle` — the end of the gap is a boundary.
    3. `Dial.tick_cases`, `Dial.run_hold`, `Dial.run_turn` — a dial that holds at the start
       of each revolution and makes a turn each time its timer is due.
    4. `Boundaries.marqueeTick_cases` — one tick is a tick of the dial with a turn for each
       boundary of the title and the gap.
    5. `marquee_goes_round` — over every number of ticks: the offset goes through the
       boundaries of the title and the gap in order, from the last to 0, where it rests.

  Correspondence (C ↔ Lean):
    `scroll_sjis_lead`, `scroll_next` ↔ `scrollSjisLead`, `scrollNext`
    `scroll_start_hold_frames`        ↔ `scrollStartHoldFrames`
    `marquee_tick`                    ↔ `marqueeTick`
-/

set_option autoImplicit false

namespace Cubiboot

/-! ## The marquee -/

/-- `text_scroll_enabled`, `text_scroll_delay_s`, `title_scroll_step_frames` and the video mode. -/
structure ScrollSettings where
  enabled : UInt32
  delayS : UInt32
  stepFrames : UInt32
  viTVMode : UInt32

def viNtsc : UInt32 := 0

def scrollStartHoldFrames (c : ScrollSettings) : UInt16 :=
  let fps := if c.viTVMode >>> 2 = viNtsc then 60 else 50
  let frames := c.delayS * fps
  (if 60000 < frames then 60000 else frames).toUInt16

def scrollSjisLead (c : UInt8) : Bool := (0x81 ≤ c && c ≤ 0x9F) || (0xE0 ≤ c && c ≤ 0xFC)

/-- What begins a character of two bytes. -/
def leadOf (sjis : Bool) (c : UInt8) : Bool := sjis && scrollSjisLead c

/-- `s` is a string without its NUL. -/
def scrollNext (s : List UInt8) (off : Nat) (sjis : Bool) : Nat :=
  if s.getD off 0 = 0 then off
  else if leadOf sjis (s.getD off 0) ∧ s.getD (off + 1) 0 ≠ 0 then off + 2
  else off + 1

/-- The memory from `s` on, as far as its first NUL. -/
def strlen (s : List UInt8) : Nat := (s.takeWhile (· ≠ 0)).length

/-- `SCROLL_LOOP_GAP`. -/
def scrollLoopGap : List UInt8 := cstr "    "

/-- `sizeof(loop)`. -/
def loopSize : Nat := bnrFullTextLen * 2 + 5

/-- The offset and the timer of one title element. -/
structure Marquee where
  off : Nat
  timer : UInt16
  deriving DecidableEq

/-- `len` of the title. -/
def titleLen (s : List UInt8) : Nat := min (strlen s) bnrFullTextLen

/-- The text in the loop buffer. -/
def loopText (s : List UInt8) : List UInt8 := s.take (titleLen s) ++ scrollLoopGap ++ s.take (titleLen s)

def titleCycle (s : List UInt8) : Nat := titleLen s + scrollLoopGap.length

/-- What is drawn, and the state afterwards. -/
def marqueeTick (c : ScrollSettings) (s : List UInt8) (sjis : Bool) (visible : Int) (m : Marquee) :
    Option (List UInt8 × Marquee) := do
  if c.enabled = 0 ∨ (titleLen s : Int) ≤ visible then some (s, ⟨0, 0⟩)
  else
    let cycle := titleCycle s
    let m := if cycle ≤ m.off then ⟨0, 0⟩ else m
    if m.off = 0 ∧ m.timer < scrollStartHoldFrames c then some (s, { m with timer := m.timer + 1 })
    else
      let loop ← inBuffer loopSize (loopText s)
      -- the timer counts only away from the start
      let timer := if m.off = 0 then m.timer else m.timer + 1
      if m.off = 0 ∨ c.stepFrames ≤ timer.toUInt32 then
        let off := scrollNext loop m.off sjis
        if cycle ≤ off then some (s, ⟨0, 0⟩) -- head is home
        else some (if off ≠ 0 then loop.drop off else s, ⟨off, 0⟩)
      else some (if m.off ≠ 0 then loop.drop m.off else s, ⟨m.off, timer⟩)

/-- So many ticks from rest. -/
def marqueeRun (c : ScrollSettings) (s : List UInt8) (sjis : Bool) (visible : Int) : Nat → Option Marquee
  | 0 => some ⟨0, 0⟩
  | n + 1 => (marqueeRun c s sjis visible n).bind fun m => (marqueeTick c s sjis visible m).map Prod.snd

/-- A title's field, and what lies behind it in memory. -/
structure TitleField where
  field : List UInt8
  size : field.length = bnrFullTextLen
  behind : List UInt8

def TitleField.memory (t : TitleField) : List UInt8 := t.field ++ t.behind

/-- The title: the field up to its first NUL. -/
def TitleField.title (t : TitleField) : List UInt8 := t.field.takeWhile (· ≠ 0)

/-- The text that goes round. -/
def TitleField.loop (t : TitleField) : List UInt8 := t.title ++ scrollLoopGap ++ t.title

def TitleField.cycle (t : TitleField) : Nat := t.title.length + scrollLoopGap.length

/-! ## The text -/

theorem scrollLoopGap_length : scrollLoopGap.length = 4 := by decide +kernel

namespace TitleField
variable (t : TitleField)

theorem title_le : t.title.length ≤ bnrFullTextLen := by
  rw [title, ← t.size]
  exact (List.takeWhile_prefix _).length_le

theorem take_titleLen : titleLen t.memory = t.title.length ∧ t.memory.take (titleLen t.memory) = t.title := by
  have hle := t.title_le
  have hfield := t.size
  rw [titleLen, strlen, memory, List.takeWhile_append]
  split
  · -- no NUL in the field: what is behind it is cut off
    rename_i hall
    have hfull : t.title = t.field := (List.takeWhile_prefix _).eq_of_length hall
    have hlen : min (t.field ++ t.behind.takeWhile (· ≠ 0)).length bnrFullTextLen = t.field.length := by
      rw [List.length_append]
      omega
    rw [hlen, hfull, List.take_left]
    exact ⟨rfl, rfl⟩
  · show min t.title.length bnrFullTextLen = t.title.length ∧
      (t.field ++ t.behind).take (min t.title.length bnrFullTextLen) = t.title
    rw [Nat.min_eq_left hle, List.take_append_of_le_length (by rw [hfield]; exact hle)]
    exact ⟨rfl, (List.prefix_iff_eq_take.mp (List.takeWhile_prefix _)).symm⟩

@[simp] theorem titleLen_memory : titleLen t.memory = t.title.length := t.take_titleLen.1

@[simp] theorem loopText_memory : loopText t.memory = t.loop := by
  rw [loopText, t.take_titleLen.2]
  rfl

@[simp] theorem titleCycle_memory : titleCycle t.memory = t.cycle := by
  rw [titleCycle, titleLen_memory]
  rfl

theorem loop_length : t.loop.length = t.cycle + t.title.length := by
  rw [loop, List.length_append, List.length_append]
  rfl

/-- The text and its NUL fit the loop buffer. -/
theorem loop_fits : inBuffer loopSize t.loop = some t.loop := by
  have hle := t.title_le
  have hgap := scrollLoopGap_length
  have hsize : loopSize = 133 ∧ bnrFullTextLen = 64 := by decide
  refine inBuffer_of_lt ?_
  rw [t.loop_length, cycle]
  omega

theorem loop_noNul : 0 ∉ t.loop := by
  have htitle : 0 ∉ t.title := by
    intro h
    have hne := List.mem_takeWhile_imp h
    exact absurd rfl (of_decide_eq_true hne)
  have hgap : 0 ∉ scrollLoopGap := by decide +kernel
  simp only [loop, List.mem_append, not_or]
  exact ⟨⟨htitle, hgap⟩, htitle⟩

end TitleField

theorem scrollNext_eq {s : List UInt8} (hnul : 0 ∉ s) {off : Nat} (h : off < s.length) (sjis : Bool) :
    scrollNext s off sjis = off + Chars.width (leadOf sjis) (s.drop off) := by
  have hhere : s.getD off 0 = s[off] := List.getD_eq_getElem _ _ h
  have hne : ¬ s[off] = 0 := fun hz => hnul (hz ▸ List.getElem_mem h)
  rw [scrollNext, hhere, if_neg hne, List.drop_eq_getElem_cons h]
  by_cases hnext : off + 1 < s.length
  · have hbehind : s.getD (off + 1) 0 = s[off + 1] := List.getD_eq_getElem _ _ hnext
    have hne' : s[off + 1] ≠ 0 := fun hz => hnul (hz ▸ List.getElem_mem hnext)
    rw [hbehind, List.drop_eq_getElem_cons hnext, Chars.width]
    by_cases hlead : leadOf sjis s[off] = true
    · rw [if_pos ⟨hlead, hne'⟩, if_pos hlead]
    · rw [if_neg fun hc => hlead hc.1, if_neg hlead]
  · have hbehind : s.getD (off + 1) 0 = 0 := List.getD_eq_default _ _ (Nat.not_lt.mp hnext)
    rw [hbehind, List.drop_eq_nil_of_le (Nat.not_lt.mp hnext), if_neg fun hc => hc.2 rfl]
    rfl

/-- The end of the gap is a boundary, with at least two boundaries before it. -/
theorem exists_cycle (t : TitleField) (sjis : Bool) : ∃ n, 0 < n ∧
    Chars.pos (leadOf sjis) t.loop n < t.cycle ∧ Chars.pos (leadOf sjis) t.loop (n + 1) = t.cycle := by
  have hgap := scrollLoopGap_length
  have hlen := t.loop_length
  have hcycle : t.cycle = t.title.length + 4 := by rw [TitleField.cycle, hgap]
  have hlt : t.title.length + 3 < t.loop.length := by omega
  have hspace : t.loop[t.title.length + 3] = 0x20 := by
    have hsplit : t.loop = (t.title ++ [0x20, 0x20, 0x20]) ++ 0x20 :: t.title := by
      have hspaces : scrollLoopGap = [0x20, 0x20, 0x20] ++ [0x20] := by decide +kernel
      rw [TitleField.loop, hspaces, List.append_assoc, List.append_assoc, List.append_assoc]
      rfl
    simp only [hsplit]
    rw [List.getElem_append_right (by rw [List.length_append]; exact Nat.le_refl _)]
    simp only [List.length_append, List.length_cons, List.length_nil, Nat.zero_add, Nat.reduceAdd, Nat.sub_self,
      List.getElem_cons_zero]
  have hlead : leadOf sjis 0x20 = false := by cases sjis <;> decide
  obtain ⟨n, hle, hend⟩ := Chars.exists_pos_succ (leadOf sjis) hlt (by rw [hspace]; exact hlead)
  refine ⟨n, ?_, by omega, by omega⟩
  -- one character is not enough
  cases n with
  | zero =>
    have htwo := Chars.width_le_two (leadOf sjis) (t.loop.drop 0)
    rw [Chars.pos_succ, Chars.pos_zero] at hend
    omega
  | succ n => exact Nat.succ_pos n

/-! ## The dial

  The marquee without its text: how often the offset has gone on, and the timer. A
  revolution is `size` turns. -/

structure Dial where
  turns : Nat
  timer : UInt16
  deriving DecidableEq

namespace Dial
variable (c : ScrollSettings) (size : Nat)

def tick (d : Dial) : Dial :=
  if d.turns % size = 0 then
    if d.timer < scrollStartHoldFrames c then { d with timer := d.timer + 1 } else ⟨d.turns + 1, 0⟩
  else if c.stepFrames ≤ (d.timer + 1).toUInt32 then ⟨d.turns + 1, 0⟩
  else { d with timer := d.timer + 1 }

/-- So many ticks. -/
def run (d : Dial) : Nat → Dial
  | 0 => d
  | k + 1 => tick c size (run d k)

theorem run_add (d : Dial) (k : Nat) : ∀ j, run c size d (k + j) = run c size (run c size d k) j
  | 0 => rfl
  | j + 1 => congrArg (tick c size) (run_add d k j)

/-- One tick counts, or turns and starts to count anew. -/
theorem tick_cases (d : Dial) :
    tick c size d = { d with timer := d.timer + 1 } ∨ tick c size d = ⟨d.turns + 1, 0⟩ := by
  rw [tick]
  split_ifs
  · exact .inl rfl
  · exact .inr rfl
  · exact .inr rfl
  · exact .inl rfl

variable {c size} {d : Dial}

theorem scrollStartHoldFrames_le : (scrollStartHoldFrames c).toNat ≤ 60000 := by
  have hcapped : ∀ frames : UInt32, (if 60000 < frames then 60000 else frames).toNat ≤ 60000 := by
    intro frames
    split
    · decide
    · rename_i hle
      exact UInt32.le_iff_toNat_le.mp (UInt32.not_lt.mp hle)
  exact (Nat.mod_le _ _).trans (hcapped _)

/-- At the start of the text: as many ticks as the hold has frames. -/
theorem run_hold (hstart : d.turns % size = 0) (hzero : d.timer = 0) :
    ∀ j ≤ (scrollStartHoldFrames c).toNat, (run c size d j).turns = d.turns ∧ (run c size d j).timer.toNat = j := by
  intro j
  induction j with
  | zero =>
    intro _
    refine ⟨rfl, ?_⟩
    show d.timer.toNat = 0
    rw [hzero]
    rfl
  | succ j ih =>
    intro hj
    obtain ⟨hturns, htimer⟩ := ih (Nat.le_of_succ_le hj)
    have hle := scrollStartHoldFrames_le (c := c)
    have hcounts : (run c size d j).timer < scrollStartHoldFrames c := by
      rw [UInt16.lt_iff_toNat_lt, htimer]
      exact hj
    have hnext : run c size d (j + 1) = { run c size d j with timer := (run c size d j).timer + 1 } := by
      rw [run, tick, if_pos (by rw [hturns]; exact hstart), if_pos hcounts]
    rw [hnext]
    refine ⟨hturns, ?_⟩
    show ((run c size d j).timer + 1).toNat = j + 1
    rw [UInt16.toNat_add, htimer]
    exact Nat.mod_eq_of_lt (by simp only [UInt16.toNat_one]; omega)

/-- And then it leaves. -/
theorem run_leave (hstart : d.turns % size = 0) (hzero : d.timer = 0) :
    run c size d ((scrollStartHoldFrames c).toNat + 1) = ⟨d.turns + 1, 0⟩ := by
  obtain ⟨hturns, htimer⟩ := run_hold (c := c) hstart hzero _ (Nat.le_refl _)
  have hdone : ¬ (run c size d (scrollStartHoldFrames c).toNat).timer < scrollStartHoldFrames c := by
    rw [UInt16.lt_iff_toNat_lt, htimer]
    exact Nat.lt_irrefl _
  rw [run, tick, if_pos (by rw [hturns]; exact hstart), if_neg hdone, hturns]

/-- Away from the start: it turns once the timer has counted so far. -/
theorem run_turn (hstep : c.stepFrames.toNat < UInt16.size) (haway : d.turns % size ≠ 0) (hzero : d.timer = 0) :
    ∃ j, run c size d j = ⟨d.turns + 1, 0⟩ := by
  have hcount : ∀ n, n < max c.stepFrames.toNat 1 →
      (run c size d n).turns = d.turns ∧ (run c size d n).timer.toNat = n := by
    intro n
    induction n with
    | zero =>
      intro _
      refine ⟨rfl, ?_⟩
      show d.timer.toNat = 0
      rw [hzero]
      rfl
    | succ n ih =>
      intro hn
      obtain ⟨hturns, htimer⟩ := ih (Nat.lt_of_succ_lt hn)
      have hsum : ((run c size d n).timer + 1).toNat = n + 1 := by
        rw [UInt16.toNat_add, htimer]
        exact Nat.mod_eq_of_lt (by simp only [UInt16.toNat_one]; rw [UInt16.size] at hstep; omega)
      have hwaits : ¬ c.stepFrames ≤ ((run c size d n).timer + 1).toUInt32 := by
        rw [UInt32.le_iff_toNat_le, UInt16.toNat_toUInt32, hsum]
        omega
      rw [run, tick, if_neg (by rw [hturns]; exact haway), if_neg hwaits]
      exact ⟨hturns, hsum⟩
  -- the tick that is due
  have hlast : max c.stepFrames.toNat 1 - 1 < max c.stepFrames.toNat 1 := by omega
  obtain ⟨hturns, htimer⟩ := hcount _ hlast
  refine ⟨max c.stepFrames.toNat 1 - 1 + 1, ?_⟩
  have hdue : c.stepFrames ≤ ((run c size d (max c.stepFrames.toNat 1 - 1)).timer + 1).toUInt32 := by
    rw [UInt32.le_iff_toNat_le, UInt16.toNat_toUInt32, UInt16.toNat_add, htimer]
    rw [UInt16.size] at hstep
    simp only [UInt16.toNat_one]
    rw [Nat.mod_eq_of_lt (by omega)]
    omega
  rw [run, tick, if_neg (by rw [hturns]; exact haway), if_pos hdue, hturns]

/-- Turn by turn, every number of them. -/
theorem run_reaches (hstep : c.stepFrames.toNat < UInt16.size) : ∀ n, ∃ k, run c size ⟨0, 0⟩ k = ⟨n, 0⟩ := by
  intro n
  induction n with
  | zero => exact ⟨0, rfl⟩
  | succ n ih =>
    obtain ⟨k, hk⟩ := ih
    by_cases hturn : n % size = 0
    · have hleave := run_leave (c := c) (d := ⟨n, 0⟩) hturn rfl
      exact ⟨_, by rw [run_add, hk]; exact hleave⟩
    · obtain ⟨j, hj⟩ := run_turn (d := ⟨n, 0⟩) hstep hturn rfl
      exact ⟨k + j, by rw [run_add, hk]; exact hj⟩

end Dial

/-! ## The marquee is a dial over the boundaries of its text -/

section
variable (c : ScrollSettings) (t : TitleField) (sjis : Bool) (visible : Int)

/-- The title is set to go round, and too wide for its box. -/
def Scrolling : Prop := c.enabled ≠ 0 ∧ visible < t.title.length

/-- Where the text is at a turn of a dial of `size`. -/
def TitleField.boundary (size turns : Nat) : Nat := Chars.pos (leadOf sjis) t.loop (turns % size)

/-- The marquee a dial stands for. -/
def shownAt (size : Nat) (d : Dial) : Marquee := ⟨t.boundary sjis size d.turns, d.timer⟩

variable {c t visible}

/-- At rest where nothing is to go round. -/
theorem marqueeTick_rest (h : ¬ Scrolling c t visible) (m : Marquee) :
    (marqueeTick c t.memory sjis visible m).map Prod.snd = some ⟨0, 0⟩ := by
  have hrest : c.enabled = 0 ∨ (titleLen t.memory : Int) ≤ visible := by
    rw [t.titleLen_memory]
    by_contra hgo
    rw [not_or, Int.not_le] at hgo
    exact h hgo
  rw [marqueeTick, if_pos hrest]
  rfl

/-- The boundaries before the end of the gap are those of `size` characters. -/
structure Boundaries (t : TitleField) (sjis : Bool) (size : Nat) : Prop where
  two : 1 < size
  before : ∀ i < size, Chars.pos (leadOf sjis) t.loop i < t.cycle
  last : Chars.pos (leadOf sjis) t.loop size = t.cycle

theorem exists_boundaries (t : TitleField) : ∃ size, Boundaries t sjis size := by
  obtain ⟨n, hn, hlt, hend⟩ := exists_cycle t sjis
  refine ⟨n + 1, Nat.succ_lt_succ hn, fun i hi => ?_, hend⟩
  exact (Chars.pos_mono _ (Nat.le_of_lt_succ hi)).trans_lt hlt

namespace Boundaries
variable {sjis} {size : Nat} (hb : Boundaries t sjis size)
include hb

theorem size_pos : 0 < size := Nat.zero_lt_of_lt hb.two

theorem turn_lt (turns : Nat) : turns % size < size := Nat.mod_lt _ hb.size_pos

theorem inside (turns : Nat) : t.boundary sjis size turns < t.cycle := hb.before _ (hb.turn_lt turns)

/-- Each is behind the one before. -/
theorem lt_succ {i : Nat} (hi : i < size) :
    Chars.pos (leadOf sjis) t.loop i < Chars.pos (leadOf sjis) t.loop (i + 1) := by
  refine Chars.pos_lt_succ _ ((hb.before i hi).trans_le ?_)
  rw [t.loop_length]
  exact Nat.le_add_right _ _

/-- The text is at its start at the start of a revolution only. -/
theorem eq_zero_iff (turns : Nat) : t.boundary sjis size turns = 0 ↔ turns % size = 0 := by
  constructor
  · intro hzero
    by_contra hne
    have hfirst : Chars.pos (leadOf sjis) t.loop 0 < Chars.pos (leadOf sjis) t.loop 1 := hb.lt_succ hb.size_pos
    have hmono := Chars.pos_mono (leadOf sjis) (l := t.loop) (Nat.one_le_iff_ne_zero.mpr hne)
    rw [TitleField.boundary] at hzero
    rw [Chars.pos_zero] at hfirst
    omega
  · intro hzero
    rw [TitleField.boundary, hzero, Chars.pos_zero]

/-- The boundary behind, and the start behind the last. -/
theorem next (turns : Nat) :
    (if t.cycle ≤ scrollNext t.loop (t.boundary sjis size turns) sjis then 0
      else scrollNext t.loop (t.boundary sjis size turns) sjis) = t.boundary sjis size (turns + 1) := by
  have hin : t.boundary sjis size turns < t.loop.length := by
    have hlen := t.loop_length
    have hlt := hb.inside turns
    omega
  have hnext : scrollNext t.loop (t.boundary sjis size turns) sjis =
      Chars.pos (leadOf sjis) t.loop (turns % size + 1) := scrollNext_eq t.loop_noNul hin sjis
  rw [hnext]
  obtain hmore | hlast : turns % size + 1 < size ∨ turns % size + 1 = size :=
    Nat.lt_or_eq_of_le (Nat.succ_le_of_lt (hb.turn_lt turns))
  · have hturn : (turns + 1) % size = turns % size + 1 := by
      rw [Nat.add_mod, Nat.mod_eq_of_lt hb.two, Nat.mod_eq_of_lt hmore]
    rw [if_neg (Nat.not_le.mpr (hb.before _ hmore)), TitleField.boundary, hturn]
  · have hturn : (turns + 1) % size = 0 := by
      rw [Nat.add_mod, Nat.mod_eq_of_lt hb.two, hlast, Nat.mod_self]
    have hend : Chars.pos (leadOf sjis) t.loop (turns % size + 1) = t.cycle := by
      rw [← hb.last]
      exact congrArg _ hlast
    rw [if_pos hend.ge, TitleField.boundary, hturn, Chars.pos_zero]

/-- One tick: a tick of the dial with a turn for each boundary before the end of the gap. -/
theorem marqueeTick_cases (hscroll : Scrolling c t visible) (d : Dial) :
    (marqueeTick c t.memory sjis visible (shownAt t sjis size d)).map Prod.snd =
      some (shownAt t sjis size (d.tick c size)) := by
  have hgo : ¬ (c.enabled = 0 ∨ (titleLen t.memory : Int) ≤ visible) := by
    rw [t.titleLen_memory, not_or, Int.not_le]
    exact hscroll
  have hin : ¬ t.cycle ≤ t.boundary sjis size d.turns := Nat.not_le.mpr (hb.inside d.turns)
  have hnext := hb.next d.turns
  have hhome := hb.eq_zero_iff d.turns
  rw [marqueeTick, if_neg hgo, t.titleCycle_memory, t.loopText_memory, t.loop_fits, Dial.tick]
  simp only [shownAt, hin, hhome, if_false, Option.bind_eq_bind, Option.bind_some]
  by_cases hstart : d.turns % size = 0
  · by_cases hhold : d.timer < scrollStartHoldFrames c
    · simp only [hstart, hhold, and_self, if_true, Option.map_some]
    · simp only [hstart, hhold, and_false, true_or, if_true, if_false]
      rw [← hnext]
      split <;> rfl
  · by_cases hdue : c.stepFrames ≤ (d.timer + 1).toUInt32
    · simp only [hstart, hdue, false_and, or_true, if_true, if_false]
      rw [← hnext]
      split <;> rfl
    · simp only [hstart, hdue, false_and, false_or, if_false, Option.map_some]

/-- Any number of ticks from rest. -/
theorem marqueeRun_eq (hscroll : Scrolling c t visible) : ∀ k,
    marqueeRun c t.memory sjis visible k = some (shownAt t sjis size (Dial.run c size ⟨0, 0⟩ k))
  | 0 => by
    have hfirst : t.boundary sjis size 0 = 0 := (hb.eq_zero_iff 0).mpr (Nat.zero_mod size)
    show some (Marquee.mk 0 0) = some ⟨t.boundary sjis size 0, 0⟩
    rw [hfirst]
  | k + 1 => by
    rw [marqueeRun, marqueeRun_eq hscroll k, Option.bind_some, hb.marqueeTick_cases hscroll, Dial.run]

end Boundaries

theorem marqueeRun_rest (h : ¬ Scrolling c t visible) : ∀ k, marqueeRun c t.memory sjis visible k = some ⟨0, 0⟩
  | 0 => rfl
  | k + 1 => by rw [marqueeRun, marqueeRun_rest h k, Option.bind_some, marqueeTick_rest sjis h]

end

/-! ## Round and round -/

/-- `turns k` boundaries are gone on by in `k` ticks; a revolution is `size` of them. -/
structure GoesRound (c : ScrollSettings) (t : TitleField) (sjis : Bool) (visible : Int) (size : Nat)
    (turns : Nat → Nat) : Prop where
  first : turns 0 = 0
  next : ∀ k, turns (k + 1) = turns k ∨ turns (k + 1) = turns k + 1
  shown : ∀ k, ∃ timer, marqueeRun c t.memory sjis visible k = some ⟨t.boundary sjis size (turns k), timer⟩
  inside : ∀ k, t.boundary sjis size (turns k) < t.cycle
  -- the timer starts anew with every turn
  anew : ∀ k, turns (k + 1) ≠ turns k →
    marqueeRun c t.memory sjis visible (k + 1) = some ⟨t.boundary sjis size (turns (k + 1)), 0⟩
  holds : ∀ k, marqueeRun c t.memory sjis visible k = some ⟨0, 0⟩ →
    ∀ j ≤ (scrollStartHoldFrames c).toNat, turns (k + j) = turns k
  leaves : Scrolling c t visible → ∀ k, marqueeRun c t.memory sjis visible k = some ⟨0, 0⟩ →
    turns (k + ((scrollStartHoldFrames c).toNat + 1)) = turns k + 1
  -- no more frames to a step than the timer counts
  every : Scrolling c t visible → c.stepFrames.toNat < UInt16.size → ∀ n, ∃ k, turns k = n

theorem GoesRound.of_rest {c : ScrollSettings} {t : TitleField} {visible : Int} {sjis : Bool} {size : Nat}
    (hb : Boundaries t sjis size) (h : ¬ Scrolling c t visible) : GoesRound c t sjis visible size fun _ => 0 where
  first := rfl
  next _ := .inl rfl
  shown k := by
    have hfirst : t.boundary sjis size 0 = 0 := (hb.eq_zero_iff 0).mpr (Nat.zero_mod size)
    exact ⟨0, by rw [hfirst]; exact marqueeRun_rest sjis h k⟩
  inside _ := hb.inside 0
  anew _ hne := absurd rfl hne
  holds _ _ _ _ := rfl
  leaves hscroll := absurd hscroll h
  every hscroll := absurd hscroll h

theorem GoesRound.of_scrolling {c : ScrollSettings} {t : TitleField} {visible : Int} {sjis : Bool} {size : Nat}
    (hb : Boundaries t sjis size) (h : Scrolling c t visible) :
    GoesRound c t sjis visible size fun k => (Dial.run c size ⟨0, 0⟩ k).turns := by
  have hrun := hb.marqueeRun_eq h
  -- at rest at the start: so is the dial
  have hstart : ∀ k, marqueeRun c t.memory sjis visible k = some ⟨0, 0⟩ →
      (Dial.run c size ⟨0, 0⟩ k).turns % size = 0 ∧ (Dial.run c size ⟨0, 0⟩ k).timer = 0 := by
    intro k hrest
    rw [hrun k, Option.some_inj] at hrest
    exact ⟨(hb.eq_zero_iff _).mp (congrArg Marquee.off hrest), congrArg Marquee.timer hrest⟩
  have hnext : ∀ k, _ := fun k => Dial.tick_cases c size (Dial.run c size ⟨0, 0⟩ k)
  constructor
  case first => rfl
  case next =>
    intro k
    obtain hcounts | hturns := hnext k
    · have hsame := congrArg Dial.turns hcounts
      exact .inl hsame
    · exact .inr (congrArg Dial.turns hturns)
  case shown => exact fun k => ⟨_, hrun k⟩
  case inside => exact fun k => hb.inside _
  case anew =>
    intro k hne
    obtain hcounts | hturns := hnext k
    · have hsame := congrArg Dial.turns hcounts
      exact absurd hsame hne
    · have htimer : (Dial.run c size ⟨0, 0⟩ (k + 1)).timer = 0 := congrArg Dial.timer hturns
      rw [hrun (k + 1), shownAt, htimer]
  case holds =>
    intro k hrest j hj
    obtain ⟨hturn, htimer⟩ := hstart k hrest
    show (Dial.run c size ⟨0, 0⟩ (k + j)).turns = _
    rw [Dial.run_add, (Dial.run_hold hturn htimer j hj).1]
  case leaves =>
    intro _ k hrest
    obtain ⟨hturn, htimer⟩ := hstart k hrest
    show (Dial.run c size ⟨0, 0⟩ (k + _)).turns = _
    rw [Dial.run_add, Dial.run_leave hturn htimer]
  case every =>
    intro _ hstep n
    obtain ⟨k, hk⟩ := Dial.run_reaches hstep n
    exact ⟨k, congrArg Dial.turns hk⟩

/-- For every title, width and setting: the text is drawn from its boundaries in order, from
    the start to the last of the gap and over, and at the start it holds. -/
theorem marquee_goes_round (c : ScrollSettings) (t : TitleField) (sjis : Bool) (visible : Int) :
    ∃ size turns, Boundaries t sjis size ∧
      (∀ i < size, Chars.pos (leadOf sjis) t.loop i < Chars.pos (leadOf sjis) t.loop (i + 1)) ∧
      -- inside the title they are the title's own
      (∀ i, Chars.pos (leadOf sjis) t.title i < t.title.length →
        Chars.pos (leadOf sjis) t.loop i = Chars.pos (leadOf sjis) t.title i) ∧
      GoesRound c t sjis visible size turns := by
  obtain ⟨size, hb⟩ := exists_boundaries sjis t
  have hown : ∀ i, Chars.pos (leadOf sjis) t.title i < t.title.length →
      Chars.pos (leadOf sjis) t.loop i = Chars.pos (leadOf sjis) t.title i := by
    intro i hi
    rw [TitleField.loop, List.append_assoc]
    exact Chars.pos_append _ _ i hi
  by_cases hscroll : Scrolling c t visible
  · exact ⟨size, _, hb, fun _ => hb.lt_succ, hown, .of_scrolling hb hscroll⟩
  · exact ⟨size, _, hb, fun _ => hb.lt_succ, hown, .of_rest hb hscroll⟩

end Cubiboot
