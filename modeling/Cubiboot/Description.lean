import Cubiboot.Lib.Fields
import Cubiboot.Lib.Trim
import Cubiboot.Marquee
import Mathlib.Order.Bounds.Basic

/-
  The description row (`menu.c`): one row of text, walked with the L and R triggers.

  A banner's description has breaks in it. `scroll_desc_flatten` draws its rows as one text,
  and an offset into that text, counted in characters, says where the box begins. R moves on
  while there is text behind the box, L moves back; a trigger that is held repeats.

  What is proved:
    1. `scrollDescFlatten_eq` — the rows, each behind the one before with a space between
       them where there is none.
    2. `scrollSkipChars_eq` — a count of characters is a boundary of the text.
    3. `lrFrame_bounds` — no frame takes the offset out of its bounds.
    4. `description_scroll` — over every run of frames: the bounds, what is drawn, and that
       pressing R brings every character behind the offset into the box.

  Correspondence (C ↔ Lean):
    `scroll_desc_flatten`                 ↔ `scrollDescFlatten`
    `scroll_skip_chars`                   ↔ `scrollSkipChars`
    `scroll_desc_overflows`               ↔ `scrollDescOverflows`
    `handle_gameselect_inputs` (L and R)  ↔ `lrFrame`
    `custom_gameselect_menu` (the row)    ↔ `descDraw`
-/

set_option autoImplicit false

namespace Cubiboot

/-! ## The row -/

def bnrDescLen : Nat := 0x80

/-- `sizeof(flat)`. -/
def flatSize : Nat := bnrDescLen * 2

def scrollVisibleInfo : Nat := 24

def isRowBreak (c : UInt8) : Bool := c == 0x0A || c == 0x0D

/-- What is put between `flat` and the row behind it. -/
def separator (flat : List UInt8) : List UInt8 := if flat.getLast? ≠ some 0x20 then [0x20] else []

/-- The loop: `sepPending` and what `flat` holds so far. -/
def flattenLoop : List UInt8 → Bool → List UInt8 → List UInt8
  | [], _, flat => flat
  | c :: s, sepPending, flat =>
    if c = 0 then flat
    else if isRowBreak c then flattenLoop s (if 0 < flat.length then true else sepPending) flat
    else if sepPending then flattenLoop s false (flat ++ separator flat ++ [c])
    else flattenLoop s false (flat ++ [c])

/-- `s` is the memory from the description on. -/
def scrollDescFlatten (s : List UInt8) : List UInt8 := flattenLoop (s.take bnrDescLen) false []

/-- The loop of `scroll_skip_chars`, `nchars` more times from `off`. -/
def skipCharsLoop (s : List UInt8) (len : Nat) (sjis : Bool) : Nat → Nat → Nat
  | 0, off => off
  | nchars + 1, off =>
    if off < len then
      skipCharsLoop s len sjis nchars (if leadOf sjis (s.getD off 0) ∧ off + 1 < len then off + 2 else off + 1)
    else off

def scrollSkipChars (s : List UInt8) (len : Nat) (nchars : Int) (sjis : Bool) : Nat :=
  skipCharsLoop s len sjis nchars.toNat 0

def scrollDescOverflows (s : List UInt8) (offChars : Int) (sjis : Bool) : Bool :=
  let flat := scrollDescFlatten s
  let skip := scrollSkipChars flat (strlen flat) offChars sjis
  scrollVisibleInfo < strlen (flat.drop skip)

/-- `desc_draw`. -/
def descDraw (s : List UInt8) (infoScrollOff : Int) (sjis : Bool) : List UInt8 :=
  let flat := scrollDescFlatten s
  flat.drop (scrollSkipChars flat (strlen flat) infoScrollOff sjis)

/-! ## The triggers -/

def scrollRepeatDelayFrames : Nat := 20
def scrollRepeatStepFrames : Nat := 4
def triggerAnalogPress : UInt8 := 0x40
def triggerAnalogRelease : UInt8 := 0x28

/-- A frame: the pad, the submenu, and whether the selected slot has an entry. -/
structure LrInput where
  clickL : Bool
  clickR : Bool
  triggerL : UInt8
  triggerR : UInt8
  loader : Bool
  inSubmenuTransition : Bool
  hasTarget : Bool

/-- `lr_prev` bit by bit, `lr_hold_timer` and `info_scroll_off`. -/
structure LrState where
  prevL : Bool
  prevR : Bool
  holdTimer : UInt16
  infoScrollOff : Int

def triggerActive (click : Bool) (travel : UInt8) (prev : Bool) : Bool :=
  click || decide ((if prev then triggerAnalogRelease else triggerAnalogPress) ≤ travel)

/-- The timer of a frame and whether it is one that steps. -/
def lrStep (fresh : Bool) (holdTimer : UInt16) : UInt16 × Bool :=
  if fresh then (0, true)
  else
    let timer := holdTimer + 1
    (timer, decide (scrollRepeatDelayFrames ≤ timer.toNat ∧
      (timer.toNat - scrollRepeatDelayFrames) % scrollRepeatStepFrames = 0))

/-- Where a step takes the offset. -/
def scrollStep (desc : List UInt8) (sjis : Bool) (rActive : Bool) (off : Int) : Int :=
  if rActive then if scrollDescOverflows desc off sjis then off + 1 else off
  else if 0 < off then off - 1
  else off

def lrFrame (desc : List UInt8) (sjis : Bool) (i : LrInput) (st : LrState) : LrState :=
  let lActive := triggerActive i.clickL i.triggerL st.prevL
  let rActive := triggerActive i.clickR i.triggerR st.prevR
  let fresh := (lActive && !st.prevL) || (rActive && !st.prevR)
  if !lActive && !rActive then ⟨lActive, rActive, 0, st.infoScrollOff⟩
  else if i.loader && !i.inSubmenuTransition then
    let (timer, step) := lrStep fresh st.holdTimer
    ⟨lActive, rActive, timer,
      if step && i.hasTarget then scrollStep desc sjis rActive st.infoScrollOff else st.infoScrollOff⟩
  else ⟨lActive, rActive, st.holdTimer, st.infoScrollOff⟩

/-- Frame after frame, from an offset of 0. -/
def lrRun (desc : List UInt8) (sjis : Bool) (frames : List LrInput) (st : LrState) : LrState :=
  frames.foldl (fun st i => lrFrame desc sjis i st) st

def LrState.start : LrState := ⟨false, false, 0, 0⟩

/-- Both triggers let go, then R pressed. -/
def pressR : List LrInput :=
  [⟨false, false, 0, 0, true, false, true⟩, ⟨false, true, 0, 0, true, false, true⟩]

/-! ## The flat text -/

/-- A description's field, and what lies behind it in memory. -/
structure DescField where
  field : List UInt8
  size : field.length = bnrDescLen
  behind : List UInt8

def DescField.memory (d : DescField) : List UInt8 := d.field ++ d.behind

/-- The description: the field up to its first NUL. -/
def DescField.text (d : DescField) : List UInt8 := d.field.takeWhile (· ≠ 0)

/-- A row behind what is there, with a space between them where there is none. -/
def addRow (flat row : List UInt8) : List UInt8 :=
  flat ++ (if flat = [] ∨ flat.getLast? = some 0x20 then [] else [0x20]) ++ row

/-- The rows of a text as one. -/
def flatRows (text : List UInt8) : List UInt8 := (Fields.fields isRowBreak text).foldl addRow []

theorem addRow_of_pending {flat : List UInt8} (hne : flat ≠ []) (row : List UInt8) :
    addRow flat row = flat ++ separator flat ++ row := by
  rw [addRow, separator]
  by_cases hspace : flat.getLast? = some 0x20
  · rw [if_pos (.inr hspace), if_neg (not_not.mpr hspace)]
  · rw [if_neg (not_or.mpr ⟨hne, hspace⟩), if_pos hspace]

/-- Between two rows, and inside one. -/
theorem flattenLoop_eq (s : List UInt8) : ∀ flat,
    flattenLoop s (!flat.isEmpty) flat = (Fields.fields isRowBreak (s.takeWhile (· ≠ 0))).foldl addRow flat ∧
    (flat ≠ [] → flattenLoop s false flat =
      (Fields.fields isRowBreak ((s.takeWhile (· ≠ 0)).dropWhile fun c => !isRowBreak c)).foldl addRow
        (flat ++ (s.takeWhile (· ≠ 0)).takeWhile fun c => !isRowBreak c)) := by
  induction s with
  | nil =>
    intro flat
    refine ⟨rfl, fun _ => ?_⟩
    show flat = [].foldl addRow (flat ++ [])
    rw [List.append_nil]
    rfl
  | cons c s ih =>
    intro flat
    rw [flattenLoop, flattenLoop]
    by_cases hnul : c = 0
    · rw [if_pos hnul, if_pos hnul, List.takeWhile_cons_of_neg (by simpa using hnul)]
      refine ⟨rfl, fun _ => ?_⟩
      show flat = [].foldl addRow (flat ++ [])
      rw [List.append_nil]
      rfl
    rw [if_neg hnul, if_neg hnul, List.takeWhile_cons_of_pos (by simpa using hnul)]
    by_cases hbreak : isRowBreak c = true
    · rw [if_pos hbreak, if_pos hbreak, Fields.fields_cons_sep hbreak]
      have hpending : (if 0 < flat.length then true else !flat.isEmpty) = !flat.isEmpty := by
        cases flat <;> rfl
      refine ⟨by rw [hpending]; exact (ih flat).1, fun hne => ?_⟩
      have hstill : (if 0 < flat.length then true else false) = !flat.isEmpty := by
        cases flat <;> rfl
      rw [hstill, (ih flat).1, List.takeWhile_cons_of_neg (by rw [hbreak]; decide),
        List.dropWhile_cons_of_neg (by rw [hbreak]; decide), List.append_nil, Fields.fields_cons_sep hbreak]
    · have hrow : (!isRowBreak c) = true := by rw [Bool.not_eq_true', ← Bool.not_eq_true]; exact hbreak
      have hc : isRowBreak c = false := Bool.not_eq_true _ ▸ hbreak
      have hin : ∀ flat', flat' ≠ [] → flattenLoop s false flat' = _ := fun flat' hne => (ih flat').2 hne
      have hend : ∀ front : List UInt8, front ++ [c] ≠ [] := fun front h => by simp at h
      have htake : ∀ l, (c :: l).takeWhile (fun c => !isRowBreak c) = c :: l.takeWhile fun c => !isRowBreak c :=
        fun l => List.takeWhile_cons_of_pos hrow
      have hdrop : ∀ l, (c :: l).dropWhile (fun c => !isRowBreak c) = l.dropWhile fun c => !isRowBreak c :=
        fun l => List.dropWhile_cons_of_pos hrow
      rw [if_neg hbreak, if_neg hbreak]
      constructor
      · -- the row begins
        rw [Fields.fields_take hc, htake, hdrop, List.foldl_cons]
        by_cases hflat : flat = []
        · subst hflat
          rw [if_neg (by decide), hin _ (hend [])]
          rfl
        · have hpending : (!flat.isEmpty) = true := by
            cases flat with
            | nil => exact absurd rfl hflat
            | cons a flat => rfl
          rw [if_pos hpending, hin _ (hend _), addRow_of_pending hflat, List.append_assoc _ [c], List.singleton_append]
      · intro hne
        rw [if_neg (by decide), hin _ (hend _), htake, hdrop, List.append_assoc, List.singleton_append]

/-- A separator takes no more room than its break. -/
theorem flattenLoop_length (s : List UInt8) : ∀ sepPending flat,
    (flattenLoop s sepPending flat).length ≤ flat.length + s.length + sepPending.toNat := by
  induction s with
  | nil =>
    intro sepPending flat
    exact Nat.le_add_right _ _
  | cons c s ih =>
    intro sepPending flat
    have hseparator : (separator flat).length ≤ 1 := by
      rw [separator]
      split <;> decide
    rw [flattenLoop, List.length_cons]
    split_ifs with hnul hbreak hsome hpending
    · omega
    · have hrest := ih true flat
      rw [Bool.toNat_true] at hrest
      omega
    · have hrest := ih sepPending flat
      omega
    · have hrest := ih false (flat ++ separator flat ++ [c])
      rw [List.length_append, List.length_append, List.length_singleton, Bool.toNat_false] at hrest
      rw [hpending, Bool.toNat_true]
      omega
    · have hrest := ih false (flat ++ [c])
      rw [List.length_append, List.length_singleton, Bool.toNat_false] at hrest
      omega

theorem flattenLoop_noNul (s : List UInt8) : ∀ sepPending flat, 0 ∉ flat → 0 ∉ flattenLoop s sepPending flat := by
  induction s with
  | nil => exact fun _ _ h => h
  | cons c s ih =>
    intro sepPending flat h
    have hseparator : 0 ∉ separator flat := by
      rw [separator]
      split <;> decide
    rw [flattenLoop]
    split_ifs with hnul hbreak hsome hpending
    · exact h
    · exact ih _ _ h
    · exact ih _ _ h
    · refine ih _ _ ?_
      simp only [List.mem_append, List.mem_singleton, not_or]
      exact ⟨⟨h, hseparator⟩, fun hc => hnul hc.symm⟩
    · refine ih _ _ ?_
      simp only [List.mem_append, List.mem_singleton, not_or]
      exact ⟨h, fun hc => hnul hc.symm⟩

theorem strlen_eq {s : List UInt8} (h : 0 ∉ s) : strlen s = s.length := by
  rw [strlen, Trim.takeWhile_none h]

namespace DescField
variable (d : DescField)

/-- The text that is walked. -/
def flat : List UInt8 := scrollDescFlatten d.memory

theorem flat_eq : d.flat = flatRows d.text := by
  have htake : d.memory.take bnrDescLen = d.field := by rw [memory, ← d.size, List.take_left]
  rw [flat, scrollDescFlatten, htake]
  exact (flattenLoop_eq d.field []).1

/-- It and its NUL fit the buffer. -/
theorem flat_length : d.flat.length < flatSize := by
  have hlen := flattenLoop_length (d.memory.take bnrDescLen) false []
  have htake := List.length_take_le bnrDescLen d.memory
  have hsize : bnrDescLen < flatSize := by decide
  rw [flat, scrollDescFlatten]
  simp only [List.length_nil, Bool.toNat_false] at hlen
  omega

theorem flat_noNul : 0 ∉ d.flat := flattenLoop_noNul _ false [] List.not_mem_nil

@[simp] theorem strlen_flat : strlen d.flat = d.flat.length := strlen_eq d.flat_noNul

@[simp] theorem strlen_drop (k : Nat) : strlen (d.flat.drop k) = (d.flat.drop k).length :=
  strlen_eq fun h => d.flat_noNul (List.mem_of_mem_drop h)

end DescField

/-! ## Characters -/

theorem skipCharsLoop_eq (s : List UInt8) (sjis : Bool) (n : Nat) : ∀ i,
    skipCharsLoop s s.length sjis n (Chars.pos (leadOf sjis) s i) = Chars.pos (leadOf sjis) s (i + n) := by
  induction n with
  | zero => exact fun _ => rfl
  | succ n ih =>
    intro i
    rw [skipCharsLoop]
    by_cases hin : Chars.pos (leadOf sjis) s i < s.length
    · have hstep : (if leadOf sjis (s.getD (Chars.pos (leadOf sjis) s i) 0) ∧
            Chars.pos (leadOf sjis) s i + 1 < s.length then
          Chars.pos (leadOf sjis) s i + 2 else Chars.pos (leadOf sjis) s i + 1) =
          Chars.pos (leadOf sjis) s (i + 1) := by
        rw [Chars.pos_succ, List.getD_eq_getElem _ _ hin, List.drop_eq_getElem_cons hin]
        by_cases hnext : Chars.pos (leadOf sjis) s i + 1 < s.length
        · rw [List.drop_eq_getElem_cons hnext, Chars.width]
          simp only [hnext, and_true]
          split <;> rfl
        · rw [List.drop_eq_nil_of_le (Nat.not_lt.mp hnext), if_neg fun h => hnext h.2]
          rfl
      rw [if_pos hin, hstep, ih (i + 1), Nat.add_right_comm, Nat.add_assoc]
    · have hend : s.length ≤ Chars.pos (leadOf sjis) s i := Nat.not_lt.mp hin
      have hmono := Chars.pos_mono (leadOf sjis) (l := s) (Nat.le_add_right i (n + 1))
      have hle := Chars.pos_le_length (leadOf sjis) s (i + (n + 1))
      rw [if_neg hin]
      omega

theorem scrollSkipChars_eq (s : List UInt8) (nchars : Int) (sjis : Bool) :
    scrollSkipChars s s.length nchars sjis = Chars.pos (leadOf sjis) s nchars.toNat := by
  have hloop := skipCharsLoop_eq s sjis nchars.toNat 0
  rwa [Nat.zero_add] at hloop

section
variable (d : DescField) (sjis : Bool)

/-- Where the box is with an offset of `k` characters. -/
def DescField.box (k : Nat) : Nat := Chars.pos (leadOf sjis) d.flat k

/-- The offsets from which the rest of the text fits the box. -/
def DescField.fits : Set Nat := {k | (d.flat.drop (d.box sjis k)).length ≤ scrollVisibleInfo}

theorem descDraw_eq (off : Int) : descDraw d.memory off sjis = d.flat.drop (d.box sjis off.toNat) := by
  show d.flat.drop (scrollSkipChars d.flat (strlen d.flat) off sjis) = _
  rw [d.strlen_flat, scrollSkipChars_eq]
  rfl

theorem overflows_iff (off : Int) : scrollDescOverflows d.memory off sjis = true ↔ off.toNat ∉ d.fits sjis := by
  show decide (scrollVisibleInfo < strlen (d.flat.drop (scrollSkipChars d.flat (strlen d.flat) off sjis))) = true ↔ _
  rw [decide_eq_true_eq, d.strlen_drop, d.strlen_flat, scrollSkipChars_eq]
  exact Nat.not_le.symm

theorem exists_limit : ∃ limit, IsLeast (d.fits sjis) limit := by
  have hend : d.flat.length ∈ d.fits sjis := by
    show (d.flat.drop (Chars.pos _ d.flat d.flat.length)).length ≤ scrollVisibleInfo
    rw [Chars.pos_of_length_le _ (Nat.le_refl _), List.drop_length]
    exact Nat.zero_le _
  classical
  exact ⟨Nat.find ⟨_, hend⟩, Nat.find_spec _, fun k hk => Nat.find_min' _ hk⟩

/-! ## L and R -/

variable {d sjis} {limit : Nat}

/-- From inside the bounds a step stays there: R goes on below the limit and rests on it. -/
theorem scrollStep_bounds (hl : IsLeast (d.fits sjis) limit) {off : Int} (h : 0 ≤ off ∧ off ≤ limit) (r : Bool) :
    0 ≤ scrollStep d.memory sjis r off ∧ scrollStep d.memory sjis r off ≤ limit := by
  rw [scrollStep]
  split_ifs with hr hover hpos
  · have hne : off.toNat ≠ limit := fun heq => (overflows_iff d sjis off).mp hover (heq ▸ hl.1)
    omega
  · exact h
  · omega
  · exact h

theorem scrollStep_right (hl : IsLeast (d.fits sjis) limit) {off : Int} (h : 0 ≤ off ∧ off ≤ limit) :
    scrollStep d.memory sjis true off = min (off + 1) limit := by
  rw [scrollStep, if_pos rfl]
  by_cases hfit : off.toNat ∈ d.fits sjis
  · -- in the box from here on: this is the limit
    have hle : limit ≤ off.toNat := hl.2 hfit
    rw [if_neg fun hover => (overflows_iff d sjis off).mp hover hfit]
    omega
  · have hne : off.toNat ≠ limit := fun heq => hfit (heq ▸ hl.1)
    rw [if_pos ((overflows_iff d sjis off).mpr hfit)]
    omega

/-- A frame steps, or leaves the offset alone. -/
theorem lrFrame_off (desc : List UInt8) (sjis : Bool) (i : LrInput) (st : LrState) :
    (lrFrame desc sjis i st).infoScrollOff = st.infoScrollOff ∨
      ∃ r, (lrFrame desc sjis i st).infoScrollOff = scrollStep desc sjis r st.infoScrollOff := by
  rw [lrFrame]
  dsimp only
  split_ifs
  · exact .inl rfl
  · exact .inr ⟨_, rfl⟩
  · exact .inl rfl
  · exact .inl rfl

theorem lrFrame_bounds (hl : IsLeast (d.fits sjis) limit) (i : LrInput) {st : LrState}
    (h : 0 ≤ st.infoScrollOff ∧ st.infoScrollOff ≤ limit) :
    0 ≤ (lrFrame d.memory sjis i st).infoScrollOff ∧ (lrFrame d.memory sjis i st).infoScrollOff ≤ limit := by
  obtain hsame | ⟨r, hstep⟩ := lrFrame_off d.memory sjis i st
  · rw [hsame]
    exact h
  · rw [hstep]
    exact scrollStep_bounds hl h r

theorem lrRun_bounds (hl : IsLeast (d.fits sjis) limit) (frames : List LrInput) : ∀ st : LrState,
    0 ≤ st.infoScrollOff ∧ st.infoScrollOff ≤ limit →
      0 ≤ (lrRun d.memory sjis frames st).infoScrollOff ∧ (lrRun d.memory sjis frames st).infoScrollOff ≤ limit := by
  induction frames with
  | nil => exact fun _ h => h
  | cons i frames ih => exact fun st h => ih _ (lrFrame_bounds hl i h)

/-- R pressed so many times. -/
def pressesR : Nat → List LrInput
  | 0 => []
  | n + 1 => pressR ++ pressesR n

/-- Pressed anew it steps at once, whatever was held before. -/
theorem lrRun_pressR (desc : List UInt8) (sjis : Bool) (st : LrState) :
    (lrRun desc sjis pressR st).infoScrollOff = scrollStep desc sjis true st.infoScrollOff := by
  have hidle : ∀ prev, triggerActive false 0 prev = false := by decide
  have hlet : lrFrame desc sjis ⟨false, false, 0, 0, true, false, true⟩ st = ⟨false, false, 0, st.infoScrollOff⟩ := by
    rw [lrFrame]
    simp only [hidle]
    rfl
  have hrun : lrRun desc sjis pressR st = lrFrame desc sjis ⟨false, true, 0, 0, true, false, true⟩
      (lrFrame desc sjis ⟨false, false, 0, 0, true, false, true⟩ st) := rfl
  rw [hrun, hlet]
  rfl

theorem lrRun_pressesR (hl : IsLeast (d.fits sjis) limit) (n : Nat) : ∀ st : LrState,
    0 ≤ st.infoScrollOff ∧ st.infoScrollOff ≤ limit →
      (lrRun d.memory sjis (pressesR n) st).infoScrollOff = min (st.infoScrollOff + n) limit := by
  induction n with
  | zero =>
    intro st h
    show st.infoScrollOff = min (st.infoScrollOff + 0) limit
    omega
  | succ n ih =>
    intro st h
    have hpress := lrRun_pressR d.memory sjis st
    rw [scrollStep_right hl h] at hpress
    have hrest := ih (lrRun d.memory sjis pressR st) (by omega)
    have happ : lrRun d.memory sjis (pressesR (n + 1)) st =
        lrRun d.memory sjis (pressesR n) (lrRun d.memory sjis pressR st) := List.foldl_append
    rw [happ, hrest, hpress]
    omega

/-- The character is in the box, all of it. -/
def DescField.InBox (d : DescField) (sjis : Bool) (off i : Nat) : Prop :=
  d.box sjis off ≤ d.box sjis i ∧ d.box sjis (i + 1) ≤ d.box sjis off + scrollVisibleInfo

/-- From the limit, every character that is left; before it, the one at the offset. -/
theorem inBox_of_le (hl : IsLeast (d.fits sjis) limit) {off i : Nat} (hle : off ≤ i)
    (h : off = i ∨ off = limit) : d.InBox sjis off i := by
  refine ⟨Chars.pos_mono _ hle, ?_⟩
  obtain rfl | rfl := h
  · have htwo := Chars.width_le_two (leadOf sjis) (d.flat.drop (Chars.pos (leadOf sjis) d.flat off))
    have hvisible : 2 ≤ scrollVisibleInfo := by decide
    rw [DescField.box, Chars.pos_succ]
    exact Nat.add_le_add_left (htwo.trans hvisible) _
  · have hrest : (d.flat.drop (d.box sjis off)).length ≤ scrollVisibleInfo := hl.1
    have hend : d.box sjis (i + 1) ≤ d.flat.length := Chars.pos_le_length _ _ _
    rw [List.length_drop] at hrest
    omega

theorem exists_pressesR (hl : IsLeast (d.fits sjis) limit) {st : LrState}
    (h : 0 ≤ st.infoScrollOff ∧ st.infoScrollOff ≤ limit) {i : Nat} (hi : st.infoScrollOff ≤ i) :
    ∃ n, d.InBox sjis (lrRun d.memory sjis (pressesR n) st).infoScrollOff.toNat i := by
  refine ⟨(min (i : Int) limit - st.infoScrollOff).toNat, inBox_of_le hl ?_ ?_⟩
  · rw [lrRun_pressesR hl _ st h]
    omega
  · rw [lrRun_pressesR hl _ st h]
    omega

end

/-! ## The row, whatever is pressed -/

/-- For every description: the text is its rows with single spaces between them; the offset
    is between 0 and the first from which the rest fits, and the text is drawn from the
    boundary it counts to; pressing R brings every character behind it into the box. -/
theorem description_scroll (d : DescField) (sjis : Bool) :
    d.flat = flatRows d.text ∧ d.flat.length < flatSize ∧ ∃ limit, IsLeast (d.fits sjis) limit ∧
      ∀ frames : List LrInput, ∃ off : Nat,
        (lrRun d.memory sjis frames .start).infoScrollOff = off ∧ off ≤ limit ∧
        descDraw d.memory off sjis = d.flat.drop (Chars.pos (leadOf sjis) d.flat off) ∧
        ∀ i, off ≤ i →
          ∃ n, d.InBox sjis (lrRun d.memory sjis (frames ++ pressesR n) .start).infoScrollOff.toNat i := by
  obtain ⟨limit, hl⟩ := exists_limit d sjis
  refine ⟨d.flat_eq, d.flat_length, limit, hl, fun frames => ?_⟩
  have hstart : 0 ≤ LrState.start.infoScrollOff ∧ LrState.start.infoScrollOff ≤ limit :=
    ⟨Int.le_refl 0, Int.natCast_nonneg limit⟩
  have hrun := lrRun_bounds hl frames .start hstart
  obtain ⟨off, hoff⟩ := Int.eq_ofNat_of_zero_le hrun.1
  refine ⟨off, hoff, by omega, descDraw_eq d sjis off, fun i hi => ?_⟩
  obtain ⟨n, hn⟩ := exists_pressesR hl hrun (i := i) (by omega)
  refine ⟨n, ?_⟩
  rw [lrRun, List.foldl_append]
  exact hn

end Cubiboot
