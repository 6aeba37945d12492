import Cubiboot.Description
import Cubiboot.Heap

/-
  The scroll offsets and the entries they index (`menu.c`, `games.c`).

  A frame draws the texts of one entry from offsets that outlive the frame. They start anew
  where the entry drawn is not the one drawn last, and entries are told apart by address. A
  folder change frees every entry and allocates the next folder's from the same heap, which
  hands out the same addresses again: the entry at a place in the list is where the entry at
  that place was before.

  What is proved:
    1. `entry_ptr` — the address of an entry is that of its place in the list.
    2. `menuStep_inv` — the address remembered is that of the place drawn last.
    3. `startsAnew_iff` — a frame starts another entry from 0 exactly if the entry drawn last
       was at another place, or no offset was left.
    4. `scroll_starts_anew_iff` — hence for every run.

  Correspondence (C ↔ Lean):
    `scroll_check_entry`                         ↔ `scrollCheckEntry`
    `custom_gameselect_menu`, the start screen   ↔ `drawTexts` at `.grid` and `.start`
    `gm_get_game_entry`                          ↔ `heap.live[i]?`
    `gm_check_files` (an entry), `gm_start_thread` (all of them freed)
                                                 ↔ `MenuOp.newEntry`, `MenuOp.dropList`
-/

set_option autoImplicit false

namespace Cubiboot

/-! ## Drawing -/

def scrollVisibleTitle : Int := 28
def scrollVisibleStart : Int := 35

/-- What a frame reads of an entry. -/
structure EntryText where
  title : TitleField
  desc : DescField
  sjis : Bool

/-- `scroll_entry` (0 for `NULL`), and the offsets with their timers. -/
structure ScrollState where
  scrollEntry : Nat
  title : Marquee
  info : LrState
  start : Marquee

/-- The two screens that draw an entry's texts. -/
inductive Screen where
  | grid
  | start
  deriving DecidableEq

def scrollCheckEntry (entry : Nat) (s : ScrollState) : ScrollState :=
  if entry = s.scrollEntry then s
  else ⟨entry, ⟨0, 0⟩, { s.info with infoScrollOff := 0 }, ⟨0, 0⟩⟩

/-- One tick of a title's marquee. -/
def titleTick (c : ScrollSettings) (text : EntryText) (visible : Int) (m : Marquee) : Marquee :=
  ((marqueeTick c text.title.memory text.sjis visible m).map Prod.snd).getD m

def drawTexts (c : ScrollSettings) (screen : Screen) (text : EntryText) (entry : Nat) (s : ScrollState) : ScrollState :=
  let s := scrollCheckEntry entry s
  match screen with
  | .grid => { s with title := titleTick c text scrollVisibleTitle s.title }
  | .start => { s with start := titleTick c text scrollVisibleStart s.start }

/-! ## Frames, keys and folders -/

/-- The entries are the blocks in use. `list` counts the lists given up so far; `drawn` is the
    list and the place of the entry drawn last, which nothing of the program keeps. -/
structure MenuSys where
  heap : HeapSys
  scroll : ScrollState
  list : Nat
  drawn : Option (Nat × Nat)

/-- An entry found by the scan, a write to an entry, all of them freed, the `i`th drawn, and
    a frame's pad. -/
inductive MenuOp where
  | newEntry
  | write (i : Nat) (data : Nat → UInt32)
  | dropList
  | draw (screen : Screen) (i : Nat) (text : EntryText)
  | keys (text : EntryText) (input : LrInput)

def menuStep (c : ScrollSettings) (s : MenuSys) : MenuOp → MenuSys
  | .newEntry => if s.heap.live.length < maxPaths then { s with heap := heapStep s.heap .mallocEntry } else s
  | .write i data => { s with heap := heapStep s.heap (.write i data) }
  | .dropList =>
    { s with heap := Steps.run heapStep s.heap (List.replicate s.heap.live.length .free), list := s.list + 1 }
  | .draw screen i text =>
    match s.heap.live[i]? with
    | some entry => { s with scroll := drawTexts c screen text entry.ptr s.scroll, drawn := some (s.list, i) }
    | none => s
  | .keys text input =>
    { s with scroll := { s.scroll with info := lrFrame text.desc.memory text.sjis input s.scroll.info } }

/-- Before the first scan; the logo's buffer has come and gone, or there was none. -/
def menuStart (b : HeapBuffer) (garbage : Nat → UInt32) (logo : Bool) : MenuSys where
  heap := Steps.run heapStep (gmInitHeap b garbage) (if logo then [.mallocLogo, .free] else [])
  scroll := ⟨0, ⟨0, 0⟩, .start, ⟨0, 0⟩⟩
  list := 0
  drawn := none

def ScrollState.AtStart (s : ScrollState) : Prop :=
  s.title.off = 0 ∧ s.info.infoScrollOff = 0 ∧ s.start.off = 0

/-- A frame that draws another entry than the last one draws it from offsets of 0. -/
def StartsAnew (s : MenuSys) : MenuOp → Prop
  | .draw _ i _ => ∀ entry, s.heap.live[i]? = some entry → s.drawn ≠ some (s.list, i) →
      (scrollCheckEntry entry.ptr s.scroll).AtStart
  | _ => True

/-- A frame does not draw the entry that is where one of an earlier list was drawn last, or
    finds every offset at 0. -/
def ElsewhereOrAtStart (s : MenuSys) : MenuOp → Prop
  | .draw _ i _ => i < s.heap.live.length → (∃ list, list ≠ s.list ∧ s.drawn = some (list, i)) → s.scroll.AtStart
  | _ => True

/-! ## Where entries are -/

/-- The address of the `i`th entry of a list. -/
def entryAddress (b : HeapBuffer) (i : Nat) : Nat :=
  alignUp 32 (b.base + i * (itemSize + (gmFileEntrySize + 32)) + itemSize)

theorem entryAddress_pos (b : HeapBuffer) (i : Nat) : 0 < entryAddress b i := by
  obtain ⟨hpos, -⟩ := b.bounds
  simp only [entryAddress, alignUp, itemSize, gmFileEntrySize]
  omega

/-- Two places have two addresses. -/
theorem entryAddress_inj (b : HeapBuffer) {i j : Nat} : entryAddress b i = entryAddress b j ↔ i = j := by
  refine ⟨fun h => ?_, congrArg _⟩
  simp only [entryAddress, alignUp, itemSize, gmFileEntrySize] at h
  omega

/-- Blocks of one size, one behind the other. -/
theorem Laid.ptr {m : HeapMem} {t size : Nat} {ls : List HeapBlock} : ∀ {a i : Nat} {l : HeapBlock},
    Laid m a ls t → (∀ l ∈ ls, l.size = size) → ls[i]? = some l →
      l.ptr = alignUp 32 (a + i * (itemSize + (size + 32)) + itemSize) := by
  induction ls with
  | nil =>
    intro a i l _ _ hl
    cases hl
  | cons k ls ih =>
    intro a i l h hsize hl
    cases i with
    | zero =>
      obtain rfl : k = l := Option.some.inj hl
      rw [h.1.ptr_eq, h.1.mem_eq, Nat.zero_mul, Nat.add_zero]
    | succ i =>
      have hrest := ih h.2 (fun l hm => hsize l (List.mem_cons_of_mem k hm)) hl
      rw [hsize k List.mem_cons_self] at hrest
      rw [hrest, Nat.succ_mul]
      congr 1
      omega

/-- A folder's list, filled so far. -/
def ListInv (b : HeapBuffer) (s : HeapSys) : Prop := HeapInv b (.filling s.live.length) s

theorem entry_ptr {b : HeapBuffer} {s : HeapSys} (h : ListInv b s) {i : Nat} {l : HeapBlock}
    (hl : s.live[i]? = some l) : l.ptr = entryAddress b i := by
  obtain ⟨lo, top, hat, -, -, rfl, hsize⟩ := h
  exact hat.laid.ptr hsize hl

/-- All of them freed, one after the other. -/
theorem guarded_frees : ∀ n, Steps.Guarded phaseStep Called (.draining n) (List.replicate n .free) ∧
    (0 < n → Steps.run phaseStep (.draining n) (List.replicate n .free) = .filling 0)
  | 0 => ⟨trivial, fun h => absurd h (Nat.lt_irrefl 0)⟩
  | 1 => ⟨⟨Nat.one_pos, trivial⟩, fun _ => rfl⟩
  | n + 2 => by
    obtain ⟨hcalled, hend⟩ := guarded_frees (n + 1)
    have hmore : ¬ (HeapPhase.draining (n + 2)).live ≤ 1 := by
      show ¬ n + 2 ≤ 1
      omega
    have hstep : phaseStep (.draining (n + 2)) .free = .draining (n + 1) := by
      rw [phaseStep, if_neg hmore]
      rfl
    rw [List.replicate_succ, Steps.guarded_cons, Steps.run_cons, hstep]
    exact ⟨⟨Nat.succ_pos _, hcalled⟩, fun _ => hend (Nat.succ_pos n)⟩

theorem dropList_inv {b : HeapBuffer} {s : HeapSys} (h : ListInv b s) :
    ListInv b (Steps.run heapStep s (List.replicate s.live.length .free)) := by
  have hcalled : Steps.Guarded phaseStep Called (.filling s.live.length) (List.replicate s.live.length .free) ∧
      Steps.run phaseStep (.filling s.live.length) (List.replicate s.live.length .free) = .filling 0 := by
    cases s.live.length with
    | zero => exact ⟨trivial, rfl⟩
    | succ n =>
      -- a list starts to empty as it goes on emptying
      obtain ⟨hcalled, hend⟩ := guarded_frees (n + 1)
      exact ⟨hcalled, hend (Nat.succ_pos n)⟩
  have hrun := heapInv_run h hcalled.1
  rw [hcalled.2] at hrun
  obtain ⟨lo, top, hat, hlen, hrest⟩ := hrun
  rw [ListInv, hlen]
  exact ⟨lo, top, hat, hlen, hrest⟩

theorem newEntry_inv {b : HeapBuffer} {s : HeapSys} (h : ListInv b s) (hlt : s.live.length < maxPaths) :
    ListInv b (heapStep s .mallocEntry) ∧ (heapStep s .mallocEntry).live.length = s.live.length + 1 := by
  have hcalled : Called (.filling s.live.length) .mallocEntry := hlt
  obtain ⟨lo, top, hat, hfits⟩ := heapStep_inv h hcalled
  have hlen : (heapStep s .mallocEntry).live.length = s.live.length + 1 := hfits.1
  refine ⟨?_, hlen⟩
  rw [ListInv, hlen]
  exact ⟨lo, top, hat, hfits⟩

theorem write_inv {b : HeapBuffer} {s : HeapSys} (h : ListInv b s) (i : Nat) (data : Nat → UInt32) :
    ListInv b (heapStep s (.write i data)) := by
  have hcalled : Called (.filling s.live.length) (.write i data) := trivial
  obtain ⟨lo, top, hat, hfits⟩ := heapStep_inv h hcalled
  have hlen : (heapStep s (.write i data)).live.length = s.live.length := hfits.1
  rw [ListInv, hlen]
  exact ⟨lo, top, hat, hfits⟩

theorem menuStart_list (b : HeapBuffer) (garbage : Nat → UInt32) (logo : Bool) :
    ListInv b (menuStart b garbage logo).heap := by
  obtain ⟨hat, hlive⟩ := gmInitHeap_at b garbage
  have hstart : HeapInv b .boot (gmInitHeap b garbage) := ⟨_, _, hat, hlive, rfl⟩
  cases logo with
  | false =>
    show HeapInv b (.filling (gmInitHeap b garbage).live.length) (gmInitHeap b garbage)
    rw [hlive]
    refine ⟨_, _, hat, congrArg _ hlive, Nat.zero_le _, rfl, fun l hl => ?_⟩
    rw [hlive] at hl
    cases hl
  | true =>
    have hcalled : Steps.Guarded phaseStep Called .boot [.mallocLogo, .free] := ⟨trivial, trivial, trivial⟩
    obtain ⟨lo, top, hat', hlen, hrest⟩ := heapInv_run hstart hcalled
    show HeapInv b (.filling (Steps.run heapStep (gmInitHeap b garbage) [.mallocLogo, .free]).live.length) _
    rw [hlen]
    exact ⟨lo, top, hat', hlen, hrest⟩

/-! ## The entry remembered -/

/-- The address remembered is that of the place drawn last. -/
structure MenuInv (b : HeapBuffer) (s : MenuSys) : Prop where
  list : ListInv b s.heap
  entry : s.scroll.scrollEntry = match s.drawn with
    | some (_, i) => entryAddress b i
    | none => 0

theorem menuStart_inv (b : HeapBuffer) (garbage : Nat → UInt32) (logo : Bool) :
    MenuInv b (menuStart b garbage logo) := ⟨menuStart_list b garbage logo, rfl⟩

theorem drawTexts_entry (c : ScrollSettings) (screen : Screen) (text : EntryText) (entry : Nat) (s : ScrollState) :
    (drawTexts c screen text entry s).scrollEntry = entry := by
  have hcheck : (scrollCheckEntry entry s).scrollEntry = entry := by
    rw [scrollCheckEntry]
    split
    · rename_i h
      exact h.symm
    · rfl
  cases screen <;> exact hcheck

theorem menuStep_inv {b : HeapBuffer} (c : ScrollSettings) (s : MenuSys) (op : MenuOp) (h : MenuInv b s) :
    MenuInv b (menuStep c s op) := by
  obtain ⟨hlist, hentry⟩ := h
  cases op with
  | newEntry =>
    rw [menuStep]
    split
    · rename_i hlt
      exact ⟨(newEntry_inv hlist hlt).1, hentry⟩
    · exact ⟨hlist, hentry⟩
  | write i data => exact ⟨write_inv hlist i data, hentry⟩
  | dropList => exact ⟨dropList_inv hlist, hentry⟩
  | draw screen i text =>
    rw [menuStep]
    split
    · rename_i entry hi
      exact ⟨hlist, (drawTexts_entry c screen text entry.ptr s.scroll).trans (entry_ptr hlist hi)⟩
    · exact ⟨hlist, hentry⟩
  | keys text input => exact ⟨hlist, hentry⟩

/-- The entry at a place is taken for the one drawn last if that was at the same place. -/
theorem startsAnew_iff {b : HeapBuffer} (s : MenuSys) (op : MenuOp) (h : MenuInv b s) :
    StartsAnew s op ↔ ElsewhereOrAtStart s op := by
  cases op with
  | newEntry | write i data | dropList | keys text input => exact Iff.rfl
  | draw screen i text =>
    obtain ⟨hlist, hentry⟩ := h
    constructor
    · rintro hanew hi ⟨list, hne, hdrawn⟩
      have hother : s.drawn ≠ some (s.list, i) := by
        rw [hdrawn]
        exact fun heq => hne (congrArg Prod.fst (Option.some.inj heq))
      have hsame : (s.heap.live[i]).ptr = s.scroll.scrollEntry := by
        rw [hentry, hdrawn]
        exact entry_ptr hlist (List.getElem?_eq_getElem hi)
      have hat := hanew _ (List.getElem?_eq_getElem hi) hother
      rwa [scrollCheckEntry, if_pos hsame] at hat
    · intro helse entry hi hother
      have hptr := entry_ptr hlist hi
      rw [scrollCheckEntry]
      split
      · rename_i hsame
        -- the address is that of a place, so there was a frame, and of this place
        rw [hptr, hentry] at hsame
        cases hdrawn : s.drawn with
        | none =>
          rw [hdrawn] at hsame
          exact absurd hsame (Nat.ne_of_gt (entryAddress_pos b i))
        | some last =>
          obtain ⟨list, j⟩ := last
          rw [hdrawn] at hsame hother
          obtain rfl : i = j := (entryAddress_inj b).mp hsame
          have hlt : i < s.heap.live.length := (List.getElem?_eq_some_iff.mp hi).1
          exact helse hlt ⟨list, fun heq => hother (by rw [heq]), hdrawn⟩
      · exact ⟨rfl, rfl, rfl⟩

/-- In every run of scans, folder changes, frames and keys: every frame that draws another
    entry starts it from 0 if and only if none draws, while an offset is left, the entry that
    is where the one drawn last was in an earlier list. -/
theorem scroll_starts_anew_iff (b : HeapBuffer) (garbage : Nat → UInt32) (logo : Bool) (c : ScrollSettings)
    (ops : List MenuOp) :
    Steps.Guarded (menuStep c) StartsAnew (menuStart b garbage logo) ops ↔
      Steps.Guarded (menuStep c) ElsewhereOrAtStart (menuStart b garbage logo) ops :=
  Steps.guarded_iff (MenuInv b) (menuStep_inv c) startsAnew_iff (menuStart_inv b garbage logo)

/-! ## Back at the same place -/

/-- No delay before a title scrolls (`text_scroll = 0`). -/
def noDelay : ScrollSettings := ⟨1, 0, 10, 0⟩

/-- A title and a description that fill their fields. -/
def longText : EntryText where
  title := ⟨List.replicate 64 0x41, List.length_replicate, []⟩
  desc := ⟨List.replicate 128 0x42, List.length_replicate, []⟩
  sjis := false

/-- A folder of one entry is looked at and left for another. -/
def leftForAnother : List MenuOp := [.newEntry, .draw .grid 0 longText, .dropList, .newEntry]

theorem longText_moves : titleTick noDelay longText scrollVisibleTitle ⟨0, 0⟩ = ⟨1, 0⟩ := by decide +kernel

theorem leftForAnother_state {b : HeapBuffer} {s : MenuSys} (h : MenuInv b s) (hempty : s.heap.live.length = 0)
    (htitle : s.scroll.title = ⟨0, 0⟩) :
    ∃ heap scroll, Steps.run (menuStep noDelay) s leftForAnother = ⟨heap, scroll, s.list + 1, some (s.list, 0)⟩ ∧
      heap.live.length = 1 ∧ scroll.title.off = 1 := by
  have hroom : ∀ {heap : HeapSys}, heap.live.length = 0 → heap.live.length < maxPaths := fun h => h ▸ by decide
  -- the entry of the first folder
  obtain ⟨hlist, hone⟩ := newEntry_inv h.list (hroom hempty)
  rw [hempty] at hone
  obtain ⟨entry, hentry⟩ : ∃ entry, (heapStep s.heap .mallocEntry).live[0]? = some entry :=
    ⟨_, List.getElem?_eq_getElem (by rw [hone]; exact Nat.one_pos)⟩
  have hmoved : (drawTexts noDelay .grid longText entry.ptr s.scroll).title = ⟨1, 0⟩ := by
    have hcheck : (scrollCheckEntry entry.ptr s.scroll).title = ⟨0, 0⟩ := by
      rw [scrollCheckEntry]
      split
      · exact htitle
      · rfl
    show titleTick noDelay longText scrollVisibleTitle (scrollCheckEntry entry.ptr s.scroll).title = ⟨1, 0⟩
    rw [hcheck, longText_moves]
  -- and that of the second
  have hgone := dropList_inv hlist
  have hzero : (Steps.run heapStep (heapStep s.heap .mallocEntry)
      (List.replicate (heapStep s.heap .mallocEntry).live.length .free)).live.length = 0 := by
    rw [ListInv, hone] at hlist
    rw [hone]
    have hcalled : Steps.Guarded phaseStep Called (.filling 1) [.free] := ⟨Nat.one_pos, trivial⟩
    obtain ⟨lo, top, hat, hlen, -⟩ := heapInv_run hlist hcalled
    exact hlen
  have hnew := (newEntry_inv hgone (hroom hzero)).2
  refine ⟨_, _, ?_, hnew.trans (congrArg Nat.succ hzero), congrArg Marquee.off hmoved⟩
  simp only [leftForAnother, Steps.run_cons, Steps.run_nil, menuStep, if_pos (hroom hempty), hentry, if_pos (hroom hzero)]

/-- The other's first frame goes on from the title of the one that is gone. -/
theorem scroll_offset_kept : ¬ ∀ (b : HeapBuffer) (garbage : Nat → UInt32) (logo : Bool) (c : ScrollSettings)
    (ops : List MenuOp), Steps.Guarded (menuStep c) StartsAnew (menuStart b garbage logo) ops := by
  intro hall
  have hstart := menuStart_inv lowBuffer (fun _ => 0) false
  have hempty : (menuStart lowBuffer (fun _ => 0) false).heap.live.length = 0 :=
    congrArg List.length (gmInitHeap_at lowBuffer fun _ => 0).2
  obtain ⟨heap, scroll, hrun, hone, hoff⟩ := leftForAnother_state hstart hempty rfl
  have hanew := (hall lowBuffer (fun _ => 0) false noDelay (leftForAnother ++ [.draw .grid 0 longText])).at
  have hinv := Steps.inv_run (MenuInv lowBuffer) (fun s op h _ => menuStep_inv noDelay s op h) hstart
    (Steps.guarded_true leftForAnother)
  rw [hrun] at hanew hinv
  -- the first of the second list, where the first of the first list was drawn
  have hplace : 0 < heap.live.length := hone ▸ Nat.one_pos
  obtain ⟨hzero, -, -⟩ := (startsAnew_iff _ _ hinv).mp hanew hplace ⟨0, (Nat.succ_ne_zero 0).symm, rfl⟩
  rw [hoff] at hzero
  cases hzero

end Cubiboot
