import Mathlib.Tactic.Common
import Cubiboot.Lib.Run
import Cubiboot.FileSessions

/-
  Two threads over one `FIL` (`flippy_emu.c` on a FatFs device).

  The enumeration thread runs `checkFilesSessions` over its listing, the menu
  thread `lineLoadSessions` over the lines it scrolls into view; a schedule
  says whose question is answered next. Every open closes what is open, whoever
  opened it, and reads follow the one `FIL`.

  What is proved:
    1. `sysStep_tracks` — what is open is what the last successful open named,
       and the path that thread last opened.
    2. `reads_own_iff` — over every schedule: each read of either thread fails
       or brings bytes of the path its thread opened last, exactly when no read
       falls while a file the other thread opened is open, unless it fails or
       the two files have the same bytes there.

  Correspondence (C ↔ Lean):
    `static FIL file`, `static FFDIR dir`  ↔ `FatFs.fil`, `FatFs.dirOpen`
    `dvd_custom_open`, `dvd_custom_close`  ↔ `fatAnswer` at `openFile`, `close`
    `dvd_custom_status`, `dvd_read`        ↔ `fatAnswer` at `status`, `read`
-/

set_option autoImplicit false

namespace Cubiboot

/-- The card: its files, which opens it refuses, and how reads end (by count). -/
structure Card where
  files : Path → Option (List UInt8)
  openFails : Nat → Bool
  outcome : Nat → Option Nat

/-- The state behind the `dvd_custom_*` calls. `fsize` is the size field of the
`FIL`, which a close leaves behind. -/
structure FatFs where
  fil : Option Path
  dirOpen : Bool
  fsize : UInt64
  opens : Nat
  reads : Nat
  mem : Cells UInt8

/-- What a read of an open file brings: return value and bytes. -/
def Card.readFile (card : Card) (n : Nat) (bytes : List UInt8) (len offset : UInt32) :
    UInt32 × List UInt8 :=
  let asked := (bytes.drop offset.toNat).take len.toNat
  match card.outcome n with
  | none => (0, asked)
  | some k => (1, asked.take k)

/-- Return value and bytes of a read through the `FIL`. -/
def Card.readFil (card : Card) (io : FatFs) (len offset : UInt32) : UInt32 × List UInt8 :=
  match io.fil.bind card.files with
  | some bytes => card.readFile io.reads bytes len offset
  | none => (1, [])

def Card.canOpen (card : Card) (io : FatFs) (path : Path) : Option (List UInt8) :=
  if card.openFails io.opens then none else card.files path

def fatAnswer (card : Card) : (q : FileReq) → FatFs → FileAns q × FatFs
  | .openFile path, io =>
    match card.canOpen io path with
    | some bytes =>
      (0, { io with fil := some path, dirOpen := false, fsize := .ofNat bytes.length, opens := io.opens + 1 })
    | none => (1, { io with fil := none, dirOpen := false, opens := io.opens + 1 })
  | .status, io => (if io.fil.isNone && !io.dirOpen then ⟨1, 0⟩ else ⟨0, io.fsize⟩, io)
  | .read dst p len offset, io =>
    let (ret, xs) := card.readFil io len offset
    (ret, { io with mem := io.mem.put dst p xs, reads := io.reads + 1 })
  | .close, io => ((), { io with fil := none, dirOpen := false })
  | .clear a len, io => ((), { io with mem := io.mem.put a 0 (List.replicate len.toNat 0) })
  | .load a p, io => (io.mem a p, io)

/-! ## The system -/

inductive Thread where
  | enumeration | menu
  deriving DecidableEq, Repr

/-- `own t` is the path thread `t` last passed to `dvd_custom_open`; `opener`
the thread whose open is in force. Neither is seen by the code. -/
structure Sys where
  enumeration : FileProg (List Finding)
  menu : FileProg (List Bool)
  io : FatFs
  own : Thread → Option Path
  opener : Option Thread

/-- The next question of a program. -/
def nextReq {α : Type} : FileProg α → Option FileReq
  | .done _ => none
  | .ask q _ => some q

def Sys.next (st : Sys) : Thread → Option FileReq
  | .enumeration => nextReq st.enumeration
  | .menu => nextReq st.menu

/-- What a question does to the traces of who opened what. -/
def Sys.noted (st : Sys) (card : Card) (t : Thread) : FileReq → Sys
  | .openFile path =>
    { st with
      own := Function.update st.own t (some path)
      opener := if (card.canOpen st.io path).isSome then some t else none }
  | .close => { st with opener := none }
  | _ => st

/-- The next question of thread `t` is answered. -/
def sysStep (card : Card) (st : Sys) : Thread → Sys
  | .enumeration =>
    match st.enumeration with
    | .done _ => st
    | .ask q k =>
      let (r, io) := fatAnswer card q st.io
      { st.noted card .enumeration q with enumeration := k r, io := io }
  | .menu =>
    match st.menu with
    | .done _ => st
    | .ask q k =>
      let (r, io) := fatAnswer card q st.io
      { st.noted card .menu q with menu := k r, io := io }

variable (bnrOffsets : List BnrOffset)

/-- Both threads at the start of their sessions. -/
def Sys.init (listing : List PathEntry) (lines : List BannerSource) (mem : Cells UInt8) : Sys where
  enumeration := checkFilesSessions bnrOffsets listing
  menu := lineLoadSessions lines
  io := ⟨none, false, 0, 0, 0, mem⟩
  own := fun _ => none
  opener := none

/-- If the next question of `t` is a read, it fails or brings bytes of the path
`t` last opened. -/
def ReadsOwn (card : Card) (st : Sys) (t : Thread) : Prop :=
  match st.next t with
  | some (.read _ _ len offset) =>
    (card.readFil st.io len offset).1 = 0 → ∃ path bytes, st.own t = some path ∧
      card.files path = some bytes ∧
      (card.readFil st.io len offset).2 = (bytes.drop offset.toNat).take len.toNat
  | _ => True

/-- If the next question of `t` is a read, no file the other thread opened is
open; or the read fails, or it asks for bytes the two files have in common. -/
def NoForeignOpen (card : Card) (st : Sys) (t : Thread) : Prop :=
  match st.next t with
  | some (.read _ _ len offset) =>
    ∀ t' path bytes, st.opener = some t' → t' ≠ t → st.own t' = some path → card.files path = some bytes →
      card.outcome st.io.reads = none → ∃ path' bytes', st.own t = some path' ∧
        card.files path' = some bytes' ∧
        (bytes.drop offset.toNat).take len.toNat = (bytes'.drop offset.toNat).take len.toNat
  | _ => True

/-! ## What is open -/

/-- What is open is what the thread whose open is in force last opened. -/
structure Tracks (card : Card) (st : Sys) : Prop where
  closed : st.opener = none → st.io.fil = none
  opened : ∀ t, st.opener = some t → st.io.fil = st.own t ∧ ((st.own t).bind card.files).isSome

/-- One question of `t` keeps `Tracks`, whatever `t` goes on with. -/
theorem noted_tracks {card : Card} {st : Sys} (h : Tracks card st) (t : Thread) (q : FileReq)
    (e : FileProg (List Finding)) (m : FileProg (List Bool)) :
    Tracks card { st.noted card t q with enumeration := e, menu := m, io := (fatAnswer card q st.io).2 } := by
  cases q with
  | openFile path =>
    simp only [Sys.noted, fatAnswer]
    cases hcan : card.canOpen st.io path with
    | none => exact ⟨fun _ => rfl, fun t' ht' => by simp at ht'⟩
    | some bytes =>
      refine ⟨fun hn => by simp at hn, fun t' ht' => ?_⟩
      obtain rfl : t = t' := by simpa using ht'
      have hfile : card.files path = some bytes := by
        rw [Card.canOpen] at hcan
        split at hcan
        · cases hcan
        · exact hcan
      simp [hfile]
  | close => exact ⟨fun _ => rfl, fun t' ht' => by simp [Sys.noted] at ht'⟩
  | status | read | clear | load => exact ⟨h.closed, h.opened⟩

/-- Every step keeps `Tracks`. -/
theorem sysStep_tracks {card : Card} {st : Sys} (h : Tracks card st) (t : Thread) :
    Tracks card (sysStep card st t) := by
  cases t with
  | enumeration =>
    simp only [sysStep]
    split
    · exact h
    · rename_i q k _
      have := noted_tracks h .enumeration q (k (fatAnswer card q st.io).1) st.menu
      cases q <;> exact this
  | menu =>
    simp only [sysStep]
    split
    · exact h
    · rename_i q k _
      have := noted_tracks h .menu q st.enumeration (k (fatAnswer card q st.io).1)
      cases q <;> exact this

/-! ## Reads -/

/-- The step's read is the thread's own exactly when no foreign open is in force. -/
theorem readsOwn_iff {card : Card} {st : Sys} (h : Tracks card st) (t : Thread) :
    ReadsOwn card st t ↔ NoForeignOpen card st t := by
  unfold ReadsOwn NoForeignOpen
  split
  · rename_i dst p len offset _
    cases hop : st.opener with
    | none =>
      -- nothing is open: the read fails
      have hfil := h.closed hop
      simp [Card.readFil, hfil]
    | some t' =>
      obtain ⟨hfil, hsome⟩ := h.opened t' hop
      obtain ⟨bytes, hbytes⟩ := Option.isSome_iff_exists.mp hsome
      obtain ⟨path, hpath, hfile⟩ := Option.bind_eq_some_iff.mp hbytes
      have hread : card.readFil st.io len offset = card.readFile st.io.reads bytes len offset := by
        simp [Card.readFil, hfil, hbytes]
      rw [hread]
      cases hout : card.outcome st.io.reads with
      | some k => simp [Card.readFile, hout]
      | none =>
        simp only [Card.readFile, hout, true_implies]
        constructor
        · rintro hown t'' path' bytes' ht'' - hpath' hfile'
          obtain rfl : t' = t'' := Option.some.inj ht''
          obtain rfl : path = path' := Option.some.inj (hpath.symm.trans hpath')
          obtain rfl : bytes = bytes' := Option.some.inj (hfile.symm.trans hfile')
          exact hown
        · intro hforeign
          by_cases ht : t' = t
          · exact ⟨path, bytes, ht ▸ hpath, hfile, rfl⟩
          · exact hforeign t' path bytes rfl ht hpath hfile
  · rfl

/-- Two games; the scan looks at the first, the menu loads the second's banner. -/
def twoGames : Card where
  files := fun path => if path = cstr "/a.iso" then some [1] else if path = cstr "/b.iso" then some [2] else none
  openFails := fun _ => false
  outcome := fun _ => none

end Cubiboot
