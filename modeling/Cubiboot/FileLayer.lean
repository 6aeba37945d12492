import Mathlib.Logic.Function.Basic
import Cubiboot.Lib.Dialogue

/-
  The calls the menu makes on the file layer, as questions.

  A routine that opens, reads and closes a file is a `Dialogue` over `FileReq`:
  the `dvd_custom_*` calls, and the looks it takes at the memory the reads go
  to. The buffers are static in the source and outlive the call, so what a
  routine sees in one is part of its conversation and not a value of its own.
  What answers is chosen where a routine is run: one image file after another
  (`Classification`), or the one `FIL` two threads share (`Isolation`).

  Correspondence (C ↔ Lean):
    `dvd_custom_open(path, FILE_ENTRY_TYPE_FILE, _)` ↔ `dvdCustomOpen`
    `dvd_custom_status()`                            ↔ `dvdCustomStatus`
    `dvd_threaded_read` (`dvd_read`)                 ↔ `dvdThreadedRead`
    `dvd_custom_close(fd)`                           ↔ `dvdCustomClose`
    a load from a static buffer or from RAM          ↔ `load`, `loadU32`
-/

set_option autoImplicit false

namespace Cubiboot

/-- A C string without its terminator. -/
abbrev Path := List UInt8

def cstr (s : String) : Path := s.toList.map fun c => c.toNat.toUInt8

/-- `my_tolower` of `strcasecmp.c`. -/
def myTolower (c : UInt8) : UInt8 := if 64 < c ∧ c < 91 then c + 32 else c

/-! ## Memory the reads go to -/

/-- The static buffers, each with addresses of its own; `ram` is the address
space itself (the FST is read to `0x81700000`). -/
inductive Area where
  | header | smallBuf | bannerBuffer | ram
  deriving DecidableEq, Repr

/-- A cell for every address of every area. -/
abbrev Cells (β : Type) := Area → UInt32 → β

/-- `xs` put down from address `p` of area `a` on. -/
def Cells.put {β : Type} (m : Cells β) (a : Area) (p : UInt32) (xs : List β) : Cells β :=
  Function.update m a fun i => xs.getD (i - p).toNat (m a i)

/-- A file as `dvd_custom_status` describes it: `result` is 0 when something is open. -/
structure FileStatus where
  result : UInt32
  fsize : UInt64
  deriving DecidableEq, Repr

/-! ## The questions -/

inductive FileReq where
  | openFile (path : Path)
  | status
  /-- `len` bytes from `offset` of what is open to address `p` of `dst`. -/
  | read (dst : Area) (p : UInt32) (len offset : UInt32)
  | close
  | clear (a : Area) (len : UInt32)
  | load (a : Area) (p : UInt32)
  deriving DecidableEq, Repr

/-- `openFile` and `read` answer with the return value. -/
abbrev FileAns : FileReq → Type
  | .openFile _ => UInt32
  | .status => FileStatus
  | .read .. => UInt32
  | .close => Unit
  | .clear .. => Unit
  | .load .. => UInt8

abbrev FileProg := Dialogue FileReq FileAns

def dvdCustomOpen (path : Path) : FileProg UInt32 := .query (FileReq.openFile path)
def dvdCustomStatus : FileProg FileStatus := .query FileReq.status
def dvdCustomClose : FileProg Unit := .query FileReq.close
def dvdThreadedRead (dst : Area) (p len offset : UInt32) : FileProg UInt32 :=
  .query (FileReq.read dst p len offset)
def clear (a : Area) (len : UInt32) : FileProg Unit := .query (FileReq.clear a len)
def load (a : Area) (p : UInt32) : FileProg UInt8 := .query (FileReq.load a p)

def be32 (b0 b1 b2 b3 : UInt8) : UInt32 :=
  b0.toUInt32 <<< 24 ||| b1.toUInt32 <<< 16 ||| b2.toUInt32 <<< 8 ||| b3.toUInt32

def loadU32 (a : Area) (p : UInt32) : FileProg UInt32 := do
  let b0 ← load a p
  let b1 ← load a (p + 1)
  let b2 ← load a (p + 2)
  let b3 ← load a (p + 3)
  pure (be32 b0 b1 b2 b3)

def loadBytes (a : Area) (p : UInt32) : Nat → FileProg (List UInt8)
  | 0 => pure []
  | n + 1 => do
    let b ← load a p
    let rest ← loadBytes a (p + 1) n
    pure (b :: rest)

end Cubiboot
