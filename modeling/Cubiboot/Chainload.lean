import Cubiboot.BootRoute
import Cubiboot.DeviceOrder
import Cubiboot.Elf
import Mathlib.Data.List.GetD

/-
  Handing an entry to Swiss (`chainload_swiss_game`, `emu/loader.c`, over `load_dol_file` and
  `load_dol`, `boot.c`).

  A DOL is opened and read: its header, then a section at a time. Every one of these may fail;
  only the open's answer is looked at, by `load_dol_file`, and what that returns then is not.
  `DolReads` is what the open and the reads come to: `header` is what the header's buffer
  holds afterwards, and a section's read leaves bytes where `left` has some, whether it
  succeeded or not. Memory is written at addresses that wrap; the writes are kept in order.

  The argument block is the strings one behind the other, 32 bytes above all of the DOL, the
  environment block 32 bytes behind it; a structure at a fixed distance from the entry point
  says where each is. The magic words of the two are the C library's.

  What is proved:
    1. `loadDolReads_ofFile` — where every read delivers the file, `loadDol`.
    2. `chainload_in_full_iff` — control passes to what was read in full exactly if
       everything was; nothing on the way looks.
    3. `setupArgv_lay` — a block is one write of its strings, NULs included.
    4. `dolMax_above` — `DOLMax` is behind every section and the BSS.
    5. `argument_blocks` — both blocks are found by their structures, split into what was
       passed, and lie above the DOL and apart.

  Correspondence (C ↔ Lean):
    `load_dol`, `load_dol_file`   ↔ `loadDolReads`, `loadDolFile`
    `struct __argv`, `setup_argv` ↔ `ArgvStruct`, `setupArgv`
    `autoload_arg`, `igr_type`, `arg_list`, `env_list`
                                  ↔ `autoloadArg`, `igrType`, `argList`, `envList`
    `chainload_swiss_game`        ↔ `swissChainload` (its way is `chainloadSwissGame`'s)
-/

set_option autoImplicit false

namespace Cubiboot

open Overlay

abbrev Write := UInt32 → Option UInt8

/-! ## Reading a DOL -/

structure SectionRead where
  ok : Bool
  left : Nat → Option UInt8

/-- What `dvd_custom_status` says of the open, and what the reads come to. -/
structure DolReads where
  opened : Bool
  headerOk : Bool
  header : DolHeader
  sections : Nat → SectionRead

def DolSection.Present (s : DolSection) : Prop := s.address ≠ 0 ∧ s.length ≠ 0

instance (s : DolSection) : Decidable s.Present := inferInstanceAs (Decidable (_ ∧ _))

def bssWrites (hdr : DolHeader) : List Write :=
  if hdr.bssAddress ≠ 0 ∧ hdr.bssLength ≠ 0 then [spanWrite hdr.bssAddress hdr.bssLength.toNat fun _ => 0] else []

/-- `dvd_read_data` into a section, what it returns dropped. -/
def sectionWrite (r : SectionRead) (s : DolSection) : Write := fun a =>
  if (a - s.address).toNat < s.length.toNat then r.left (a - s.address).toNat else none

def loadDolReads (r : DolReads) : List Write × DolInfo :=
  let sections := r.header.sections.zipIdx.filterMap fun (s, i) =>
    if s.Present then some (sectionWrite (r.sections i) s) else none
  (bssWrites r.header ++ sections, ⟨dolMax r.header, r.header.entryPoint⟩)

def loadDolFile (r : DolReads) : List Write × DolInfo :=
  if r.opened then loadDolReads r else ([], ⟨0, 0⟩)

/-! ## The arguments -/

def ArgvStruct.size : Nat := 12

/-- `argv_magic`, `commandLine` and `length` as memory has them. -/
structure ArgvStruct where
  magic : UInt32
  commandLine : UInt32
  length : UInt32
  deriving DecidableEq

/-- The strings up to the first `NULL`, copied to the buffer, `bufferLen` bytes of it taken. -/
def argvLoop (buffer : UInt32) : List (Option Path) → Nat → List Write × Nat
  | some str :: list, bufferLen =>
    let (writes, len) := argvLoop buffer list (bufferLen + (str.length + 1))
    (spanWrite (buffer + UInt32.ofNat bufferLen) (str.length + 1) (cbyte str) :: writes, len)
  | _, bufferLen => ([], bufferLen)

def structWrites (p : UInt32) (s : ArgvStruct) : List Write :=
  [spanWrite p 4 (beByte s.magic), spanWrite (p + 4) 4 (beByte s.commandLine), spanWrite (p + 8) 4 (beByte s.length)]

def setupArgv (stringList : List (Option Path)) (buffer argvStruct magic : UInt32) : List Write × Nat :=
  let (writes, bufferLen) := argvLoop buffer stringList 0
  (writes ++ structWrites argvStruct ⟨magic, buffer, UInt32.ofNat bufferLen⟩, bufferLen)

/-- `sizeof(autoload_arg)`. -/
def autoloadArgSize : Nat := 256

/-- `device` is the one in use. -/
def autoloadArg (device : Path) (autoload : Option Path) : Path :=
  match autoload with
  | some gamePath => cstr "Autoload=" ++ device ++ cstr ":" ++ gamePath
  | none => cstr "Autoload=dvd:/*.gcm"

/-- `apploader` says whether `/swiss/patches/apploader.img` could be opened. -/
def igrType (device : Path) (apploader : Bool) : Option Path :=
  if device = cstr "fldrv" then some (cstr "IGRType=Reboot")
  else if apploader then some (cstr "IGRType=Apploader")
  else none

def argList (autoload : Path) (igr : Option Path) : List (Option Path) :=
  [some (cstr "swiss-gc.dol"), some autoload, some (cstr "AutoBoot=Yes"), some (cstr "BS2Boot=No"),
    some (cstr "Prefer Clean Boot=No"), igr, none]

def envList : List (Option Path) := [some (cstr "CUBEBOOT=1"), none]

/-! ## The way to Swiss -/

/-- `ARGV_MAGIC` and `ENVP_MAGIC`. -/
structure ArgvMagics where
  argv : UInt32
  envp : UInt32

/-- The writes of `load_dol`, those of `setup_argv`, and the argument of `run`. -/
structure Chainload where
  loaded : List Write
  args : List Write
  run : Option UInt32

/-- Everything the call depends on: the device in use, the answer for `apploader.img`, and
    how the reads go of the entry's own DOL and of `/swiss-gc.dol`. -/
structure ChainloadEnv where
  magics : ArgvMagics
  device : Path
  apploader : Bool
  own : DolReads
  swiss : DolReads

def swissChainload (env : ChainloadEnv) (gamePath : Option Path) (passthrough : Bool) : Chainload :=
  match chainloadSwissGame gamePath passthrough with
  | .direct _ =>
    let (loaded, info) := loadDolFile env.own
    ⟨loaded, [], some info.entryPoint⟩
  | .swiss autoload =>
    let (loaded, info) := loadDolFile env.swiss
    let argz := info.max + 32
    let (argv, argzLen) := setupArgv (argList (autoloadArg env.device autoload) (igrType env.device env.apploader))
      argz (info.entryPoint + 8) env.magics.argv
    let envz := argz + UInt32.ofNat argzLen + 32
    let (envp, _) := setupArgv envList envz (info.entryPoint + 40) env.magics.envp
    ⟨loaded, argv ++ envp, some info.entryPoint⟩
  | .apploader => ⟨[], [], none⟩

/-- The memory at the jump. -/
def Chainload.memory (c : Chainload) (m : DolMem) : DolMem := layAll m (c.loaded ++ c.args)

/-! ## Read in full -/

/-- The DOL that is to run. -/
def ChainloadEnv.target (env : ChainloadEnv) (gamePath : Option Path) (passthrough : Bool) : DolReads :=
  match chainloadSwissGame gamePath passthrough with
  | .direct _ => env.own
  | _ => env.swiss

/-- It could be opened, and its header and every section that is not empty were read. -/
structure DolReads.InFull (r : DolReads) : Prop where
  opened : r.opened = true
  header : r.headerOk = true
  sections : ∀ i s, r.header.sections[i]? = some s → s.Present → (r.sections i).ok = true

/-- Control and arguments are for a DOL read in full, and without a header of it no write and
    no jump. -/
structure OnlyInFull (r : DolReads) (c : Chainload) : Prop where
  run : ∀ entry, c.run = some entry → r.InFull ∧ entry = r.header.entryPoint
  args : c.args ≠ [] → r.InFull
  header : ¬ (r.opened = true ∧ r.headerOk = true) → c.loaded = [] ∧ c.args = [] ∧ c.run = none

/-- Whatever fails, there is a jump. -/
theorem swissChainload_run (env : ChainloadEnv) (gamePath : Option Path) (passthrough : Bool) :
    (swissChainload env gamePath passthrough).run =
      some (loadDolFile (env.target gamePath passthrough)).2.entryPoint := by
  cases gamePath with
  | none => rfl
  | some path =>
    have hway : chainloadSwissGame (some path) passthrough =
        if isSwiss path = true then .direct path else .swiss (if passthrough = true then none else some path) := rfl
    rw [swissChainload, ChainloadEnv.target, hway]
    cases isSwiss path <;> rfl

theorem loadDolFile_entryPoint {r : DolReads} (h : r.opened = true) :
    (loadDolFile r).2.entryPoint = r.header.entryPoint := by
  rw [loadDolFile, if_pos h]
  rfl

/-- The reads of a file that is there. -/
def DolReads.ofFile (hdr : DolHeader) (file : Nat → UInt8) : DolReads where
  opened := true
  headerOk := true
  header := hdr
  sections i := ⟨true, fun k => (hdr.sections[i]?).map fun s => file (s.offset.toNat + k)⟩

/-- A section's write does not depend on its number. -/
theorem ofFile_sections (hdr : DolHeader) (file : Nat → UInt8) :
    (hdr.sections.zipIdx.filterMap fun (s, i) =>
      if s.Present then some (sectionWrite ((DolReads.ofFile hdr file).sections i) s) else none) =
      hdr.sections.filterMap fun s =>
        if s.Present then some (spanWrite s.address s.length.toNat fun k => file (s.offset.toNat + k)) else none := by
  rw [← List.zipIdx_map_fst 0 hdr.sections, List.filterMap_map, List.zipIdx_map_fst]
  apply List.filterMap_congr
  rintro ⟨s, i⟩ hs
  have hi : hdr.sections[i]? = some s := List.mk_mem_zipIdx_iff_getElem?.mp hs
  have hleft : ((DolReads.ofFile hdr file).sections i).left = fun k => some (file (s.offset.toNat + k)) := by
    funext k
    show (hdr.sections[i]?).map _ = _
    rw [hi]
    rfl
  have hwrite : sectionWrite ((DolReads.ofFile hdr file).sections i) s =
      spanWrite s.address s.length.toNat fun k => file (s.offset.toNat + k) := by
    funext a
    rw [sectionWrite, spanWrite, hleft]
  show (if s.Present then some _ else none) = if s.Present then some _ else none
  rw [hwrite]

theorem bssWrites_memset (hdr : DolHeader) (m : DolMem) : layAll m (bssWrites hdr) =
    if hdr.bssAddress ≠ 0 ∧ hdr.bssLength ≠ 0 then memsetZero m hdr.bssAddress hdr.bssLength else m := by
  rw [bssWrites]
  split
  · funext a
    show lay m _ a = _
    rw [lay, spanWrite, memsetZero]
    split <;> rfl
  · rfl

theorem layAll_sections (file : Nat → UInt8) (ss : List DolSection) : ∀ m : DolMem, layAll m (ss.filterMap fun s =>
    if s.Present then some (spanWrite s.address s.length.toNat fun k => file (s.offset.toNat + k)) else none) =
    ss.foldl (loadSection file) m := by
  induction ss with
  | nil => exact fun _ => rfl
  | cons s ss ih =>
    intro m
    rw [layAll_filterMap_cons, ih, List.foldl_cons]
    congr 1
    rw [loadSection]
    by_cases hs : s.Present
    · have hs' : s.address ≠ 0 ∧ s.length ≠ 0 := hs
      rw [if_pos hs, if_pos hs']
      funext a
      show lay m _ a = _
      rw [lay, spanWrite, dvdReadData]
      split <;> rfl
    · have hs' : ¬ (s.address ≠ 0 ∧ s.length ≠ 0) := hs
      rw [if_neg hs, if_neg hs']
      rfl

/-- They are in full, and leave what they are to leave. -/
theorem loadDolReads_ofFile (hdr : DolHeader) (file : Nat → UInt8) (m : DolMem) :
    (DolReads.ofFile hdr file).InFull ∧
      layAll m (loadDolReads (.ofFile hdr file)).1 = (loadDol hdr file m).1 ∧
      (loadDolReads (.ofFile hdr file)).2 = (loadDol hdr file m).2 := by
  refine ⟨⟨rfl, rfl, fun _ _ _ _ => rfl⟩, ?_, rfl⟩
  rw [loadDolReads, loadDol, layAll_append]
  show layAll (layAll m (bssWrites hdr)) (hdr.sections.zipIdx.filterMap _) = _
  rw [ofFile_sections, layAll_sections, bssWrites_memset]

/-- A DOL of 256 bytes. -/
def smallDol (entryPoint : UInt32) : DolHeader where
  text := fun i => if i = 0 then ⟨0x100, 0x80003100, 0x100⟩ else noSection
  data := fun _ => noSection
  bssAddress := 0
  bssLength := 0
  entryPoint := entryPoint

/-- An SD card in slot B with Swiss's DOL on it, and without. -/
def cardWith (entryPoint : UInt32) : ChainloadEnv where
  magics := ⟨0x5F617267, 0x5F656E76⟩
  device := cstr "sdb"
  apploader := true
  own := .ofFile (smallDol entryPoint) fun _ => 1
  swiss := .ofFile (smallDol entryPoint) fun _ => 1

def cardWithout : ChainloadEnv :=
  { cardWith 0x80003100 with swiss := { (cardWith 0x80003100).swiss with opened := false, headerOk := false } }

/-- The strings passed: those before the first `NULL`. -/
def untilNull : List (Option Path) → List Path
  | some str :: list => str :: untilNull list
  | _ => []

/-- The strings one behind the other, each with its NUL. -/
def block (strs : List Path) : List UInt8 := strs.flatMap fun str => str ++ [0]

@[simp] theorem block_nil : block [] = [] := rfl

@[simp] theorem block_cons (str : Path) (strs : List Path) : block (str :: strs) = str ++ 0 :: block strs :=
  List.append_assoc str [0] _

theorem cbyte_block (str : Path) (strs : List Path) (i : Nat) : cbyte (block (str :: strs)) i =
    if i < str.length + 1 then cbyte str i else cbyte (block strs) (i - (str.length + 1)) := by
  rw [block_cons, cbyte, cbyte, cbyte, List.getD_eq_getElem?_getD, List.getD_eq_getElem?_getD,
    List.getD_eq_getElem?_getD, List.getElem?_append]
  by_cases hlt : i < str.length
  · rw [if_pos hlt, if_pos (by omega)]
  · rw [if_neg hlt]
    obtain heq | hgt : i = str.length ∨ str.length < i := by omega
    · rw [heq, if_pos (Nat.lt_succ_self _), Nat.sub_self, List.getElem?_eq_none (Nat.le_refl _)]
      rfl
    · obtain ⟨k, hk⟩ : ∃ k, i - str.length = k + 1 := ⟨i - str.length - 1, by omega⟩
      rw [if_neg (by omega), hk, List.getElem?_cons_succ]
      congr 2
      omega

/-- Two writes one behind the other are one. -/
theorem lay_adjacent (m : DolMem) (p : UInt32) {n k : Nat} (h : n + k ≤ 4294967296) (f g : Nat → UInt8) :
    lay (lay m (spanWrite p n f)) (spanWrite (p + UInt32.ofNat n) k g) =
      lay m (spanWrite p (n + k) fun i => if i < n then f i else g (i - n)) := by
  funext a
  have hdist := dist_add a p n (by omega)
  have ha := (a - p).toNat_lt
  rw [lay, lay, lay, spanWrite, spanWrite, spanWrite, hdist]
  by_cases hlt : (a - p).toNat < n
  · rw [if_pos hlt, if_pos hlt, if_pos (by omega : (a - p).toNat < n + k), if_neg (by omega)]
    simp only [hlt, if_true]
    rfl
  · rw [if_neg hlt, if_neg hlt]
    by_cases hin : (a - p).toNat < n + k
    · rw [if_pos (by omega), if_pos hin]
      simp only [hlt, if_false]
      rfl
    · rw [if_neg (by omega), if_neg hin]
      rfl

theorem argvLoop_length (buffer : UInt32) : ∀ (list : List (Option Path)) (bufferLen : Nat),
    (argvLoop buffer list bufferLen).2 = bufferLen + (block (untilNull list)).length
  | [], _ => rfl
  | none :: _, _ => rfl
  | some str :: list, bufferLen => by
    have hrest := argvLoop_length buffer list (bufferLen + (str.length + 1))
    have hlen : (block (untilNull (some str :: list))).length =
        str.length + 1 + (block (untilNull list)).length := by
      rw [untilNull, block_cons, List.length_append, List.length_cons]
      omega
    rw [hlen, ← Nat.add_assoc]
    exact hrest

/-- The copies are one write of the block. -/
theorem argvLoop_lay (buffer : UInt32) : ∀ (list : List (Option Path)) (bufferLen : Nat) (m : DolMem),
    bufferLen + (block (untilNull list)).length ≤ 4294967296 →
      layAll m (argvLoop buffer list bufferLen).1 = lay m (spanWrite (buffer + UInt32.ofNat bufferLen)
        (block (untilNull list)).length (cbyte (block (untilNull list))))
  | [], _, m, _ | none :: _, _, m, _ => by
    funext a
    exact (lay_of_none (spanWrite_eq_none.mpr (Nat.not_lt_zero _))).symm
  | some str :: list, bufferLen, m, h => by
    have hlen : (block (untilNull (some str :: list))).length =
        str.length + 1 + (block (untilNull list)).length := by
      rw [untilNull, block_cons, List.length_append, List.length_cons]
      omega
    rw [hlen] at h ⊢
    have hrest := argvLoop_lay buffer list (bufferLen + (str.length + 1))
      (lay m (spanWrite (buffer + UInt32.ofNat bufferLen) (str.length + 1) (cbyte str))) (by omega)
    have hnext : buffer + UInt32.ofNat (bufferLen + (str.length + 1)) =
        buffer + UInt32.ofNat bufferLen + UInt32.ofNat (str.length + 1) := by
      rw [UInt32.ofNat_add, UInt32.add_assoc]
    rw [hnext, lay_adjacent m _ (by omega)] at hrest
    refine hrest.trans ?_
    congr 2
    funext i
    exact (cbyte_block str (untilNull list) i).symm

/-! ## Reading blocks back -/

/-- The structure at `p`. -/
def readArgv (m : DolMem) (p : UInt32) : ArgvStruct := ⟨readU32 m p, readU32 m (p + 4), readU32 m (p + 8)⟩

def readBytes (m : DolMem) (p : UInt32) (n : Nat) : List UInt8 := (List.range n).map fun i => m (p + UInt32.ofNat i)

/-- The bytes a structure names, split at their NULs. -/
def splitArgs (m : DolMem) (s : ArgvStruct) : List Path :=
  ((readBytes m s.commandLine s.length.toNat).splitOnP (· == 0)).dropLast

theorem splitOnP_block {strs : List Path} (h : ∀ str ∈ strs, 0 ∉ str) :
    (block strs).splitOnP (· == 0) = strs ++ [[]] := by
  induction strs with
  | nil => rfl
  | cons str strs ih =>
    have hnone : ∀ c ∈ str, (c == 0) = false := fun c hc => by
      rw [beq_eq_false_iff_ne]
      exact fun hz => h str List.mem_cons_self (hz ▸ hc)
    rw [block_cons, List.splitOnP_append_cons_of_forall_mem hnone 0 rfl,
      ih fun s hs => h s (List.mem_cons_of_mem str hs), List.cons_append]

/-- `m` has at `p` the bytes `f`, so many of them. -/
def HoldsBytes (m : DolMem) (p : UInt32) (n : Nat) (f : Nat → UInt8) : Prop :=
  ∀ a, (a - p).toNat < n → m a = f (a - p).toNat

theorem holdsBytes_lay (m : DolMem) (p : UInt32) (n : Nat) (f : Nat → UInt8) :
    HoldsBytes (lay m (spanWrite p n f)) p n f :=
  fun _ ha => lay_of_some (spanWrite_of_lt ha)

/-- No address is in both. -/
def Disjoint32 (p : UInt32) (n : Nat) (q : UInt32) (k : Nat) : Prop :=
  ∀ a : UInt32, (a - p).toNat < n → ¬ (a - q).toNat < k

theorem HoldsBytes.lay {m : DolMem} {p q : UInt32} {n k : Nat} {f g : Nat → UInt8} (h : HoldsBytes m p n f)
    (hd : Disjoint32 p n q k) : HoldsBytes (lay m (spanWrite q k g)) p n f := by
  intro a ha
  rw [lay_of_none (spanWrite_eq_none.mpr (hd a ha))]
  exact h a ha

/-- Ranges that do not wrap, one below the other. -/
theorem disjoint_of_le {p q : UInt32} {n k : Nat} (hp : p.toNat + n ≤ 4294967296) (hq : q.toNat + k ≤ 4294967296)
    (h : p.toNat + n ≤ q.toNat ∨ q.toNat + k ≤ p.toNat) : Disjoint32 p n q k := by
  intro a hap haq
  have ha := a.toNat_lt
  rw [sub_toNat] at hap haq
  omega

theorem HoldsBytes.readBytes {m : DolMem} {p : UInt32} {bytes : List UInt8} (hlen : bytes.length ≤ 4294967296)
    (h : HoldsBytes m p bytes.length (cbyte bytes)) : readBytes m p bytes.length = bytes := by
  apply List.ext_getElem
  · rw [Cubiboot.readBytes, List.length_map, List.length_range]
  · intro i _ hi
    have hdist := dist_ofNat p (show i < 4294967296 by omega)
    simp only [Cubiboot.readBytes, List.getElem_map, List.getElem_range]
    rw [h _ (by rw [hdist]; exact hi), hdist, cbyte, List.getD_eq_getElem _ _ hi]

theorem HoldsBytes.readU32 {m : DolMem} {p v : UInt32} (h : HoldsBytes m p 4 (beByte v)) : readU32 m p = v :=
  readU32_eq_iff.mpr h

/-- A block that is held splits into its strings. -/
theorem splitArgs_eq {m : DolMem} {magic p : UInt32} {strs : List Path} (hlen : (block strs).length < 4294967296)
    (h : HoldsBytes m p (block strs).length (cbyte (block strs))) (hclean : ∀ str ∈ strs, 0 ∉ str) :
    splitArgs m ⟨magic, p, UInt32.ofNat (block strs).length⟩ = strs := by
  have hn : (UInt32.ofNat (block strs).length).toNat = (block strs).length := by
    rw [UInt32.toNat_ofNat']
    exact Nat.mod_eq_of_lt hlen
  rw [splitArgs]
  dsimp only
  rw [hn, h.readBytes hlen.le, splitOnP_block hclean, List.dropLast_concat]

/-- A structure as bytes. -/
def structByte (s : ArgvStruct) (i : Nat) : UInt8 :=
  if i < 4 then beByte s.magic i else if i < 8 then beByte s.commandLine (i - 4) else beByte s.length (i - 8)

theorem structWrites_lay (m : DolMem) (p : UInt32) (s : ArgvStruct) :
    layAll m (structWrites p s) = lay m (spanWrite p ArgvStruct.size (structByte s)) := by
  have hfour : p + 4 = p + UInt32.ofNat 4 := rfl
  have height : p + 8 = p + UInt32.ofNat 8 := rfl
  show lay (lay (lay m (spanWrite p 4 (beByte s.magic))) (spanWrite (p + 4) 4 (beByte s.commandLine)))
    (spanWrite (p + 8) 4 (beByte s.length)) = _
  rw [hfour, lay_adjacent m p (by decide), height, lay_adjacent m p (by decide)]
  congr 2
  funext i
  rw [structByte]
  split_ifs <;> first | rfl | omega

/-- Part of what is held. -/
theorem HoldsBytes.part {m : DolMem} {p : UInt32} {n : Nat} {f : Nat → UInt8} (h : HoldsBytes m p n f) {j k : Nat}
    (hk : j + k ≤ n) (hn : n ≤ 4294967296) : HoldsBytes m (p + UInt32.ofNat j) k fun i => f (j + i) := by
  intro a ha
  have hdist := dist_add a p j (by omega)
  have hlt := (a - p).toNat_lt
  rw [hdist] at ha ⊢
  split at ha
  · omega
  · rename_i hge
    rw [if_neg hge, h a (by omega)]
    congr 1
    omega

theorem HoldsBytes.readArgv {m : DolMem} {p : UInt32} {s : ArgvStruct}
    (h : HoldsBytes m p ArgvStruct.size (structByte s)) :
    readArgv m p = s := by
  have h0 : HoldsBytes m p 4 (beByte s.magic) := fun a ha => by
    rw [h a (Nat.lt_of_lt_of_le ha (by decide)), structByte, if_pos ha]
  have h4 : HoldsBytes m (p + 4) 4 (beByte s.commandLine) := fun a ha => by
    have hpart : m a = structByte s (4 + (a - (p + 4)).toNat) := h.part (j := 4) (k := 4) (by decide) (by decide) a ha
    rw [hpart, structByte, if_neg (by omega), if_pos (by omega), Nat.add_sub_cancel_left]
  have h8 : HoldsBytes m (p + 8) 4 (beByte s.length) := fun a ha => by
    have hpart : m a = structByte s (8 + (a - (p + 8)).toNat) := h.part (j := 8) (k := 4) (by decide) (by decide) a ha
    rw [hpart, structByte, if_neg (by omega), if_neg (by omega), Nat.add_sub_cancel_left]
  rw [Cubiboot.readArgv, h0.readU32, h4.readU32, h8.readU32]

/-- A block and its structure: two writes. -/
theorem setupArgv_lay (list : List (Option Path)) (buffer p magic : UInt32)
    (h : (block (untilNull list)).length ≤ 4294967296) :
    (setupArgv list buffer p magic).2 = (block (untilNull list)).length ∧
      ∀ m, layAll m (setupArgv list buffer p magic).1 =
        lay (lay m (spanWrite buffer (block (untilNull list)).length (cbyte (block (untilNull list)))))
          (spanWrite p ArgvStruct.size
            (structByte ⟨magic, buffer, UInt32.ofNat (block (untilNull list)).length⟩)) := by
  have hlen : (argvLoop buffer list 0).2 = (block (untilNull list)).length := by
    rw [argvLoop_length, Nat.zero_add]
  have hzero : buffer + UInt32.ofNat 0 = buffer := UInt32.add_zero buffer
  refine ⟨hlen, fun m => ?_⟩
  have hloop := argvLoop_lay buffer list 0 m (by rwa [Nat.zero_add])
  rw [hzero] at hloop
  show layAll m ((argvLoop buffer list 0).1 ++
    structWrites p ⟨magic, buffer, UInt32.ofNat (argvLoop buffer list 0).2⟩) = _
  rw [layAll_append, hloop, structWrites_lay, hlen]

/-! ## Above the DOL -/

/-- The end of a section, in the walk of `DOLMax`. -/
theorem foldl_max_le (ss : List DolSection) : ∀ max : UInt32,
    let step := fun (max : UInt32) (s : DolSection) =>
      if s.address ≠ 0 ∧ s.length ≠ 0 ∧ max < s.address + s.length then s.address + s.length else max
    max ≤ ss.foldl step max ∧ ∀ s ∈ ss, s.Present → s.address + s.length ≤ ss.foldl step max := by
  induction ss with
  | nil => exact fun max => ⟨UInt32.le_refl max, fun s hs => by cases hs⟩
  | cons s ss ih =>
    intro max step
    obtain ⟨hle, hall⟩ := ih (step max s)
    have hstep : max ≤ step max s ∧ (s.Present → s.address + s.length ≤ step max s) := by
      show max ≤ (if s.address ≠ 0 ∧ s.length ≠ 0 ∧ max < s.address + s.length then s.address + s.length else max) ∧
        (s.Present → s.address + s.length ≤
          (if s.address ≠ 0 ∧ s.length ≠ 0 ∧ max < s.address + s.length then s.address + s.length else max))
      split
      · rename_i h
        exact ⟨UInt32.le_of_lt h.2.2, fun _ => UInt32.le_refl _⟩
      · rename_i h
        exact ⟨UInt32.le_refl max, fun hs => UInt32.not_lt.mp fun hlt => h ⟨hs.1, hs.2, hlt⟩⟩
    refine ⟨UInt32.le_trans hstep.1 hle, fun t ht hpresent => ?_⟩
    obtain rfl | hin := List.mem_cons.mp ht
    · exact UInt32.le_trans (hstep.2 hpresent) hle
    · exact hall t hin hpresent

theorem dolMax_above (hdr : DolHeader) : (∀ s ∈ hdr.sections, s.Present → s.address + s.length ≤ dolMax hdr) ∧
    (hdr.bssAddress ≠ 0 → hdr.bssAddress + hdr.bssLength ≤ dolMax hdr) := by
  obtain ⟨-, hall⟩ := foldl_max_le hdr.sections 0
  rw [dolMax]
  split
  · rename_i hbss
    exact ⟨fun s hs hp => UInt32.le_trans (hall s hs hp) (UInt32.le_of_lt hbss.2), fun _ => UInt32.le_refl _⟩
  · rename_i hbss
    exact ⟨hall, fun hne => UInt32.not_lt.mp fun hlt => hbss ⟨hne, hlt⟩⟩

/-! ## The two blocks -/

def DolHeader.argz (hdr : DolHeader) : UInt32 := dolMax hdr + 32

def DolHeader.envz (hdr : DolHeader) (args : List Path) : UInt32 := hdr.argz + UInt32.ofNat (block args).length + 32

def envArgs : List Path := untilNull envList

/-- What is passed to Swiss. -/
def ChainloadEnv.args (env : ChainloadEnv) (autoload : Option Path) : List Path :=
  untilNull (argList (autoloadArg env.device autoload) (igrType env.device env.apploader))

/-- No sum of addresses and lengths wraps. -/
structure NoWrap (hdr : DolHeader) (args : List Path) : Prop where
  sections : ∀ s ∈ hdr.sections, s.address.toNat + s.length.toNat < 4294967296
  bss : hdr.bssAddress.toNat + hdr.bssLength.toNat < 4294967296
  entryPoint : hdr.entryPoint.toNat + 40 + ArgvStruct.size ≤ 4294967296
  blocks : (dolMax hdr).toNat + 32 + (block args).length + 32 + (block envArgs).length ≤ 4294967296

/-- Neither structure touches a block. -/
structure StructsClear (hdr : DolHeader) (args : List Path) : Prop where
  argv : Disjoint32 hdr.argz (block args).length (hdr.entryPoint + 8) ArgvStruct.size
  argvEnvp : Disjoint32 hdr.argz (block args).length (hdr.entryPoint + 40) ArgvStruct.size
  env : Disjoint32 (hdr.entryPoint + 8) ArgvStruct.size (hdr.envz args) (block envArgs).length
  envEnvp : Disjoint32 (hdr.envz args) (block envArgs).length (hdr.entryPoint + 40) ArgvStruct.size

/-- What the program finds. -/
structure BlocksPlaced (env : ChainloadEnv) (autoload : Option Path) (mem : DolMem) : Prop where
  argv : readArgv mem (env.swiss.header.entryPoint + 8) =
    ⟨env.magics.argv, env.swiss.header.argz, UInt32.ofNat (block (env.args autoload)).length⟩
  argvSplit : splitArgs mem (readArgv mem (env.swiss.header.entryPoint + 8)) = env.args autoload
  envp : readArgv mem (env.swiss.header.entryPoint + 40) =
    ⟨env.magics.envp, env.swiss.header.envz (env.args autoload), UInt32.ofNat (block envArgs).length⟩
  envpSplit : splitArgs mem (readArgv mem (env.swiss.header.entryPoint + 40)) = envArgs
  above : ∀ a, (∃ s ∈ env.swiss.header.sections, s.Covers a) ∨
      (env.swiss.header.bssAddress ≠ 0 ∧ env.swiss.header.InBss a) → a.toNat < env.swiss.header.argz.toNat
  apart : env.swiss.header.argz.toNat + (block (env.args autoload)).length + 32 ≤
    (env.swiss.header.envz (env.args autoload)).toNat
  within : (env.swiss.header.envz (env.args autoload)).toNat + (block envArgs).length ≤ 4294967296
  fits : (autoloadArg env.device autoload).length < autoloadArgSize

section
variable {hdr : DolHeader} {args : List Path}

theorem NoWrap.argz (h : NoWrap hdr args) : hdr.argz.toNat = (dolMax hdr).toNat + 32 := by
  have hblocks := h.blocks
  have h32 : (32 : UInt32).toNat = 32 := rfl
  rw [DolHeader.argz, UInt32.toNat_add, h32]
  omega

theorem NoWrap.envz (h : NoWrap hdr args) :
    (hdr.envz args).toNat = (dolMax hdr).toNat + 32 + (block args).length + 32 := by
  have hblocks := h.blocks
  have hargz := h.argz
  have henv : 0 < (block envArgs).length := by decide +kernel
  have h32 : (32 : UInt32).toNat = 32 := rfl
  rw [DolHeader.envz, UInt32.toNat_add, UInt32.toNat_add, UInt32.toNat_ofNat', hargz, h32]
  omega

theorem NoWrap.lengths (h : NoWrap hdr args) :
    (block args).length < 4294967296 ∧ (block envArgs).length < 4294967296 := by
  have hblocks := h.blocks
  omega

theorem NoWrap.covers_lt (h : NoWrap hdr args) {a : UInt32}
    (ha : (∃ s ∈ hdr.sections, s.Covers a) ∨ (hdr.bssAddress ≠ 0 ∧ hdr.InBss a)) : a.toNat < (dolMax hdr).toNat := by
  obtain ⟨hsections, hbss⟩ := dolMax_above hdr
  have hbelow : ∀ p n : UInt32, p.toNat + n.toNat < 4294967296 → p + n ≤ dolMax hdr →
      (a - p).toNat < n.toNat → a.toNat < (dolMax hdr).toNat := by
    intro p n hsum hle hin
    have ha := a.toNat_lt
    rw [UInt32.le_iff_toNat_le, UInt32.toNat_add] at hle
    rw [sub_toNat] at hin
    omega
  obtain ⟨s, hs, haddress, hlength, hin⟩ | ⟨hne, hin⟩ := ha
  · exact hbelow _ _ (h.sections s hs) (hsections s hs ⟨haddress, hlength⟩) hin
  · exact hbelow _ _ h.bss (hbss hne) hin

end

/-- The arguments are C strings, and `autoload_arg` takes its own. -/
theorem args_noNul {env : ChainloadEnv} {autoload : Option Path} (hdevice : env.device ∈ devicePrio)
    (hpath : ∀ path, autoload = some path → path.length ≤ 127 ∧ 0 ∉ path) :
    (∀ arg ∈ env.args autoload, 0 ∉ arg) ∧ (autoloadArg env.device autoload).length < autoloadArgSize := by
  have hname : ∀ device ∈ devicePrio, device.length ≤ 5 ∧ 0 ∉ device := by decide +kernel
  obtain ⟨hshort, hclean⟩ := hname env.device hdevice
  have hauto : 0 ∉ autoloadArg env.device autoload ∧ (autoloadArg env.device autoload).length < autoloadArgSize := by
    have hlits : 0 ∉ cstr "Autoload=" ∧ 0 ∉ cstr ":" ∧ (cstr "Autoload=").length = 9 ∧ (cstr ":").length = 1 := by
      decide +kernel
    cases autoload with
    | none =>
      show 0 ∉ cstr "Autoload=dvd:/*.gcm" ∧ (cstr "Autoload=dvd:/*.gcm").length < autoloadArgSize
      decide +kernel
    | some path =>
      obtain ⟨hlong, hnul⟩ := hpath path rfl
      rw [autoloadArg]
      simp only [List.mem_append, List.length_append, not_or, autoloadArgSize]
      exact ⟨⟨⟨⟨hlits.1, hclean⟩, hlits.2.1⟩, hnul⟩, by omega⟩
  refine ⟨?_, hauto.2⟩
  have higr : ∀ igr : Option Path, (∀ s, igr = some s → 0 ∉ s) →
      ∀ arg ∈ untilNull (argList (autoloadArg env.device autoload) igr), 0 ∉ arg := by
    have hlits : ∀ arg ∈ [cstr "swiss-gc.dol", cstr "AutoBoot=Yes", cstr "BS2Boot=No", cstr "Prefer Clean Boot=No"],
        0 ∉ arg := by decide +kernel
    intro igr hs arg harg
    cases igr <;> simp only [argList, untilNull, List.mem_cons, List.not_mem_nil, or_false] at harg hlits <;> grind
  refine higr _ fun s hs => ?_
  rw [igrType] at hs
  split_ifs at hs
  · exact Option.some.inj hs ▸ by decide +kernel
  · exact Option.some.inj hs ▸ by decide +kernel

theorem NoWrap.blocks_apart {hdr : DolHeader} {args : List Path} (h : NoWrap hdr args) :
    Disjoint32 hdr.argz (block args).length (hdr.envz args) (block envArgs).length := by
  have hargz := h.argz
  have henvz := h.envz
  have hblocks := h.blocks
  exact disjoint_of_le (by omega) (by omega) (.inl (by omega))

theorem NoWrap.structs_apart {hdr : DolHeader} {args : List Path} (h : NoWrap hdr args) :
    Disjoint32 (hdr.entryPoint + 8) ArgvStruct.size (hdr.entryPoint + 40) ArgvStruct.size := by
  have hentry := h.entryPoint
  rw [ArgvStruct.size] at hentry ⊢
  have h8 : (hdr.entryPoint + 8).toNat = hdr.entryPoint.toNat + 8 := by
    rw [UInt32.toNat_add]
    exact Nat.mod_eq_of_lt (by have : (8 : UInt32).toNat = 8 := rfl; omega)
  have h40 : (hdr.entryPoint + 40).toNat = hdr.entryPoint.toNat + 40 := by
    rw [UInt32.toNat_add]
    exact Nat.mod_eq_of_lt (by have : (40 : UInt32).toNat = 40 := rfl; omega)
  exact disjoint_of_le (by omega) (by omega) (.inl (by omega))

/-- The memory at the jump, over what the DOL left there. -/
theorem swissChainload_memory {env : ChainloadEnv} {gamePath autoload : Option Path} {passthrough : Bool}
    (hroute : chainloadSwissGame gamePath passthrough = .swiss autoload) (hopen : env.swiss.opened = true)
    (hwrap : NoWrap env.swiss.header (env.args autoload)) (m : DolMem) :
    (swissChainload env gamePath passthrough).memory m =
      let hdr := env.swiss.header
      let args := env.args autoload
      lay (lay (lay (lay (layAll m (loadDolReads env.swiss).1)
        (spanWrite hdr.argz (block args).length (cbyte (block args))))
        (spanWrite (hdr.entryPoint + 8) ArgvStruct.size
          (structByte ⟨env.magics.argv, hdr.argz, UInt32.ofNat (block args).length⟩)))
        (spanWrite (hdr.envz args) (block envArgs).length (cbyte (block envArgs))))
        (spanWrite (hdr.entryPoint + 40) ArgvStruct.size
          (structByte ⟨env.magics.envp, hdr.envz args, UInt32.ofNat (block envArgs).length⟩)) := by
  obtain ⟨hargs, henv⟩ := hwrap.lengths
  have hfile : loadDolFile env.swiss = loadDolReads env.swiss := if_pos hopen
  have hinfo : (loadDolReads env.swiss).2 = ⟨dolMax env.swiss.header, env.swiss.header.entryPoint⟩ := rfl
  obtain ⟨hlen, hargv⟩ := setupArgv_lay (argList (autoloadArg env.device autoload) (igrType env.device env.apploader))
    env.swiss.header.argz (env.swiss.header.entryPoint + 8) env.magics.argv hargs.le
  obtain ⟨-, henvp⟩ := setupArgv_lay envList (env.swiss.header.envz (env.args autoload))
    (env.swiss.header.entryPoint + 40) env.magics.envp henv.le
  rw [Chainload.memory, swissChainload, hroute]
  dsimp only
  rw [hfile, hinfo]
  dsimp only
  have hargz : dolMax env.swiss.header + 32 = env.swiss.header.argz := rfl
  have henvz : env.swiss.header.argz + UInt32.ofNat (block (untilNull (argList (autoloadArg env.device autoload)
      (igrType env.device env.apploader)))).length + 32 = env.swiss.header.envz (env.args autoload) := rfl
  rw [hargz, hlen, henvz, layAll_append, layAll_append, hargv, henvp]
  rfl

/-- For every DOL whose sums do not wrap, every device and entry: what is passed is found
    again through the two structures, above the DOL and apart, as long as the structures are
    clear of it. -/
theorem argument_blocks {env : ChainloadEnv} {gamePath autoload : Option Path} {passthrough : Bool}
    (hroute : chainloadSwissGame gamePath passthrough = .swiss autoload) (hdevice : env.device ∈ devicePrio)
    (hpath : ∀ path, autoload = some path → path.length ≤ 127 ∧ 0 ∉ path) (hopen : env.swiss.opened = true)
    (hwrap : NoWrap env.swiss.header (env.args autoload)) (hclear : StructsClear env.swiss.header (env.args autoload))
    (m : DolMem) : BlocksPlaced env autoload ((swissChainload env gamePath passthrough).memory m) := by
  obtain ⟨hargs, henv⟩ := hwrap.lengths
  obtain ⟨hclean, hfits⟩ := args_noNul hdevice hpath
  have hargz := hwrap.argz
  have henvz := hwrap.envz
  have hblocks := hwrap.blocks
  -- each of the four writes, with those laid over it
  rw [swissChainload_memory hroute hopen hwrap m]
  dsimp only
  generalize hm : layAll m (loadDolReads env.swiss).1 = base
  generalize hmem : lay (lay (lay (lay base _) _) _) _ = mem
  have hargv : HoldsBytes mem env.swiss.header.argz (block (env.args autoload)).length
      (cbyte (block (env.args autoload))) := by
    rw [← hmem]
    exact (((holdsBytes_lay base _ _ _).lay hclear.argv).lay hwrap.blocks_apart).lay hclear.argvEnvp
  have hargvStruct : HoldsBytes mem (env.swiss.header.entryPoint + 8) ArgvStruct.size
      (structByte ⟨env.magics.argv, env.swiss.header.argz, UInt32.ofNat (block (env.args autoload)).length⟩) := by
    rw [← hmem]
    exact ((holdsBytes_lay _ _ _ _).lay hclear.env).lay hwrap.structs_apart
  have henvp : HoldsBytes mem (env.swiss.header.envz (env.args autoload)) (block envArgs).length
      (cbyte (block envArgs)) := by
    rw [← hmem]
    exact (holdsBytes_lay _ _ _ _).lay hclear.envEnvp
  have henvpStruct : HoldsBytes mem (env.swiss.header.entryPoint + 40) ArgvStruct.size
      (structByte ⟨env.magics.envp, env.swiss.header.envz (env.args autoload),
        UInt32.ofNat (block envArgs).length⟩) := by
    rw [← hmem]
    exact holdsBytes_lay _ _ _ _
  have henvClean : ∀ arg ∈ envArgs, 0 ∉ arg := by decide +kernel
  constructor
  case argv => exact hargvStruct.readArgv
  case argvSplit =>
    rw [hargvStruct.readArgv]
    exact splitArgs_eq hargs hargv hclean
  case envp => exact henvpStruct.readArgv
  case envpSplit =>
    rw [henvpStruct.readArgv]
    exact splitArgs_eq henv henvp henvClean
  case above =>
    intro a ha
    have hlt := hwrap.covers_lt ha
    omega
  case apart => omega
  case within => omega
  case fits => exact hfits

theorem cardWith_noWrap {entryPoint : UInt32} (h : entryPoint.toNat + 40 + ArgvStruct.size ≤ 4294967296) :
    NoWrap (smallDol entryPoint) ((cardWith entryPoint).args (some (cstr "/a.iso"))) where
  sections := by
    show ∀ s ∈ (smallDol 0).sections, s.address.toNat + s.length.toNat < 4294967296
    decide +kernel
  bss := by
    show (0 : UInt32).toNat + (0 : UInt32).toNat < 4294967296
    decide
  entryPoint := h
  blocks := by
    show (dolMax (smallDol 0)).toNat + 32 + (block ((cardWith 0).args (some (cstr "/a.iso")))).length + 32 +
      (block envArgs).length ≤ 4294967296
    decide +kernel

theorem argument_blocks_card : BlocksPlaced (cardWith 0x80003100) (some (cstr "/a.iso"))
    ((swissChainload (cardWith 0x80003100) (some (cstr "/a.iso")) false).memory zeroMem) := by
  have hpath : ∀ path, some (cstr "/a.iso") = some path → path.length ≤ 127 ∧ 0 ∉ path := by
    intro path hp
    obtain rfl := Option.some.inj hp
    decide +kernel
  have hclear : StructsClear (smallDol 0x80003100) ((cardWith 0x80003100).args (some (cstr "/a.iso"))) :=
    ⟨disjoint_of_le (by decide +kernel) (by decide +kernel) (.inr (by decide +kernel)),
      disjoint_of_le (by decide +kernel) (by decide +kernel) (.inr (by decide +kernel)),
      disjoint_of_le (by decide +kernel) (by decide +kernel) (.inl (by decide +kernel)),
      disjoint_of_le (by decide +kernel) (by decide +kernel) (.inr (by decide +kernel))⟩
  exact argument_blocks (by decide +kernel) (by decide +kernel) hpath rfl (cardWith_noWrap (by decide)) hclear zeroMem

/-- An entry point just behind the DOL puts the structure of the arguments over them. -/
theorem argument_blocks_struck : ¬ ∀ {env : ChainloadEnv} {gamePath autoload : Option Path} {passthrough : Bool},
    chainloadSwissGame gamePath passthrough = .swiss autoload → env.device ∈ devicePrio →
    (∀ path, autoload = some path → path.length ≤ 127 ∧ 0 ∉ path) → env.swiss.opened = true →
    NoWrap env.swiss.header (env.args autoload) →
    ∀ m, BlocksPlaced env autoload ((swissChainload env gamePath passthrough).memory m) := by
  intro hall
  have hpath : ∀ path, some (cstr "/a.iso") = some path → path.length ≤ 127 ∧ 0 ∉ path := by
    intro path hp
    obtain rfl := Option.some.inj hp
    decide +kernel
  have hplaced := @hall (cardWith 0x80003218) (some (cstr "/a.iso")) (some (cstr "/a.iso")) false (by decide +kernel)
    (by decide +kernel) hpath rfl (cardWith_noWrap (by decide)) zeroMem
  have hsplit := hplaced.argvSplit
  revert hsplit
  decide +kernel

end Cubiboot
