import Mathlib.Algebra.Ring.Nat
import Mathlib.Tactic.Common
import Cubiboot.Lib.Table
import Cubiboot.GameInfo

/-
  The walk over a disc's file system table: `get_banner_offset_slow`, put to a header and to
  the bytes its read brings, whatever they are.

  The table begins with the number of its entries, 12 bytes each; the names stand behind the
  last one, and an entry says where its own begins. All three come off the image. The walk
  checks that the names begin inside the area the table is read to, and nothing else: not
  that they begin inside the table, nor that an entry or a name ends there.

  What is proved:
    1. `tryRun_fstSearch` — the loop on the table's bytes alone: a search through its
       entries, where a byte the read did not bring is none.
    2. `tryRun_getBannerOffsetSlow` — the whole walk so (`walk`).
    3. `fst_walk_iff` — it uses the bytes of the table only, looks at no more entries than
       fit, and answers with the first file called `opening.bnr`, or with 0, in every memory,
       exactly if the table has its count and either the range check refuses it or each entry
       up to the one taken lies in the table with its name, and that one is a file.
    4. `name_past_the_table` — a table of two entries whose second name lies behind it.

  A bit-field of one bit is the top bit of its byte on this machine, so `filetype` is 0 for a
  directory's flags, 1, as it is for a file's, 0.

  Correspondence (C ↔ Lean):
    `get_banner_offset_slow`                ↔ `getBannerOffsetSlow`
    its loop, counting the rounds           ↔ `fstRounds`
    `GET_OFFSET`, `FILE_POSITION`, `FILE_LENGTH` ↔ `nameOffset`, `wordIn`
-/

set_option autoImplicit false

namespace Cubiboot

/-! ## The rounds of the loop -/

/-- One round: the entry, if it is the one. -/
def fstLook (stringTable i : UInt32) : FileProg (Option BnrInfo) := do
  let entry := fstBase + 12 * i
  let o0 ← load .ram (entry + 1)
  let o1 ← load .ram (entry + 2)
  let o2 ← load .ram (entry + 3)
  let string := stringTable + be32 0 o0 o1 o2
  let filetype ← load .ram entry
  if filetype &&& 0x80 = 0 then do
    let found ← strcasecmpAt string (openingBnr ++ [0])
    if found then do
      let addr ← loadU32 .ram (entry + 4)
      let len ← loadU32 .ram (entry + 8)
      pure (some ⟨addr, len⟩)
    else pure none
  else pure none

theorem fstSearch_succ (stringTable : UInt32) (left : Nat) (i : UInt32) :
    fstSearch stringTable (left + 1) i = fstLook stringTable i >>= fun found =>
      match found with
      | some info => pure info
      | none => fstSearch stringTable left (i + 1) := by
  simp only [fstSearch, fstLook, Dialogue.bind_assoc]
  refine bind_congr fun o0 => bind_congr fun o1 => bind_congr fun o2 => bind_congr fun filetype => ?_
  by_cases hfile : filetype &&& 0x80 = 0
  · simp only [if_pos hfile, Dialogue.bind_assoc]
    refine bind_congr fun found => ?_
    cases found with
    | true => simp only [if_true, Dialogue.bind_assoc]; rfl
    | false => rfl
  · simp only [if_neg hfile]
    rfl

/-- The routine around the loop. -/
def slowWith {α : Type} (refused : α) (loop : UInt32 → Nat → UInt32 → FileProg α) : FileProg α := do
  let fstSize ← loadU32 .header fstSizeAt
  let offset ← loadU32 .header fstOffsetAt
  let _ ← dvdThreadedRead .ram fstBase (osRoundUp32B fstSize) offset
  let totalEntries ← loadU32 .ram (fstBase + 8)
  let stringTable := fstBase + 12 * totalEntries
  if stringTable < fstBase ∨ fstLimit < stringTable then pure refused
  else loop stringTable (totalEntries.toNat - 1) 1

theorem getBannerOffsetSlow_eq : getBannerOffsetSlow = slowWith ⟨0, 0⟩ fstSearch := rfl

/-- The same loop, for the number of its rounds. -/
def fstRounds (stringTable : UInt32) : Nat → UInt32 → FileProg Nat
  | 0, _ => pure 0
  | left + 1, i => do
    match ← fstLook stringTable i with
    | some _ => pure 1
    | none => do
      let rounds ← fstRounds stringTable left (i + 1)
      pure (rounds + 1)

/-! ## The table's bytes -/

/-- The byte of the table at an address, if the read brought it. -/
def fstCell (fst : List UInt8) (p : UInt32) : Option UInt8 := fst[(p - fstBase).toNat]?

def wordAt? (fst : List UInt8) (k : Nat) : Option UInt32 := do
  let b0 ← fst[k]?
  let b1 ← fst[k + 1]?
  let b2 ← fst[k + 2]?
  let b3 ← fst[k + 3]?
  some (be32 b0 b1 b2 b3)

/-- What a round makes of entry `i`, where the names begin at `names`. -/
def fstTest (fst : List UInt8) (names i : Nat) : Option (Option BnrInfo) := do
  let o0 ← fst[12 * i + 1]?
  let o1 ← fst[12 * i + 2]?
  let o2 ← fst[12 * i + 3]?
  let filetype ← fst[12 * i]?
  if filetype &&& 0x80 = 0 then do
    let found ← Table.compare myTolower (fst.drop (names + (be32 0 o0 o1 o2).toNat)) (openingBnr ++ [0])
    if found then do
      let addr ← wordAt? fst (12 * i + 4)
      let len ← wordAt? fst (12 * i + 8)
      some (some ⟨addr, len⟩)
    else some none
  else some none

/-- The walk on the table's bytes alone; `search` is told where the names begin and how many
entries to look at. -/
def walkWith {α : Type} (fst : List UInt8) (refused : α) (search : Nat → Nat → Option α) : Option α := do
  let totalEntries ← wordAt? fst 8
  let names := (12 * totalEntries).toNat
  if 0x100000 < names then some refused else search names (totalEntries.toNat - 1)

def walk (fst : List UInt8) : Option BnrInfo :=
  walkWith fst ⟨0, 0⟩ fun names left =>
    (Table.search (fstTest fst names) left 1).map fun found => found.getD ⟨0, 0⟩

def walkRounds (fst : List UInt8) : Option Nat :=
  walkWith fst 0 fun names left =>
    (Table.search (fstTest fst names) left 1).map fun _ => Table.looks (fstTest fst names) left 1

/-- A name's offset has 24 bits. -/
theorem nameOffset_lt (o0 o1 o2 : UInt8) : (be32 0 o0 o1 o2).toNat < 2 ^ 24 := by
  have h0 := o0.toNat_lt
  have h1 := o1.toNat_lt
  have h2 := o2.toNat_lt
  have hshift : ∀ (x k : Nat), x * 2 ^ k % 2 ^ 32 ≤ x * 2 ^ k := fun x k => Nat.mod_le _ _
  have hle0 := hshift o0.toNat 16
  have hle1 := hshift o1.toNat 8
  simp only [be32, UInt32.toNat_or]
  refine Nat.or_lt_two_pow (Nat.or_lt_two_pow (Nat.or_lt_two_pow ?_ ?_) ?_) ?_
  · decide
  · simp only [UInt32.toNat_shiftLeft, UInt8.toNat_toUInt32, Nat.shiftLeft_eq]
    exact lt_of_le_of_lt hle0 (by omega)
  · simp only [UInt32.toNat_shiftLeft, UInt8.toNat_toUInt32, Nat.shiftLeft_eq]
    exact lt_of_le_of_lt hle1 (by omega)
  · simp only [UInt8.toNat_toUInt32]
    omega

/-! ## Loads, where only some bytes of an area are known -/

theorem base_add (base : UInt32) (k j : Nat) :
    base + UInt32.ofNat k + UInt32.ofNat j = base + UInt32.ofNat (k + j) := by
  rw [UInt32.ofNat_add, UInt32.add_assoc]

section
variable {σ : Type} {g : (q : FileReq) → σ → Option (FileAns q × σ)} {t : σ} {a : Area} {base : UInt32}
  {xs : List UInt8} (hcell : ∀ p, g (.load a p) t = (xs[(p - base).toNat]?).map fun b => (b, t))

include hcell

theorem load_yields {k : Nat} (hk : k < UInt32.size) : Dialogue.Yields g t (load a (base + .ofNat k)) xs[k]? := by
  have hoffset : base + UInt32.ofNat k - base = UInt32.ofNat k := by
    rw [UInt32.add_comm, UInt32.add_sub_cancel]
  rw [Dialogue.Yields, load, Dialogue.tryRun_query, hcell, hoffset, UInt32.toNat_ofNat_of_lt' hk]

theorem loadU32_yields {k : Nat} (hk : k + 3 < UInt32.size) :
    Dialogue.Yields g t (loadU32 a (base + .ofNat k)) (wordAt? xs k) := by
  have h1 : base + UInt32.ofNat k + 1 = base + UInt32.ofNat (k + 1) := base_add base k 1
  have h2 : base + UInt32.ofNat k + 2 = base + UInt32.ofNat (k + 2) := base_add base k 2
  have h3 : base + UInt32.ofNat k + 3 = base + UInt32.ofNat (k + 3) := base_add base k 3
  simp only [loadU32, h1, h2, h3]
  refine (load_yields hcell (by omega)).bind fun b0 => (load_yields hcell (by omega)).bind fun b1 => ?_
  refine (load_yields hcell (by omega)).bind fun b2 => (load_yields hcell hk).bind fun b3 => ?_
  exact Dialogue.yields_pure _ t

end

/-! ## The walk, where only the table's bytes are known -/

section
variable {σ : Type} {g : (q : FileReq) → σ → Option (FileAns q × σ)} {t : σ} {fst : List UInt8}
  (hload : ∀ p, g (.load .ram p) t = (fstCell fst p).map fun b => (b, t))

include hload

theorem strcasecmpAt_yields (s : List UInt8) {k : Nat} (hk : k + s.length < UInt32.size) :
    Dialogue.Yields g t (strcasecmpAt (fstBase + .ofNat k) s) (Table.compare myTolower (fst.drop k) s) := by
  induction s generalizing k with
  | nil =>
    rw [strcasecmpAt, Table.compare]
    exact Dialogue.yields_pure true t
  | cons c s ih =>
    rw [List.length_cons] at hk
    have hnext : fstBase + UInt32.ofNat k + 1 = fstBase + UInt32.ofNat (k + 1) := base_add fstBase k 1
    rw [strcasecmpAt, Dialogue.Yields, Dialogue.tryRun_bind, load_yields hload (by omega)]
    cases hdrop : fst.drop k with
    | nil =>
      have hget : fst[k]? = none := List.getElem?_eq_none (List.drop_eq_nil_iff.mp hdrop)
      simp only [hget, Option.map_none, Option.bind_none, Table.compare]
    | cons x xs =>
      have hget : fst[k]? = some x := by rw [← List.head?_drop, hdrop, List.head?_cons]
      have hxs : fst.drop (k + 1) = xs := by rw [← List.tail_drop, hdrop, List.tail_cons]
      simp only [hget, Option.map_some, Option.bind_some, Table.compare]
      split
      · rw [hnext, ih (by omega), hxs]
      · simp only [Dialogue.tryRun_pure, Option.map_some]

/-- One round, while its entry is in reach of 32 bits. -/
theorem fstLook_yields {names i : Nat} (hnames : names ≤ 0x100000) (hi : 12 * i + 16 < UInt32.size) :
    Dialogue.Yields g t (fstLook (fstBase + .ofNat names) (.ofNat i)) (fstTest fst names i) := by
  have hentry : fstBase + 12 * UInt32.ofNat i = fstBase + UInt32.ofNat (12 * i) := by
    rw [UInt32.ofNat_mul]
    rfl
  have h1 : fstBase + UInt32.ofNat (12 * i) + 1 = fstBase + UInt32.ofNat (12 * i + 1) := base_add fstBase _ 1
  have h2 : fstBase + UInt32.ofNat (12 * i) + 2 = fstBase + UInt32.ofNat (12 * i + 2) := base_add fstBase _ 2
  have h3 : fstBase + UInt32.ofNat (12 * i) + 3 = fstBase + UInt32.ofNat (12 * i + 3) := base_add fstBase _ 3
  have h4 : fstBase + UInt32.ofNat (12 * i) + 4 = fstBase + UInt32.ofNat (12 * i + 4) := base_add fstBase _ 4
  have h8 : fstBase + UInt32.ofNat (12 * i) + 8 = fstBase + UInt32.ofNat (12 * i + 8) := base_add fstBase _ 8
  have hname : ∀ o0 o1 o2, fstBase + UInt32.ofNat names + be32 0 o0 o1 o2 =
      fstBase + UInt32.ofNat (names + (be32 0 o0 o1 o2).toNat) := by
    intro o0 o1 o2
    rw [← base_add, UInt32.ofNat_toNat]
  have hshort : ∀ o0 o1 o2, names + (be32 0 o0 o1 o2).toNat + (openingBnr ++ [0]).length < UInt32.size := by
    intro o0 o1 o2
    have hoffset := nameOffset_lt o0 o1 o2
    have hlen : (openingBnr ++ [0]).length = 12 := by decide
    have hsize : UInt32.size = 2 ^ 32 := rfl
    omega
  simp only [fstLook, hentry, h1, h2, h3, h4, h8, hname]
  refine (load_yields hload (by omega)).bind fun o0 => (load_yields hload (by omega)).bind fun o1 => ?_
  refine (load_yields hload (by omega)).bind fun o2 => (load_yields hload (by omega)).bind fun filetype => ?_
  refine .ite ?_ (Dialogue.yields_pure none t)
  refine (strcasecmpAt_yields hload _ (hshort o0 o1 o2)).bind fun found => ?_
  refine .ite ?_ (Dialogue.yields_pure none t)
  refine (loadU32_yields hload (by omega)).bind fun addr => (loadU32_yields hload (by omega)).bind fun len => ?_
  exact Dialogue.yields_pure _ t

omit hload in
theorem fstTest_reach {names i : Nat} (h : (fstTest fst names i).isSome = true) : 12 * i + 3 < fst.length := by
  by_contra hlong
  have hnone : fst[12 * i + 3]? = none := List.getElem?_eq_none (Nat.le_of_not_lt hlong)
  simp only [fstTest, hnone, Option.bind_eq_bind, Option.bind_none, Option.bind_fun_none, Option.isSome_none] at h
  cases h

theorem fstSearch_yields {names : Nat} (hsmall : fst.length ≤ 0x100000) (hnames : names ≤ 0x100000) (left : Nat)
    {i : Nat} (hi : 12 * i ≤ fst.length + 12) :
    Dialogue.Yields g t (fstSearch (fstBase + .ofNat names) left (.ofNat i))
      ((Table.search (fstTest fst names) left i).map fun found => found.getD ⟨0, 0⟩) := by
  have hsize : UInt32.size = 2 ^ 32 := rfl
  induction left generalizing i with
  | zero => exact Dialogue.yields_pure _ t
  | succ left ih =>
    rw [fstSearch_succ, Dialogue.Yields, Dialogue.tryRun_bind, fstLook_yields hload hnames (by omega), Table.search]
    cases htest : fstTest fst names i with
    | none => rfl
    | some found =>
      cases found with
      | some info => rfl
      | none =>
        have hreach := fstTest_reach (Option.isSome_iff_exists.mpr ⟨_, htest⟩)
        have hnext : UInt32.ofNat i + 1 = UInt32.ofNat (i + 1) := (UInt32.ofNat_add i 1).symm
        simp only [Option.map_some, Option.bind_some, hnext]
        exact ih (i := i + 1) (by omega)

theorem fstRounds_yields {names : Nat} (hsmall : fst.length ≤ 0x100000) (hnames : names ≤ 0x100000) (left : Nat)
    {i : Nat} (hi : 12 * i ≤ fst.length + 12) :
    Dialogue.Yields g t (fstRounds (fstBase + .ofNat names) left (.ofNat i))
      ((Table.search (fstTest fst names) left i).map fun _ => Table.looks (fstTest fst names) left i) := by
  have hsize : UInt32.size = 2 ^ 32 := rfl
  induction left generalizing i with
  | zero => exact Dialogue.yields_pure _ t
  | succ left ih =>
    rw [fstRounds, Dialogue.Yields, Dialogue.tryRun_bind, fstLook_yields hload hnames (by omega), Table.search,
      Table.looks]
    cases htest : fstTest fst names i with
    | none => rfl
    | some found =>
      cases found with
      | some info => rfl
      | none =>
        have hreach := fstTest_reach (Option.isSome_iff_exists.mpr ⟨_, htest⟩)
        have hnext : UInt32.ofNat i + 1 = UInt32.ofNat (i + 1) := (UInt32.ofNat_add i 1).symm
        simp only [Option.map_some, Option.bind_some, hnext]
        rw [Dialogue.tryRun_bind, ih (i := i + 1) (by omega)]
        cases Table.search (fstTest fst names) left (i + 1) <;> rfl

end

/-! ## The whole routine -/

/-- The range check, on where the names begin. -/
theorem refused_iff (totalEntries : UInt32) :
    (fstBase + 12 * totalEntries < fstBase ∨ fstLimit < fstBase + 12 * totalEntries) ↔
      0x100000 < (12 * totalEntries).toNat := by
  have hlt := (12 * totalEntries).toNat_lt
  simp only [UInt32.lt_iff_toNat_lt, UInt32.toNat_add, fstBase, fstLimit, UInt32.toNat_ofNat]
  omega

/-- The routine with any handler that knows the header and that serves its read: on the bytes
the read brings. -/
theorem slowWith_tryRun {σ : Type} {g : (q : FileReq) → σ → Option (FileAns q × σ)} {t t' : σ} {fst : List UInt8}
    {α : Type} {refused : α} {loop : UInt32 → Nat → UInt32 → FileProg α} {search : Nat → Nat → Option α}
    {fstSize offset ret : UInt32}
    (hsize : Dialogue.Yields g t (loadU32 .header fstSizeAt) (some fstSize))
    (hoffset : Dialogue.Yields g t (loadU32 .header fstOffsetAt) (some offset))
    (hread : g (.read .ram fstBase (osRoundUp32B fstSize) offset) t = some (ret, t'))
    (hload : ∀ p, g (.load .ram p) t' = (fstCell fst p).map fun b => (b, t'))
    (hloop : ∀ names left, names ≤ 0x100000 →
      Dialogue.Yields g t' (loop (fstBase + .ofNat names) left 1) (search names left)) :
    (slowWith refused loop).tryRun g t = (walkWith fst refused search).map fun a => (a, t') := by
  have hcount : Dialogue.Yields g t' (loadU32 .ram (fstBase + 8)) (wordAt? fst 8) :=
    loadU32_yields (k := 8) hload (by decide)
  have hrest : Dialogue.Yields g t' (do
      let totalEntries ← loadU32 .ram (fstBase + 8)
      let stringTable := fstBase + 12 * totalEntries
      if stringTable < fstBase ∨ fstLimit < stringTable then pure refused
      else loop stringTable (totalEntries.toNat - 1) 1) (walkWith fst refused search) := by
    refine hcount.bind fun totalEntries => ?_
    have hnames : fstBase + 12 * totalEntries = fstBase + .ofNat (12 * totalEntries).toNat := by
      rw [UInt32.ofNat_toNat]
    by_cases hrefused : 0x100000 < (12 * totalEntries).toNat
    · rw [if_pos ((refused_iff totalEntries).mpr hrefused), if_pos hrefused]
      exact Dialogue.yields_pure refused t'
    · rw [if_neg (mt (refused_iff totalEntries).mp hrefused), if_neg hrefused, hnames]
      exact hloop _ _ (Nat.le_of_not_lt hrefused)
  rw [slowWith, Dialogue.tryRun_bind, hsize, Option.map_some, Option.bind_some, Dialogue.tryRun_bind, hoffset,
    Option.map_some, Option.bind_some, Dialogue.tryRun_bind, dvdThreadedRead, Dialogue.tryRun_query, hread,
    Option.bind_some]
  exact hrest

/-! ## A header and what its read brings -/

def headerWord (header : UInt32 → UInt8) (p : UInt32) : UInt32 :=
  be32 (header p) (header (p + 1)) (header (p + 2)) (header (p + 3))

/-- What the walk is put to: `fst` is what the read of the table brings, which is less than
was asked for where the image ends. -/
structure FstRead where
  header : UInt32 → UInt8
  fst : List UInt8
  small : headerWord header fstSizeAt ≤ 0x100000
  brought : fst.length ≤ (osRoundUp32B (headerWord header fstSizeAt)).toNat

/-- The state is the memory at the addresses the table is read to. -/
def FstRead.answer (w : FstRead) : (q : FileReq) → (UInt32 → UInt8) → FileAns q × (UInt32 → UInt8)
  | .openFile _, m => (0, m)
  | .status, m => (⟨0, 0⟩, m)
  | .read _ p _ _, m => (0, fun i => w.fst.getD (i - p).toNat (m i))
  | .close, m => ((), m)
  | .clear .., m => ((), m)
  | .load .header p, m => (w.header p, m)
  | .load _ p, m => (m p, m)

/-- The same, where a byte the read has not brought is refused. -/
def FstRead.ownAnswer (w : FstRead) : (q : FileReq) → (UInt32 → Option UInt8) →
    Option (FileAns q × (UInt32 → Option UInt8))
  | .openFile _, t => some (0, t)
  | .status, t => some (⟨0, 0⟩, t)
  | .read _ p _ _, t => some (0, fun i => (w.fst[(i - p).toNat]?).or (t i))
  | .close, t => some ((), t)
  | .clear .., t => some ((), t)
  | .load .header p, t => some (w.header p, t)
  | .load _ p, t => (t p).map fun b => (b, t)

theorem FstRead.simulates (w : FstRead) : Dialogue.Simulates w.answer w.ownAnswer
    fun (m : UInt32 → UInt8) (t : UInt32 → Option UInt8) => ∀ i b, t i = some b → m i = b := by
  intro q m t r t' hR hq
  cases q with
  | openFile | status | close | clear =>
    obtain ⟨hr, rfl⟩ := Prod.mk.inj (Option.some.inj hq)
    exact ⟨hr, hR⟩
  | read dst p len offset =>
    obtain ⟨hr, rfl⟩ := Prod.mk.inj (Option.some.inj hq)
    refine ⟨hr, fun i b hb => ?_⟩
    simp only [FstRead.answer, List.getD_eq_getElem?_getD]
    cases hx : w.fst[(i - p).toNat]? with
    | none =>
      simp only [hx, Option.none_or] at hb
      exact hR i b hb
    | some x =>
      simp only [hx, Option.some_or] at hb
      exact Option.some.inj hb
  | load a p =>
    cases a with
    | header =>
      obtain ⟨hr, rfl⟩ := Prod.mk.inj (Option.some.inj hq)
      exact ⟨hr, hR⟩
    | smallBuf | bannerBuffer | ram =>
      obtain ⟨b, hb, heq⟩ := Option.map_eq_some_iff.mp hq
      obtain ⟨rfl, rfl⟩ := Prod.mk.inj heq
      exact ⟨hR p b hb, hR⟩

/-- Rounded up, a table of at most 1 MiB is still one. -/
theorem osRoundUp32B_le {size : UInt32} (h : size ≤ 0x100000) : (osRoundUp32B size).toNat ≤ 0x100000 := by
  have hsize : size.toNat ≤ 0x100000 := UInt32.le_iff_toNat_le.mp h
  have hadd : (size + 31).toNat = size.toNat + 31 := by
    have h31 : (31 : UInt32).toNat = 31 := rfl
    rw [UInt32.toNat_add, h31]
    exact Nat.mod_eq_of_lt (by omega)
  have hand : (osRoundUp32B size).toNat = (size + 31).toNat &&& 0xFFFFFFE0 := UInt32.toNat_and ..
  have hle : (size + 31).toNat &&& 0xFFFFFFE0 ≤ (size + 31).toNat := Nat.and_le_left
  have hmod : ((size + 31).toNat &&& 0xFFFFFFE0) % 2 ^ 5 = 0 := by
    rw [Nat.and_mod_two_pow]
    exact Nat.and_zero _
  rw [hand]
  omega

section
variable (w : FstRead)

theorem FstRead.header_yields (t : UInt32 → Option UInt8) (p : UInt32) :
    Dialogue.Yields w.ownAnswer t (loadU32 .header p) (some (headerWord w.header p)) := rfl

theorem FstRead.short : w.fst.length ≤ 0x100000 :=
  Nat.le_trans w.brought (osRoundUp32B_le w.small)

/-- Before the read no byte is known. -/
def unread : UInt32 → Option UInt8 := fun _ => none

/-- The routine on what its read brings. -/
theorem FstRead.slowWith_tryRun {α : Type} {refused : α} {loop : UInt32 → Nat → UInt32 → FileProg α}
    {search : Nat → Nat → Option α}
    (hloop : ∀ names left, names ≤ 0x100000 →
      Dialogue.Yields w.ownAnswer (fstCell w.fst) (loop (fstBase + .ofNat names) left 1) (search names left)) :
    (slowWith refused loop).tryRun w.ownAnswer unread =
      (walkWith w.fst refused search).map fun a => (a, fstCell w.fst) := by
  have hcells : (fun i => (w.fst[(i - fstBase).toNat]?).or (unread i)) = fstCell w.fst := by
    funext i
    rw [unread, Option.or_none, fstCell]
  have hread : ∀ len offset,
      w.ownAnswer (.read .ram fstBase len offset) unread = some ((0 : UInt32), fstCell w.fst) := by
    intro len offset
    rw [← hcells]
    rfl
  exact Cubiboot.slowWith_tryRun (w.header_yields _ _) (w.header_yields _ _) (hread _ _) (fun p => rfl) hloop

theorem FstRead.getBannerOffsetSlow_tryRun :
    getBannerOffsetSlow.tryRun w.ownAnswer unread = (walk w.fst).map fun info => (info, fstCell w.fst) := by
  rw [getBannerOffsetSlow_eq, walk]
  exact w.slowWith_tryRun fun names left hnames =>
    fstSearch_yields (i := 1) (fun p => rfl) w.short hnames left (by omega)

theorem FstRead.rounds_tryRun :
    (slowWith 0 fstRounds).tryRun w.ownAnswer unread = (walkRounds w.fst).map fun n => (n, fstCell w.fst) := by
  rw [walkRounds]
  exact w.slowWith_tryRun fun names left hnames =>
    fstRounds_yields (i := 1) (fun p => rfl) w.short hnames left (by omega)

end

/-! ## What the walk is for -/

def wordIn (fst : List UInt8) (k : Nat) : UInt32 :=
  be32 (fst.getD k 0) (fst.getD (k + 1) 0) (fst.getD (k + 2) 0) (fst.getD (k + 3) 0)

/-- `total_entries`. -/
def entryCount (fst : List UInt8) : Nat := (wordIn fst 8).toNat

def nameOffset (fst : List UInt8) (i : Nat) : Nat :=
  (be32 0 (fst.getD (12 * i + 1) 0) (fst.getD (12 * i + 2) 0) (fst.getD (12 * i + 3) 0)).toNat

/-- The flags of a file; a directory has 1. -/
def IsFile (fst : List UInt8) (i : Nat) : Prop := fst.getD (12 * i) 0 = 0

instance (fst : List UInt8) (i : Nat) : Decidable (IsFile fst i) := inferInstanceAs (Decidable (_ = (_ : UInt8)))

/-- What the table holds from the name of entry `i` on, the names beginning at `names`. -/
def nameAt (fst : List UInt8) (names i : Nat) : List UInt8 := fst.drop (names + nameOffset fst i)

/-- Entry `i` is called `opening.bnr`, in whatever case. -/
def BnrNamed (fst : List UInt8) (names i : Nat) : Prop :=
  12 ≤ (nameAt fst names i).length ∧ ((nameAt fst names i).take 12).map myTolower = (openingBnr ++ [0]).map myTolower

instance (fst : List UInt8) (names i : Nat) : Decidable (BnrNamed fst names i) := inferInstanceAs (Decidable (_ ∧ _))

/-- Entry `i` is a file of that name. -/
def IsBanner (fst : List UInt8) (names i : Nat) : Prop := IsFile fst i ∧ BnrNamed fst names i

instance (fst : List UInt8) (names i : Nat) : Decidable (IsBanner fst names i) := inferInstanceAs (Decidable (_ ∧ _))

def bannerInfo (fst : List UInt8) (i : Nat) : BnrInfo := ⟨wordIn fst (12 * i + 4), wordIn fst (12 * i + 8)⟩

/-- The first entry in the table that is the banner, or 0. The names begin where as many
entries as the table says it has end. -/
def firstBanner (fst : List UInt8) : BnrInfo :=
  match (List.range' 1 (entryCount fst - 1)).find? fun i =>
    decide (12 * i + 12 ≤ fst.length ∧ IsBanner fst (12 * entryCount fst) i) with
  | some i => bannerInfo fst i
  | none => ⟨0, 0⟩

/-- What the walk should do on any table. -/
structure FstRead.WalkOk (w : FstRead) : Prop where
  /-- No byte is looked at but those of the header and of the table. -/
  inside : (getBannerOffsetSlow.tryRun w.ownAnswer unread).isSome = true
  /-- No more rounds than entries fit in the table. -/
  bounded : ∀ m, ((slowWith 0 fstRounds).run w.answer m).1 ≤ w.fst.length / 12
  exact : ∀ m, (getBannerOffsetSlow.run w.answer m).1 = firstBanner w.fst

/-! ## When it is so -/

/-- Where the walk takes the names to begin: 32 bits of it. -/
def namesBegin (fst : List UInt8) : Nat := 12 * entryCount fst % 2 ^ 32

/-- The bit-field `filetype` of entry `i` is `T_FILE`. -/
def TypeFile (fst : List UInt8) (i : Nat) : Prop := fst.getD (12 * i) 0 &&& 0x80 = 0

instance (fst : List UInt8) (i : Nat) : Decidable (TypeFile fst i) := inferInstanceAs (Decidable (_ = (_ : UInt8)))

/-- The walk stops at entry `i`, a file or not. -/
def Taken (fst : List UInt8) (names i : Nat) : Prop := TypeFile fst i ∧ BnrNamed fst names i

/-- No entry before `i` is taken. -/
def NoneBefore (fst : List UInt8) (names i : Nat) : Prop := ∀ j, 1 ≤ j → j < i → ¬ Taken fst names j

/-- The table ends within the name of entry `i`, before that differs from `opening.bnr`. -/
def NameCut (fst : List UInt8) (names i : Nat) : Prop :=
  (nameAt fst names i).length < 12 ∧ (nameAt fst names i).map myTolower <+: (openingBnr ++ [0]).map myTolower

/-- Entry `i` is in the table as far as it is looked at: its type and its name's place; of a
file the name, up to where it differs; and of the one taken the rest of the entry. -/
def EntryInside (fst : List UInt8) (names i : Nat) : Prop :=
  12 * i + 4 ≤ fst.length ∧ (TypeFile fst i → ¬ NameCut fst names i) ∧
    (Taken fst names i → 12 * i + 12 ≤ fst.length)

/-- Entry `k` is the first in the table that is the banner. -/
structure FirstBanner (fst : List UInt8) (k : Nat) : Prop where
  entry : 1 ≤ k ∧ k < entryCount fst
  inside : 12 * k + 12 ≤ fst.length
  banner : IsBanner fst (12 * entryCount fst) k
  first : ∀ j, 1 ≤ j → j < k → ¬ IsBanner fst (12 * entryCount fst) j

/-- Entry `i` happens to hold the position and length of the first banner, or 0 and 0 where
there is none. -/
def AsFirst (fst : List UInt8) (i : Nat) : Prop :=
  (∃ k, FirstBanner fst k ∧ bannerInfo fst i = bannerInfo fst k) ∨
    ((∀ k, ¬ FirstBanner fst k) ∧ bannerInfo fst i = ⟨0, 0⟩)

/-- The table has its count; and that is refused by the range check, or every entry up to
the one taken is in the table. In the second case the count is one that 12 times does not
wrap and the entry taken is a file, or it happens to hold the right answer all the same. -/
structure FstRead.InTable (w : FstRead) : Prop where
  count : 12 ≤ w.fst.length
  entries : 0x100000 < namesBegin w.fst ∨
    ∀ i, 1 ≤ i → i < entryCount w.fst → NoneBefore w.fst (namesBegin w.fst) i →
      EntryInside w.fst (namesBegin w.fst) i
  file : 0x100000 < namesBegin w.fst ∨
    ∀ i, 1 ≤ i → i < entryCount w.fst → NoneBefore w.fst (namesBegin w.fst) i → Taken w.fst (namesBegin w.fst) i →
      (12 * entryCount w.fst < 2 ^ 32 ∧ IsFile w.fst i) ∨ AsFirst w.fst i

/-! ### One entry -/

section
variable {fst : List UInt8} {names i : Nat}

theorem getElem?_eq_getD {k : Nat} (h : k < fst.length) : fst[k]? = some (fst.getD k 0) := by
  rw [List.getD_eq_getElem?_getD, List.getElem?_eq_getElem h, Option.getD_some]

theorem wordAt?_eq {k : Nat} (h : k + 3 < fst.length) : wordAt? fst k = some (wordIn fst k) := by
  have h0 : k < fst.length := by omega
  have h1 : k + 1 < fst.length := by omega
  have h2 : k + 2 < fst.length := by omega
  simp only [wordAt?, getElem?_eq_getD h0, getElem?_eq_getD h1, getElem?_eq_getD h2, getElem?_eq_getD h,
    Option.bind_eq_bind, Option.bind_some, wordIn]

theorem wordAt?_none {k : Nat} (h : fst.length ≤ k + 3) : wordAt? fst k = none := by
  have hnone : fst[k + 3]? = none := List.getElem?_eq_none h
  simp only [wordAt?, hnone, Option.bind_eq_bind, Option.bind_none, Option.bind_fun_none]

/-- A round's test, on an entry whose head is in the table. -/
theorem fstTest_eq (h : 12 * i + 4 ≤ fst.length) :
    fstTest fst names i =
      if TypeFile fst i then do
        let found ← Table.compare myTolower (nameAt fst names i) (openingBnr ++ [0])
        if found then do
          let addr ← wordAt? fst (12 * i + 4)
          let len ← wordAt? fst (12 * i + 8)
          some (some (BnrInfo.mk addr len))
        else some none
      else some none := by
  have h0 : 12 * i < fst.length := by omega
  have h1 : 12 * i + 1 < fst.length := by omega
  have h2 : 12 * i + 2 < fst.length := by omega
  have h3 : 12 * i + 3 < fst.length := by omega
  simp only [fstTest, getElem?_eq_getD h0, getElem?_eq_getD h1, getElem?_eq_getD h2, getElem?_eq_getD h3,
    Option.bind_eq_bind, Option.bind_some, TypeFile, nameAt, nameOffset]

theorem openingBnr_length : (openingBnr ++ [0]).length = 12 := by decide

theorem compare_true_iff (xs : List UInt8) : Table.compare myTolower xs (openingBnr ++ [0]) = some true ↔
    12 ≤ xs.length ∧ (xs.take 12).map myTolower = (openingBnr ++ [0]).map myTolower := by
  rw [Table.compare_eq_true, openingBnr_length]

theorem compare_none_iff (xs : List UInt8) : Table.compare myTolower xs (openingBnr ++ [0]) = none ↔
    xs.length < 12 ∧ xs.map myTolower <+: (openingBnr ++ [0]).map myTolower := by
  rw [Table.compare_eq_none, openingBnr_length]

/-- What a round's test says, by what the table holds. -/
theorem fstTest_cases (fst : List UInt8) (names i : Nat) :
    (fstTest fst names i = none ∧ ¬ EntryInside fst names i) ∨
    (fstTest fst names i = some none ∧ EntryInside fst names i ∧ ¬ Taken fst names i) ∨
    (fstTest fst names i = some (some (bannerInfo fst i)) ∧ EntryInside fst names i ∧ Taken fst names i) := by
  by_cases hhead : 12 * i + 4 ≤ fst.length
  · rw [fstTest_eq hhead]
    by_cases hfile : TypeFile fst i
    · rw [if_pos hfile]
      cases hcompare : Table.compare myTolower (nameAt fst names i) (openingBnr ++ [0]) with
      | none =>
        -- the name runs off the table
        exact .inl ⟨rfl, fun hinside => hinside.2.1 hfile ((compare_none_iff _).mp hcompare)⟩
      | some found =>
        have hcut : ¬ NameCut fst names i := fun hcut => by
          rw [(compare_none_iff _).mpr hcut] at hcompare
          cases hcompare
        cases found with
        | false =>
          have hother : ¬ Taken fst names i := fun hbanner => by
            rw [(compare_true_iff _).mpr hbanner.2] at hcompare
            cases hcompare
          exact .inr (.inl ⟨rfl, ⟨hhead, fun _ => hcut, fun hbanner => absurd hbanner hother⟩, hother⟩)
        | true =>
          have hbanner : Taken fst names i := ⟨hfile, (compare_true_iff _).mp hcompare⟩
          by_cases hend : 12 * i + 12 ≤ fst.length
          · have haddr : 12 * i + 4 + 3 < fst.length := by omega
            have hlen : 12 * i + 8 + 3 < fst.length := by omega
            refine .inr (.inr ⟨?_, ⟨hhead, fun _ => hcut, fun _ => hend⟩, hbanner⟩)
            simp only [Option.bind_eq_bind, Option.bind_some, if_true, wordAt?_eq haddr, wordAt?_eq hlen, bannerInfo]
          · have hlen : fst.length ≤ 12 * i + 8 + 3 := by omega
            refine .inl ⟨?_, fun hinside => hend (hinside.2.2 hbanner)⟩
            simp only [Option.bind_eq_bind, Option.bind_some, if_true, wordAt?_none hlen, Option.bind_none,
              Option.bind_fun_none]
    · rw [if_neg hfile]
      have hother : ¬ Taken fst names i := fun hbanner => hfile hbanner.1
      exact .inr (.inl ⟨rfl, ⟨hhead, fun h => absurd h hfile, fun h => absurd h hother⟩, hother⟩)
  · refine .inl ⟨?_, fun hinside => hhead hinside.1⟩
    cases htest : fstTest fst names i with
    | none => rfl
    | some found =>
      have hreach := fstTest_reach (Option.isSome_iff_exists.mpr ⟨found, htest⟩)
      omega

theorem fstTest_isSome : (fstTest fst names i).isSome = true ↔ EntryInside fst names i := by
  obtain ⟨htest, hout⟩ | ⟨htest, hinside, -⟩ | ⟨htest, hinside, -⟩ := fstTest_cases fst names i <;> rw [htest]
  · exact iff_of_false Bool.false_ne_true hout
  · exact iff_of_true rfl hinside
  · exact iff_of_true rfl hinside

/-! ### The search -/

theorem missesTo_iff {k : Nat} : Table.MissesTo (fstTest fst names) 1 k ↔
    ∀ j, 1 ≤ j → j < k → EntryInside fst names j ∧ ¬ Taken fst names j := by
  refine forall_congr' fun j => forall_congr' fun _ => forall_congr' fun _ => ?_
  obtain ⟨htest, hout⟩ | ⟨htest, hin⟩ | ⟨htest, -, hbanner⟩ := fstTest_cases fst names j <;> rw [htest]
  · exact iff_of_false (fun h => by cases h) fun h => hout h.1
  · exact iff_of_true rfl hin
  · exact iff_of_false (fun h => by cases h) fun h => h.2 hbanner

/-- Entries inside up to the first banner, said of each entry with none before it. -/
theorem search_inside_iff (left : Nat) : (Table.search (fstTest fst names) left 1).isSome = true ↔
    ∀ i, 1 ≤ i → i < 1 + left → NoneBefore fst names i → EntryInside fst names i := by
  rw [Table.search_isSome]
  constructor
  · intro hall i
    -- the entries before `i` have none before them either, so they are inside
    induction i using Nat.strongRecOn with
    | _ i ih =>
      intro hi hlt hnone
      refine fstTest_isSome.mp (hall i hi hlt (missesTo_iff.mpr fun j hj hji => ⟨?_, hnone j hj hji⟩))
      exact ih j hji hj (by omega) fun j' hj' hlt' => hnone j' hj' (by omega)
  · intro hall k hk hlt hmisses
    exact fstTest_isSome.mpr (hall k hk hlt fun j hj hjk => (missesTo_iff.mp hmisses j hj hjk).2)

/-- What a search that stays inside finds. -/
theorem search_found {left : Nat} (hinside : (Table.search (fstTest fst names) left 1).isSome = true) :
    (Table.search (fstTest fst names) left 1 = some none ∧ ∀ i, 1 ≤ i → i < 1 + left → ¬ Taken fst names i) ∨
    ∃ k, 1 ≤ k ∧ k < 1 + left ∧ NoneBefore fst names k ∧ Taken fst names k ∧ 12 * k + 12 ≤ fst.length ∧
      Table.search (fstTest fst names) left 1 = some (some (bannerInfo fst k)) := by
  obtain ⟨found, hfound⟩ := Option.isSome_iff_exists.mp hinside
  cases found with
  | none => exact .inl ⟨hfound, fun i hi hlt => (missesTo_iff.mp (Table.search_eq_miss.mp hfound) i hi hlt).2⟩
  | some r =>
    obtain ⟨k, hk, hlt, hmisses, htest⟩ := Table.search_eq_hit.mp hfound
    obtain ⟨hcase, -⟩ | ⟨hcase, -⟩ | ⟨hcase, hin, hbanner⟩ := fstTest_cases fst names k <;> rw [htest] at hcase
    · cases hcase
    · cases hcase
    · refine .inr ⟨k, hk, hlt, fun j hj hjk => (missesTo_iff.mp hmisses j hj hjk).2, hbanner, hin.2.2 hbanner, ?_⟩
      rw [hfound, hcase]

theorem looks_le_entries {left : Nat} (hinside : (Table.search (fstTest fst names) left 1).isSome = true) :
    Table.looks (fstTest fst names) left 1 ≤ fst.length / 12 := by
  by_contra hmany
  have hleft : Table.looks (fstTest fst names) left 1 ≤ left := Table.looks_le
  -- the last entry looked at is in the table
  have hmisses : Table.MissesTo (fstTest fst names) 1 (Table.looks (fstTest fst names) left 1) :=
    Table.looks_misses (n := left) (by omega) (by omega)
  have hlast := Table.search_isSome.mp hinside _ (by omega) (by omega) hmisses
  have hreach := fstTest_reach hlast
  omega

/-! ### The table's own reading -/

/-- Names that begin behind the table are no names in it. -/
theorem not_isBanner_of_names (h : fst.length ≤ names) : ¬ IsBanner fst names i := by
  intro ⟨_, hlen, _⟩
  rw [nameAt, List.length_drop] at hlen
  omega

theorem firstBanner_of_first {k : Nat} (h : FirstBanner fst k) : firstBanner fst = bannerInfo fst k := by
  have hfind : (List.range' 1 (entryCount fst - 1)).find? (fun i =>
      decide (12 * i + 12 ≤ fst.length ∧ IsBanner fst (12 * entryCount fst) i)) = some k := by
    have hrange := h.entry
    rw [List.find?_range'_eq_some]
    refine ⟨decide_eq_true ⟨h.inside, h.banner⟩, List.mem_range'_1.mpr ⟨hrange.1, by omega⟩, fun j hj hjk => ?_⟩
    rw [Bool.not_eq_true', decide_eq_false_iff_not]
    exact fun hbanner => h.first j hj hjk hbanner.2
  rw [firstBanner, hfind]

theorem firstBanner_of_none (h : ∀ k, ¬ FirstBanner fst k) : firstBanner fst = ⟨0, 0⟩ := by
  rw [firstBanner]
  cases hfind : (List.range' 1 (entryCount fst - 1)).find? (fun i =>
      decide (12 * i + 12 ≤ fst.length ∧ IsBanner fst (12 * entryCount fst) i)) with
  | none => rfl
  | some k =>
    obtain ⟨hk, hmem, hfirst⟩ := List.find?_range'_eq_some.mp hfind
    obtain ⟨hinside, hbanner⟩ := of_decide_eq_true hk
    have hrange := List.mem_range'_1.mp hmem
    refine absurd ⟨⟨hrange.1, by omega⟩, hinside, hbanner, fun j hj hjk hother => ?_⟩ (h k)
    -- an entry before one in the table is in it too
    have hmiss := hfirst j hj hjk
    rw [Bool.not_eq_true', decide_eq_false_iff_not] at hmiss
    exact hmiss ⟨by omega, hother⟩

theorem asFirst_iff {i : Nat} : AsFirst fst i ↔ bannerInfo fst i = firstBanner fst := by
  constructor
  · rintro (⟨k, hk, heq⟩ | ⟨hnone, heq⟩)
    · rw [heq, firstBanner_of_first hk]
    · rw [heq, firstBanner_of_none hnone]
  · intro heq
    by_cases hex : ∃ k, FirstBanner fst k
    · obtain ⟨k, hk⟩ := hex
      exact .inl ⟨k, hk, heq.trans (firstBanner_of_first hk)⟩
    · have hnone : ∀ k, ¬ FirstBanner fst k := not_exists.mp hex
      exact .inr ⟨hnone, heq.trans (firstBanner_of_none hnone)⟩

/-- A file has the top bit of its flags clear, so the walk stops at a banner. -/
theorem IsBanner.taken (h : IsBanner fst names i) : Taken fst names i := by
  obtain ⟨hfile, hnamed⟩ := h
  refine ⟨?_, hnamed⟩
  have hflags : fst.getD (12 * i) 0 = 0 := hfile
  rw [TypeFile, hflags]
  rfl

/-- Where the names begin in 32 bits too, the entry taken is the banner if it is a file. -/
theorem FirstBanner.of_taken (hnames : namesBegin fst = 12 * entryCount fst) {k : Nat} (hk : 1 ≤ k)
    (hlt : k < entryCount fst) (hnone : NoneBefore fst (namesBegin fst) k) (htaken : Taken fst (namesBegin fst) k)
    (hend : 12 * k + 12 ≤ fst.length) (hfile : IsFile fst k) : FirstBanner fst k := by
  rw [hnames] at hnone htaken
  exact ⟨⟨hk, hlt⟩, hend, ⟨hfile, htaken.2⟩, fun j hj hjk hbanner => hnone j hj hjk hbanner.taken⟩

/-! ### The walk -/

theorem namesBegin_eq (fst : List UInt8) : (12 * wordIn fst 8).toNat = namesBegin fst := by
  rw [UInt32.toNat_mul, namesBegin, entryCount]
  rfl

theorem walkWith_eq {α : Type} (refused : α) (search : Nat → Nat → Option α) (h : 12 ≤ fst.length) :
    walkWith fst refused search =
      if 0x100000 < namesBegin fst then some refused else search (namesBegin fst) (entryCount fst - 1) := by
  have hcount : 8 + 3 < fst.length := by omega
  simp only [walkWith, wordAt?_eq hcount, Option.bind_eq_bind, Option.bind_some, namesBegin_eq, entryCount]

theorem walkWith_none {α : Type} (refused : α) (search : Nat → Nat → Option α) (h : fst.length < 12) :
    walkWith fst refused search = none := by
  have hcount : fst.length ≤ 8 + 3 := by omega
  simp only [walkWith, wordAt?_none hcount, Option.bind_eq_bind, Option.bind_none]

/-- Every entry up to the first banner is in the table. -/
def EntriesInside (fst : List UInt8) : Prop :=
  ∀ i, 1 ≤ i → i < entryCount fst → NoneBefore fst (namesBegin fst) i → EntryInside fst (namesBegin fst) i

theorem entriesInside_iff : EntriesInside fst ↔
    (Table.search (fstTest fst (namesBegin fst)) (entryCount fst - 1) 1).isSome = true := by
  rw [search_inside_iff]
  refine forall_congr' fun i => forall_congr' fun hi => ?_
  have hlt : i < entryCount fst ↔ i < 1 + (entryCount fst - 1) := by omega
  rw [hlt]

theorem walk_isSome : (walk fst).isSome = true ↔
    12 ≤ fst.length ∧ (0x100000 < namesBegin fst ∨ EntriesInside fst) := by
  by_cases h : 12 ≤ fst.length
  · rw [walk, walkWith_eq _ _ h, entriesInside_iff]
    split
    · rename_i hrefused
      exact iff_of_true rfl ⟨h, .inl hrefused⟩
    · rename_i hin
      rw [Option.isSome_map]
      exact ⟨fun hs => ⟨h, .inr hs⟩, fun hs => hs.2.resolve_left hin⟩
  · rw [walk, walkWith_none _ _ (Nat.lt_of_not_le h)]
    exact iff_of_false Bool.false_ne_true fun hs => h hs.1

theorem walkRounds_le {n : Nat} (hn : walkRounds fst = some n) : n ≤ fst.length / 12 := by
  by_cases h : 12 ≤ fst.length
  · rw [walkRounds, walkWith_eq _ _ h] at hn
    split at hn
    · exact Option.some.inj hn ▸ Nat.zero_le _
    · obtain ⟨found, hfound, rfl⟩ := Option.map_eq_some_iff.mp hn
      exact looks_le_entries (Option.isSome_iff_exists.mpr ⟨found, hfound⟩)
  · rw [walkRounds, walkWith_none _ _ (Nat.lt_of_not_le h)] at hn
    cases hn

theorem walkRounds_isSome (h : (walk fst).isSome = true) : ∃ n, walkRounds fst = some n := by
  obtain ⟨hcount, hentries⟩ := walk_isSome.mp h
  rw [walkRounds, walkWith_eq _ _ hcount]
  split
  · exact ⟨0, rfl⟩
  · rename_i hin
    obtain ⟨found, hfound⟩ := Option.isSome_iff_exists.mp (entriesInside_iff.mp (hentries.resolve_left hin))
    exact ⟨_, by rw [hfound, Option.map_some]⟩

/-- What a walk that stays in the table answers. -/
theorem walk_exact (hshort : fst.length ≤ 0x100000) (h : (walk fst).isSome = true) :
    walk fst = some (firstBanner fst) ↔
      0x100000 < namesBegin fst ∨
        ∀ i, 1 ≤ i → i < entryCount fst → NoneBefore fst (namesBegin fst) i → Taken fst (namesBegin fst) i →
          (12 * entryCount fst < 2 ^ 32 ∧ IsFile fst i) ∨ AsFirst fst i := by
  obtain ⟨hcount, hentries⟩ := walk_isSome.mp h
  have hle : namesBegin fst ≤ 12 * entryCount fst := Nat.mod_le _ _
  rw [walk, walkWith_eq _ _ hcount]
  by_cases hrefused : 0x100000 < namesBegin fst
  · -- refused, and the names begin behind the table
    rw [if_pos hrefused, firstBanner_of_none fun k hk => not_isBanner_of_names (by omega) hk.banner]
    exact iff_of_true rfl (.inl hrefused)
  · rw [if_neg hrefused]
    have hinside := entriesInside_iff.mp (hentries.resolve_left hrefused)
    obtain ⟨hfound, hnone⟩ | ⟨k, hk, hlt, hnone, htaken, hend, hfound⟩ := search_found hinside <;>
      rw [hfound, Option.map_some]
    · -- none is taken, so there is no banner
      have hno : ∀ k, ¬ FirstBanner fst k := by
        intro k hbanner
        by_cases hwrap : 12 * entryCount fst < 2 ^ 32
        · have hnames : namesBegin fst = 12 * entryCount fst := Nat.mod_eq_of_lt hwrap
          have hrange := hbanner.entry
          exact hnone k hrange.1 (by omega) (hnames ▸ hbanner.banner.taken)
        · exact not_isBanner_of_names (by omega) hbanner.banner
      rw [firstBanner_of_none hno]
      refine iff_of_true rfl (.inr fun i hi hlt _ htaken => ?_)
      exact absurd htaken (hnone i hi (by omega))
    · have hinfo : some (bannerInfo fst k) = some (firstBanner fst) ↔ AsFirst fst k := by
        rw [asFirst_iff, Option.some.injEq]
      refine Iff.trans hinfo ⟨fun hsame => .inr fun i hi hlt' hnone' htaken' => ?_, fun hall => ?_⟩
      · -- entry `k` is the only first one
        obtain hik | rfl | hki := Nat.lt_trichotomy i k
        · exact absurd htaken' (hnone i hi hik)
        · exact .inr hsame
        · exact absurd htaken (hnone' k hk hki)
      · obtain ⟨hwrap, hfile⟩ | hsame := hall.resolve_left hrefused k hk (by omega) hnone htaken
        · have hnames : namesBegin fst = 12 * entryCount fst := Nat.mod_eq_of_lt hwrap
          exact .inl ⟨k, .of_taken hnames hk (by omega) hnone htaken hend hfile, rfl⟩
        · exact hsame

end

/-! ## Every run of the walk -/

/-- Where the routine stays in the table its answer is what `walk` says, in any memory. -/
theorem FstRead.run_eq (w : FstRead) {info : BnrInfo} (h : walk w.fst = some info) (m : UInt32 → UInt8) :
    (getBannerOffsetSlow.run w.answer m).1 = info := by
  have htry := w.getBannerOffsetSlow_tryRun
  rw [h] at htry
  exact (Dialogue.run_eq_of_tryRun w.simulates (s := m) (fun i b hb => by cases hb) htry).1

theorem FstRead.run_rounds (w : FstRead) {n : Nat} (h : walkRounds w.fst = some n) (m : UInt32 → UInt8) :
    ((slowWith 0 fstRounds).run w.answer m).1 = n := by
  have htry := w.rounds_tryRun
  rw [h] at htry
  exact (Dialogue.run_eq_of_tryRun w.simulates (s := m) (fun i b hb => by cases hb) htry).1

/-- For every header with a table of at most 1 MiB and everything its read can bring. -/
theorem fst_walk_iff (w : FstRead) : w.WalkOk ↔ w.InTable := by
  have hinside : (getBannerOffsetSlow.tryRun w.ownAnswer unread).isSome = (walk w.fst).isSome := by
    rw [w.getBannerOffsetSlow_tryRun, Option.isSome_map]
  constructor
  · intro h
    have hsome : (walk w.fst).isSome = true := hinside ▸ h.inside
    obtain ⟨hcount, hentries⟩ := walk_isSome.mp hsome
    obtain ⟨info, hinfo⟩ := Option.isSome_iff_exists.mp hsome
    have hfirst : info = firstBanner w.fst := (w.run_eq hinfo fun _ => 0).symm.trans (h.exact fun _ => 0)
    exact ⟨hcount, hentries, (walk_exact w.short hsome).mp (hfirst ▸ hinfo)⟩
  · intro h
    have hsome : (walk w.fst).isSome = true := walk_isSome.mpr ⟨h.count, h.entries⟩
    have hfirst := (walk_exact w.short hsome).mpr h.file
    obtain ⟨n, hn⟩ := walkRounds_isSome hsome
    refine ⟨hinside ▸ hsome, fun m => ?_, fun m => w.run_eq hfirst m⟩
    rw [w.run_rounds hn m]
    exact walkRounds_le hn

/-- A directory called `opening.bnr` in front of the file of that name. -/
def dirFirst : List UInt8 :=
  [1, 0, 0, 0, 0, 0, 0, 0, 0, 0, 0, 3] ++ [1, 0, 0, 0, 0, 0, 0, 0, 0, 0, 0, 2] ++
    [0, 0, 0, 0, 0, 0, 0x10, 0, 0, 0, 0x20, 0] ++ openingBnr ++ [0]

/-- The directory's parent and end are taken for a position and a length. -/
example : walk dirFirst = some ⟨0, 2⟩ ∧ firstBanner dirFirst = ⟨0x1000, 0x2000⟩ := by decide +kernel

/-! ## A name behind the table -/

/-- A table of 32 bytes with two entries, the name of the second 8 bytes behind them. -/
def nameBehind : FstRead where
  header p := if p = fstSizeAt + 3 then 32 else 0
  fst := [1, 0, 0, 0, 0, 0, 0, 0, 0, 0, 0, 2] ++ [0, 0, 0, 8, 0, 0, 0x10, 0, 0, 0, 0x20, 0] ++ List.replicate 8 0
  small := by decide
  brought := by decide

/-- What a larger table read before has left behind this one. -/
def leftBehind (p : UInt32) : UInt8 := (openingBnr ++ [0]).getD (p - (fstBase + 32)).toNat 0

/-- The name is taken from there. -/
theorem name_past_the_table : ¬ ∀ w : FstRead, w.WalkOk := by
  intro hall
  have hexact := (hall nameBehind).exact leftBehind
  have hfound : (getBannerOffsetSlow.run nameBehind.answer leftBehind).1 = ⟨0x1000, 0x2000⟩ := by decide +kernel
  have hnone : firstBanner nameBehind.fst = ⟨0, 0⟩ := by decide +kernel
  rw [hfound, hnone] at hexact
  exact absurd hexact (by decide)

end Cubiboot
