import Mathlib.Algebra.Ring.Nat
import Mathlib.Tactic.Common
import Cubiboot.Classification
import Cubiboot.FstWalk

/-
  Which files `get_game_info` classifies from their own bytes.

  A call reads the header, at most two probes of 32 bytes, and at most one file system
  table. Each goes to a buffer that keeps what the read does not bring. What has to be
  brought is said here of the file, that is of its bytes and of how its reads end, without
  a run of the routine.

  What is proved:
    1. `probeBanner_tryRun`, `getBannerOffsetSlow_tryRun`, `getBannerOffsetFast_yields` — the
       parts of the routine on what the call's own reads bring.
    2. `ownBytesOnly_iff` — the routine looks at no other byte exactly if the header is
       brought as far as it is looked at, and so are the magic at each position probed and
       the file system table up to the entry taken (`Image.Delivered`).
    3. `classification_own_bytes` — such a file is classified the same after any files; a
       header that stops short of `DOLOffset` is not.
    4. `empty_file_valid_after` — an empty file is a game after one.
-/

set_option autoImplicit false

namespace Cubiboot

/-! ## What the reads of a call bring -/

/-- The bytes the `n`th read brings. -/
def Image.brings (f : Image) (n : Nat) (len offset : UInt32) : List UInt8 := (f.serve n len offset).2

def Image.header (f : Image) : List UInt8 := f.brings 0 sizeofDiskHeader 0

/-- What the file system table's read brings, if it is the `n`th. -/
def Image.table (f : Image) (n : Nat) : List UInt8 :=
  f.brings n (osRoundUp32B (wordIn f.header 0x428)) (wordIn f.header 0x424)

/-- The front of the probe buffer after a probe at `offset`, the `n`th read, `before` being
what the call has put there already. -/
def Image.probed (f : Image) (n : Nat) (offset : UInt32) (before : List UInt8) : List UInt8 :=
  f.brings n 32 offset ++ before.drop (f.brings n 32 offset).length

theorem Image.brings_length (f : Image) (n : Nat) (len offset : UInt32) :
    (f.brings n len offset).length ≤ len.toNat := by
  have hasked : ((f.bytes.drop offset.toNat).take len.toNat).length ≤ len.toNat := List.length_take_le ..
  rw [Image.brings, Image.serve]
  cases f.outcome n with
  | none => exact hasked
  | some k => exact Nat.le_trans (List.length_take_le' ..) hasked

theorem Image.header_length (f : Image) : f.header.length ≤ 0x440 := f.brings_length 0 sizeofDiskHeader 0

/-! ## When they bring enough -/

def IsMagic (magic : UInt32) : Prop := magic = bannerMagic1 ∨ magic = bannerMagic2

instance (magic : UInt32) : Decidable (IsMagic magic) := inferInstanceAs (Decidable (_ ∨ _))

/-- The magic is there; and if it is a banner's, so are the fields of the header up to
`MaxFSTSize`. -/
def MagicDelivered (header probe : List UInt8) : Prop :=
  4 ≤ probe.length ∧ (IsMagic (wordIn probe 0) → 0x430 ≤ header.length)

/-- Entry `i` is the one the walk over the table stops at. -/
structure StopsAt (fst : List UInt8) (i : Nat) : Prop where
  inRange : namesBegin fst ≤ 0x100000
  entry : 1 ≤ i ∧ i < entryCount fst
  first : NoneBefore fst (namesBegin fst) i
  taken : Taken fst (namesBegin fst) i

/-- The table has its count; that is refused by the range check, or every entry up to the one
taken is in the table; and where that one says the banner is, its magic is. -/
structure Image.TableDelivered (f : Image) (n : Nat) (probe : List UInt8) : Prop where
  count : 12 ≤ (f.table n).length
  entries : 0x100000 < namesBegin (f.table n) ∨ EntriesInside (f.table n)
  magic : ∀ i, StopsAt (f.table n) i → (bannerInfo (f.table n) i).offset ≠ 0 →
    MagicDelivered f.header (f.probed (n + 1) (bannerInfo (f.table n) i).offset probe)

section
variable (bnrOffsets : List BnrOffset)

/-- The position the table of known discs has for a header, or 0. -/
def knownOffset (header : List UInt8) : UInt32 :=
  if wordIn header 0x420 = 0 then 0
  else ((bnrOffsets.find? (·.hash == tinfCrc32 header)).map BnrOffset.offset).getD 0

/-- The front of the probe buffer once that position is probed. -/
def Image.knownProbe (f : Image) : List UInt8 :=
  if knownOffset bnrOffsets f.header = 0 then [] else f.probed 1 (knownOffset bnrOffsets f.header) []

/-- The reads made until then. -/
def Image.knownReads (f : Image) : Nat := if knownOffset bnrOffsets f.header = 0 then 1 else 2

/-- There is a banner at the known position. -/
def Image.KnownBanner (f : Image) : Prop :=
  knownOffset bnrOffsets f.header ≠ 0 ∧ IsMagic (wordIn (f.knownProbe bnrOffsets) 0)

/-- The reads bring the header as far as it is looked at, the magic at the known position,
and what is looked at where there is no banner: the header's size of the table, and if it is
at most 1 MiB the table. -/
structure Image.Delivered (f : Image) : Prop where
  dol : 0x424 ≤ f.header.length
  hash : wordIn f.header 0x420 ≠ 0 → 0x440 ≤ f.header.length
  magic : knownOffset bnrOffsets f.header ≠ 0 → MagicDelivered f.header (f.knownProbe bnrOffsets)
  size : ¬ f.KnownBanner bnrOffsets → 0x42C ≤ f.header.length
  table : ¬ f.KnownBanner bnrOffsets → wordIn f.header 0x428 ≤ 0x100000 →
    f.TableDelivered (f.knownReads bnrOffsets) (f.knownProbe bnrOffsets)

end

/-! ## The parts of the routine, on what the call has read -/

/-- `n` bytes from place `k` on. -/
def bytesAt? (xs : List UInt8) (k n : Nat) : Option (List UInt8) :=
  if k + n ≤ xs.length then some ((xs.drop k).take n) else none

section
variable {σ : Type} {g : (q : FileReq) → σ → Option (FileAns q × σ)} {t : σ} {a : Area} {base : UInt32}
  {xs : List UInt8}

theorem loadBytes_yields (hcell : ∀ p, g (.load a p) t = (xs[(p - base).toNat]?).map fun b => (b, t)) (n : Nat)
    {k : Nat} (hk : k ≤ xs.length) (hsize : k + n < UInt32.size) :
    Dialogue.Yields g t (loadBytes a (base + .ofNat k) n) (bytesAt? xs k n) := by
  induction n generalizing k with
  | zero =>
    rw [loadBytes, bytesAt?, Nat.add_zero, if_pos hk, List.take_zero]
    exact Dialogue.yields_pure [] t
  | succ n ih =>
    have hnext : base + UInt32.ofNat k + 1 = base + UInt32.ofNat (k + 1) := base_add base k 1
    rw [loadBytes, hnext, Dialogue.Yields, Dialogue.tryRun_bind, load_yields hcell (by omega)]
    by_cases hlt : k < xs.length
    · have hrest := ih (k := k + 1) hlt (by omega)
      rw [List.getElem?_eq_getElem hlt, Option.map_some, Option.bind_some, Dialogue.tryRun_bind, hrest, bytesAt?,
        bytesAt?]
      by_cases hlen : k + 1 + n ≤ xs.length
      · have hlen' : k + (n + 1) ≤ xs.length := by omega
        rw [if_pos hlen, if_pos hlen', List.drop_eq_getElem_cons hlt, List.take_succ_cons]
        rfl
      · have hlen' : ¬ k + (n + 1) ≤ xs.length := by omega
        rw [if_neg hlen, if_neg hlen']
        rfl
    · have hnone : xs[k]? = none := List.getElem?_eq_none (Nat.le_of_not_lt hlt)
      have hlen : ¬ k + (n + 1) ≤ xs.length := by omega
      rw [hnone, bytesAt?, if_neg hlen]
      rfl

end

/-- What the call holds: the header, the front of the probe buffer, and the number of reads
made. -/
structure HasRead (t : CallState (Option UInt8)) (header probe : List UInt8) (n : Nat) : Prop where
  header : ∀ p, t.mem .header p = header[(p - 0).toNat]?
  probe : ∀ p, t.mem .smallBuf p = probe[(p - 0).toNat]?
  reads : t.reads = n

section
variable {t : CallState (Option UInt8)} {a : Area} {base : UInt32} {ys : List UInt8}

/-- A read over what an area holds. -/
theorem landed_cell (h : ∀ p, t.mem a p = ys[(p - base).toNat]?) (xs : List UInt8) (p : UInt32) :
    (t.landed a base (xs.map some)).mem a p = (xs ++ ys.drop xs.length)[(p - base).toNat]? := by
  have hput : (t.landed a base (xs.map some)).mem a p = (xs.map some).getD (p - base).toNat (t.mem a p) := by
    simp only [CallState.landed, Cells.put, Function.update_self]
  rw [hput, h p, List.getD_eq_getElem?_getD, List.getElem?_map]
  by_cases hlt : (p - base).toNat < xs.length
  · rw [List.getElem?_append_left hlt, List.getElem?_eq_getElem hlt]
    rfl
  · have hle : xs.length ≤ (p - base).toNat := Nat.le_of_not_lt hlt
    rw [List.getElem?_append_right hle, List.getElem?_drop, Nat.add_sub_cancel' hle, List.getElem?_eq_none hle]
    rfl

theorem landed_other {a' : Area} (ha : a' ≠ a) (xs : List (Option UInt8)) :
    (t.landed a base xs).mem a' = t.mem a' := put_other t.mem ha base xs

end

/-- The handler's answer to a load, cell by cell. -/
theorem own_cell (f : Image) {t : CallState (Option UInt8)} {a : Area} {base : UInt32} {xs : List UInt8}
    (h : ∀ p, t.mem a p = xs[(p - base).toNat]?) (p : UInt32) :
    ownAnswer f (.load a p) t = (xs[(p - base).toNat]?).map fun b => (b, t) := by
  rw [ownAnswer, h p]

/-- The fields `gameInfoAt` takes from a header. -/
def infoIn? (header : List UInt8) (magic bnrOffset : UInt32) : Option GameInfo := do
  let gameId ← bytesAt? header 0 6
  let discNum ← header[0x6]?
  let discVer ← header[0x7]?
  let dolOffset ← wordAt? header 0x420
  let fstOffset ← wordAt? header 0x424
  let fstSize ← wordAt? header 0x428
  let maxFstSize ← wordAt? header 0x42C
  let bnrType := if magic = bannerMagic2 then 1 else 0
  some ⟨true, gameId, discNum, discVer, bnrType, bnrOffset, dolOffset, fstOffset, fstSize, maxFstSize⟩

/-- What a probe comes to, by the header and the front of the probe buffer. -/
def probeIn? (header probe : List UInt8) (bnrOffset : UInt32) : Option (Option GameInfo) := do
  let magic ← wordAt? probe 0
  if IsMagic magic then do
    let info ← infoIn? header magic bnrOffset
    some (some info)
  else some none

theorem infoIn?_isSome (header : List UInt8) (magic bnrOffset : UInt32) :
    (infoIn? header magic bnrOffset).isSome = true ↔ 0x430 ≤ header.length := by
  by_cases h : 0x430 ≤ header.length
  · refine iff_of_true ?_ h
    have hid : bytesAt? header 0 6 = some ((header.drop 0).take 6) := if_pos (by omega)
    have hnum : 6 < header.length := by omega
    have hver : 7 < header.length := by omega
    have hdol : 0x420 + 3 < header.length := by omega
    have hfst : 0x424 + 3 < header.length := by omega
    have hsize : 0x428 + 3 < header.length := by omega
    have hmax : 0x42C + 3 < header.length := by omega
    simp only [infoIn?, hid, List.getElem?_eq_getElem hnum, List.getElem?_eq_getElem hver, wordAt?_eq hdol,
      wordAt?_eq hfst, wordAt?_eq hsize, wordAt?_eq hmax, Option.bind_eq_bind, Option.bind_some, Option.isSome_some]
  · refine iff_of_false ?_ h
    have hmax : header.length ≤ 0x42C + 3 := by omega
    simp only [infoIn?, wordAt?_none hmax, Option.bind_eq_bind, Option.bind_none, Option.bind_fun_none,
      Option.isSome_none, Bool.false_eq_true, not_false_eq_true]

theorem probeIn?_cases (header probe : List UInt8) (bnrOffset : UInt32) :
    (probeIn? header probe bnrOffset = none ∧ ¬ MagicDelivered header probe) ∨
    (probeIn? header probe bnrOffset = some none ∧ MagicDelivered header probe ∧ ¬ IsMagic (wordIn probe 0)) ∨
    ∃ info, probeIn? header probe bnrOffset = some (some info) ∧ MagicDelivered header probe ∧
      IsMagic (wordIn probe 0) := by
  by_cases hlen : 4 ≤ probe.length
  · have hword : wordAt? probe 0 = some (wordIn probe 0) := wordAt?_eq (by omega)
    simp only [probeIn?, hword, Option.bind_eq_bind, Option.bind_some]
    by_cases hmagic : IsMagic (wordIn probe 0)
    · rw [if_pos hmagic]
      have hfields := infoIn?_isSome header (wordIn probe 0) bnrOffset
      cases hinfo : infoIn? header (wordIn probe 0) bnrOffset with
      | none =>
        rw [hinfo] at hfields
        exact .inl ⟨rfl, fun h => Bool.false_ne_true (hfields.mpr (h.2 hmagic))⟩
      | some info =>
        rw [hinfo] at hfields
        exact .inr (.inr ⟨info, rfl, ⟨hlen, fun _ => hfields.mp rfl⟩, hmagic⟩)
    · rw [if_neg hmagic]
      exact .inr (.inl ⟨rfl, ⟨hlen, fun h => absurd h hmagic⟩, hmagic⟩)
  · have hword : wordAt? probe 0 = none := wordAt?_none (by omega)
    refine .inl ⟨?_, fun h => hlen h.1⟩
    rw [probeIn?, hword]
    rfl

section
variable {f : Image} {t : CallState (Option UInt8)} {header probe : List UInt8} {n : Nat}

theorem HasRead.gameInfoAt_yields (h : HasRead t header probe n) (magic bnrOffset : UInt32) :
    Dialogue.Yields (ownAnswer f) t (gameInfoAt magic bnrOffset) (infoIn? header magic bnrOffset) := by
  have hcell := own_cell f h.header
  refine (loadBytes_yields (k := 0) hcell 6 (Nat.zero_le _) (by decide)).bind fun gameId => ?_
  refine (load_yields (k := 6) hcell (by decide)).bind fun discNum => ?_
  refine (load_yields (k := 7) hcell (by decide)).bind fun discVer => ?_
  refine (loadU32_yields (k := 0x420) hcell (by decide)).bind fun dolOffset => ?_
  refine (loadU32_yields (k := 0x424) hcell (by decide)).bind fun fstOffset => ?_
  refine (loadU32_yields (k := 0x428) hcell (by decide)).bind fun fstSize => ?_
  refine (loadU32_yields (k := 0x42C) hcell (by decide)).bind fun maxFstSize => ?_
  exact Dialogue.yields_pure _ t

/-- After a probe the call holds what it brought. -/
theorem HasRead.afterProbe (h : HasRead t header probe n) (f : Image) (offset : UInt32) :
    HasRead (t.landed .smallBuf 0 ((f.brings n 32 offset).map some)) header (f.probed n offset probe) (n + 1) where
  header p := by rw [landed_other (by decide), h.header p]
  probe p := by rw [landed_cell h.probe, Image.probed]
  reads := congrArg (· + 1) h.reads

theorem HasRead.probeBanner_tryRun (h : HasRead t header probe n) (f : Image) (offset : UInt32) :
    (probeBanner offset).tryRun (ownAnswer f) t = (probeIn? header (f.probed n offset probe) offset).map fun hit =>
      (hit, t.landed .smallBuf 0 ((f.brings n 32 offset).map some)) := by
  have hafter := h.afterProbe f offset
  have hread : ownAnswer f (.read .smallBuf 0 32 offset) t =
      some ((f.serve n 32 offset).1, t.landed .smallBuf 0 ((f.brings n 32 offset).map some)) := by
    rw [ownAnswer, h.reads]
    rfl
  rw [probeBanner, Dialogue.tryRun_bind, dvdThreadedRead, Dialogue.tryRun_query, hread, Option.bind_some]
  refine (loadU32_yields (k := 0) (own_cell f hafter.probe) (by decide)).bind fun magic => .ite ?_ ?_
  · refine (hafter.gameInfoAt_yields magic offset).bind fun info => ?_
    exact rfl
  · exact Dialogue.yields_pure none _

end

/-! ### The position by the table of known discs -/

/-- What `getBannerOffsetFast` makes of a header. -/
def knownIn? (bnrOffsets : List BnrOffset) (header : List UInt8) : Option UInt32 := do
  let dolOffset ← wordAt? header 0x420
  if dolOffset = 0 then some 0
  else do
    let bytes ← bytesAt? header 0 sizeofDiskHeader.toNat
    some (((bnrOffsets.find? (·.hash == tinfCrc32 bytes)).map BnrOffset.offset).getD 0)

theorem knownIn?_eq_some (bnrOffsets : List BnrOffset) {header : List UInt8} (hlen : header.length ≤ 0x440)
    {offset : UInt32} : knownIn? bnrOffsets header = some offset ↔
      (0x424 ≤ header.length ∧ (wordIn header 0x420 ≠ 0 → 0x440 ≤ header.length)) ∧
        knownOffset bnrOffsets header = offset := by
  by_cases hdol : 0x424 ≤ header.length
  · have hword : wordAt? header 0x420 = some (wordIn header 0x420) := wordAt?_eq (by omega)
    simp only [knownIn?, hword, Option.bind_eq_bind, Option.bind_some, knownOffset]
    by_cases hzero : wordIn header 0x420 = 0
    · rw [if_pos hzero, if_pos hzero, Option.some.injEq]
      exact ⟨fun h => ⟨⟨hdol, fun hne => absurd hzero hne⟩, h⟩, fun h => h.2⟩
    · rw [if_neg hzero, if_neg hzero]
      by_cases hall : 0x440 ≤ header.length
      · have hbytes : bytesAt? header 0 sizeofDiskHeader.toNat = some header := by
          have hsize : sizeofDiskHeader.toNat = 0x440 := rfl
          rw [bytesAt?, hsize, if_pos (by omega), List.drop_zero, List.take_of_length_le hlen]
        rw [hbytes, Option.bind_some, Option.some.injEq]
        exact ⟨fun h => ⟨⟨hdol, fun _ => hall⟩, h⟩, fun h => h.2⟩
      · have hbytes : bytesAt? header 0 sizeofDiskHeader.toNat = none := by
          have hsize : sizeofDiskHeader.toNat = 0x440 := rfl
          rw [bytesAt?, hsize, if_neg (by omega)]
        rw [hbytes, Option.bind_none]
        exact iff_of_false (fun h => by cases h) fun h => hall (h.1.2 hzero)
  · have hword : wordAt? header 0x420 = none := wordAt?_none (by omega)
    rw [knownIn?, hword]
    exact iff_of_false (fun h => by cases h) fun h => hdol h.1.1

theorem HasRead.getBannerOffsetFast_yields {t : CallState (Option UInt8)} {header probe : List UInt8} {n : Nat}
    (h : HasRead t header probe n) (f : Image) (bnrOffsets : List BnrOffset) :
    Dialogue.Yields (ownAnswer f) t (getBannerOffsetFast bnrOffsets) (knownIn? bnrOffsets header) := by
  have hcell := own_cell f h.header
  refine (loadU32_yields (k := 0x420) hcell (by decide)).bind fun dolOffset => .ite (Dialogue.yields_pure 0 t) ?_
  refine (loadBytes_yields (k := 0) hcell _ (Nat.zero_le _) (by decide)).bind fun bytes => ?_
  dsimp only
  cases bnrOffsets.find? (·.hash == tinfCrc32 bytes) <;> exact Dialogue.yields_pure _ t

/-! ### The position by the file system table -/

/-- What the walk finds is what the entry it stops at says, or nothing. -/
theorem walk_stops {fst : List UInt8} {info : BnrInfo} (h : walk fst = some info) :
    (∃ i, StopsAt fst i ∧ info = bannerInfo fst i) ∨ ((∀ i, ¬ StopsAt fst i) ∧ info = ⟨0, 0⟩) := by
  obtain ⟨hcount, hentries⟩ := walk_isSome.mp (Option.isSome_iff_exists.mpr ⟨info, h⟩)
  rw [walk, walkWith_eq _ _ hcount] at h
  by_cases hrefused : 0x100000 < namesBegin fst
  · rw [if_pos hrefused] at h
    exact .inr ⟨fun i hi => absurd hi.inRange (Nat.not_le_of_lt hrefused), (Option.some.inj h).symm⟩
  · rw [if_neg hrefused] at h
    have hinside := entriesInside_iff.mp (hentries.resolve_left hrefused)
    obtain ⟨hfound, hnone⟩ | ⟨k, hk, hlt, hnone, htaken, -, hfound⟩ := search_found hinside <;>
      rw [hfound, Option.map_some] at h
    · refine .inr ⟨fun i hi => ?_, (Option.some.inj h).symm⟩
      have hentry := hi.entry
      exact hnone i hentry.1 (by omega) hi.taken
    · exact .inl ⟨k, ⟨Nat.le_of_not_lt hrefused, ⟨hk, by omega⟩, hnone, htaken⟩, (Option.some.inj h).symm⟩

/-- The walk stops at one entry. -/
theorem StopsAt.unique {fst : List UInt8} {i j : Nat} (hi : StopsAt fst i) (hj : StopsAt fst j) : i = j := by
  obtain hlt | heq | hgt := Nat.lt_trichotomy i j
  · exact absurd hi.taken (hj.first i hi.entry.1 hlt)
  · exact heq
  · exact absurd hj.taken (hi.first j hj.entry.1 hgt)

section
variable {f : Image} {t : CallState (Option UInt8)} {probe : List UInt8} {n : Nat}

/-- The state after the file system table's read. -/
def tableRead (f : Image) (n : Nat) (t : CallState (Option UInt8)) : CallState (Option UInt8) :=
  t.landed .ram fstBase ((f.table n).map some)

theorem HasRead.getBannerOffsetSlow_tryRun (h : HasRead t f.header probe n) (hram : ∀ p, t.mem .ram p = none)
    (hlen : 0x42C ≤ f.header.length) (hsize : wordIn f.header 0x428 ≤ 0x100000) :
    getBannerOffsetSlow.tryRun (ownAnswer f) t = (walk (f.table n)).map fun info => (info, tableRead f n t) := by
  have hcell := own_cell f h.header
  have hword : wordAt? f.header 0x428 = some (wordIn f.header 0x428) := wordAt?_eq (by omega)
  have hword' : wordAt? f.header 0x424 = some (wordIn f.header 0x424) := wordAt?_eq (by omega)
  have hsizes : Dialogue.Yields (ownAnswer f) t (loadU32 .header fstSizeAt) (some (wordIn f.header 0x428)) :=
    hword ▸ loadU32_yields (k := 0x428) hcell (by decide)
  have hoffset : Dialogue.Yields (ownAnswer f) t (loadU32 .header fstOffsetAt) (some (wordIn f.header 0x424)) :=
    hword' ▸ loadU32_yields (k := 0x424) hcell (by decide)
  have hread : ownAnswer f (.read .ram fstBase (osRoundUp32B (wordIn f.header 0x428)) (wordIn f.header 0x424)) t =
      some ((f.serve n (osRoundUp32B (wordIn f.header 0x428)) (wordIn f.header 0x424)).1, tableRead f n t) := by
    rw [ownAnswer, h.reads]
    rfl
  -- nothing of the table's area was known before
  have hnone : ∀ p, t.mem .ram p = ([] : List UInt8)[(p - fstBase).toNat]? := hram
  have hcells : ∀ p, ownAnswer f (.load .ram p) (tableRead f n t) =
      (fstCell (f.table n) p).map fun b => (b, tableRead f n t) := by
    intro p
    have hlanded := landed_cell hnone (f.table n) p
    rw [List.drop_nil, List.append_nil] at hlanded
    rw [ownAnswer, tableRead, hlanded, fstCell]
  have hshort : (f.table n).length ≤ 0x100000 := Nat.le_trans (f.brings_length ..) (osRoundUp32B_le hsize)
  rw [getBannerOffsetSlow_eq, walk]
  exact slowWith_tryRun hsizes hoffset hread hcells fun names left hnames =>
    fstSearch_yields (i := 1) hcells hshort hnames left (by omega)

theorem HasRead.afterTable (h : HasRead t f.header probe n) : HasRead (tableRead f n t) f.header probe (n + 1) where
  header p := by rw [tableRead, landed_other (by decide), h.header p]
  probe p := by rw [tableRead, landed_other (by decide), h.probe p]
  reads := congrArg (· + 1) h.reads

end

/-! ## The routine -/

section
variable {f : Image} {t : CallState (Option UInt8)} {header probe : List UInt8} {n : Nat}

/-- A probe of a position that is not 0, and what follows when it finds no banner. -/
theorem HasRead.probe_completes {α : Type} (h : HasRead t header probe n) {offset : UInt32}
    {rest : Option GameInfo → FileProg α}
    (hsome : ∀ t' info, Dialogue.Completes (ownAnswer f) t' (rest (some info))) :
    Dialogue.Completes (ownAnswer f) t (probeBanner offset >>= rest) ↔
      MagicDelivered header (f.probed n offset probe) ∧
        (¬ IsMagic (wordIn (f.probed n offset probe) 0) → Dialogue.Completes (ownAnswer f)
          (t.landed .smallBuf 0 ((f.brings n 32 offset).map some)) (rest none)) := by
  rw [Dialogue.completes_bind (h.probeBanner_tryRun f offset)]
  obtain ⟨hval, hout⟩ | ⟨hval, hin, hmagic⟩ | ⟨info, hval, hin, hmagic⟩ :=
    probeIn?_cases header (f.probed n offset probe) offset <;> rw [hval]
  · exact iff_of_false (fun ⟨_, hsome', _⟩ => by cases hsome') fun hall => hout hall.1
  · constructor
    · rintro ⟨_, ⟨⟩, hrest⟩
      exact ⟨hin, fun _ => hrest⟩
    · exact fun hall => ⟨none, rfl, hall.2 hmagic⟩
  · exact iff_of_true ⟨some info, rfl, hsome _ info⟩ ⟨hin, fun hne => absurd hmagic hne⟩

/-- The routine from the walk's answer on. -/
def afterWalk (info : BnrInfo) : FileProg GameInfo := do
  let hit ← if info.offset ≠ 0 then probeBanner info.offset else pure none
  match hit with
  | some info => pure info
  | none => do
    dvdCustomClose
    pure .invalid

theorem getGameInfoSlow_eq : getGameInfoSlow = (do
    let fstSize ← loadU32 .header fstSizeAt
    if 0x100000 < fstSize then do
      dvdCustomClose
      pure .invalid
    else getBannerOffsetSlow >>= afterWalk) := rfl

theorem HasRead.afterWalk_completes (h : HasRead t header probe n) (f : Image) (info : BnrInfo) :
    Dialogue.Completes (ownAnswer f) t (afterWalk info) ↔
      (info.offset ≠ 0 → MagicDelivered header (f.probed n info.offset probe)) := by
  by_cases hzero : info.offset = 0
  · rw [afterWalk, if_neg (not_not_intro hzero)]
    exact iff_of_true rfl fun hne => absurd hzero hne
  · rw [afterWalk, if_pos hzero]
    refine Iff.trans (h.probe_completes fun t' info => rfl) ?_
    exact ⟨fun hall _ => hall.1, fun hall => ⟨hall hzero, fun _ => rfl⟩⟩

/-- The walk and what follows it. -/
theorem HasRead.walk_completes (h : HasRead t f.header probe n) (hram : ∀ p, t.mem .ram p = none)
    (hlen : 0x42C ≤ f.header.length) (hsize : wordIn f.header 0x428 ≤ 0x100000) :
    Dialogue.Completes (ownAnswer f) t (getBannerOffsetSlow >>= afterWalk) ↔ f.TableDelivered n probe := by
  rw [Dialogue.completes_bind (h.getBannerOffsetSlow_tryRun hram hlen hsize)]
  constructor
  · rintro ⟨info, hinfo, hall⟩
    obtain ⟨hcount, hentries⟩ := walk_isSome.mp (Option.isSome_iff_exists.mpr ⟨info, hinfo⟩)
    refine ⟨hcount, hentries, fun i hi hne => ?_⟩
    obtain ⟨j, hj, rfl⟩ | ⟨hnone, -⟩ := walk_stops hinfo
    · obtain rfl := hi.unique hj
      exact (h.afterTable.afterWalk_completes f _).mp hall hne
    · exact absurd hi (hnone i)
  · intro hdelivered
    obtain ⟨info, hinfo⟩ := Option.isSome_iff_exists.mp (walk_isSome.mpr ⟨hdelivered.count, hdelivered.entries⟩)
    refine ⟨info, hinfo, (h.afterTable.afterWalk_completes f info).mpr fun hne => ?_⟩
    obtain ⟨i, hi, rfl⟩ | ⟨-, rfl⟩ := walk_stops hinfo
    · exact hdelivered.magic i hi hne
    · exact absurd rfl hne

/-- The rest of the routine where there is no banner at the known position. -/
theorem HasRead.slow_completes (h : HasRead t f.header probe n) (hram : ∀ p, t.mem .ram p = none) :
    Dialogue.Completes (ownAnswer f) t getGameInfoSlow ↔
      0x42C ≤ f.header.length ∧ (wordIn f.header 0x428 ≤ 0x100000 → f.TableDelivered n probe) := by
  have hword : Dialogue.Yields (ownAnswer f) t (loadU32 .header fstSizeAt) (wordAt? f.header 0x428) :=
    loadU32_yields (k := 0x428) (own_cell f h.header) (by decide)
  rw [getGameInfoSlow_eq, Dialogue.completes_bind hword]
  by_cases hlen : 0x42C ≤ f.header.length
  · have hsome : wordAt? f.header 0x428 = some (wordIn f.header 0x428) := wordAt?_eq (by omega)
    simp only [hsome, Option.some.injEq, exists_eq_left', hlen, true_and]
    by_cases hlarge : 0x100000 < wordIn f.header 0x428
    · rw [if_pos hlarge]
      exact iff_of_true rfl fun hsmall => absurd hsmall (UInt32.not_le.mpr hlarge)
    · have hsmall : wordIn f.header 0x428 ≤ 0x100000 := UInt32.not_lt.mp hlarge
      rw [if_neg hlarge, h.walk_completes hram hlen hsmall]
      exact ⟨fun hall _ => hall, fun hall => hall hsmall⟩
  · have hnone : wordAt? f.header 0x428 = none := wordAt?_none (by omega)
    rw [hnone]
    exact iff_of_false (fun ⟨_, hsome, _⟩ => by cases hsome) fun hall => hlen hall.1

/-- Nothing is known before the call. -/
def nothingRead : CallState (Option UInt8) := ⟨fun _ _ => none, 0⟩

/-- The state after the header's read. -/
def headerRead (f : Image) : CallState (Option UInt8) := nothingRead.landed .header 0 (f.header.map some)

theorem headerRead_hasRead (f : Image) : HasRead (headerRead f) f.header [] 1 where
  header p := by
    have hnone : ∀ q, nothingRead.mem .header q = ([] : List UInt8)[(q - 0).toNat]? := fun q => rfl
    have hlanded := landed_cell hnone f.header p
    rwa [List.drop_nil, List.append_nil] at hlanded
  probe p := by
    rw [headerRead, landed_other (by decide)]
    rfl
  reads := rfl

theorem headerRead_ram (f : Image) (p : UInt32) : (headerRead f).mem .ram p = none := by
  rw [headerRead, landed_other (by decide)]
  rfl

end

/-! ## The call -/

section
variable (bnrOffsets : List BnrOffset) (f : Image)

/-- The routine from the known position on. -/
def afterKnown (fastBnrOffset : UInt32) : FileProg GameInfo := do
  let hit ← if fastBnrOffset ≠ 0 then probeBanner fastBnrOffset else pure none
  match hit with
  | some info => pure info
  | none => getGameInfoSlow

theorem afterKnown_completes : Dialogue.Completes (ownAnswer f) (headerRead f)
      (afterKnown (knownOffset bnrOffsets f.header)) ↔
    (knownOffset bnrOffsets f.header ≠ 0 → MagicDelivered f.header (f.knownProbe bnrOffsets)) ∧
      (¬ f.KnownBanner bnrOffsets → 0x42C ≤ f.header.length ∧ (wordIn f.header 0x428 ≤ 0x100000 →
        f.TableDelivered (f.knownReads bnrOffsets) (f.knownProbe bnrOffsets))) := by
  have hread₀ := headerRead_hasRead f
  by_cases hzero : knownOffset bnrOffsets f.header = 0
  · have hprobe : f.knownProbe bnrOffsets = [] := if_pos hzero
    have hreads : f.knownReads bnrOffsets = 1 := if_pos hzero
    have hno : ¬ f.KnownBanner bnrOffsets := fun h => h.1 hzero
    have hnext : afterKnown (knownOffset bnrOffsets f.header) = getGameInfoSlow := by
      rw [afterKnown, if_neg (not_not_intro hzero)]
      rfl
    rw [hnext, hread₀.slow_completes (headerRead_ram f), hprobe, hreads]
    exact ⟨fun hall => ⟨fun hne => absurd hzero hne, fun _ => hall⟩, fun hall => hall.2 hno⟩
  · have hprobe : f.knownProbe bnrOffsets = f.probed 1 (knownOffset bnrOffsets f.header) [] := if_neg hzero
    have hreads : f.knownReads bnrOffsets = 2 := if_neg hzero
    have hbanner : f.KnownBanner bnrOffsets ↔
        IsMagic (wordIn (f.probed 1 (knownOffset bnrOffsets f.header) []) 0) := by
      rw [Image.KnownBanner, hprobe]
      exact ⟨fun h => h.2, fun h => ⟨hzero, h⟩⟩
    have hram : ∀ p, ((headerRead f).landed .smallBuf 0
        ((f.brings 1 32 (knownOffset bnrOffsets f.header)).map some)).mem .ram p = none := by
      intro p
      rw [landed_other (by decide), headerRead_ram]
    have hslow := (hread₀.afterProbe f (knownOffset bnrOffsets f.header)).slow_completes hram
    rw [afterKnown, if_pos hzero, hprobe, hreads, hbanner]
    refine Iff.trans (hread₀.probe_completes fun t' info => rfl) ?_
    exact ⟨fun hall => ⟨fun _ => hall.1, fun hno => hslow.mp (hall.2 hno)⟩,
      fun hall => ⟨hall.1 hzero, fun hno => hslow.mpr (hall.2 hno)⟩⟩

/-- What of a file has to be delivered for the routine to look at no byte but its own. -/
theorem ownBytesOnly_iff : OwnBytesOnly bnrOffsets f ↔ (f.opens = true → f.Delivered bnrOffsets) := by
  by_cases hopens : f.opens = true
  · have hopened : OwnBytesOnly bnrOffsets f ↔
        Dialogue.Completes (ownAnswer f) (headerRead f) (getBannerOffsetFast bnrOffsets >>= afterKnown) := by
      simp only [OwnBytesOnly, getGameInfo, Dialogue.tryRun_bind, dvdCustomOpen, dvdCustomStatus,
        Dialogue.tryRun_query, ownAnswer, hopens, if_true, Option.bind_some, ne_eq, not_true_eq_false, if_false,
        Image.status, getGameInfoOpened, dvdThreadedRead, Dialogue.Completes]
      exact Iff.rfl
    have hfast := (headerRead_hasRead f).getBannerOffsetFast_yields f bnrOffsets
    rw [hopened, Dialogue.completes_bind hfast]
    constructor
    · rintro ⟨offset, hoffset, hrest⟩ -
      obtain ⟨⟨hdol, hhash⟩, rfl⟩ := (knownIn?_eq_some bnrOffsets f.header_length).mp hoffset
      obtain ⟨hmagic, hslow⟩ := (afterKnown_completes bnrOffsets f).mp hrest
      exact ⟨hdol, hhash, hmagic, fun hno => (hslow hno).1, fun hno => (hslow hno).2⟩
    · intro h
      have hdelivered := h hopens
      refine ⟨knownOffset bnrOffsets f.header, ?_, (afterKnown_completes bnrOffsets f).mpr ⟨hdelivered.magic, ?_⟩⟩
      · exact (knownIn?_eq_some bnrOffsets f.header_length).mpr ⟨⟨hdelivered.dol, hdelivered.hash⟩, rfl⟩
      · exact fun hno => ⟨hdelivered.size hno, hdelivered.table hno⟩
  · refine iff_of_true ?_ fun h => absurd h hopens
    have hclosed : f.opens = false := Bool.not_eq_true _ ▸ hopens
    simp only [OwnBytesOnly, getGameInfo, Dialogue.tryRun_bind, dvdCustomOpen, Dialogue.tryRun_query, ownAnswer,
      hclosed, Bool.false_eq_true, if_false, Option.bind_some]
    rfl

/-! ## The verdict over a sequence of files -/

/-- A file whose reads bring what is looked at is classified the same after any files. A
file that opens, but whose header read stops short of `DOLOffset`, is not: some files before
it make it valid, some invalid. -/
theorem classification_own_bytes (m : Cells UInt8) :
    ((f.opens = true → f.Delivered bnrOffsets) → ∀ before,
      (classify bnrOffsets (afterFiles bnrOffsets m before) f).1 = (classify bnrOffsets m f).1) ∧
    (f.opens = true ∧ f.bytes.length ≤ farOffset.toNat ∧ f.header.length ≤ dolOffsetAt.toNat →
      (∃ before, (classify bnrOffsets (afterFiles bnrOffsets m before) f).1.valid = true) ∧
      ∃ before, (classify bnrOffsets (afterFiles bnrOffsets m before) f).1.valid = false) := by
  constructor
  · intro h before
    have hown : OwnBytesOnly bnrOffsets f := (ownBytesOnly_iff bnrOffsets f).mpr h
    exact classify_of_ownBytesOnly bnrOffsets hown _ _
  · rintro ⟨hopens, hlen, hshort⟩
    exact ⟨⟨[planted], classify_after_planted bnrOffsets hopens hlen hshort m⟩,
      ⟨[oversized], classify_after_oversized bnrOffsets hopens hshort m⟩⟩

end

/-- A disc image with no DOL offset, found through its FST. -/
def datelDisc : Image :=
  ⟨cstr "/datel.iso", List.replicate 0x424 0 ++ [0, 0, 4, 0x40] ++ [0, 0, 0, 64] ++ List.replicate 20 0 ++
    [0, 0, 0, 0, 0, 0, 0, 0, 0, 0, 0, 2] ++ [0, 0, 0, 0, 0, 0, 4, 0x80, 0, 0, 0x1F, 0xA0] ++ openingBnr ++
    List.replicate 29 0 ++ cstr "BNR1", true, fun _ => none⟩

def emptyFile : Image := ⟨cstr "/empty.iso", [], true, fun _ => none⟩

def zeroedBuffers : Cells UInt8 := fun _ _ => 0

/-- The image is the same game after the empty file; the empty file is a game or none. -/
theorem datelDisc_after_empty :
    (classify [] (afterFiles [] zeroedBuffers [emptyFile, oversized]) datelDisc).1 =
        (classify [] zeroedBuffers datelDisc).1 ∧
      (classify [] zeroedBuffers datelDisc).1.valid = true ∧
      (∃ before, (classify [] (afterFiles [] zeroedBuffers before) emptyFile).1.valid = true) ∧
      ∃ before, (classify [] (afterFiles [] zeroedBuffers before) emptyFile).1.valid = false := by
  have hdelivered : datelDisc.opens = true → datelDisc.Delivered [] :=
    (ownBytesOnly_iff [] datelDisc).mp (by decide +kernel)
  have hshort : emptyFile.opens = true ∧ emptyFile.bytes.length ≤ farOffset.toNat ∧
      emptyFile.header.length ≤ dolOffsetAt.toNat := by decide
  refine ⟨(classification_own_bytes [] datelDisc zeroedBuffers).1 hdelivered _, by decide +kernel, ?_⟩
  exact (classification_own_bytes [] emptyFile zeroedBuffers).2 hshort

/-- An empty file on its own is no game, and after the image it is. -/
theorem empty_file_valid_after :
    (classify [] zeroedBuffers emptyFile).1.valid = false ∧
      (classify [] (afterFiles [] zeroedBuffers [datelDisc]) emptyFile).1.valid = true := by
  decide +kernel

end Cubiboot
